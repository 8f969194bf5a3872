import Kitchen.Proofs.Dish.Legible
import Kitchen.Proofs.Dish.Typing

/-!
On its way to a type, a dish may be turned to text or to bytes first: it comes to what it would have come to
at once. Bytes lie between any two types, and text that is read from bytes is all that the other types see
of them.
-/
namespace Kitchen.Dish

variable {d : Dish} {k k' t : Kind} {v w : Value} {bs bs' : List UInt8}

-- The fault is the dish's own: the type is unknown, or the value cannot be represented in it. All other faults
-- are misuses of the value.
def Fault.Refuses : Fault → Prop
  | .unknownType _ | .unconvertible .. => True
  | .misuse _ => False

-- Two answers of dishes agree: both refuse, or both give the same value and leave the same dish.
inductive Agree : Except Fault (Value × Dish) → Except Fault (Value × Dish) → Prop where
  | refused {f f' : Fault} (refuses : f.Refuses) (refuses' : f'.Refuses) : Agree (.error f) (.error f')
  | given (answer : Value × Dish) : Agree (.ok answer) (.ok answer)

/-- Only bytes themselves see more of bytes than the text that they are read as. -/
theorem ofBytes_congr (text : t ≠ .byteArray) (same : Text.Utf8.decode bs' = Text.Utf8.decode bs) :
    ofBytes bs' t = ofBytes bs t := by
  unfold ofBytes
  rw [same]
  cases t with
  | byteArray => exact absurd rfl text
  | _ => rfl

theorem encoded_ok {gs : List Text.Glyph} (bytes : encoded gs = .ok bs) : ∃ cs, bs = Text.Utf8.encode cs := by
  unfold encoded at bytes
  split at bytes
  · cases bytes
  · cases bytes
    exact ⟨_, rfl⟩

/-- All values but bytes are turned into the bytes of a text. -/
theorem toBytes_encoded (text : k ≠ .byteArray) (bytes : toBytes v k = .ok bs) :
    ∃ cs, bs = Text.Utf8.encode cs := by
  cases k with
  | byteArray => exact absurd rfl text
  | string => exact encoded_ok bytes
  | number => exact encoded_ok bytes
  | json =>
    simp only [toBytes] at bytes
    cases written : Json.chars Json.spaced v with
    | error u =>
      rw [written] at bytes
      cases bytes
    | ok cs =>
      rw [written] at bytes
      cases bytes
      exact ⟨cs, rfl⟩

/-- The text that bytes are read as stands for them, unless they came from bytes and are to be bytes again. -/
theorem ofBytes_reencoded (other : t = .byteArray → k ≠ .byteArray) (bytes : toBytes v k = .ok bs) :
    ofBytes (Text.Utf8.encode (Text.Utf8.decode bs)) t = ofBytes bs t := by
  by_cases text : t = .byteArray
  · -- Whatever is not bytes was written as text, and this text is read back.
    obtain ⟨cs, rfl⟩ := toBytes_encoded (other text) bytes
    rw [Text.Utf8.decode_encode]
  · exact ofBytes_congr text (Text.Utf8.decode_encode _)

theorem agree_read (some : v ≠ .null) (some' : w ≠ .null) (other : k.tag ≠ t.tag)
    (other' : k'.tag ≠ t.tag) (bytes : toBytes v k = .ok bs) (bytes' : toBytes w k' = .ok bs')
    (same : ofBytes bs' t = ofBytes bs t) :
    Agree (Dish.get ⟨w, k'.tag⟩ t.tag) (Dish.get ⟨v, k.tag⟩ t.tag) := by
  rw [get_read k t some other bytes, get_read k' t some' other' bytes', same]
  cases ofBytes bs t with
  | error why => exact .refused trivial trivial
  | ok u => exact .given _

/-- A dish without a value takes any type, and stands for what is empty there. -/
theorem get_null (tag : String) (k : Kind) :
    Dish.get ⟨.null, tag⟩ k.tag = .ok (emptyOf k.tag, ⟨.null, k.tag⟩) := by
  have turned : Dish.turn ⟨.null, tag⟩ k.tag = .ok ⟨.null, k.tag⟩ := by
    unfold turn
    rw [kindOf_of_kind (kind_of_tag k)]
    change (if tag = k.tag then _ else _) = _
    split
    · next own =>
      rw [own]
      rfl
    · rfl
  unfold get
  rw [turned]
  rfl

theorem get_unknown (d : Dish) {tag : String} (unknown : Kind.ofTag? tag = none) :
    d.get tag = .error (.unknownType tag) := by
  have kind : kindOf tag = .error (.unknownType tag) := by
    unfold kindOf
    rw [unknown]
  unfold get turn
  rw [kind]
  rfl

/-- A value that has bytes is turned to text or to bytes, and there it has bytes that are read as the same
values, unless it came from bytes and they are read as bytes. -/
theorem get_between (via : k' = .string ∨ k' = .byteArray) (some : v ≠ .null) (other : k.tag ≠ k'.tag)
    (bytes : toBytes v k = .ok bs) :
    ∃ w bs', Dish.get ⟨v, k.tag⟩ k'.tag = .ok (w, ⟨w, k'.tag⟩) ∧ w ≠ .null ∧ toBytes w k' = .ok bs' ∧
      ∀ t, (t = .byteArray → k ≠ .byteArray) → ofBytes bs' t = ofBytes bs t := by
  rcases via with rfl | rfl
  · refine ⟨.text (String.ofList (Text.Utf8.decode bs)), Text.Utf8.encode (Text.Utf8.decode bs), ?_, by simp,
      ?_, fun t apart => ofBytes_reencoded apart bytes⟩
    · exact get_other k .string some other bytes rfl (by simp)
    · rw [toBytes_text, String.toList_ofList]
  · refine ⟨.bytes bs, bs, ?_, by simp, rfl, fun _ _ => rfl⟩
    exact get_other k .byteArray some other bytes rfl (by simp)

/-- A dish of its type that has a value agrees with the same dish turned to text or to bytes, whichever other
type both are asked for. -/
theorem agree_between (via : k' = .string ∨ k' = .byteArray) (some : v ≠ .null) (admits : k.Admits v)
    (other : k.tag ≠ t.tag) :
    ∃ w d', Dish.get ⟨v, k.tag⟩ k'.tag = .ok (w, d') ∧
      Agree (d'.get t.tag) (Dish.get ⟨v, k.tag⟩ t.tag) := by
  obtain ⟨bs, bytes⟩ := toBytes_admits admits
  by_cases own : k.tag = k'.tag
  · -- Nothing is turned on the way.
    have get : Dish.get ⟨v, k.tag⟩ k.tag = .ok (valueOrEmpty ⟨v, k.tag⟩, ⟨v, k.tag⟩) :=
      get_own (kind_of_tag k)
    rw [← own]
    exact ⟨_, _, get, agree_read some some other other bytes bytes rfl⟩
  · obtain ⟨w, bs', get, some', bytes', same⟩ := get_between via some own bytes
    refine ⟨w, _, get, ?_⟩
    by_cases there : k'.tag = t.tag
    · -- The dish is where it was to come to, and stays there.
      rw [← there, get_again get, get]
      exact .given _
    · have apart : t = .byteArray → k ≠ .byteArray :=
        fun text own => other (congrArg Kind.tag (own.trans text.symm))
      exact agree_read some some' other there bytes bytes' (same t apart)

/-- Turning to text or to bytes on the way changes nothing. A dish whose value is of its type, or that has no
value, can always be turned to text and to bytes. Asked for any type but its own after that, it refuses exactly
if it would have refused at once, and otherwise it gives the value that it would have given, and is left
with the same value and type; and it fails in no other way. -/
theorem get_detour (proper : d.Proper) (via : Kind) (plain : via = .string ∨ via = .byteArray)
    (tag : String) (other : tag ≠ d.tag) :
    ∃ v d', d.get via.tag = .ok (v, d') ∧ Agree (d'.get tag) (d.get tag) := by
  obtain ⟨v, own⟩ := d
  obtain ⟨k, known, value⟩ := proper
  dsimp only at known value other
  obtain rfl := tag_of_kind known
  by_cases some : v = .null
  · subst some
    refine ⟨_, _, get_null _ via, ?_⟩
    cases target : Kind.ofTag? tag with
    | none =>
      rw [get_unknown _ target, get_unknown _ target]
      exact .refused trivial trivial
    | some t =>
      obtain rfl := tag_of_kind target
      rw [get_null, get_null]
      exact .given _
  · have admits : k.Admits v := value.resolve_left some
    cases target : Kind.ofTag? tag with
    | none =>
      -- No dish has an unknown type, however it came to its own.
      obtain ⟨t, apart⟩ : ∃ t : Kind, k.tag ≠ t.tag := by
        cases k with
        | json => exact ⟨.string, by decide⟩
        | _ => exact ⟨.json, by decide⟩
      obtain ⟨w, d', get, -⟩ := agree_between plain some admits apart
      refine ⟨w, d', get, ?_⟩
      rw [get_unknown _ target, get_unknown _ target]
      exact .refused trivial trivial
    | some t =>
      obtain rfl := tag_of_kind target
      exact agree_between plain some admits (Ne.symm other)

-- A JSON text with a byte in it that is no UTF-8.
def broken : Dish :=
  ⟨.bytes [0x22, 0xFF, 0x22], "byteArray"⟩

/-- Read as JSON by way of text, its byte is replaced as it is when it is read at once. -/
theorem get_detour_broken : broken.Proper ∧ "JSON" ≠ broken.tag ∧
    ∃ v d', broken.get "string" = .ok (v, d') ∧ Agree (d'.get "JSON") (broken.get "JSON") ∧
      (broken.get "JSON").toOption.map (·.1.plain) = some "\uFFFD" := by
  have proper : broken.Proper := ofType_of_kind (k := .byteArray) (.inr ⟨_, rfl⟩) rfl
  have other : "JSON" ≠ broken.tag := by decide
  have replaced : (broken.get "JSON").toOption.map (·.1.plain) = some "\uFFFD" := by decide +kernel
  obtain ⟨v, d', get, agree⟩ := get_detour proper .string (.inl rfl) "JSON" other
  exact ⟨proper, other, v, d', get, agree, replaced⟩

end Kitchen.Dish
