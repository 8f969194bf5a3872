import Kitchen.Proofs.Dish.Turning
import Kitchen.Proofs.Text.Utf8

namespace Kitchen.Dish

-- Asked for any of the types, the two dishes give the same.
def Reads (tags : List String) (d d' : Dish) : Prop :=
  ∀ tag ∈ tags, d'.get tag = d.get tag

inductive Legible : Dish → Prop where
  | text (v : Value) : Legible ⟨v, "string"⟩
  | bytes (s : String) : Legible ⟨.bytes (Text.Utf8.encode s.toList), "byteArray"⟩

theorem valueOrEmpty_some {v : Value} {tag : String} (some : v ≠ .null) :
    valueOrEmpty ⟨v, tag⟩ = v := by
  unfold valueOrEmpty
  split
  · next none => exact absurd none some
  · rfl

/-- A dish that is asked for another type reads its bytes as that type. -/
theorem get_read (k k' : Kind) {v : Value} {bs : List UInt8} (some : v ≠ .null)
    (other : k.tag ≠ k'.tag) (bytes : toBytes v k = .ok bs) :
    Dish.get ⟨v, k.tag⟩ k'.tag = ((ofBytes bs k').mapError (.unconvertible k.tag k'.tag)).map
      fun w => (valueOrEmpty ⟨w, k'.tag⟩, ⟨w, k'.tag⟩) := by
  have translated : Dish.translate ⟨v, k.tag⟩ k' =
      ((ofBytes bs k').mapError (.unconvertible k.tag k'.tag)).map fun w => ⟨w, k'.tag⟩ := by
    unfold translate
    dsimp only
    split
    · exact absurd rfl some
    · rw [kindOf_of_kind (kind_of_tag k)]
      change ((toBytes v k).mapError Fault.misuse >>= _) = _
      rw [bytes]
      rfl
  have turned : Dish.turn ⟨v, k.tag⟩ k'.tag = Dish.translate ⟨v, k.tag⟩ k' := by
    simp only [turn, kindOf_of_kind (kind_of_tag k'), bind, Except.bind, if_neg other]
  unfold get
  rw [turned, translated]
  cases ofBytes bs k' <;> rfl

/-- If its bytes can be read as that type, it gives what they are read as. -/
theorem get_other (k k' : Kind) {v w : Value} {bs : List UInt8} (some : v ≠ .null)
    (other : k.tag ≠ k'.tag) (bytes : toBytes v k = .ok bs) (read : ofBytes bs k' = .ok w)
    (some' : w ≠ .null) : Dish.get ⟨v, k.tag⟩ k'.tag = .ok (w, ⟨w, k'.tag⟩) := by
  have given := get_read k k' some other bytes
  rw [read] at given
  rw [given]
  exact congrArg (fun u => Except.ok (u, Dish.mk w k'.tag)) (valueOrEmpty_some some')

theorem get_bytes_text (s : String) :
    Dish.get ⟨.bytes (Text.Utf8.encode s.toList), "byteArray"⟩ "string" =
      .ok (.text s, ⟨.text s, "string"⟩) := by
  have read : ofBytes (Text.Utf8.encode s.toList) .string = .ok (.text s) := by
    simp only [ofBytes, Text.Utf8.decode_encode, String.ofList_toList]
  exact get_other .byteArray .string (by nofun) (by decide) rfl read (by nofun)

theorem get_text_bytes (s : String) : Dish.get ⟨.text s, "string"⟩ "byteArray" =
    .ok (.bytes (Text.Utf8.encode s.toList),
      ⟨.bytes (Text.Utf8.encode s.toList), "byteArray"⟩) :=
  get_other .string .byteArray (by nofun) (by decide) (toBytes_text s) rfl (by nofun)

/-- What is legible gives the same after it was turned to text, asked for text or bytes. -/
theorem Legible.reads {d : Dish} {tags : List String} (legible : d.Legible)
    (kinds : ∀ tag ∈ tags, tag = "string" ∨ tag = "byteArray") :
    ∃ v d', d.get "string" = .ok (v, d') ∧ d.Reads tags d' := by
  cases legible with
  | text v => exact ⟨_, _, get_own (d := ⟨v, "string"⟩) (k := .string) rfl, fun _ _ => rfl⟩
  | bytes s =>
    -- Bytes that were written from a text are the text when read, and come back when it is written.
    refine ⟨_, _, get_bytes_text s, fun tag mem => ?_⟩
    rcases kinds tag mem with rfl | rfl
    · rw [get_bytes_text]
      exact get_own (d := ⟨.text s, "string"⟩) (k := .string) rfl
    · rw [get_text_bytes]
      exact (get_own (d := ⟨.bytes (Text.Utf8.encode s.toList), "byteArray"⟩) (k := .byteArray)
        rfl).symm

end Kitchen.Dish
