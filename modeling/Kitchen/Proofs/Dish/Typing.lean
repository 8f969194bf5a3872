import Kitchen.Proofs.Dish.Turning
import Kitchen.Proofs.Json.Rereading
import Kitchen.Proofs.Value.Akin

namespace Kitchen

open Text (Glyph)

namespace Kind

def Holds : Kind → Value → Prop
  | .string, v => v.isText
  | .byteArray, v => ∃ bs, v = .bytes bs
  | .number, v => (∃ x, v = .float x) ∨ ∃ n, v.whole? = some n
  | .json, v => Json.Writable v

-- The values of a type that can be read again once they are written: texts have no halves, no whole number in
-- them has more digits than are converted, and what is in a JSON value a JSON text can stand for.
def Admits : Kind → Value → Prop
  | .string, v => ∃ s, v = .text s
  | .byteArray, v => ∃ bs, v = .bytes bs
  | .number, v => (∃ x, v = .float x) ∨ ∃ n, v.whole? = some n ∧ Number.Short n
  | .json, v => Json.Plain v

-- A sense in which values can be of a type, and what may be an argument in this sense: what is made of
-- characters and of halves of texts is a text, also if they come from arguments, and what is read from bytes as
-- a type is of it, as is what stands for no value. Texts may be filled in where an argument refers to them.
structure Sense (Of : Kind → Value → Prop) (Arg : Value → Prop) : Prop where
  isText {v : Value} (text : Of .string v) : v.isText
  joined {gs : List Glyph} (halves : ∀ h, .half h ∈ gs → ∃ hs, .half h ∈ hs ∧ Of .string (.ofGlyphs hs)) :
    Of .string (.ofGlyphs gs)
  bytes (bs : List UInt8) : Of .byteArray (.bytes bs)
  empty {tag : String} {k : Kind} (known : ofTag? tag = some k) : Of k (Dish.emptyOf tag)
  read {bs : List UInt8} {k : Kind} {v : Value} (read : Dish.ofBytes bs k = .ok v) :
    v = .null ∨ Of k v
  shown {v : Value} (arg : Arg v) : Of .string v.shown
  needle {v : Value} {gs : List Glyph} (arg : Arg v) (text : Reference.textOf? v = some gs) :
    Of .string (.ofGlyphs gs)
  filled {c : Reference.Capture} {v : Value} (texts : ∀ t ∈ c.texts, Of .string (.ofGlyphs t)) (arg : Arg v) :
    Arg (c.resolveValue v)

variable {k : Kind} {v : Value} {Of : Kind → Value → Prop} {Arg : Value → Prop}

theorem Sense.text (sense : Sense Of Arg) (s : String) : Of .string (.text s) := by
  rw [← Value.ofGlyphs_ofText]
  exact sense.joined fun h mem => absurd mem Glyph.half_not_mem_ofChars

theorem Sense.message (sense : Sense Of Arg) (s : String) : Of .string (.ofGlyphs (Glyph.ofText s)) := by
  rw [Value.ofGlyphs_ofText]
  exact sense.text s

/-- Halves of one text make up a text. -/
theorem Sense.part {gs hs : List Glyph} (sense : Sense Of Arg) (text : Of .string (.ofGlyphs hs))
    (halves : ∀ h, Glyph.half h ∈ gs → .half h ∈ hs) : Of .string (.ofGlyphs gs) :=
  sense.joined fun h mem => ⟨hs, halves h mem, text⟩

theorem Admits.holds (admits : k.Admits v) : k.Holds v := by
  cases k with
  | string =>
    obtain ⟨s, rfl⟩ := admits
    rfl
  | byteArray => exact admits
  | number =>
    rcases admits with float | ⟨n, whole, -⟩
    · exact .inl float
    · exact .inr ⟨n, whole⟩
  | json => exact Json.Plain.writable admits

end Kind

namespace Dish

variable {Of : Kind → Value → Prop} {Arg : Value → Prop} {d d' : Dish} {k : Kind} {tag : String} {v : Value}

theorem emptyOf_admits (known : Kind.ofTag? tag = some k) : k.Admits (emptyOf tag) := by
  unfold emptyOf
  rw [known]
  cases k with
  | string => exact ⟨_, rfl⟩
  | byteArray => exact ⟨_, rfl⟩
  | number => exact .inr ⟨0, rfl, Number.short_zero⟩
  | json => exact Json.Plain.null

theorem readNumber_admits {cs : List Char} (read : readNumber cs = .ok v) : Kind.number.Admits v := by
  -- An empty text is zero; others are whole numbers or, failing that, decimal ones.
  unfold readNumber at read
  split at read
  · cases read
    exact .inr ⟨0, rfl, Number.short_zero⟩
  · split at read
    · next n whole =>
      cases read
      exact .inr ⟨n, rfl, Number.readInteger_short whole⟩
    · split at read
      · next x _ =>
        cases read
        exact .inl ⟨x, rfl⟩
      · cases read

theorem ofBytes_admits {bs : List UInt8} (read : ofBytes bs k = .ok v) :
    v = .null ∨ k.Admits v := by
  unfold ofBytes at read
  cases k with
  | string =>
    cases read
    exact .inr ⟨_, rfl⟩
  | byteArray =>
    cases read
    exact .inr ⟨_, rfl⟩
  | number => exact .inr (readNumber_admits read)
  | json =>
    -- An empty text is no value at all.
    dsimp only at read
    split at read
    · cases read
      exact .inl rfl
    · cases parsed : Json.readChars (Text.Utf8.decode bs) with
      | error s =>
        rw [parsed] at read
        cases read
      | ok w =>
        rw [parsed] at read
        cases read
        exact .inr (Json.readChars_plain parsed)

/-- What takes its halves from texts that have none is a text without halves. -/
theorem untorn_joined {gs : List Glyph}
    (halves : ∀ h, .half h ∈ gs → ∃ hs, .half h ∈ hs ∧ ∃ s, Value.ofGlyphs hs = .text s) :
    ∃ s, Value.ofGlyphs gs = .text s := by
  rw [Value.ofGlyphs_text_iff]
  intro h mem
  obtain ⟨hs, there, text⟩ := halves h mem
  exact Value.ofGlyphs_text_iff.mp text h there

theorem sense_admits : Kind.Sense Kind.Admits (·.isUntorn) where
  isText text := by
    obtain ⟨s, rfl⟩ := text
    rfl
  joined := untorn_joined
  bytes bs := ⟨bs, rfl⟩
  empty := emptyOf_admits
  read := ofBytes_admits
  shown := Value.shown_of_isUntorn
  needle arg text := Value.ofGlyphs_text_iff.mpr (Reference.untorn_textOf? arg text)
  filled texts := Reference.Capture.resolveValue_untorn fun t mem => Value.ofGlyphs_text_iff.mp (texts t mem)

/-- What comes of reading is of its type in the stricter sense, and so in the other one. -/
theorem sense_holds : Kind.Sense Kind.Holds fun _ => True where
  isText text := text
  joined _ := Value.isText_ofGlyphs _
  bytes bs := ⟨bs, rfl⟩
  empty known := (emptyOf_admits known).holds
  read read := (ofBytes_admits read).imp_right Kind.Admits.holds
  shown _ := Value.isText_shown _
  needle _ _ := Value.isText_ofGlyphs _
  filled _ _ := trivial

def OfType (Of : Kind → Value → Prop) (d : Dish) : Prop :=
  ∃ k, Kind.ofTag? d.tag = some k ∧ (d.value = .null ∨ Of k d.value)

theorem ofType_of_kind (value : d.value = .null ∨ Of k d.value) (known : d.tag = k.tag) :
    d.OfType Of := by
  refine ⟨k, ?_, value⟩
  rw [known]
  exact kind_of_tag k

theorem OfType.value (sense : Kind.Sense Of Arg) (typed : d.OfType Of)
    (known : Kind.ofTag? d.tag = some k) : Of k d.valueOrEmpty := by
  obtain ⟨k', known', value⟩ := typed
  obtain rfl : k' = k := Option.some.inj (known'.symm.trans known)
  have empty := sense.empty known
  unfold valueOrEmpty
  split
  · exact empty
  · next other =>
    rcases value with null | holds
    · exact absurd null other
    · exact holds

theorem translate_ofType (sense : Kind.Sense Of Arg) (turned : d.translate k = .ok d') :
    d'.OfType Of := by
  have tag := translate_tag turned
  unfold translate at turned
  split at turned
  · cases turned
    exact ofType_of_kind (.inl rfl) tag
  · obtain ⟨source, -, turned⟩ := bind_ok turned
    obtain ⟨bs, -, turned⟩ := bind_ok turned
    obtain ⟨w, read, turned⟩ := bind_ok turned
    cases turned
    refine ofType_of_kind (k := k) ?_ tag
    -- Bytes lie between any two types, so only the way from bytes matters.
    cases parsed : ofBytes bs k with
    | error u =>
      rw [parsed] at read
      cases read
    | ok w' =>
      rw [parsed] at read
      cases read
      exact sense.read parsed

theorem turn_ofType (sense : Kind.Sense Of Arg) (typed : d.OfType Of) (turned : d.turn tag = .ok d') :
    d'.OfType Of := by
  unfold turn at turned
  obtain ⟨k, -, turned⟩ := bind_ok turned
  split at turned
  · cases turned
    exact typed
  · exact translate_ofType sense turned

/-- A dish that is asked for a type gives a value of that type. -/
theorem get_ofType (sense : Kind.Sense Of Arg) (typed : d.OfType Of) (get : d.get tag = .ok (v, d')) :
    d'.OfType Of ∧ ∃ k, Kind.ofTag? tag = some k ∧ Of k v := by
  obtain ⟨turned, rfl⟩ := get_eq get
  have typed' := turn_ofType sense typed turned
  obtain ⟨k, known⟩ := turn_known turned
  refine ⟨typed', k, known, ?_⟩
  apply typed'.value sense
  rw [turn_tag turned]
  exact known

theorem set_ofType (sense : Kind.Sense Of Arg)
    (value : ∀ k, Kind.ofTag? tag = some k → v = .null ∨ Of k v)
    (set : Dish.set v tag = .ok d) : d.OfType Of := by
  unfold Dish.set at set
  obtain ⟨k, known, set⟩ := bind_ok set
  have known := kindOf_ok known
  -- Only a list that is set as bytes becomes another value.
  split at set
  · obtain ⟨bs, -, set⟩ := bind_ok set
    cases set
    exact ⟨.byteArray, known, .inr (sense.bytes bs)⟩
  · cases set
    exact ⟨k, known, value k known⟩

theorem ofGlyphs_ofType {gs : List Glyph} (text : Of .string (.ofGlyphs gs)) :
    OfType Of ⟨.ofGlyphs gs, "string"⟩ :=
  ofType_of_kind (k := .string) (.inr text) rfl

theorem set_isText (text : v.isText) : Dish.set v "string" = .ok ⟨v, "string"⟩ := by
  have known : kindOf "string" = .ok .string := kindOf_of_kind (kind_of_tag .string)
  unfold Dish.set
  rw [known]
  cases v with
  | text s => rfl
  | torn t => rfl
  | _ => cases text

theorem get_isText (text : v.isText) : Dish.get ⟨v, "string"⟩ "string" = .ok (v, ⟨v, "string"⟩) := by
  cases v with
  | text s => exact get_own (k := .string) rfl
  | torn t => exact get_own (k := .string) rfl
  | _ => cases text

theorem make_isText (text : v.isText) : Dish.make v "string" = .ok ⟨v, "string"⟩ := by
  unfold Dish.make
  split
  · cases text
  · exact set_isText text

theorem make_text (s : String) : Dish.make (.text s) "string" = .ok ⟨.text s, "string"⟩ :=
  make_isText rfl

-- The tag is known, and the value is of its type if there is one.
def Typed (d : Dish) : Prop :=
  ∃ k, Kind.ofTag? d.tag = some k ∧ (d.value = .null ∨ k.Holds d.value)

theorem ofGlyphs_typed (gs : List Glyph) : Typed ⟨.ofGlyphs gs, "string"⟩ :=
  ofType_of_kind (k := .string) (.inr (Value.isText_ofGlyphs gs)) rfl

theorem text_typed (s : String) : Typed ⟨.text s, "string"⟩ :=
  ofType_of_kind (k := .string) (.inr rfl) rfl

theorem toBytes_number (holds : Kind.number.Holds v) : ∃ bs, toBytes v .number = .ok bs := by
  -- The text of a number is made of characters.
  have whole : ∃ cs, numberText v = Glyph.ofChars cs := by
    rcases holds with ⟨x, rfl⟩ | ⟨n, whole⟩
    · unfold numberText
      dsimp only
      split <;> exact ⟨_, rfl⟩
    · cases v with
      | bool b => exact ⟨_, rfl⟩
      | int n => exact ⟨_, rfl⟩
      | _ => cases whole
  obtain ⟨cs, text⟩ := whole
  rw [toBytes, text]
  exact ⟨_, encoded_ofChars cs⟩

/-- Every value of a type has bytes, but for texts. -/
theorem toBytes_ok (holds : k.Holds v) (other : k ≠ .string) : ∃ bs, toBytes v k = .ok bs := by
  cases k with
  | string => exact absurd rfl other
  | byteArray =>
    obtain ⟨bs, rfl⟩ := holds
    exact ⟨bs, rfl⟩
  | number => exact toBytes_number holds
  | json =>
    obtain ⟨cs, written⟩ := holds
    refine ⟨Text.Utf8.encode cs, ?_⟩
    simp only [toBytes, written]
    rfl

theorem toBytes_admits (admits : k.Admits v) : ∃ bs, toBytes v k = .ok bs := by
  by_cases text : k = .string
  · subst text
    obtain ⟨s, rfl⟩ := admits
    exact ⟨_, toBytes_text s⟩
  · exact toBytes_ok admits.holds text

theorem Typed.turn_text (typed : d.Typed) : ∃ d', d.turn "string" = .ok d' := by
  obtain ⟨k, known, value⟩ := typed
  -- Text is the one type that every value can be written as: all bytes can be decoded.
  have target : kindOf "string" = .ok .string := kindOf_of_kind (kind_of_tag .string)
  unfold turn
  rw [target]
  change ∃ d', (if d.tag = "string" then pure d else d.translate .string : Except Fault Dish) =
    .ok d'
  split
  · exact ⟨d, rfl⟩
  · next turns =>
    unfold translate
    split
    · exact ⟨_, rfl⟩
    · next other =>
      have holds : k.Holds d.value := value.resolve_left other
      have other : k ≠ .string := by
        rintro rfl
        exact turns (tag_of_kind known).symm
      obtain ⟨bs, bytes⟩ := toBytes_ok holds other
      rw [kindOf_of_kind known]
      change ∃ d', ((toBytes d.value k).mapError Fault.misuse >>= _) = Except.ok d'
      rw [bytes]
      exact ⟨_, rfl⟩

theorem OfType.get_text (sense : Kind.Sense Of Arg) (typed : d.Typed) (ofType : d.OfType Of) :
    ∃ v d', d.get "string" = .ok (v, d') ∧ Of .string v := by
  obtain ⟨d', turned⟩ := typed.turn_text
  have get : d.get "string" = .ok (d'.valueOrEmpty, d') := by
    unfold get
    rw [turned]
    rfl
  obtain ⟨-, k, known, here⟩ := get_ofType sense ofType get
  obtain rfl : k = .string := Option.some.inj (known.symm.trans (kind_of_tag .string))
  exact ⟨_, d', get, here⟩

/-- Every dish that is typed can be read as text. -/
theorem Typed.get_text (typed : d.Typed) : ∃ gs d', d.get "string" = .ok (.ofGlyphs gs, d') := by
  obtain ⟨v, d', get, text⟩ := OfType.get_text sense_holds typed typed
  obtain ⟨gs, rfl⟩ := Value.exists_ofGlyphs text
  exact ⟨gs, d', get⟩

-- The tag is known, and the value can be read again as one of its type, if there is one.
def Proper (d : Dish) : Prop :=
  d.OfType Kind.Admits

theorem Proper.typed (proper : d.Proper) : d.Typed := by
  obtain ⟨k, known, value⟩ := proper
  exact ⟨k, known, value.imp_right Kind.Admits.holds⟩

theorem Proper.get_text (proper : d.Proper) : ∃ s d', d.get "string" = .ok (.text s, d') := by
  obtain ⟨v, d', get, s, rfl⟩ := OfType.get_text sense_admits proper.typed proper
  exact ⟨s, d', get⟩

/-- A proper dish is made of its value and its tag. -/
theorem Proper.make (proper : d.Proper) : Dish.make d.value d.tag = .ok d := by
  obtain ⟨v, tag⟩ := d
  obtain ⟨k, known, value⟩ := proper
  unfold Dish.make
  split
  · next null =>
    dsimp only at null
    rw [null]
  · next v' other =>
    have admits : k.Admits v := value.resolve_left other
    unfold Dish.set
    rw [kindOf_of_kind known]
    cases k with
    | byteArray =>
      obtain ⟨bs, rfl⟩ := admits
      rfl
    | _ => rfl

/-- A copy of a proper dish can be made, and is proper. -/
theorem Proper.clone (proper : d.Proper) : ∃ d', d.clone = .ok d' ∧ d'.Proper := by
  unfold Dish.clone
  split
  · next json =>
    obtain ⟨k, known, value⟩ := proper
    have kind : k = .json := by
      rw [json, kind_of_tag] at known
      exact (Option.some.inj known).symm
    subst kind
    -- A JSON value is written and read again.
    have plain : Json.Plain d.value := by
      rcases value with null | plain
      · rw [null]
        exact .null
      · exact plain
    obtain ⟨cs, w, written, read, plain', -⟩ := Json.reread plain
    have proper' : Proper ⟨w, d.tag⟩ := ⟨.json, known, .inr plain'⟩
    refine ⟨⟨w, d.tag⟩, ?_, proper'⟩
    rw [written]
    change ((Json.readChars cs).mapError _ >>= fun v => Dish.make v d.tag) = _
    rw [read]
    exact proper'.make
  · exact ⟨d, proper.make, proper⟩

end Dish

end Kitchen
