import Kitchen.Assembly
import Kitchen.Proofs.Dish.Typing
import Kitchen.Proofs.Pattern.Groups

namespace Kitchen

open Text (Glyph splitOn)

-- Of a value that is of its input type in a sense, and of arguments in this sense, a transform makes a value
-- that is of its output type in this sense, or nothing. Where it refuses, what it has to say is a text.
structure Transform.Keeps (Of : Kind → Value → Prop) (Arg : Value → Prop) (t : Transform) : Prop where
  makes : ∀ k k' v args out, Kind.ofTag? t.input = some k → Kind.ofTag? t.output = some k' → Of k v →
    (∀ a ∈ args, Arg a) → t.run v args = .ok out → out = .null ∨ Of k' out
  refuses : ∀ k v args message, Kind.ofTag? t.input = some k → Of k v → (∀ a ∈ args, Arg a) →
    t.run v args = .error (.refused message) → Of .string (.ofGlyphs message)

-- Of a value of its input type, a transform makes a value of its output type or nothing.
def Transform.Faithful (t : Transform) : Prop :=
  ∀ k k' v args out, Kind.ofTag? t.input = some k → Kind.ofTag? t.output = some k' → k.Holds v →
    t.run v args = .ok out → out = .null ∨ k'.Holds out

theorem Transform.faithful_iff {t : Transform} : t.Faithful ↔ t.Keeps Kind.Holds fun _ => True := by
  constructor
  · intro faithful
    refine ⟨fun k k' v args out input output holds _ => faithful k k' v args out input output holds, ?_⟩
    exact fun _ _ _ message _ _ _ _ => Value.isText_ofGlyphs message
  · exact fun keeps k k' v args out input output holds =>
      keeps.makes k k' v args out input output holds fun _ _ => trivial

namespace Transform

variable {Of : Kind → Value → Prop} {Arg : Value → Prop} {v out : Value} {args : List Value} {h : Text.Half}
  {gs message : List Glyph}

/-- A transform between two known types keeps to them if it does so on the values of its input. -/
theorem keeps_of {t : Transform} (k k' : Kind) (input : t.input = k.tag) (output : t.output = k'.tag)
    (makes : ∀ v args out, Of k v → (∀ a ∈ args, Arg a) → t.run v args = .ok out → Of k' out)
    (refuses : ∀ v args message, Of k v → (∀ a ∈ args, Arg a) → t.run v args = .error (.refused message) →
      Of .string (.ofGlyphs message)) : t.Keeps Of Arg := by
  have kind {k₁ : Kind} (known : Kind.ofTag? t.input = some k₁) : k = k₁ := by
    rw [input, kind_of_tag] at known
    exact Option.some.inj known
  constructor
  case makes =>
    intro k₁ k₁' v args out known known' here given ran
    rw [output, kind_of_tag] at known'
    obtain rfl := kind known
    obtain rfl := Option.some.inj known'
    exact .inr (makes v args out here given ran)
  case refuses =>
    intro k₁ v args message known here given ran
    obtain rfl := kind known
    exact refuses v args message here given ran

/-- A transform that never fails on the values of its input has nothing to refuse. -/
theorem keeps_of_ok {t : Transform} (k k' : Kind) (input : t.input = k.tag) (output : t.output = k'.tag)
    (works : ∀ v args, Of k v → ∃ out, t.run v args = .ok out ∧ Of k' out) : t.Keeps Of Arg := by
  apply keeps_of k k' input output
  · intro v args out here _ ran
    obtain ⟨out', ran', there⟩ := works v args here
    obtain rfl := Except.ok.inj (ran.symm.trans ran')
    exact there
  · intro v args message here _ ran
    obtain ⟨out, ran', -⟩ := works v args here
    cases ran.symm.trans ran'

theorem recase_works (sense : Kind.Sense Of Arg) (word : String) (chars : List Char → List Char)
    (char : Char → Char) (text : Of .string v) : ∃ out, recase word chars char v = .ok out ∧ Of .string out := by
  have isText := sense.isText text
  cases v with
  | text s => exact ⟨_, rfl, sense.text _⟩
  | torn t =>
    rw [← Value.ofGlyphs_torn] at text
    exact ⟨_, rfl, sense.part text fun h => (Glyph.half_mem_mapStretches []).mp⟩
  | _ => cases isText

/-- What is in the parts of a text when a character is put in front of the first of them. -/
theorem mem_of_mem_consFirst {α : Type} {c x : α} {first part : List α} {rest : List (List α)}
    (there : part ∈ (c :: first) :: rest) (mem : x ∈ part) : x = c ∨ ∃ part ∈ first :: rest, x ∈ part := by
  rcases List.mem_cons.mp there with rfl | later
  · rcases List.mem_cons.mp mem with same | here
    · exact .inl same
    · exact .inr ⟨first, List.mem_cons_self, here⟩
  · exact .inr ⟨part, List.mem_cons_of_mem first later, mem⟩

theorem mem_of_mem_splitOn {α : Type} [DecidableEq α] {separator x : α} {xs part : List α}
    (part_mem : part ∈ splitOn separator xs) (mem : x ∈ part) : x ∈ xs := by
  induction xs generalizing part with
  | nil =>
    obtain rfl := List.mem_singleton.mp part_mem
    cases mem
  | cons c rest ih =>
    rw [splitOn] at part_mem
    split at part_mem
    · rcases List.mem_cons.mp part_mem with rfl | later
      · cases mem
      · exact List.mem_cons_of_mem c (ih later mem)
    · split at part_mem
      · obtain rfl := List.mem_singleton.mp part_mem
        obtain rfl := List.mem_singleton.mp mem
        exact List.mem_cons_self
      · next split =>
        rcases mem_of_mem_consFirst part_mem mem with rfl | ⟨part, there, mem⟩
        · exact List.mem_cons_self
        · exact List.mem_cons_of_mem c (ih (split ▸ there) mem)

theorem mem_of_mem_intercalate {α : Type} {separator : List α} {x : α} {parts : List (List α)}
    (mem : x ∈ separator.intercalate parts) : x ∈ separator ∨ ∃ part ∈ parts, x ∈ part := by
  induction parts with
  | nil => cases mem
  | cons first rest ih =>
    cases rest with
    | nil =>
      rw [List.intercalate_singleton] at mem
      exact .inr ⟨first, List.mem_cons_self, mem⟩
    | cons second rest =>
      rw [List.intercalate_cons_cons, List.mem_append, List.mem_append] at mem
      rcases mem with (here | between) | later
      · exact .inr ⟨first, List.mem_cons_self, here⟩
      · exact .inl between
      · rcases ih later with between | ⟨part, there, mem⟩
        · exact .inl between
        · exact .inr ⟨part, List.mem_cons_of_mem first there, mem⟩

theorem reverse_keeps (sense : Kind.Sense Of Arg) : reverse.Keeps Of Arg := by
  apply keeps_of .string .string rfl rfl
  · intro v args out text _ ran
    have isText := sense.isText text
    simp only [reverse] at ran
    cases v with
    | text s =>
      split at ran
      · cases ran
        exact sense.text _
      · split at ran
        · cases ran
          exact sense.text _
        · cases ran
    | torn t =>
      rw [← Value.ofGlyphs_torn] at text
      split at ran
      · cases ran
        refine sense.part text fun h mem => ?_
        rcases mem_of_mem_intercalate mem with newline | ⟨part, there, mem⟩
        · cases List.mem_singleton.mp newline
        · exact mem_of_mem_splitOn (List.mem_reverse.mp there) mem
      · split at ran
        · cases ran
          exact sense.part text fun h => List.mem_reverse.mp
        · cases ran
    | _ => cases isText
  · intro v args message text _ ran
    have isText := sense.isText text
    simp only [reverse] at ran
    -- Only a unit that is not known is refused, and what is said of it is made of characters.
    split at ran
    · cases v with
      | text s => cases ran
      | torn t => cases ran
      | _ => cases isText
    · split at ran
      · cases v with
        | text s => cases ran
        | torn t => cases ran
        | _ => cases isText
      · cases ran
        exact sense.message _

/-- Halves that a text gets when it is filled are halves of what is kept, or of what it is filled with. -/
theorem half_mem_fill {replacement : Value} {pieces : List Pattern.Piece}
    (filled : fill replacement pieces = .ok gs) (mem : .half h ∈ gs) :
    (∃ t, .kept t ∈ pieces ∧ .half h ∈ t) ∨ ∃ hs, replacement.glyphs? = some hs ∧ .half h ∈ hs := by
  have joined {hs : List Glyph} (mem : .half h ∈ fill.joined pieces hs) :
      (∃ t, .kept t ∈ pieces ∧ .half h ∈ t) ∨ .half h ∈ hs := by
    obtain ⟨piece, there, mem⟩ := List.mem_flatMap.mp mem
    cases piece with
    | kept t => exact .inl ⟨t, there, mem⟩
    | found => exact .inr mem
  unfold fill at filled
  split at filled
  · next hs text =>
    cases filled
    exact (joined mem).imp_right fun here => ⟨hs, text, here⟩
  · cases filled
    exact (joined mem).imp_right fun none => by cases none
  · split at filled
    · cases filled
    · cases filled
      exact (joined mem).imp_right fun none => by cases none

theorem replaceIn_keeps (sense : Kind.Sense Of Arg) {needle : Needle} {replacement : Value} {everywhere : Bool}
    {mode : Pattern.Mode} (text : Of .string v) (given : Arg replacement)
    (ran : replaceIn needle replacement everywhere mode v = .ok out) : Of .string out := by
  unfold replaceIn at ran
  split at ran
  · cases ran
    exact text
  · obtain ⟨p, -, ran⟩ := bind_ok ran
    obtain ⟨s, subject, ran⟩ := bind_ok ran
    obtain ⟨gs, filled, ran⟩ := bind_ok ran
    cases ran
    obtain ⟨s', rfl⟩ := Value.exists_ofGlyphs (sense.isText text)
    obtain rfl : s' = s := by simpa [Pattern.subject, Value.glyphs?_ofGlyphs] using subject
    refine sense.joined fun h mem => ?_
    rcases half_mem_fill filled mem with ⟨t, kept, mem⟩ | ⟨hs, glyphs, mem⟩
    · exact ⟨s', (Pattern.kept_stretch kept).subset mem, text⟩
    · -- What it is filled with is an argument, and a text.
      refine ⟨hs, mem, ?_⟩
      rw [← Value.shown_of_glyphs? glyphs]
      exact sense.shown given

/-- The text of a needle is one that its argument has. -/
theorem needle_text (sense : Kind.Sense Of Arg) {find : Value} (given : Arg find)
    (text : (Needle.ofValue find).value.glyphs? = some gs) : Of .string (.ofGlyphs gs) := by
  unfold Needle.ofValue at text
  split at text
  · next es =>
    cases found : Value.field? "string" es with
    | none =>
      rw [found] at text
      cases text
      exact sense.message ""
    | some w =>
      rw [found] at text
      exact sense.needle given (Option.bind_eq_some_iff.mpr ⟨w, found, text⟩)
  · rw [← Value.shown_of_glyphs? text, Value.shown_of_isText (Value.isText_shown find)]
    exact sense.shown given

/-- What is said of a pattern that cannot be read has only halves of the pattern. -/
theorem half_mem_message {mode : Pattern.Mode} {f : Pattern.Fault} (failed : Pattern.read mode gs = .error f)
    (mem : .half h ∈ f.message) : .half h ∈ gs := by
  obtain ⟨stop, -, rfl⟩ := mapError_error failed
  simp only [Pattern.Fault.message, List.mem_append] at mem
  rcases mem with (reason | quote) | position
  · exact absurd reason Glyph.half_not_mem_ofChars
  · exact List.mem_of_mem_drop (List.mem_of_mem_take quote)
  · exact absurd position Glyph.half_not_mem_ofChars

theorem half_mem_escape (mem : .half h ∈ Pattern.escape gs) : .half h ∈ gs := by
  obtain ⟨g, there, mem⟩ := List.mem_flatMap.mp mem
  unfold Pattern.escapeGlyph at mem
  split at mem
  · obtain rfl : .half h = g := by simpa using mem
    exact there
  · obtain rfl := List.mem_singleton.mp mem
    exact there

/-- A needle is no pattern where it cannot be read, or where it is no text. -/
theorem pattern_fault {needle : Needle} {mode : Pattern.Mode} {f : Failure}
    (failed : needle.pattern mode = .error f) :
    (∃ g hs, f = .pattern g ∧ needle.value.glyphs? = some hs ∧ ∀ h, .half h ∈ g.message → .half h ∈ hs) ∨
      ∃ m, f = .misuse m := by
  unfold Needle.pattern at failed
  split at failed
  · next hs _ text =>
    obtain ⟨g, unread, rfl⟩ := mapError_error failed
    exact .inl ⟨g, hs, rfl, text, fun h mem => half_mem_escape (half_mem_message unread mem)⟩
  · cases failed
    exact .inr ⟨_, rfl⟩
  · unfold Pattern.ofValue at failed
    split at failed
    · next hs text =>
      obtain ⟨g, unread, rfl⟩ := mapError_error failed
      exact .inl ⟨g, hs, rfl, text, fun h => half_mem_message unread⟩
    · cases failed
      exact .inr ⟨_, rfl⟩

theorem subject_unrefused : Pattern.subject v ≠ .error (.refused message) := by
  intro failed
  unfold Pattern.subject at failed
  split at failed <;> cases failed

theorem fill_unrefused {replacement : Value} {pieces : List Pattern.Piece} :
    fill replacement pieces ≠ .error (.refused message) := by
  intro failed
  unfold fill at failed
  split at failed
  · cases failed
  · cases failed
  · split at failed <;> cases failed

theorem replaceIn_refuses (sense : Kind.Sense Of Arg) {find replacement : Value} {everywhere : Bool}
    {mode : Pattern.Mode} (given : Arg find)
    (ran : replaceIn (.ofValue find) replacement everywhere mode v = .error (.refused message)) :
    Of .string (.ofGlyphs message) := by
  unfold replaceIn at ran
  split at ran
  · cases ran
  · rcases bind_error ran with failed | ⟨p, -, ran⟩
    · -- What is refused is a pattern that is malformed, and what is said of it can quote the pattern.
      obtain ⟨f, failed, refused⟩ := mapError_error failed
      rcases pattern_fault failed with ⟨g, gs, rfl, text, quoted⟩ | ⟨m, rfl⟩
      · dsimp only [refuseMalformed] at refused
        split at refused
        · cases refused
          refine sense.part (needle_text sense given text) fun h mem => quoted h ?_
          exact (List.mem_append.mp mem).resolve_left Glyph.half_not_mem_ofChars
        · cases refused
      · cases refused
    · rcases bind_error ran with failed | ⟨s, -, ran⟩
      · exact absurd failed subject_unrefused
      · rcases bind_error ran with failed | ⟨gs, -, ran⟩
        · exact absurd failed fill_unrefused
        · cases ran

theorem findReplace_keeps (sense : Kind.Sense Of Arg) : findReplace.Keeps Of Arg := by
  apply keeps_of .string .string rfl rfl
  · intro v args out text given ran
    simp only [findReplace] at ran
    split at ran
    · next find replacement everywhere ignoreCase multiline more =>
      exact replaceIn_keeps sense text (given replacement (by simp)) ran
    · cases ran
  · intro v args message text given ran
    simp only [findReplace] at ran
    split at ran
    · next find replacement everywhere ignoreCase multiline more =>
      exact replaceIn_refuses sense (given find (by simp)) ran
    · cases ran

theorem itemsText_unrefused {join : List (List Char) → Value} :
    (do return join (← (← items v).mapM hexItem)) ≠ (.error (.refused message) : Except Failure Value) := by
  intro failed
  rcases bind_error failed with failed | ⟨xs, -, failed⟩
  · unfold items at failed
    split at failed <;> cases failed
  · rcases bind_error failed with failed | ⟨parts, -, failed⟩
    · obtain ⟨x, -, failed⟩ := mapM_error failed
      unfold hexItem at failed
      split at failed <;> cases failed
    · cases failed

theorem toHex_keeps (sense : Kind.Sense Of Arg) : toHex.Keeps Of Arg := by
  apply keeps_of .byteArray .string rfl rfl
  · intro v args out here given ran
    simp only [toHex] at ran
    split at ran
    · cases ran
      exact sense.text _
    · obtain ⟨xs, -, ran⟩ := bind_ok ran
      obtain ⟨parts, -, ran⟩ := bind_ok ran
      cases ran
      exact sense.text _
    · next d first =>
      obtain ⟨xs, -, ran⟩ := bind_ok ran
      obtain ⟨parts, -, ran⟩ := bind_ok ran
      cases ran
      -- Only the delimiter, which is an argument, can have halves.
      have arg : Arg (.torn d) := by
        cases args with
        | nil => cases first
        | cons a args =>
          obtain rfl : a = .torn d := first
          exact given _ List.mem_cons_self
      have text := sense.shown arg
      refine sense.part text fun h mem => ?_
      rcases mem_of_mem_intercalate mem with between | ⟨part, there, mem⟩
      · exact between
      · obtain ⟨cs, -, rfl⟩ := List.mem_map.mp there
        exact absurd mem Glyph.half_not_mem_ofChars
    · cases ran
  · intro v args message here given ran
    simp only [toHex] at ran
    split at ran
    · cases ran
    · exact absurd ran itemsText_unrefused
    · exact absurd ran itemsText_unrefused
    · cases ran

theorem fromHex_keeps (sense : Kind.Sense Of Arg) : fromHex.Keeps Of Arg := by
  apply keeps_of .string .byteArray rfl rfl
  · intro v args out text _ ran
    have isText := sense.isText text
    have decoded {cs : List Char} (ran : Value.bytes <$> decodeHex cs = .ok out) : Of .byteArray out := by
      cases decoded : decodeHex cs with
      | error f =>
        rw [decoded] at ran
        cases ran
      | ok bs =>
        rw [decoded] at ran
        cases ran
        exact sense.bytes bs
    cases v with
    | text s => exact decoded ran
    | torn t => exact decoded ran
    | _ => cases isText
  · intro v args message text _ ran
    have isText := sense.isText text
    have odd {cs : List Char} (ran : Value.bytes <$> decodeHex cs = .error (.refused message)) :
        Of .string (.ofGlyphs message) := by
      unfold decodeHex at ran
      dsimp only at ran
      split at ran
      · cases ran
      · cases ran
        exact sense.message _
    cases v with
    | text s => exact odd ran
    | torn t => exact odd ran
    | _ => cases isText

end Transform

-- All transforms of a catalog keep to their types.
def Catalog.Faithful (c : Catalog) : Prop :=
  ∀ t ∈ c.transforms, t.Faithful

/-- The transforms that are always at hand keep to their types in every sense. -/
theorem Catalog.standard_keeps {Of : Kind → Value → Prop} {Arg : Value → Prop} (sense : Kind.Sense Of Arg) :
    ∀ t ∈ Catalog.standard.transforms, t.Keeps Of Arg := by
  intro t mem
  simp only [standard, List.mem_cons, List.not_mem_nil, or_false] at mem
  rcases mem with rfl | rfl | rfl | rfl | rfl | rfl
  · exact Transform.keeps_of_ok .string .string rfl rfl fun v args => Transform.recase_works sense _ _ _
  · exact Transform.keeps_of_ok .string .string rfl rfl fun v args => Transform.recase_works sense _ _ _
  · exact Transform.reverse_keeps sense
  · exact Transform.findReplace_keeps sense
  · exact Transform.toHex_keeps sense
  · exact Transform.fromHex_keeps sense

theorem Catalog.standard_faithful : Catalog.standard.Faithful :=
  fun t mem => Transform.faithful_iff.mpr (standard_keeps Dish.sense_holds t mem)

def Operation.Textual (op : Operation) : Prop :=
  ∀ p, op.primitive? = some p → op.input = "string" ∧ op.output = "string"

-- An operation that looks at its dish under the types of its transform, which keeps to them. Primitives look at
-- it as text.
structure Operation.Sound (op : Operation) : Prop where
  primitive : ∀ p, op.primitive? = some p → op.input = "string" ∧ op.output = "string"
  transform : ∀ t, op.transform = some t →
    op.input = t.input ∧ op.output = t.output ∧ t.Faithful

-- In the same way, for any sense of the types, with arguments in this sense.
structure Operation.Keeps (Of : Kind → Value → Prop) (Arg : Value → Prop) (op : Operation) : Prop where
  primitive : op.Textual
  transform : ∀ t, op.transform = some t →
    op.input = t.input ∧ op.output = t.output ∧ t.Keeps Of Arg
  args : ∀ a ∈ op.args, Arg a

theorem Operation.sound_iff {op : Operation} : op.Sound ↔ op.Keeps Kind.Holds fun _ => True := by
  constructor
  · intro sound
    refine ⟨sound.primitive, fun t handler => ?_, fun _ _ => trivial⟩
    obtain ⟨input, output, faithful⟩ := sound.transform t handler
    exact ⟨input, output, Transform.faithful_iff.mp faithful⟩
  · intro keeps
    refine ⟨keeps.primitive, fun t handler => ?_⟩
    obtain ⟨input, output, keeping⟩ := keeps.transform t handler
    exact ⟨input, output, Transform.faithful_iff.mpr keeping⟩

/-- An operation of a definition is a primitive, or it has a transform of the catalog and its types. -/
theorem Assembly.operation_eq {c : Catalog} {e : Entry} {op : Operation} (made : operation c e = .ok op) :
    (∃ name args, op = ⟨name, args, "string", "string", e.disabled, e.pauses, none⟩) ∨
      ∃ t name args, Primitive.ofName? name = none ∧ c.find? name = some t ∧
        op = ⟨name, args, t.input, t.output, e.disabled, e.pauses, some t⟩ := by
  unfold operation at made
  split at made
  · next name _ =>
    -- The name is that of a primitive or of a transform in the catalog.
    split at made
    · obtain ⟨args, -, made⟩ := bind_ok made
      cases made
      exact .inl ⟨name, args, rfl⟩
    · next ordinary =>
      split at made
      · cases made
      · next t found =>
        obtain ⟨args, -, made⟩ := bind_ok made
        cases made
        exact .inr ⟨t, name, args, ordinary, found, rfl⟩
  · cases made

/-- The primitives of a definition work on text, whatever transforms the catalog has. -/
theorem Assembly.operations_textual {c : Catalog} {es : List Entry} {ops : List Operation}
    (compiled : operations c es = .ok ops) : ∀ op ∈ ops, op.Textual := by
  intro op mem
  obtain ⟨e, -, made⟩ := mapM_ok compiled op mem
  rcases operation_eq made with ⟨p, args, rfl⟩ | ⟨t, name, args, ordinary, -, rfl⟩
  · exact fun _ _ => ⟨rfl, rfl⟩
  · intro p primitive
    exact absurd (ordinary.symm.trans primitive) (Option.some_ne_none p).symm

/-- An operation of a definition with a transform has one of the catalog, and its types. -/
theorem Assembly.operations_handled {c : Catalog} {es : List Entry} {ops : List Operation}
    (compiled : operations c es = .ok ops) : ∀ op ∈ ops, ∀ t, op.transform = some t →
      op.input = t.input ∧ op.output = t.output ∧ t ∈ c.transforms := by
  intro op mem
  obtain ⟨e, -, made⟩ := mapM_ok compiled op mem
  rcases operation_eq made with ⟨p, args, rfl⟩ | ⟨t, name, args, -, found, rfl⟩
  · exact fun t none => by cases none
  · intro t' same
    obtain rfl : t = t' := Option.some.inj same
    exact ⟨rfl, rfl, List.mem_of_find?_eq_some found⟩

/-- What is made of the entries of a definition keeps to the types as its transforms do. -/
theorem Assembly.operations_keep {Of : Kind → Value → Prop} {Arg : Value → Prop} {c : Catalog}
    {es : List Entry} {ops : List Operation} (compiled : operations c es = .ok ops)
    (keeps : ∀ op ∈ ops, ∀ t, op.transform = some t → t.Keeps Of Arg)
    (args : ∀ op ∈ ops, ∀ a ∈ op.args, Arg a) : ∀ op ∈ ops, op.Keeps Of Arg := by
  intro op mem
  refine ⟨operations_textual compiled op mem, fun t handler => ?_, args op mem⟩
  obtain ⟨input, output, -⟩ := operations_handled compiled op mem t handler
  exact ⟨input, output, keeps op mem t handler⟩

/-- What is made of the entries of a definition is sound. -/
theorem Assembly.operations_sound {c : Catalog} {es : List Entry} {ops : List Operation}
    (faithful : c.Faithful) (compiled : operations c es = .ok ops) : ∀ op ∈ ops, op.Sound := by
  intro op mem
  refine ⟨operations_textual compiled op mem, fun t handler => ?_⟩
  obtain ⟨input, output, known⟩ := operations_handled compiled op mem t handler
  exact ⟨input, output, faithful t known⟩

theorem Operation.produce_ok {op : Operation} {v : Value} {d : Dish} (made : op.produce v = .ok d) :
    ∃ out, op.apply v = .ok out ∧ Dish.set out op.output = .ok d := by
  unfold Operation.produce at made
  obtain ⟨out, applied, made⟩ := bind_ok made
  refine ⟨out, applied, ?_⟩
  -- Setting the dish can only fail with a fault of its own.
  cases set : Dish.set out op.output with
  | error e =>
    rw [set] at made
    cases made
  | ok d' =>
    rw [set] at made
    cases made
    rfl

/-- What an operation that keeps to the types makes of a value of its input type is a dish of a known
type. -/
theorem Operation.Keeps.produce {Of : Kind → Value → Prop} {Arg : Value → Prop} {op : Operation} {k : Kind}
    {v : Value} {d : Dish} (keeps : op.Keeps Of Arg) (sense : Kind.Sense Of Arg)
    (known : Kind.ofTag? op.input = some k) (here : Of k v) (made : op.produce v = .ok d) : d.OfType Of := by
  obtain ⟨out, applied, set⟩ := op.produce_ok made
  unfold Operation.apply at applied
  split at applied
  · cases applied
  · split at applied
    · cases applied
    · next t handler =>
      obtain ⟨input, output, keeping⟩ := keeps.transform t handler
      apply Dish.set_ofType sense _ set
      intro k' known'
      rw [input] at known
      rw [output] at known'
      exact keeping.makes k k' v op.args out known known' here keeps.args applied

end Kitchen
