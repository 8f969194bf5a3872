import Kitchen.Proofs.Assembly.Settling
import Kitchen.Proofs.Run.Budget
import Kitchen.Proofs.Run.Faults

/-!
Arguments keep their shape from the definition to the end of every run. When operations are made, what is
missing is filled up; when references are filled in, texts stay texts, and all else stays as it is. So
nothing that takes the arguments apart ever finds too few of them.
-/
namespace Kitchen

namespace Transform

variable {f : Failure}

theorem refuseMalformed_enough (enough : f.isTooFew = false) :
    (refuseMalformed f).isTooFew = false := by
  unfold refuseMalformed
  split
  · split <;> rfl
  · exact enough

theorem fill_enough {replacement : Value} {pieces : List Pattern.Piece}
    (failed : fill replacement pieces = .error f) : f.isTooFew = false := by
  unfold fill at failed
  split at failed
  · cases failed
  · cases failed
  · split at failed
    · cases failed
      rfl
    · cases failed

theorem pattern_enough {needle : Needle} {mode : Pattern.Mode}
    (failed : needle.pattern mode = .error f) : f.isTooFew = false := by
  unfold Needle.pattern at failed
  split at failed
  · obtain ⟨g, -, rfl⟩ := mapError_error failed
    rfl
  · cases failed
    rfl
  · exact Failure.isTooFew_of_isOrdinary (Pattern.ofValue_ordinary failed)

theorem replaceIn_enough {needle : Needle} {replacement v : Value} {everywhere : Bool}
    {mode : Pattern.Mode} (failed : replaceIn needle replacement everywhere mode v = .error f) :
    f.isTooFew = false := by
  unfold replaceIn at failed
  split at failed
  · cases failed
  · rcases bind_error failed with failed | ⟨p, -, failed⟩
    · obtain ⟨g, pattern, rfl⟩ := mapError_error failed
      exact refuseMalformed_enough (pattern_enough pattern)
    · rcases bind_error failed with failed | ⟨s, -, failed⟩
      · exact Failure.isTooFew_of_isOrdinary (Pattern.subject_ordinary failed)
      · rcases bind_error failed with failed | ⟨cs, -, failed⟩
        · exact fill_enough failed
        · cases failed

end Transform

theorem Transform.findReplace_enough {v : Value} {args : List Value} {f : Failure}
    (enough : 5 ≤ args.length) (failed : findReplace.run v args = .error f) : f.isTooFew = false := by
  obtain ⟨find, more, rfl, four⟩ := cons_of_enough enough
  obtain ⟨replacement, more, rfl, three⟩ := cons_of_enough four
  obtain ⟨everywhere, more, rfl, two⟩ := cons_of_enough three
  obtain ⟨ignoreCase, more, rfl, one⟩ := cons_of_enough two
  obtain ⟨multiline, more, rfl, -⟩ := cons_of_enough one
  exact replaceIn_enough failed

namespace Operation

variable {op a b : Operation}

def Filled (op : Operation) : Prop :=
  op.defaults.length ≤ op.args.length

theorem Filled.akin (akin : a.Akin b) (filled : a.Filled) : b.Filled := by
  have defaults : b.defaults = a.defaults := by
    unfold defaults
    rw [akin.primitive, akin.rest]
  unfold Filled
  rw [defaults, ← akin.args.length_eq]
  exact filled

-- Whatever the arguments are taken apart for, there are enough of them: for what a primitive decides on, for
-- the tranches of a Fork, and for what is found and replaced.
structure Supplied (op : Operation) : Prop where
  decides : ∀ p, op.primitive? = some p → ∀ o d f,
    (Run.Deed.ofPrimitive o op d p).1 = .error f → f.isTooFew = false
  splits : op.primitive? = some .fork → ∀ (m : Run.Machine) f,
    (m.split op).1 = .error f → f.isTooFew = false
  replaces : op.transform = some .findReplace → ∀ v f, op.apply v = .error f → f.isTooFew = false

theorem Filled.supplied (filled : op.Filled) : op.Supplied := by
  have enough : ∀ p, op.primitive? = some p → p.defaults.length ≤ op.args.length := by
    intro p primitive
    unfold Filled defaults at filled
    rw [primitive] at filled
    exact filled
  constructor
  -- A Fork has three defaults, and what finds and replaces has five.
  case decides =>
    intro p primitive o d f failed
    rcases Run.Deed.ofPrimitive_fault failed with ordinary | short
    · exact Failure.isTooFew_of_isOrdinary ordinary
    · exact absurd (enough p primitive) (Nat.not_le.mpr short.fewer)
  case splits =>
    intro fork m f failed
    rcases Run.Machine.split_fault failed with ordinary | short
    · exact Failure.isTooFew_of_isOrdinary ordinary
    · exact absurd (enough .fork fork) (Nat.not_le.mpr short.fewer)
  case replaces =>
    intro handler v f failed
    unfold apply at failed
    split at failed
    · cases failed
      rfl
    · next ordinary =>
      have none : op.primitive? = none := by simpa using ordinary
      have five : 5 ≤ op.args.length := by
        unfold Filled defaults at filled
        rw [none, handler] at filled
        exact filled
      rw [handler] at failed
      exact Transform.findReplace_enough five failed

end Operation

namespace Run.Machine

variable {run : Machine → Stop × Machine} {start start' i : Int} {m m' k child : Machine}
  {ops ops' ops'' : List Operation}

-- A stretch of a list of operations, with references filled in.
def Stretch (ops ops' : List Operation) : Prop :=
  ∃ first, first <:+: ops ∧ OpsAkin first ops'

theorem Stretch.trans (stretch : Stretch ops ops') (akin : OpsAkin ops' ops'') : Stretch ops ops'' := by
  obtain ⟨first, within, akin'⟩ := stretch
  exact ⟨first, within, akin'.trans akin⟩

theorem Stretch.part (stretch : Stretch ops ops') (within : ops'' <:+: ops') : Stretch ops ops'' := by
  obtain ⟨first, within', akin⟩ := stretch
  obtain ⟨before, after, rfl⟩ := within
  rw [List.append_assoc] at akin
  -- What is before the part and what is after it is left out of the first list as well.
  have behind : OpsAkin (first.drop before.length) (ops'' ++ after) :=
    List.forall₂_drop_append _ _ _ akin
  have here : OpsAkin ((first.drop before.length).take ops''.length) ops'' :=
    List.forall₂_take_append _ _ _ behind
  refine ⟨_, ?_, here⟩
  have front := (List.take_prefix ops''.length (first.drop before.length)).isInfix
  exact (front.trans (List.drop_suffix before.length first).isInfix).trans within'

theorem Stretch.all {P : Operation → Prop} (keeps : ∀ {a b : Operation}, a.Akin b → P a → P b)
    (all : ∀ op ∈ ops, P op) (stretch : Stretch ops ops') : ∀ op ∈ ops', P op := by
  obtain ⟨first, within, akin⟩ := stretch
  intro op mem
  obtain ⟨op₀, mem₀, same⟩ := akin.back mem
  exact keeps same (all op₀ (within.subset mem₀))

/-- A Fork runs a stretch of its list. -/
theorem Opens.stretch (opens : m.Opens (Machine.run 0) start i child) : child.ops <:+: m.ops := by
  cases opens with
  | @intro op v d s _ ready fork get cut opens =>
    obtain ⟨separator, delimiter, ignoring, more, w, parts, -, -, -, rfl⟩ := split_ok cut
    rw [opens.ops regular_run.shape]
    have front := (List.takeWhile_prefix (fun op => !op.does .merge)
      (l := ((m.enter i op).forking i d).rest)).isInfix
    exact front.trans (List.drop_suffix _ _).isInfix

-- An execution comes by with a machine, or leaves it where it ends.
inductive Visits (start : Int) (m : Machine) : Machine → Prop where
  | during {n : Nat} {i : Int} {k : Machine} (passes : Passes start m n i k) : Visits start m k
  | after : Visits start m (m.run start).2

theorem Visits.akin (visits : Visits start m k) : OpsAkin m.ops k.ops := by
  cases visits with
  | during passes => exact shape.passes trivial passes
  | after => exact shape.run trivial

/-- Whatever arises in an execution has a stretch of the operations that the execution began with. -/
theorem Arises.stretch (akin : OpsAkin ops m.ops) (arises : Arises start m start' m') :
    Stretch ops m'.ops := by
  induction arises with
  | outermost => exact ⟨ops, List.infix_rfl, akin⟩
  | tranche outer passes opens ih =>
    -- What was filled in before the Fork is still there when its tranches begin.
    have here : Stretch ops _ := ih.trans (Visits.during passes).akin
    exact here.part opens.stretch

/-- Arguments keep their shape. An operation that is made of an entry has an argument for every default; the
given ones stand first, unchanged but for texts that became whole numbers, then the defaults of those that
are missing; and made of these arguments again it is the same. Wherever an execution of the operations
comes by and where it ends, at any nesting, it has a stretch of them: with as many arguments each, of which
texts are still texts, maps differ at most in their needle, and all others are the same. So there are always
enough to take apart, and after a run the same holds of the next one. -/
theorem arguments_shaped {c : Catalog} {es : List Entry} {ops : List Operation}
    (compiled : Assembly.operations c es = .ok ops) :
    List.Forall₂ (Assembly.Fills c) es ops ∧
    ∀ m : Machine, OpsAkin ops m.ops → ∀ start : Int,
      OpsAkin ops (m.run start).2.ops ∧
      ∀ start' m' k, Arises start m start' m' → Visits start' m' k →
        Stretch ops k.ops ∧ ∀ op ∈ k.ops, op.Supplied := by
  have fills := Assembly.operations_fill compiled
  have filled : ∀ op ∈ ops, op.Filled := by
    intro op mem
    obtain ⟨e, -, made⟩ := mapM_ok compiled op mem
    exact (Assembly.operation_fills made).enough
  refine ⟨fills, fun m akin start => ⟨akin.trans Visits.after.akin, fun start' m' k arises visits => ?_⟩⟩
  have stretch : Stretch ops k.ops := (arises.stretch akin).trans visits.akin
  refine ⟨stretch, fun op mem => ?_⟩
  exact (stretch.all Operation.Filled.akin filled op mem).supplied

def mimic : List Entry :=
  [⟨.text "Register", [.text "(.+)"], false, false⟩, ⟨.text "Jump", [.text "x", .text " 2 "], false, false⟩,
    ⟨.text "Find / Replace", [.map [(.text "string", .text "$R0")]], false, false⟩]

def mimicked : List Operation :=
  [⟨"Register", [.text "(.+)", .bool true, .bool false], "string", "string", false, false, none⟩,
    ⟨"Jump", [.text "x", .int 2], "string", "string", false, false, none⟩,
    ⟨"Find / Replace", [.map [(.text "string", .text "$R0")], .text "", .bool true, .bool false,
      .bool true], "string", "string", false, false, some .findReplace⟩]

/-- The budget that was given as text is a number, and the run fills in the needle of the map. -/
theorem arguments_shaped_mimicked : Assembly.operations .standard mimic = .ok mimicked ∧
    OpsAkin mimicked (fresh mimicked ⟨.text "a", "string"⟩ none).ops ∧
    ((fresh mimicked ⟨.text "a", "string"⟩ none).run 0).2.ops.map (·.args.map Value.plain) =
      [["(.+)", "True", "False"], ["x", "2"], ["\x7b'string': 'a'\x7d", "", "True", "False", "True"]] ∧
    OpsAkin mimicked ((fresh mimicked ⟨.text "a", "string"⟩ none).run 0).2.ops ∧
    ∀ op ∈ ((fresh mimicked ⟨.text "a", "string"⟩ none).run 0).2.ops, op.Supplied := by
  have compiled : Assembly.operations .standard mimic = .ok mimicked := rfl
  have args : ((fresh mimicked ⟨.text "a", "string"⟩ none).run 0).2.ops.map (·.args.map Value.plain) =
      [["(.+)", "True", "False"], ["x", "2"],
        ["\x7b'string': 'a'\x7d", "", "True", "False", "True"]] := by decide +kernel
  have akin : OpsAkin mimicked (fresh mimicked ⟨.text "a", "string"⟩ none).ops := OpsAkin.refl mimicked
  obtain ⟨-, runs⟩ := arguments_shaped compiled
  obtain ⟨kept, visited⟩ := runs _ akin 0
  have supplied := (visited 0 _ _ .outermost .after).2
  exact ⟨compiled, akin, args, kept, supplied⟩

end Run.Machine

end Kitchen
