import Kitchen.Assembly
import Kitchen.Proofs.Outcome

namespace Kitchen

def Operation.defaults (op : Operation) : List Value :=
  match op.primitive? with
  | some p => p.defaults
  | none => (op.transform.map (·.defaults)).getD []

-- An operation is known by its name, with these defaults: a primitive, or a transform of the catalog.
inductive Catalog.Knows (c : Catalog) : String → List Value → Prop where
  | primitive (p : Primitive) : Knows c p.name p.defaults
  | transform {name : String} {t : Transform} (found : c.find? name = some t) : Knows c name t.defaults

theorem Primitive.name_of_ofName {name : String} {p : Primitive} (known : ofName? name = some p) :
    p.name = name := by
  simpa using List.find?_some known

namespace Assembly

def Owed (default : Option Value) (arg : Value) : Prop :=
  (∃ d, default = some (.int d)) ∧ arg.isText

def Denotes (arg : Value) (n : Int) : Prop :=
  ∃ s, arg = .text s ∧ Number.readInteger (Text.strip s.toList) = .ok n

-- What an argument becomes at a place with a default, or without one: the whole number that its text says where
-- the default is one, and otherwise itself.
inductive Settles : Option Value → Value → Value → Prop where
  | read {d n : Int} {arg : Value} (denotes : Denotes arg n) : Settles (some (.int d)) arg (.int n)
  | kept {default : Option Value} {arg : Value} (free : ¬Owed default arg) : Settles default arg arg

-- Arguments before and after they were settled: the given ones stand first, each as it became at its place, and
-- defaults stand where none was given.
structure Settled (defaults args settled : List Value) : Prop where
  given : ∀ (i : Nat) (v : Value), args[i]? = some v → ∃ w, settled[i]? = some w ∧ Settles defaults[i]? v w
  missing : ∀ i : Nat, args.length ≤ i → settled[i]? = defaults[i]?

variable {name : String} {place : Nat} {d a w : Value} {defaults args settled : List Value}

theorem settles_nothing (v : Value) : Settles none v v :=
  .kept fun owed => owed.1.elim nofun

theorem settle_ok (made : settle name place d a = .ok w) : Settles (some d) a w := by
  unfold settle at made
  split at made
  · split at made
    · next read =>
      cases made
      exact .read ⟨_, rfl, read⟩
    · cases made
  · cases made
  · next other other' =>
    cases made
    refine .kept fun owed => ?_
    obtain ⟨⟨d', number⟩, text⟩ := owed
    cases a with
    | text s => exact other d' s (Option.some.inj number) rfl
    | torn t => exact other' d' t (Option.some.inj number) rfl
    | _ => cases text

theorem settle_error {f : Definition.Fault} (made : settle name place d a = .error f) :
    Owed (some d) a ∧ (∀ n, ¬Denotes a n) ∧ f = .notWhole name place a := by
  unfold settle at made
  split at made
  · next d' s =>
    split at made
    · cases made
    · next unread =>
      cases made
      refine ⟨⟨⟨d', rfl⟩, rfl⟩, fun n denotes => ?_, rfl⟩
      obtain ⟨s', same, read⟩ := denotes
      cases same
      rw [unread] at read
      cases read
  · next d' t =>
    cases made
    refine ⟨⟨⟨d', rfl⟩, rfl⟩, fun n denotes => ?_, rfl⟩
    obtain ⟨s, same, -⟩ := denotes
    cases same
  · cases made

/-- What was settled owes nothing any more. -/
theorem Settles.settle (settles : Settles (some d) a w) (name : String) (place : Nat) :
    settle name place d w = .ok w := by
  cases settles with
  | read => rfl
  | kept free =>
    unfold Assembly.settle
    split
    · next d' s => exact absurd ⟨⟨d', rfl⟩, rfl⟩ free
    · next d' t => exact absurd ⟨⟨d', rfl⟩, rfl⟩ free
    · rfl

theorem settle_own (name : String) (place : Nat) (d : Value) : settle name place d d = .ok d := by
  cases d <;> rfl

/-- In front of settled arguments, one that was settled as well. -/
theorem Settled.cons (first : Settles (some d) a w) (rest : Settled defaults args settled) :
    Settled (d :: defaults) (a :: args) (w :: settled) := by
  constructor
  case given =>
    intro i v here
    cases i with
    | zero =>
      obtain rfl : a = v := Option.some.inj here
      exact ⟨w, rfl, first⟩
    | succ i => exact rest.given i v here
  case missing =>
    intro i beyond
    cases i with
    | zero => exact absurd beyond (Nat.not_succ_le_zero _)
    | succ i => exact rest.missing i (Nat.le_of_succ_le_succ beyond)

theorem settleAll_ok (made : settleAll name place defaults args = .ok settled) :
    Settled defaults args settled := by
  induction defaults generalizing place args settled with
  | nil =>
    -- Arguments beyond the defaults are kept.
    rw [settleAll] at made
    cases made
    refine ⟨fun i v here => ⟨v, here, settles_nothing v⟩, fun i beyond => ?_⟩
    rw [List.getElem?_eq_none beyond]
    rfl
  | cons d ds ih =>
    cases args with
    | nil =>
      rw [settleAll] at made
      · cases made
        exact ⟨fun i v here => absurd here (Option.some_ne_none v).symm, fun i beyond => rfl⟩
      · exact List.cons_ne_nil d ds
    | cons a args =>
      rw [settleAll] at made
      obtain ⟨w, first, made⟩ := bind_ok made
      obtain ⟨ws, rest, made⟩ := bind_ok made
      cases made
      exact (ih rest).cons (settle_ok first)

/-- An argument that is not settled is a text at the place of a whole number, and cannot be read as one. -/
theorem settleAll_error {f : Definition.Fault} (made : settleAll name place defaults args = .error f) :
    ∃ i v, Owed defaults[i]? v ∧ args[i]? = some v ∧ (∀ n, ¬Denotes v n) ∧
      f = .notWhole name (place + i) v := by
  induction defaults generalizing place args with
  | nil =>
    rw [settleAll] at made
    cases made
  | cons d ds ih =>
    cases args with
    | nil =>
      rw [settleAll] at made
      · cases made
      · exact List.cons_ne_nil d ds
    | cons a args =>
      rw [settleAll] at made
      cases first : settle name place d a with
      | error g =>
        rw [first] at made
        cases made
        obtain ⟨owed, unread, fault⟩ := settle_error first
        exact ⟨0, a, owed, rfl, unread, fault⟩
      | ok w =>
        cases rest : settleAll name (place + 1) ds args with
        | error g =>
          rw [first, rest] at made
          cases made
          obtain ⟨i, v, owed, here, unread, fault⟩ := ih rest
          refine ⟨i + 1, v, owed, here, unread, ?_⟩
          rw [fault, Nat.add_assoc, Nat.add_comm 1]
        | ok ws =>
          rw [first, rest] at made
          cases made

theorem settleAll_own (name : String) (place : Nat) (defaults : List Value) :
    settleAll name place defaults defaults = .ok defaults := by
  induction defaults generalizing place with
  | nil => rfl
  | cons d ds ih =>
    rw [settleAll, settle_own, ih]
    rfl

/-- Settling a second time changes nothing. -/
theorem settleAll_again (made : settleAll name place defaults args = .ok settled) :
    settleAll name place defaults settled = .ok settled := by
  induction defaults generalizing place args settled with
  | nil => rfl
  | cons d ds ih =>
    cases args with
    | nil =>
      rw [settleAll] at made
      · cases made
        exact settleAll_own name place (d :: ds)
      · exact List.cons_ne_nil d ds
    | cons a args =>
      rw [settleAll] at made
      obtain ⟨w, first, made⟩ := bind_ok made
      obtain ⟨ws, rest, made⟩ := bind_ok made
      cases made
      rw [settleAll, (settle_ok first).settle, ih rest]
      rfl

/-- There is an argument for every default. -/
theorem Settled.enough (all : Settled defaults args settled) : defaults.length ≤ settled.length := by
  by_contra less
  have short : settled.length < defaults.length := Nat.lt_of_not_le less
  have none : settled[settled.length]? = none := List.getElem?_eq_none (Nat.le_refl _)
  -- What would stand after the last one was given, or is a default.
  by_cases given : settled.length < args.length
  · obtain ⟨w, here, -⟩ := all.given settled.length _ (List.getElem?_eq_getElem given)
    rw [none] at here
    cases here
  · have missing := all.missing settled.length (Nat.le_of_not_lt given)
    rw [none, List.getElem?_eq_getElem short] at missing
    cases missing

variable {c : Catalog} {e : Entry} {op : Operation}

structure Made (c : Catalog) (e : Entry) (op : Operation) : Prop where
  name : e.name = .text op.name
  disabled : op.disabled = e.disabled
  pauses : op.pauses = e.pauses
  known : c.Knows op.name op.defaults
  args : settleAll op.name 0 op.defaults e.args = .ok op.args
  likewise : ∀ args, settleAll op.name 0 op.defaults args = .ok op.args →
    operation c { e with args := args } = .ok op

theorem operation_made (made : operation c e = .ok op) : Made c e op := by
  obtain ⟨v, args, disabled, pauses⟩ := e
  cases v with
  | text name =>
    unfold operation at made
    dsimp only at made
    -- A primitive has its own defaults, and any other operation those of its transform.
    split at made
    · next p known =>
      obtain ⟨args, settled, made⟩ := bind_ok made
      cases made
      have own : Operation.defaults ⟨name, args, "string", "string", disabled, pauses, none⟩ = p.defaults := by
        unfold Operation.defaults Operation.primitive?
        rw [known]
      refine ⟨rfl, rfl, rfl, ?_, own.symm ▸ settled, fun args' settled' => ?_⟩
      · rw [own, ← Primitive.name_of_ofName known]
        exact .primitive p
      · rw [own] at settled'
        simp only [operation, known, settled']
        rfl
    · next ordinary =>
      split at made
      · cases made
      · next t found =>
        obtain ⟨args, settled, made⟩ := bind_ok made
        cases made
        have own : Operation.defaults ⟨name, args, t.input, t.output, disabled, pauses, some t⟩ =
            t.defaults := by
          unfold Operation.defaults Operation.primitive?
          rw [ordinary]
          rfl
        refine ⟨rfl, rfl, rfl, ?_, own.symm ▸ settled, fun args' settled' => ?_⟩
        · rw [own]
          exact .transform found
        · rw [own] at settled'
          simp only [operation, ordinary, found, settled']
          rfl
  | _ => cases made

/-- An operation is not made if its name is not known, or if its arguments cannot be settled. -/
theorem operation_error {f : Definition.Fault} (made : operation c e = .error f) :
    ((∀ name, e.name = .text name → ∀ defaults, ¬c.Knows name defaults) ∧ f = .unknownOperation e.name) ∨
      ∃ name defaults, e.name = .text name ∧ c.Knows name defaults ∧
        settleAll name 0 defaults e.args = .error f := by
  obtain ⟨v, args, disabled, pauses⟩ := e
  cases v with
  | text name =>
    unfold operation at made
    dsimp only at made
    split at made
    · next p known =>
      rcases bind_error made with failed | ⟨args, -, made⟩
      · have knows : c.Knows name p.defaults := Primitive.name_of_ofName known ▸ .primitive p
        exact .inr ⟨name, _, rfl, knows, failed⟩
      · cases made
    · next ordinary =>
      split at made
      · next missing =>
        cases made
        refine .inl ⟨fun name' same defaults knows => ?_, rfl⟩
        obtain rfl : name = name' := Value.text.inj same
        cases knows with
        | primitive p =>
          rw [Primitive.ofName?_name] at ordinary
          cases ordinary
        | transform found =>
          rw [missing] at found
          cases found
      · next t found =>
        rcases bind_error made with failed | ⟨args, -, made⟩
        · exact .inr ⟨name, _, rfl, .transform found, failed⟩
        · cases made
  | _ =>
    cases made
    exact .inl ⟨fun name same => (by cases same), rfl⟩

-- An operation as it was made of an entry: there is an argument for every default, the arguments are those of
-- the entry as they were settled, and made of them once more the operation is the same.
structure Fills (c : Catalog) (e : Entry) (op : Operation) : Prop where
  enough : op.defaults.length ≤ op.args.length
  settled : Settled op.defaults e.args op.args
  again : operation c { e with args := op.args } = .ok op

theorem operation_fills (made : operation c e = .ok op) : Fills c e op := by
  have parts := operation_made made
  have settled : Settled op.defaults e.args op.args := settleAll_ok parts.args
  exact ⟨settled.enough, settled, parts.likewise op.args (settleAll_again parts.args)⟩

theorem operations_fill {es : List Entry} {ops : List Operation} (made : operations c es = .ok ops) :
    List.Forall₂ (Fills c) es ops :=
  (mapM_forall₂ made).imp fun _ _ => operation_fills

end Assembly

end Kitchen
