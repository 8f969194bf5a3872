import Kitchen.Proofs.Run.Contract
import Kitchen.Proofs.Value.Akin

namespace Kitchen

namespace Operation

-- An operation before and after references were filled in its arguments.
structure Akin (a b : Operation) : Prop where
  rest : b = { a with args := b.args }
  args : List.Forall₂ Value.Akin a.args b.args

theorem Akin.refl (a : Operation) : a.Akin a :=
  ⟨rfl, List.forall₂_same.mpr fun v _ => .refl v⟩

theorem Akin.trans {a b c : Operation} (h : a.Akin b) (h' : b.Akin c) : a.Akin c := by
  refine ⟨?_, forall₂_trans (fun h h' => h.trans h') h.args h'.args⟩
  rw [h'.rest, h.rest]

theorem Akin.name {a b : Operation} (h : a.Akin b) : b.name = a.name := by
  rw [h.rest]

theorem Akin.disabled {a b : Operation} (h : a.Akin b) : b.disabled = a.disabled := by
  rw [h.rest]

theorem Akin.pauses {a b : Operation} (h : a.Akin b) : b.pauses = a.pauses := by
  rw [h.rest]

theorem Akin.primitive {a b : Operation} (h : a.Akin b) : b.primitive? = a.primitive? := by
  rw [primitive?, h.name, primitive?]

theorem Akin.does {a b : Operation} (h : a.Akin b) (p : Primitive) : b.does p = a.does p := by
  rw [Operation.does, h.primitive, h.disabled, Operation.does]

theorem does_iff {op : Operation} {p : Primitive} :
    op.does p = true ↔ op.primitive? = some p ∧ op.disabled = false := by
  rw [does, Bool.and_eq_true, beq_iff_eq, Bool.not_eq_true']

end Operation

namespace Run.Machine

-- Operations before and after references were filled in them.
abbrev OpsAkin (ops ops' : List Operation) : Prop := List.Forall₂ Operation.Akin ops ops'

theorem OpsAkin.refl (ops : List Operation) : OpsAkin ops ops :=
  List.forall₂_same.mpr fun op _ => .refl op

theorem OpsAkin.trans {ops ops' ops'' : List Operation} (h : OpsAkin ops ops')
    (h' : OpsAkin ops' ops'') : OpsAkin ops ops'' :=
  forall₂_trans (fun h h' => h.trans h') h h'

theorem OpsAkin.back {ops ops' : List Operation} {op : Operation} (akin : OpsAkin ops ops')
    (mem : op ∈ ops') : ∃ op₀ ∈ ops, op₀.Akin op := by
  obtain ⟨n, there⟩ := List.mem_iff_getElem?.mp mem
  obtain ⟨op₀, first, same⟩ := forall₂_back akin there
  exact ⟨op₀, List.mem_of_getElem? first, same⟩

theorem resolveArgs_akin (c : Reference.Capture) (op : Operation) : op.Akin (resolveArgs c op) := by
  unfold resolveArgs
  split
  · exact .refl op
  · refine ⟨rfl, ?_⟩
    rw [List.forall₂_map_right_iff]
    exact List.forall₂_same.mpr fun v _ => c.resolveValue_akin v

theorem capture_akin (m : Machine) (texts : List (List Text.Glyph)) :
    OpsAkin m.ops (m.capture texts).ops := by
  -- Before the cursor nothing is filled in.
  have rest : OpsAkin (m.ops.drop (follows m.ops.length m.frame.cursor))
      ((m.ops.drop (follows m.ops.length m.frame.cursor)).map
        (resolveArgs ⟨m.frame.addressable, texts⟩)) := by
    rw [OpsAkin, List.forall₂_map_right_iff]
    exact List.forall₂_same.mpr fun op _ => resolveArgs_akin _ op
  have joined : OpsAkin (_ ++ _) (_ ++ _) :=
    List.rel_append (OpsAkin.refl (m.ops.take (follows m.ops.length m.frame.cursor))) rest
  rwa [List.take_append_drop] at joined

theorem enact_akin (m : Machine) (deed : Deed) : OpsAkin m.ops (m.enact deed).ops := by
  cases deed with
  | capture texts => exact m.capture_akin texts
  | _ => exact .refl _

variable {run : Machine → Stop × Machine} {start i : Int} {op : Operation} {m k : Machine}

theorem Acts.akin {r : Except Failure Int} (acts : m.Acts i op r k) : OpsAkin m.ops k.ops := by
  cases acts with
  | @enacted p v d d' deed => exact enact_akin { m.moveTo i with dish := d' } deed
  | _ => exact .refl _

/-- A Fork leaves the operations of its own list as they are. -/
theorem Serves.ops {r : Except Halt Int} (serves : m.Serves run i op r k) : k.ops = m.ops := by
  cases serves <;> rfl

/-- Executions keep the shape of their operations. -/
theorem shape : Contract (fun _ _ => True) (fun _ m _ k => OpsAkin m.ops k.ops)
    (fun _ m _ k => OpsAkin m.ops k.ops) where
  unbegun _ := .refl _
  begins _ := .refl _
  unended inv := inv
  opens _ _ _ := trivial
  round {run start m i k t} _ inv rounds := by
    cases rounds with
    | failed ready acts => exact conclude_meets fun _ _ => OpsAkin.trans inv acts.akin
    | acted ready acts => exact OpsAkin.trans inv acts.akin
    | @halted op halt k' ready fork serves =>
      refine conclude_meets fun stop d => ?_
      change OpsAkin m.ops k'.ops
      rw [serves.ops]
      exact inv
    | @served op j k' ready fork serves =>
      change OpsAkin m.ops k'.ops
      rw [serves.ops]
      exact inv
    | _ => exact inv

def KeepsShape (run : Machine → Stop × Machine) : Prop :=
  ∀ n, OpsAkin n.ops (run n).2.ops

namespace Split

variable {s : Split} {ledger : Ledger} {child : Machine}

/-- Whatever a tranche left of the operations, they are restored from it. -/
theorem restore_akin {ops : List Operation} (h : OpsAkin s.body ops) : s.restore ops = s.body := by
  unfold restore
  generalize s.body = body at h
  induction h with
  | nil => rfl
  | cons first _ ih =>
    rw [List.zipWith_cons_cons, ih, first.rest]

theorem Serve.akin (keeps : KeepsShape run) {number : Nat} {v : Value} {h h' : Harvest}
    {halt : Option Halt} (akin : OpsAkin s.body h.ops) (serve : s.Serve run number v h halt h') :
    OpsAkin s.body h'.ops := by
  cases serve with
  | @brought dish d stop m progress w made ran reach get =>
    have kept := keeps (s.next number dish h)
    rw [ran] at kept
    change OpsAkin (s.restore h.ops) m.ops at kept
    -- The tranche began with the operations of the Fork, not with those that the last one left.
    rw [restore_akin akin] at kept
    exact kept
  | _ => exact akin

/-- Before each tranche the operations have the shape that they had when the Fork began. -/
theorem serveAll_akin (keeps : KeepsShape run) (number : Nat) (vs : List Value) {h h' : Harvest}
    {halt : Option Halt} (akin : OpsAkin s.body h.ops)
    (served : s.serveAll run number vs h = (halt, h')) : OpsAkin s.body h'.ops := by
  apply serveAll_keeps (fun h => OpsAkin s.body h.ops) _ number vs akin served
  intro number v h halt h' akin serve
  exact serve.akin keeps akin

/-- Every tranche starts with the operations that the Fork began with. -/
theorem Opens.ops (keeps : KeepsShape run) (opens : s.Opens run ledger child) :
    child.ops = s.body := by
  cases opens with
  | intro parts served made =>
    exact restore_akin (serveAll_akin keeps 1 _ (OpsAkin.refl s.body) served)

end Split

end Run.Machine

end Kitchen
