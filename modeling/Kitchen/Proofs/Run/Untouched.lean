import Kitchen.Proofs.Run.Growth
import Kitchen.Proofs.Run.Stops
import Kitchen.Proofs.Run.Typing

/-!
What a failure that breaks an execution leaves of it. Primitives fail before they change anything, and the
tranches of a Fork change nothing outside but the ledger.
-/
namespace Kitchen.Run.Machine

variable {run : Machine → Stop × Machine} {start i : Int} {op : Operation} {m k : Machine}

-- What is left of a machine `m` that failed to carry out an operation: the dish was turned to the type that the
-- operation asks for, if anything, and of the frame the cursor may have been moved.
structure Untouched (op : Operation) (m k : Machine) : Prop where
  ops : k.ops = m.ops
  dish : k.dish = m.dish ∨ ∃ v, m.dish.get op.input = .ok (v, k.dish)
  frame : k.frame = { m.frame with cursor := k.frame.cursor }
  last : k.last = m.last

theorem Untouched.refl (op : Operation) (m : Machine) : Untouched op m m :=
  ⟨rfl, .inl rfl, rfl, rfl⟩

/-- A primitive that looks at its dish as text finds it turned to text already. -/
theorem decided_dish {o : Outlook} {p : Primitive} {v : Value} {d d' : Dish}
    {r : Except Failure Deed} (input : op.input = "string") (get : m.dish.get op.input = .ok (v, d))
    (decided : Deed.ofPrimitive o op d p = (r, d')) : d' = d := by
  rw [input] at get
  have again := Dish.get_again get
  rcases Deed.ofPrimitive_dish o op d p with same | ⟨w, turned⟩
  · rw [decided] at same
    exact same
  · rw [decided, again] at turned
    cases turned
    rfl

theorem Acts.untouched {f : Failure} (textual : op.Textual) (acts : m.Acts i op (.error f) k) :
    Untouched op m k := by
  generalize hr : Except.error f = r at acts
  cases acts with
  | unreadable get => exact .refl op m
  | refused ordinary get made => exact ⟨rfl, .inr ⟨_, get⟩, rfl, rfl⟩
  | declined primitive other get decided =>
    -- It may have looked at the dish as text before it declined, but the dish is text by then.
    have kept := decided_dish (textual _ primitive).1 get decided
    rw [← kept] at get
    exact ⟨rfl, .inr ⟨_, get⟩, rfl, rfl⟩
  | _ => cases hr

theorem Serves.untouched {halt : Halt} (serves : m.Serves run i op (.error halt) k) :
    Untouched op m k := by
  generalize hr : Except.error halt = r at serves
  cases serves with
  | unsplit get cut => exact ⟨rfl, .inr ⟨_, get⟩, rfl, rfl⟩
  | halted get cut served => exact ⟨rfl, .inr ⟨_, get⟩, rfl, rfl⟩
  | unset get cut served set => exact ⟨rfl, .inr ⟨_, get⟩, rfl, rfl⟩
  | joined get cut served set => cases hr

/-- An operation that is kept from its end leaves all but its dish and the cursor untouched; only a Fork
adds to the ledger. -/
theorem Halts.untouched {halt : Halt} (growing : Growing run) (textual : op.Textual)
    (halts : m.Halts run i op halt k) :
    Untouched op m k ∧ m.ledger.Grows k.ledger ∧
      (op.primitive? ≠ some .fork → k.ledger = m.ledger) := by
  cases halts with
  | acts acts =>
    exact ⟨acts.untouched textual, acts.grows, fun _ => acts.failed_ledger⟩
  | serves fork serves =>
    exact ⟨serves.untouched, serves.grows growing, fun other => absurd fork other⟩

/-- A failure that breaks an execution leaves it as it was. Wherever an execution of a compiled recipe is
broken, at any nesting, it had come to an operation that it then set about, and it has the same
operations with the same arguments, number of jumps and of captured texts as it had before; its dish
was turned to the type that the operation asks for, if anything. One more step was counted; further
steps and captured texts come from the tranches of a Fork. -/
theorem broken_untouched {c : Catalog} {es : List Entry} {ops : List Operation} {dish : Dish}
    {limit : Option Int} {start start' : Int} {m k : Machine} {b : Breakdown}
    (compiled : Assembly.operations c es = .ok ops)
    (arises : Arises start (fresh ops dish limit) start' m)
    (broken : m.run start' = (.broken b, k)) :
    ∃ n k₀ op, Passes start' m n b.place k₀ ∧ k₀.Ready start' b.place op ∧
      k.ops = k₀.ops ∧
      (k.dish = k₀.dish ∨ ∃ v, k₀.dish.get op.input = .ok (v, k.dish)) ∧
      k.frame = { k₀.frame with cursor := k.frame.cursor } ∧ k.last = k₀.last ∧
      k₀.ledger.registers <+: k.ledger.registers ∧ k₀.ledger.steps + 1 ≤ k.ledger.steps ∧
      (op.primitive? ≠ some .fork →
        k.ledger.registers = k₀.ledger.registers ∧ k.ledger.steps = k₀.ledger.steps + 1) := by
  obtain ⟨n, i, k₀, passes, ended⟩ := run_passes broken Stop.noConfusion
  obtain ⟨rfl, op, halt, ready, halts, -⟩ := (rounds_iff.mpr ended).broke
  -- References are filled in on the way here, but no operation comes to ask for another type.
  have textual : op.Textual := by
    have all := arises.all Operation.Textual.akin (Assembly.operations_textual compiled)
    exact passes.all Operation.Textual.akin all op (opAt_mem ready.here)
  obtain ⟨untouched, grows, own⟩ := halts.untouched growth.upholds_run textual
  refine ⟨n, k₀, op, passes, ready, untouched.ops, untouched.dish, untouched.frame,
    untouched.last, grows.registers, grows.steps, ?_⟩
  intro other
  rw [own other]
  exact ⟨rfl, rfl⟩

/-- Both tranches of the Fork captured a text before it was broken, and its list is as it was. -/
theorem broken_untouched_snared : Assembly.operations .standard
      [⟨.text "Fork", [.text ",", .text ";"], false, false⟩, ⟨.text "Register", [.text "(.+)"], false, false⟩,
        ⟨.text "Label", [.text "x"], false, false⟩,
        ⟨.text "Conditional Jump", [.text "$R0", .bool true, .text "x"], false, false⟩] = .ok snare ∧
    ∃ n k₀ k, snared.run 0 = (.broken unclosed, k) ∧ Passes 0 snared n 0 k₀ ∧ k.ops = k₀.ops ∧
      k.frame = { k₀.frame with cursor := k.frame.cursor } ∧
      k.ledger.registers = ["a", "("].map Text.Glyph.ofText := by
  have compiled : Assembly.operations .standard
      [⟨.text "Fork", [.text ",", .text ";"], false, false⟩, ⟨.text "Register", [.text "(.+)"], false, false⟩,
        ⟨.text "Label", [.text "x"], false, false⟩,
        ⟨.text "Conditional Jump", [.text "$R0", .bool true, .text "x"], false, false⟩] = .ok snare := rfl
  have broken : (snared.run 0).1 = .broken unclosed := by decide +kernel
  have registers : (snared.run 0).2.ledger.registers = ["a", "("].map Text.Glyph.ofText := by decide +kernel
  have ran : snared.run 0 = (.broken unclosed, (snared.run 0).2) := Prod.ext broken rfl
  obtain ⟨n, k₀, op, passes, -, ops, -, frame, -⟩ := broken_untouched compiled .outermost ran
  exact ⟨compiled, n, k₀, _, ran, passes, ops, frame, registers⟩

end Kitchen.Run.Machine
