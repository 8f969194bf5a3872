import Kitchen.Proofs.Oven.Output
import Mathlib.Algebra.Order.BigOperators.Group.List
import Mathlib.Algebra.Order.Group.Nat

/-!
An oven and its guest, one step at a time. The orders are baked one after the other, and what a bake
publishes goes into the queue at once; meanwhile the guest may ask for updates, and is handed one after
the other until the queue is found empty. However these steps come to lie, no update is lost, handed out
twice or out of its order.
-/
namespace Kitchen

open Run

-- A value to bake, with its type.
structure Order where
  value : Value
  tag : String

def Run.Event.publication? : Event → Option Publication
  | .published p => some p
  | _ => none

namespace Oven

def course (o : Oven) (order : Order) : List Event :=
  match Dish.make order.value order.tag with
  | .error _ => []
  | .ok dish => ((Machine.fresh o.ops dish o.limit).run 0).2.ledger.events.toList

-- What comes of the bake of an order.
def outcome (o : Oven) (order : Order) : Except Failure Bake :=
  (o.bake order.value order.tag).1

def hear (o : Oven) (e : Event) : Oven :=
  { o with queue := o.queue ++ e.publication?.toList }

end Oven

structure Baking where
  happened : List Event
  ahead : List Event

-- An oven with the orders that were placed and what came of those that are done. The guest may be waiting for
-- updates, and has been handed some.
structure Counter where
  oven : Oven
  orders : List Order
  results : List (Except Failure Bake)
  baking : Option Baking
  handed : Option (List Publication)
  returned : List (List Publication)

-- What can happen next at a counter.
inductive Move where
  | order (order : Order)
  | begin
  | work
  | finish
  | ask
  | hand
  | answer

namespace Counter

def opened (ops : List Operation) (limit : Option Int) : Counter :=
  ⟨Oven.preheat ops limit, [], [], none, none, []⟩

def current? (c : Counter) : Option Order :=
  c.orders[c.results.length]?

-- What a move leads to, if it can be made: there is one bake at a time and one guest, and the guest is answered
-- when the queue is empty.
def move (c : Counter) : Move → Option Counter
  | .order order => some { c with orders := c.orders ++ [order] }
  | .begin =>
    match c.baking, c.current? with
    | none, some order => some { c with baking := some ⟨[], c.oven.course order⟩ }
    | _, _ => none
  | .work =>
    match c.baking with
    | some ⟨happened, e :: ahead⟩ =>
      some { c with oven := c.oven.hear e, baking := some ⟨happened ++ [e], ahead⟩ }
    | _ => none
  | .finish =>
    match c.baking, c.current? with
    | some ⟨_, []⟩, some order =>
      some { c with baking := none, results := c.results ++ [c.oven.outcome order] }
    | _, _ => none
  | .ask =>
    match c.handed with
    | none => some { c with handed := some [] }
    | some _ => none
  | .hand =>
    match c.handed, c.oven.queue with
    | some ps, p :: queue =>
      some { c with handed := some (ps ++ [p]), oven := { c.oven with queue } }
    | _, _ => none
  | .answer =>
    match c.handed, c.oven.queue with
    | some ps, [] => some { c with handed := none, returned := c.returned ++ [ps] }
    | _, _ => none

def perform (c : Counter) : List Move → Option Counter
  | [] => some c
  | move :: moves => (c.move move).bind fun c => c.perform moves

-- Everything that the guest was handed so far.
def drained (c : Counter) : List Publication :=
  c.returned.flatten ++ c.handed.getD []

-- What was published so far: by the bakes that are done, and by the one under way.
def made (c : Counter) : List Publication :=
  (c.orders.take c.results.length).flatMap (fun order => c.oven.published order.value order.tag) ++
    (c.baking.elim [] (·.happened)).filterMap Event.publication?

-- Nothing is left to bake.
def Idle (c : Counter) : Prop :=
  c.baking = none ∧ c.results.length = c.orders.length

end Counter

theorem Run.Event.filterMap_publication? (e : Event) (es : List Event) :
    (e :: es).filterMap Event.publication? = e.publication?.toList ++ es.filterMap Event.publication? := by
  cases publication : e.publication? with
  | none => exact List.filterMap_cons_none publication
  | some p => exact List.filterMap_cons_some publication

namespace Oven

variable {o o' : Oven}

theorem published_course (o : Oven) (order : Order) :
    o.published order.value order.tag = (o.course order).filterMap Event.publication? := by
  have same : ∀ l : Ledger, l.publications = l.events.toList.filterMap Event.publication? := by
    intro l
    apply List.filterMap_congr
    intro e _
    cases e <;> rfl
  unfold published course
  cases Dish.make order.value order.tag with
  | error e => rfl
  | ok dish => exact same _

/-- What comes of a bake does not depend on what waits in the queue. -/
theorem outcome_congr (ops : o'.ops = o.ops) (limit : o'.limit = o.limit) (order : Order) :
    o'.outcome order = o.outcome order := by
  unfold outcome bake
  rw [ops, limit]
  cases Dish.make order.value order.tag with
  | error e => rfl
  | ok dish =>
    dsimp only
    generalize (Machine.fresh o.ops dish o.limit).run 0 = ended
    cases outputOf ended.2.dish <;> rfl

end Oven

namespace Counter

variable {o : Oven} {c c' : Counter} {m : Move} {moves : List Move}

inductive Steps (c : Counter) : Move → Counter → Prop where
  | order (order : Order) : Steps c (.order order) { c with orders := c.orders ++ [order] }
  | begin {order : Order} (free : c.baking = none) (next : c.current? = some order) :
      Steps c .begin { c with baking := some ⟨[], c.oven.course order⟩ }
  | work {happened ahead : List Event} {e : Event} (under : c.baking = some ⟨happened, e :: ahead⟩) :
      Steps c .work { c with oven := c.oven.hear e, baking := some ⟨happened ++ [e], ahead⟩ }
  | finish {happened : List Event} {order : Order} (under : c.baking = some ⟨happened, []⟩)
      (next : c.current? = some order) :
      Steps c .finish { c with baking := none, results := c.results ++ [c.oven.outcome order] }
  | ask (content : c.handed = none) : Steps c .ask { c with handed := some [] }
  | hand {ps queue : List Publication} {p : Publication} (waiting : c.handed = some ps)
      (front : c.oven.queue = p :: queue) :
      Steps c .hand { c with handed := some (ps ++ [p]), oven := { c.oven with queue } }
  | answer {ps : List Publication} (waiting : c.handed = some ps) (empty : c.oven.queue = []) :
      Steps c .answer { c with handed := none, returned := c.returned ++ [ps] }

theorem steps_of_move (moved : c.move m = some c') : c.Steps m c' := by
  cases m with
  | order order =>
    cases moved
    exact .order order
  | begin =>
    simp only [move] at moved
    split at moved
    · next free next =>
      cases moved
      exact .begin free next
    · cases moved
  | work =>
    simp only [move] at moved
    split at moved
    · next under =>
      cases moved
      exact .work under
    · cases moved
  | finish =>
    simp only [move] at moved
    split at moved
    · next under next =>
      cases moved
      exact .finish under next
    · cases moved
  | ask =>
    simp only [move] at moved
    split at moved
    · next content =>
      cases moved
      exact .ask content
    · cases moved
  | hand =>
    simp only [move] at moved
    split at moved
    · next waiting front =>
      cases moved
      exact .hand waiting front
    · cases moved
  | answer =>
    simp only [move] at moved
    split at moved
    · next waiting empty =>
      cases moved
      exact .answer waiting empty
    · cases moved

-- The results are those of the first orders, the bake under way is that of the next one, and what was handed
-- out and what waits in the queue is together what was published.
structure Sound (o : Oven) (c : Counter) : Prop where
  ops : c.oven.ops = o.ops
  limit : c.oven.limit = o.limit
  within : c.results.length ≤ c.orders.length
  results : c.results = (c.orders.take c.results.length).map o.outcome
  baking : ∀ b, c.baking = some b →
    ∃ order, c.current? = some order ∧ b.happened ++ b.ahead = o.course order
  balance : c.drained ++ c.oven.queue = c.made

theorem Sound.opened (ops : List Operation) (limit : Option Int) :
    Sound (Oven.preheat ops limit) (opened ops limit) where
  ops := rfl
  limit := rfl
  within := Nat.le_refl 0
  results := rfl
  baking _ under := nomatch under
  balance := rfl

theorem Sound.published (sound : Sound o c) (order : Order) :
    c.oven.published order.value order.tag = o.published order.value order.tag := by
  unfold Oven.published
  rw [sound.ops, sound.limit]

theorem Sound.course (sound : Sound o c) (order : Order) : c.oven.course order = o.course order := by
  unfold Oven.course
  rw [sound.ops, sound.limit]

/-- Once the bake of an order is done, the orders that are done are those before it and itself. -/
theorem take_results {order : Order} (next : c.current? = some order) :
    c.orders.take (c.results.length + 1) = c.orders.take c.results.length ++ [order] := by
  rw [List.take_add_one]
  exact congrArg (_ ++ Option.toList ·) next

theorem Sound.step (sound : Sound o c) (steps : c.Steps m c') : Sound o c' := by
  have balance := sound.balance
  cases steps with
  | order order =>
    have take : (c.orders ++ [order]).take c.results.length = c.orders.take c.results.length :=
      List.take_append_of_le_length sound.within
    refine { sound with within := ?_, results := ?_, baking := ?_, balance := ?_ }
    · simp only [List.length_append]
      have := sound.within
      omega
    · dsimp only
      rw [take]
      exact sound.results
    · intro b under
      obtain ⟨order', next, course⟩ := sound.baking b under
      refine ⟨order', ?_, course⟩
      unfold current? at next ⊢
      rw [List.getElem?_append_left (List.getElem?_eq_some_iff.mp next).1]
      exact next
    · unfold made at balance ⊢
      dsimp only
      rw [take]
      exact balance
  | begin free next =>
    refine { sound with baking := ?_, balance := ?_ }
    · rintro b under
      cases under
      exact ⟨_, next, sound.course _⟩
    · unfold made at balance ⊢
      rw [free] at balance
      exact balance
  | @work happened ahead e under =>
    refine { sound with baking := ?_, balance := ?_ }
    · rintro b under'
      cases under'
      obtain ⟨order, next, course⟩ := sound.baking _ under
      refine ⟨order, next, ?_⟩
      rw [List.append_assoc]
      exact course
    · unfold made at balance ⊢
      rw [under] at balance
      have heard : [e].filterMap Event.publication? = e.publication?.toList :=
        (e.filterMap_publication? []).trans (List.append_nil _)
      change c.drained ++ (c.oven.queue ++ e.publication?.toList) = _ ++ (happened ++ [e]).filterMap _
      rw [List.filterMap_append, heard, ← List.append_assoc, balance, List.append_assoc]
      rfl
  | @finish happened order under next =>
    obtain ⟨order', next', course⟩ := sound.baking _ under
    obtain rfl := Option.some.inj (next.symm.trans next')
    have published : c.oven.published order.value order.tag = happened.filterMap Event.publication? := by
      rw [Oven.published_course, sound.course, ← course, List.append_nil]
    have done : (c.results ++ [c.oven.outcome order]).length = c.results.length + 1 := by
      rw [List.length_append]
      rfl
    refine { sound with within := ?_, results := ?_, baking := ?_, balance := ?_ }
    · have := (List.getElem?_eq_some_iff.mp next).1
      dsimp only
      omega
    · dsimp only
      rw [done, take_results next, List.map_append, ← sound.results,
        Oven.outcome_congr sound.ops sound.limit]
      rfl
    · exact fun _ under => nomatch under
    · unfold made at balance ⊢
      rw [under] at balance
      dsimp only
      rw [done, take_results next, List.flatMap_append, List.flatMap_singleton, published]
      exact balance.trans (List.append_nil _).symm
  | ask content =>
    refine { sound with balance := ?_ }
    unfold drained at balance ⊢
    rw [content] at balance
    exact balance
  | @hand ps queue p waiting front =>
    refine { sound with balance := ?_ }
    unfold drained at balance ⊢
    rw [waiting, front] at balance
    dsimp only [Option.getD_some] at balance ⊢
    rw [← List.append_assoc, List.append_assoc, List.append_assoc]
    rw [List.append_assoc] at balance
    exact balance
  | @answer ps waiting empty =>
    refine { sound with balance := ?_ }
    unfold drained at balance ⊢
    rw [waiting] at balance
    dsimp only [Option.getD_some] at balance ⊢
    rw [List.flatten_append, Option.getD_none, List.append_nil, List.flatten_singleton]
    exact balance

theorem Sound.perform (sound : Sound o c) (performed : c.perform moves = some c') : Sound o c' := by
  induction moves generalizing c with
  | nil =>
    cases performed
    exact sound
  | cons m moves ih =>
    obtain ⟨c₁, moved, performed⟩ := Option.bind_eq_some_iff.mp performed
    exact ih (sound.step (steps_of_move moved)) performed

-- The orders are kept as they were placed.
def Move.order? : Move → Option Order
  | .order order => some order
  | _ => none

theorem perform_orders (performed : c.perform moves = some c') :
    c'.orders = c.orders ++ moves.filterMap Move.order? := by
  induction moves generalizing c with
  | nil =>
    cases performed
    exact (List.append_nil _).symm
  | cons m moves ih =>
    obtain ⟨c₁, moved, performed⟩ := Option.bind_eq_some_iff.mp performed
    rw [ih performed]
    cases steps_of_move moved with
    | order order => exact List.append_assoc _ _ _
    | _ => rfl

theorem perform_append (c : Counter) (xs ys : List Move) :
    c.perform (xs ++ ys) = (c.perform xs).bind fun c => c.perform ys := by
  induction xs generalizing c with
  | nil => rfl
  | cons m xs ih =>
    simp only [List.cons_append, Counter.perform, ih, Option.bind_assoc]

/-- All that is ahead of a bake happens, and what it publishes waits in the queue. -/
theorem perform_works {happened ahead : List Event} (under : c.baking = some ⟨happened, ahead⟩) :
    c.perform (List.replicate ahead.length .work) = some { c with
      oven := { c.oven with queue := c.oven.queue ++ ahead.filterMap Event.publication? }
      baking := some ⟨happened ++ ahead, []⟩ } := by
  induction ahead generalizing c happened with
  | nil =>
    rw [List.filterMap_nil, List.append_nil, List.append_nil, ← under]
    rfl
  | cons e ahead ih =>
    have moved : c.move .work =
        some { c with oven := c.oven.hear e, baking := some ⟨happened ++ [e], ahead⟩ } := by
      simp only [move, under]
    rw [List.length_cons, List.replicate_succ, Counter.perform, moved, Option.bind_some, ih rfl]
    simp only [Oven.hear, List.append_assoc, e.filterMap_publication?, List.singleton_append]

/-- All that waits in the queue is handed out. -/
theorem perform_hands {ps queue : List Publication} (waiting : c.handed = some ps)
    (here : c.oven.queue = queue) :
    c.perform (List.replicate queue.length .hand) =
      some { c with oven := { c.oven with queue := [] }, handed := some (ps ++ queue) } := by
  induction queue generalizing c ps with
  | nil =>
    have same : { c.oven with queue := [] } = c.oven := by rw [← here]
    rw [List.append_nil, same, ← waiting]
    rfl
  | cons p queue ih =>
    have moved : c.move .hand =
        some { c with handed := some (ps ++ [p]), oven := { c.oven with queue } } := by
      simp only [move, waiting, here]
    rw [List.length_cons, List.replicate_succ, Counter.perform, moved, Option.bind_some, ih rfl rfl,
      List.append_assoc]
    rfl

/-- A bake that nothing interrupts is the bake of the oven. -/
theorem perform_bake (idle : c.Idle) (order : Order) :
    c.perform (.order order :: .begin ::
        (List.replicate (c.oven.course order).length .work ++ [.finish])) =
      some { c with
        oven := (c.oven.bake order.value order.tag).2
        orders := c.orders ++ [order]
        results := c.results ++ [(c.oven.bake order.value order.tag).1] } := by
  obtain ⟨oven, orders, results, baking, handed, returned⟩ := c
  obtain ⟨rfl, done⟩ : baking = none ∧ results.length = orders.length := idle
  have next : (orders ++ [order])[results.length]? = some order := by
    rw [done]
    exact List.getElem?_concat_length
  have queue : (oven.bake order.value order.tag).2 =
      { oven with queue := oven.queue ++ (oven.course order).filterMap Event.publication? } := by
    rw [← Oven.published_course]
    unfold Oven.published Oven.bake
    cases Dish.make order.value order.tag with
    | error e => simp only [List.append_nil]
    | ok dish =>
      dsimp only
      generalize (Machine.fresh oven.ops dish oven.limit).run 0 = ended
      cases Oven.outputOf ended.2.dish <;> rfl
  have outcome : ∀ queue, Oven.outcome { oven with queue } order = (oven.bake order.value order.tag).1 := by
    intro queue
    exact @Oven.outcome_congr oven { oven with queue } rfl rfl order
  -- It is placed and begun at once, since no other order is left.
  have begun : ∀ moves, (Counter.mk oven orders results none handed returned).perform
      (.order order :: .begin :: moves) = (Counter.mk oven (orders ++ [order]) results
        (some ⟨[], oven.course order⟩) handed returned).perform moves := by
    intro moves
    simp only [Counter.perform, move, Option.bind_some, current?, next]
  rw [begun, perform_append, perform_works rfl, Option.bind_some]
  simp only [Counter.perform, move, current?, next, outcome, queue, Option.bind_some]

/-- A guest that nothing interrupts empties the queue of the oven. -/
theorem perform_collect (content : c.handed = none) :
    c.perform (.ask :: (List.replicate c.oven.queue.length .hand ++ [.answer])) =
      some { c with oven := c.oven.collect.2, returned := c.returned ++ [c.oven.collect.1] } := by
  obtain ⟨oven, orders, results, baking, handed, returned⟩ := c
  obtain rfl : handed = none := content
  have asked : (Counter.mk oven orders results baking none returned).move .ask =
      some ⟨oven, orders, results, baking, some [], returned⟩ := rfl
  rw [Counter.perform, asked, Option.bind_some, perform_append, perform_hands rfl rfl, Option.bind_some]
  rfl

-- Nothing is left to bake, and the guest has been handed everything before and returned it.
structure Settled (c : Counter) : Prop where
  idle : c.Idle
  empty : c.oven.queue = []
  handed : c.handed.getD [] = []

theorem Settled.step (settled : c.Settled) (steps : c.Steps m c') (unordered : ∀ order, m ≠ .order order) :
    c'.Settled := by
  obtain ⟨⟨free, done⟩, empty, handed⟩ := settled
  have none : c.current? = none := List.getElem?_eq_none (Nat.le_of_eq done.symm)
  cases steps with
  | order order => exact absurd rfl (unordered order)
  | begin _ next =>
    rw [none] at next
    cases next
  | work under =>
    rw [free] at under
    cases under
  | finish under next =>
    rw [free] at under
    cases under
  | ask content => exact ⟨⟨free, done⟩, empty, rfl⟩
  | hand waiting front =>
    rw [empty] at front
    cases front
  | answer waiting _ => exact ⟨⟨free, done⟩, empty, rfl⟩

theorem Settled.perform (settled : c.Settled) (performed : c.perform moves = some c')
    (unordered : ∀ order, .order order ∉ moves) : c'.Settled := by
  induction moves generalizing c with
  | nil =>
    cases performed
    exact settled
  | cons m moves ih =>
    obtain ⟨c₁, moved, performed⟩ := Option.bind_eq_some_iff.mp performed
    have other : ∀ order, m ≠ .order order := by
      rintro order rfl
      exact unordered order List.mem_cons_self
    exact ih (settled.step (steps_of_move moved) other) performed
      fun order mem => unordered order (List.mem_cons_of_mem m mem)

/-- An answer that is given when nothing is left to bake leaves nothing over. -/
theorem Idle.answered (idle : c.Idle) (answered : c.move .answer = some c') : c'.Settled := by
  cases steps_of_move answered with
  | answer waiting empty => exact ⟨idle, empty, rfl⟩

-- What the results of bakes hold that are done.
def registers (c : Counter) : List (List Text.Glyph) :=
  c.results.flatMap fun
    | .ok b => b.registers
    | .error _ => []

/-- When everything is settled, the guest has what the bakes published, in the order of their orders. -/
theorem Sound.returned (sound : Sound o c) (settled : c.Settled) :
    c.returned.flatten = c.orders.flatMap fun order => o.published order.value order.tag := by
  obtain ⟨⟨free, done⟩, empty, handed⟩ := settled
  have balance := sound.balance
  unfold drained made at balance
  rw [empty, handed, free, done, List.take_length, List.append_nil, List.append_nil] at balance
  calc c.returned.flatten
    _ = (c.orders.flatMap fun order => c.oven.published order.value order.tag) ++ [] := balance
    _ = c.orders.flatMap fun order => c.oven.published order.value order.tag := List.append_nil _
    _ = c.orders.flatMap fun order => o.published order.value order.tag :=
        List.flatMap_congr fun order _ => sound.published order

/-- A list that leaves out some parts is the whole list if nothing is in these parts, and only then. -/
theorem flatMap_eq_iff {α β : Type} {xs : List α} {f g : α → List β} (parts : ∀ x ∈ xs, g x = f x ∨ g x = []) :
    xs.flatMap f = xs.flatMap g ↔ ∀ x ∈ xs, g x = f x := by
  refine ⟨fun same x mem => ?_, fun same => List.flatMap_congr fun x mem => (same x mem).symm⟩
  by_contra other
  have less : ∀ x ∈ xs, (g x).length ≤ (f x).length := by
    intro x mem
    rcases parts x mem with kept | none
    · rw [kept]
    · rw [none]
      exact Nat.zero_le _
  have here : (g x).length < (f x).length := by
    have none := (parts x mem).resolve_left other
    rw [none]
    exact List.length_pos_iff.mpr fun empty => other (none.trans empty.symm)
  -- One part is shorter and none is longer, so that the whole is shorter.
  have shorter := List.sum_lt_sum (fun x => (g x).length) (fun x => (f x).length) less ⟨x, mem, here⟩
  rw [← List.length_flatMap, ← List.length_flatMap, same] at shorter
  exact Nat.lt_irrefl _ shorter

/-- When everything is settled, the guest has the registers of all results, in order, unless a bake without a
result has captured something. -/
theorem Sound.complete (sound : Sound o c) (settled : c.Settled) :
    c.returned.flatten.flatMap (·.texts) = c.registers ↔
      ∀ order ∈ c.orders, ∀ f, o.outcome order = .error f → o.captured order.value order.tag = [] := by
  have done := settled.idle.2
  have results := sound.results
  rw [done, List.take_length] at results
  have kept : ∀ order b, o.outcome order = .ok b → b.registers = o.captured order.value order.tag :=
    fun order b baked => Oven.registers_captured baked
  rw [sound.returned settled, registers, results, List.flatMap_map, List.flatMap_assoc]
  refine (flatMap_eq_iff fun order _ => ?_).trans (forall₂_congr fun order _ => ?_)
  · cases baked : o.outcome order with
    | ok b => exact .inl (kept order b baked)
    | error f => exact .inr rfl
  · cases baked : o.outcome order with
    | ok b => exact iff_of_true (kept order b baked) fun f failed => by cases failed
    | error f => exact ⟨fun none _ _ => none.symm, fun none => (none f rfl).symm⟩

/-- If the operations keep to the types, nothing that a bake captures is without a result. -/
theorem Sound.settled (sound : Sound o c) (settled : c.Settled)
    (keep : ∀ op ∈ o.ops, op.Keeps Kind.Servable fun _ => True) :
    c.returned.flatten.flatMap (·.texts) = c.registers :=
  (sound.complete settled).mpr fun _ _ _ failed => Oven.captured_nil keep failed

/-- No update is lost, handed out twice or out of its order, however the steps of the bakes and those of the
guest come to lie: at every moment, what the guest was handed and what waits in the queue is together what
was published so far, in order, by the bakes of the orders in the order in which they were placed. Once an
answer was given when nothing was left to bake, and until the next order, all answers together are all that
was published. Each result has the texts that its bake captured for its registers, so the texts in all
answers are the registers of all results, exactly if no bake that captured something is without a
result. -/
theorem updates_in_order (ops : List Operation) (limit : Option Int) (moves : List Move) (c : Counter)
    (performed : (opened ops limit).perform moves = some c) :
    c.drained ++ c.oven.queue = c.made ∧
      c.orders = moves.filterMap Move.order? ∧
      c.results = (c.orders.take c.results.length).map (Oven.preheat ops limit).outcome ∧
      ∀ (after : List Move) (c' : Counter), c.Idle → (∀ order, .order order ∉ after) →
        c.perform (.answer :: after) = some c' →
        c'.results.length = c'.orders.length ∧
          (c'.returned.flatten =
            c'.orders.flatMap fun order => (Oven.preheat ops limit).published order.value order.tag) ∧
          (∀ order ∈ c'.orders, ∀ b, (Oven.preheat ops limit).outcome order = .ok b →
            b.registers = (Oven.preheat ops limit).captured order.value order.tag) ∧
          (c'.returned.flatten.flatMap (·.texts) = c'.registers ↔
            ∀ order ∈ c'.orders, ∀ f, (Oven.preheat ops limit).outcome order = .error f →
              (Oven.preheat ops limit).captured order.value order.tag = []) := by
  have sound := (Sound.opened ops limit).perform performed
  refine ⟨sound.balance, perform_orders performed, sound.results, ?_⟩
  intro after c' idle unordered more
  obtain ⟨c₁, answered, rest⟩ := Option.bind_eq_some_iff.mp more
  have settled : c'.Settled := (idle.answered answered).perform rest unordered
  have sound' := sound.perform more
  exact ⟨settled.idle.2, sound'.returned settled, fun order _ b => Oven.registers_captured,
    sound'.complete settled⟩

def blot : Transform where
  title := "Blot"
  name := "Blot"
  input := "string"
  output := "JSON"
  defaults := []
  run v _ := .ok (if v.same (.text "blot") then .bytes [0] else v)

-- A recipe that captures the first letter of a text and goes on with such a transform.
def initials : List Operation :=
  [⟨"Register", [.text "^(.)", .bool true, .bool false], "string", "string", false, false, none⟩,
    ⟨"Blot", [], "string", "JSON", false, false, some blot⟩]

-- Three orders, of which the second one is spoilt, and one of an unknown type. The guest asks before the first
-- bake has begun, is handed its letter while it is under way, and is answered when the last order has failed.
def visit : List Move :=
  [.ask, .order ⟨.text "ab", "string"⟩, .order ⟨.text "blot", "string"⟩, .order ⟨.text "c", "string"⟩,
    .order ⟨.text "d", "letter"⟩, .begin, .work, .work, .work, .hand, .work, .work, .finish, .begin, .work,
    .work, .work, .work, .work, .finish, .begin, .work, .work, .work, .work, .work, .finish, .begin, .finish,
    .hand, .hand]

/-- The letter of the order that is spoilt is handed out as well, but no result has it. -/
theorem updates_in_order_blotted : ∃ c c', (opened initials none).perform visit = some c ∧ c.Idle ∧
    c.perform [.answer, .ask, .answer] = some c' ∧ c.drained ++ c.oven.queue = c.made ∧
    c'.returned.flatten.flatMap (·.texts) = ["a", "b", "c"].map Text.Glyph.ofText ∧
    c'.registers = ["a", "c"].map Text.Glyph.ofText ∧
    ∃ order ∈ c'.orders, ∃ f, (Oven.preheat initials none).outcome order = .error f ∧
      (Oven.preheat initials none).captured order.value order.tag ≠ [] := by
  have visited : ((opened initials none).perform visit).map (fun c =>
      (c.baking.isNone, c.results.length, c.orders.length)) = some (true, 4, 4) := by decide +kernel
  have answered : (((opened initials none).perform visit).bind fun c =>
      c.perform [.answer, .ask, .answer]).map (fun c =>
        (c.returned.flatten.flatMap (·.texts), c.registers)) =
          some (["a", "b", "c"].map Text.Glyph.ofText, ["a", "c"].map Text.Glyph.ofText) := by
    decide +kernel
  obtain ⟨c, performed, counted⟩ := Option.map_eq_some_iff.mp visited
  rw [performed, Option.bind_some] at answered
  obtain ⟨c', more, texts⟩ := Option.map_eq_some_iff.mp answered
  simp only [Prod.mk.injEq, Option.isNone_iff_eq_none] at counted texts
  obtain ⟨free, results, orders⟩ := counted
  obtain ⟨handed, registers⟩ := texts
  have idle : c.Idle := ⟨free, results.trans orders.symm⟩
  obtain ⟨balance, -, -, answers⟩ := updates_in_order initials none visit c performed
  obtain ⟨-, -, -, complete⟩ := answers [.ask, .answer] c' idle (by simp) more
  have differ : c'.returned.flatten.flatMap (·.texts) ≠ c'.registers := by
    rw [handed, registers]
    decide
  have lost := mt complete.mpr differ
  push Not at lost
  exact ⟨c, c', performed, idle, more, balance, handed, registers, lost⟩

end Counter

end Kitchen
