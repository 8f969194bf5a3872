import Kitchen.Proofs.Larder.Bench
import Kitchen.Proofs.Oven.Counter

/-!
A bakery bakes one recipe again and again, and the recipe lies in a larder where runs change operations in
place. Each bake runs on copies. So what it comes to does not depend on the bakes before it, and the recipe
is what it was in the beginning.
-/
namespace Kitchen

open Run

structure Bakery where
  refs : List Nat
  larder : Larder
  limit : Option Int
  queue : List Publication

namespace Bakery

-- A bakery with nothing in its larder but the recipe.
def opened (ops : List Operation) (limit : Option Int) : Bakery :=
  let (refs, larder) := Larder.empty.makeAll ops
  ⟨refs, larder, limit, []⟩

def recipe (k : Bakery) : List Operation :=
  k.refs.map k.larder.operation

-- Bakes an order on copies of the operations.
def bake (k : Bakery) (order : Order) : Except Failure Bake × Bakery :=
  let (refs, larder) := k.larder.cloneAll k.refs
  match Dish.make order.value order.tag with
  | .error e => (.error (.ofDish e), { k with larder })
  | .ok dish =>
    let (stop, b) := Bench.run 0 ⟨refs, larder, dish, .start, .opened k.limit, none⟩
    let k := { k with larder := b.larder, queue := k.queue ++ b.ledger.publications }
    let (progress, error) := Oven.verdict stop b.machine
    match Oven.outputOf b.dish with
    | .error e => (.error (.ofDish e), k)
    | .ok output => (.ok ⟨output, b.dish.tag, progress, error, b.ledger.registers⟩, k)

-- The bakery after orders were baked, one after the other.
def after (k : Bakery) (orders : List Order) : Bakery :=
  orders.foldl (fun k order => (k.bake order).2) k

-- The oven that has the recipe to itself.
def oven (k : Bakery) : Oven :=
  ⟨k.recipe, k.limit, k.queue⟩

variable {k k' : Bakery}

/-- What an order comes to is what the oven makes of it; and a bake leaves what is in the larder as it
is. -/
theorem bake_oven (k : Bakery) (order : Order) :
    (k.bake order).1 = k.oven.outcome order ∧
      (k.bake order).2.queue = k.queue ++ k.oven.published order.value order.tag ∧
      (k.bake order).2.refs = k.refs ∧ (k.bake order).2.limit = k.limit ∧
      k.larder.Spares [] (k.bake order).2.larder := by
  obtain ⟨fresh, copied⟩ := k.larder.cloneAll_fresh k.refs
  unfold bake Oven.outcome Oven.bake Oven.published
  generalize k.larder.cloneAll k.refs = clones at fresh copied
  obtain ⟨refs, larder⟩ := clones
  cases Dish.make order.value order.tag with
  | error e => exact ⟨rfl, (List.append_nil _).symm, rfl, rfl, fresh.spares⟩
  | ok dish =>
    let bench : Bench := ⟨refs, larder, dish, .start, .opened k.limit, none⟩
    have shown : bench.machine = Machine.fresh k.oven.ops dish k.oven.limit :=
      congrArg (Machine.mk · dish .start (.opened k.limit) none) copied
    obtain ⟨stop, becomes⟩ := bench.run_refines 0 fresh.tidy
    rw [shown] at stop becomes
    have spares : k.larder.Spares [] (bench.run 0).2.larder :=
      fresh.spares.hidden becomes.spares fresh.slips fresh.maps
    dsimp only
    generalize bench.run 0 = ran at stop becomes spares
    generalize (Machine.fresh k.oven.ops dish k.oven.limit).run 0 = ran' at stop becomes
    obtain ⟨stop', b⟩ := ran
    obtain ⟨stop'', m⟩ := ran'
    obtain rfl : stop' = stop'' := stop
    obtain rfl : b.machine = m := becomes.machine
    have dish : b.machine.dish = b.dish := rfl
    dsimp only
    rw [dish]
    cases Oven.outputOf b.dish with
    | error e => exact ⟨rfl, rfl, rfl, rfl, spares⟩
    | ok output => exact ⟨rfl, rfl, rfl, rfl, spares⟩

structure Sustains (k k' : Bakery) : Prop where
  refs : k'.refs = k.refs
  limit : k'.limit = k.limit
  tidy : k.larder.Tidy k.refs
  spares : k.larder.Spares [] k'.larder

theorem Sustains.opened (ops : List Operation) (limit : Option Int) :
    Sustains (opened ops limit) (opened ops limit) :=
  ⟨rfl, rfl, (Larder.empty.makeAll_fresh ops).1.tidy, .refl _ _⟩

theorem Sustains.recipe (sustains : Sustains k k') : k'.recipe = k.recipe := by
  unfold Bakery.recipe
  rw [sustains.refs]
  exact sustains.tidy.operations sustains.spares

theorem Sustains.bake (sustains : Sustains k k') (order : Order) : Sustains k (k'.bake order).2 := by
  obtain ⟨-, -, refs, limit, spares⟩ := k'.bake_oven order
  exact ⟨refs.trans sustains.refs, limit.trans sustains.limit, sustains.tidy, sustains.spares.trans spares⟩

theorem Sustains.after (sustains : Sustains k k') (orders : List Order) : Sustains k (k'.after orders) := by
  induction orders generalizing k' with
  | nil => exact sustains
  | cons order orders ih => exact ih (sustains.bake order)

/-- Bakes do not touch each other. After any orders, whatever they came to, a bakery makes of an order what
a new one makes of it, publishes the same, and both are what a run of the recipe alone comes to. The recipe
is what it was, and of all that was ever changed in the larder, nothing belongs to it: neither an operation
nor a map among the arguments of one. -/
theorem bakes_apart (ops : List Operation) (limit : Option Int) (orders : List Order) (order : Order) :
    let new := opened ops limit
    let used := new.after orders
    (used.bake order).1 = (new.bake order).1 ∧
      (used.bake order).2.queue = used.queue ++ (new.bake order).2.queue ∧
      (new.bake order).1 = (Oven.preheat ops limit).outcome order ∧
      (new.bake order).2.queue = (Oven.preheat ops limit).published order.value order.tag ∧
      used.recipe = ops ∧ ∀ s ∈ used.larder.changes, ¬new.larder.Owns new.refs s := by
  intro new used
  have opened : Sustains new new := .opened ops limit
  have sustains : Sustains new used := opened.after orders
  obtain ⟨fresh, laid⟩ := Larder.empty.makeAll_fresh ops
  have recipe : new.recipe = ops := laid
  have kept : used.recipe = ops := sustains.recipe.trans recipe
  have oven : new.oven = Oven.preheat ops limit := congrArg (Oven.mk · limit []) recipe
  obtain ⟨outcome, queue, -⟩ := new.bake_oven order
  obtain ⟨outcome', queue', -⟩ := used.bake_oven order
  have alike : used.oven.ops = (Oven.preheat ops limit).ops := kept
  have bounded : used.oven.limit = (Oven.preheat ops limit).limit := sustains.limit
  have published : used.oven.published order.value order.tag =
      (Oven.preheat ops limit).published order.value order.tag := by
    unfold Oven.published
    rw [alike, bounded]
  have empty : new.queue = [] := rfl
  rw [oven] at outcome queue
  rw [empty, List.nil_append] at queue
  rw [Oven.outcome_congr alike bounded order] at outcome'
  rw [published] at queue'
  refine ⟨outcome'.trans outcome.symm, queue'.trans (by rw [queue]), outcome, queue, kept, ?_⟩
  -- In the beginning nothing had been changed, and since then only what was made later.
  obtain ⟨more, changes, later⟩ := sustains.spares.changes
  have unchanged : new.larder.changes = [] := fresh.changes
  rw [changes, unchanged, List.append_nil]
  intro s mem owns
  rcases later s mem with owned | lacks
  · cases s with
    | slip r => cases owned
    | cell c =>
      obtain ⟨r, among, -⟩ := owned
      cases among
  · cases s with
    | slip r => exact Nat.not_lt.mpr lacks (opened.tidy.slips r owns)
    | cell c =>
      obtain ⟨r, among, here⟩ := owns
      exact Nat.not_lt.mpr lacks (opened.tidy.maps r among c here)

def needling : List Operation :=
  [⟨"Register", [.text "^(.)", .bool true, .bool false], "string", "string", false, false, none⟩,
    ⟨"Find / Replace", [.map [(.text "option", .text "Simple string"), (.text "string", .text "$R0")],
      .text "-", .bool true, .bool false, .bool false, .bool false], "string", "string", false, false,
      some .findReplace⟩]

-- A run on the recipe itself would fill the needle for good. A bake fills it in a copy, and so does the next.
example :
    let k := opened needling none
    let needle (l : Larder) (c : Nat) : String := ((Value.field? "string" (l.maps c)).getD .null).plain
    let spoilt := (Bench.run 0 ⟨k.refs, k.larder, ⟨.text "ab", "string"⟩, .start, .opened none, none⟩).2
    let used := k.after [⟨.text "ab", "string"⟩, ⟨.text "cd", "string"⟩]
    needle spoilt.larder 0 = "a" ∧ used.refs = [0, 1] ∧ needle used.larder 0 = "$R0" ∧
      needle used.larder 1 = "a" ∧ needle used.larder 2 = "c" := by
  decide +kernel

end Bakery

end Kitchen
