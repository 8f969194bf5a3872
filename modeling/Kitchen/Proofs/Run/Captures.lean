import Kitchen.Proofs.Run.Growth
import Kitchen.Proofs.Run.Stops

/-!
Which texts a run captures, and under which numbers. They are published as they are captured, with the
place of the Register in the outermost list, and they are numbered along the executions that lead to the
Register: tranches of one Fork use the same numbers again.
-/
namespace Kitchen.Run

open Text (Glyph)

-- How a list of publications becomes a longer one: each is added where `Made` says that it was made.
inductive Accounted (Made : List Publication → Publication → Prop) :
    List Publication → List Publication → Prop where
  | none (ps : List Publication) : Accounted Made ps ps
  | more {ps before : List Publication} {p : Publication} (earlier : Accounted Made ps before)
      (made : Made before p) : Accounted Made ps (before ++ [p])

namespace Accounted

variable {Made Made' : List Publication → Publication → Prop} {ps qs rs : List Publication}

theorem trans (h : Accounted Made ps qs) (h' : Accounted Made qs rs) : Accounted Made ps rs := by
  induction h' with
  | none => exact h
  | more _ made ih => exact .more ih made

theorem mono (weaker : ∀ before p, Made before p → Made' before p) (h : Accounted Made ps qs) :
    Accounted Made' ps qs := by
  induction h with
  | none => exact .none _
  | more _ made ih => exact .more ih (weaker _ _ made)

/-- Each publication of a list that began empty was made after those before it. -/
theorem made {before after : List Publication} {p : Publication}
    (h : Accounted Made [] (before ++ p :: after)) : Made before p := by
  generalize hps : before ++ p :: after = ps at h
  induction h generalizing after with
  | none => exact absurd hps (List.append_ne_nil_of_right_ne_nil _ (List.cons_ne_nil _ _))
  | @more earlier q _ made ih =>
    -- It is the last one, which was just made, or it stands among the earlier ones.
    rcases List.eq_nil_or_concat after with rfl | ⟨after', last, rfl⟩
    · obtain ⟨rfl, same⟩ := List.append_inj' hps rfl
      obtain rfl := List.singleton_inj.mp same
      exact made
    · rw [List.concat_eq_append, ← List.cons_append, ← List.append_assoc] at hps
      exact ih (List.append_inj' hps rfl).1

end Accounted

-- The texts that a deed captures.
def Deed.texts : Deed → List (List Glyph)
  | .capture texts => texts
  | _ => []

namespace Machine

variable {start i j : Int} {op : Operation} {m k child : Machine} {own path : List (List Glyph)}

-- The texts that an operation captures where it is set about: what the groups of a Register hold.
def captured (m : Machine) (op : Operation) : List (List Glyph) :=
  match op.primitive?, m.dish.get op.input with
  | some .register, .ok (_, d) =>
    match Deed.register op d with
    | (.ok deed, _) => deed.texts
    | (.error _, _) => []
  | _, _ => []

-- An execution of `m` from `start` comes to a place with a machine, and has captured the texts `own` itself on
-- the way.
inductive Collects (start : Int) (m : Machine) : List (List Glyph) → Int → Machine → Prop where
  | begins : Collects start m [] start (m.note (.started m.ops.length start))
  | skips {own : List (List Glyph)} {i : Int} {k : Machine} {op : Operation}
      (earlier : Collects start m own i k) (here : k.opAt? i = some op)
      (disabled : op.disabled = true) : Collects start m own (i + 1) (k.note (.skipped i op))
  | dispatches {own : List (List Glyph)} {i j : Int} {k k' : Machine} {op : Operation}
      (earlier : Collects start m own i k) (ready : k.Ready start i op)
      (onward : k.round (Machine.run 0) start i = .onward j k') :
      Collects start m (own ++ k.captured op) j k'

-- An execution of `m` from `start`, or one inside it, sets about an operation. The place is that in the list of
-- `m`, and `path` has the texts that were captured by each execution on the way from the outermost one to this
-- one before it came to the Fork, or to the operation.
inductive Reaches : Int → Machine → Int → List (List Glyph) → Operation → Machine → Prop where
  | here {start i : Int} {m k : Machine} {own : List (List Glyph)} {op : Operation}
      (collects : Collects start m own i k) (ready : k.Ready start i op) :
      Reaches start m i own op k
  | within {start i place : Int} {m k child k' : Machine} {own path : List (List Glyph)} {op : Operation}
      (collects : Collects start m own i k) (opens : k.Opens (Machine.run 0) start i child)
      (inner : Reaches 0 child place path op k') :
      Reaches start m (i + 1 + place) (own ++ path) op k'

theorem Collects.passes (collects : Collects start m own i k) : ∃ n, Passes start m n i k := by
  induction collects with
  | begins => exact ⟨0, .begins⟩
  | skips earlier here disabled ih =>
    obtain ⟨n, passes⟩ := ih
    exact ⟨n, .skips passes here disabled⟩
  | dispatches earlier ready onward ih =>
    obtain ⟨n, passes⟩ := ih
    exact ⟨n + 1, .dispatches passes ready onward⟩

theorem place_follows {size n : Nat} {i : Int} (above : -(size : Int) ≤ i)
    (short : follows size i + n < size) :
    place? size (i + 1 + n) = some (follows size i + n) := by
  unfold follows at short ⊢
  -- A place before the front is counted from the end, and what follows it is so too unless it is the last.
  by_cases before : i + 1 < 0
  · rw [if_pos before] at short ⊢
    have further : i + 1 + n < 0 := by omega
    simp only [place?, if_pos further, Option.ite_none_right_eq_some, Option.some.injEq]
    omega
  · rw [if_neg before] at short ⊢
    have further : ¬i + 1 + n < 0 := by omega
    simp only [place?, if_neg further, Option.ite_none_right_eq_some, Option.some.injEq]
    omega

/-- What stands at a place of the list of a tranche stands after its Fork in the list of the Fork. -/
theorem Opens.opAt (opens : k.Opens (Machine.run 0) start i child) (front : 0 ≤ j)
    (here : child.opAt? j = some op) : k.opAt? (i + 1 + j) = some op := by
  obtain ⟨n, rfl⟩ := Int.eq_ofNat_of_zero_le front
  have inner : child.ops[n]? = some op := opAt_some front here
  cases opens with
  | @intro fork v d s _ ready primitive get cut opens =>
    rw [opens.ops regular_run.shape] at inner
    obtain ⟨separator, delimiter, ignoring, more, w, parts, -, -, -, rfl⟩ := split_ok cut
    obtain ⟨_, place, -⟩ := opAt_place ready.here
    obtain ⟨-, -, above, -⟩ := place_some place
    -- The list of the tranche is the front of what follows the Fork.
    have rest : (k.ops.drop (follows k.ops.length i))[n]? = some op := by
      obtain ⟨within, same⟩ := List.getElem?_eq_some_iff.mp inner
      rw [← same]
      exact List.prefix_iff_getElem?.mp (List.takeWhile_prefix _) n within
    rw [List.getElem?_drop] at rest
    have short := (List.getElem?_eq_some_iff.mp rest).1
    rw [opAt?, place_follows above short]
    exact rest

/-- What a run sets about stands at its place in the outermost list, but for its arguments. -/
theorem Reaches.opAt {place : Int} (reaches : Reaches start m place path op k) :
    (0 ≤ start → 0 ≤ place) ∧ ∃ op₀, m.opAt? place = some op₀ ∧ op₀.Akin op := by
  induction reaches with
  | here collects ready =>
    obtain ⟨n, passes⟩ := collects.passes
    have inv := places.passes trivial passes
    exact ⟨inv.front, opAt_back inv.ops ready.here⟩
  | @within start i place m k child k' own path op collects opens inner ih =>
    obtain ⟨n, passes⟩ := collects.passes
    have inv := places.passes trivial passes
    -- A place in a tranche is never before the front, as tranches run from there.
    obtain ⟨front, op₁, here, same⟩ := ih
    have front := front (Int.le_refl 0)
    obtain ⟨op₀, first, same'⟩ := opAt_back inv.ops (opens.opAt front here)
    refine ⟨fun ahead => ?_, op₀, first, same'.trans same⟩
    have := inv.front ahead
    omega

theorem Reaches.enabled {place : Int} (reaches : Reaches start m place path op k) :
    op.disabled = false := by
  induction reaches with
  | here collects ready => exact ready.enabled
  | within collects opens inner ih => exact ih

theorem captured_register (captures : m.captured op ≠ []) : op.primitive? = some .register := by
  unfold captured at captures
  split at captures
  · assumption
  · exact absurd rfl captures

theorem captured_other (other : op.primitive? ≠ some .register) : m.captured op = [] := by
  by_contra captures
  exact other (captured_register captures)

/-- What an operation captures is what the deed captures that it decides on. -/
theorem captured_deed {p : Primitive} {v : Value} {d d' : Dish} {deed : Deed}
    (primitive : op.primitive? = some p) (get : m.dish.get op.input = .ok (v, d))
    (decided : Deed.ofPrimitive m.outlook op d p = (.ok deed, d')) : m.captured op = deed.texts := by
  by_cases register : p = .register
  · subst register
    have decided : Deed.register op d = (.ok deed, d') := decided
    simp only [captured, primitive, get, decided]
  · have none : m.captured op = [] := by
      apply captured_other
      rw [primitive]
      exact fun same => register (Option.some.inj same)
    rw [none]
    cases deed with
    | capture texts => exact absurd (Deed.ofPrimitive_capture primitive decided).1 register
    | _ => rfl

-- What a machine publishes of an operation at a place that captures texts, and how many texts can be referred
-- to then.
structure Publishes (i : Int) (texts : List (List Glyph)) (m k : Machine) : Prop where
  offset : k.frame.offset = m.frame.offset
  addressable : k.frame.addressable = m.frame.addressable + texts.length
  publications : k.ledger.publications = m.ledger.publications ++
    if texts = [] then [] else [⟨m.frame.offset + i, m.frame.addressable, texts⟩]

theorem Publishes.nothing (offset : k.frame.offset = m.frame.offset)
    (addressable : k.frame.addressable = m.frame.addressable)
    (publications : k.ledger.publications = m.ledger.publications) : Publishes i [] m k where
  offset := offset
  addressable := addressable
  publications := by
    rw [if_pos rfl, List.append_nil]
    exact publications

theorem Acts.publishes (acts : m.Acts i op (.ok j) k) : Publishes i (m.captured op) m k := by
  generalize hr : Except.ok j = r at acts
  cases acts with
  | produced ordinary get made =>
    have none : m.captured op = [] := captured_other fun h => by cases ordinary.symm.trans h
    rw [none]
    exact .nothing rfl rfl rfl
  | @enacted p v d d' deed primitive other get decided =>
    rw [captured_deed primitive get decided]
    have noted : ∀ e, (∀ p, e ≠ .published p) →
        (m.ledger.note e).publications = m.ledger.publications := m.ledger.note_publications
    cases deed with
    | capture texts =>
      -- A Register that captures nothing passes, so that there is something to publish.
      have something : texts ≠ [] := (Deed.ofPrimitive_capture primitive decided).2
      refine ⟨rfl, rfl, ?_⟩
      rw [Deed.texts, if_neg something]
      exact Ledger.publish_publications m.ledger _
    | stay => exact .nothing rfl rfl (noted _ fun _ => Event.noConfusion)
    | leap label place => exact .nothing rfl rfl (noted _ fun _ => Event.noConfusion)
    | _ => exact .nothing rfl rfl rfl
  | _ => cases hr

theorem enter_publications (m : Machine) (i : Int) (op : Operation) :
    (m.enter i op).ledger.publications = m.ledger.publications :=
  Ledger.note_publications m.ledger.count _ fun _ => Event.noConfusion

/-- A Fork captures nothing itself. -/
theorem captured_fork (fork : op.primitive? = some .fork) : m.captured op = [] :=
  captured_other (by rw [fork]; decide)

theorem Completes.numbers (completes : m.Completes (Machine.run 0) i op j k) :
    k.frame.offset = m.frame.offset ∧
      k.frame.addressable = m.frame.addressable + (m.captured op).length := by
  cases completes with
  | acts acts => exact ⟨acts.publishes.offset, acts.publishes.addressable⟩
  | serves fork serves =>
    rw [captured_fork fork]
    generalize hr : Except.ok j = r at serves
    cases serves with
    | joined get cut served set => exact ⟨rfl, rfl⟩
    | _ => cases hr

/-- An execution numbers the texts that it captures after those that could be referred to where it
began. -/
theorem Collects.numbers (collects : Collects start m own i k) :
    k.frame.offset = m.frame.offset ∧
      k.frame.addressable = m.frame.addressable + own.length := by
  induction collects with
  | begins => exact ⟨rfl, rfl⟩
  | skips earlier here disabled ih => exact ih
  | @dispatches own i j k k' op earlier ready onward ih =>
    obtain ⟨offset, addressable⟩ := ih
    -- The round was not one that passes over, since its operation is ready.
    rcases (rounds_iff.mpr onward).onward with
      ⟨op', here, disabled, -⟩ | ⟨op', j', k₁, ready', completes, -, rfl⟩
    · obtain rfl := Option.some.inj (ready.here.symm.trans here)
      exact absurd disabled (by rw [ready.enabled]; decide)
    · obtain rfl := Option.some.inj (ready.here.symm.trans ready'.here)
      obtain ⟨offset', addressable'⟩ := completes.numbers
      refine ⟨offset'.trans offset, ?_⟩
      rw [List.length_append, ← Nat.add_assoc, ← addressable]
      exact addressable'

-- A run of `m` from `start` publishes what an operation captures, with its place in the outermost list and the
-- number of texts captured on the way to it.
def Makes (start : Int) (m : Machine) (before : List Publication) (p : Publication) : Prop :=
  ∃ place path op k, Reaches start m place path op k ∧ k.ledger.publications = before ∧
    k.captured op ≠ [] ∧
    p = ⟨m.frame.offset + place, m.frame.addressable + path.length, k.captured op⟩

/-- What a tranche publishes, the run around it does. -/
theorem Makes.within {before : List Publication} {p : Publication} (collects : Collects start m own i k)
    (opens : k.Opens (Machine.run 0) start i child) (makes : Makes 0 child before p) :
    Makes start m before p := by
  obtain ⟨place, path, op, k', reaches, order, something, rfl⟩ := makes
  obtain ⟨offset, addressable⟩ := collects.numbers
  -- The tranche counts from the place after its Fork, and from the number that its execution is at.
  refine ⟨i + 1 + place, own ++ path, op, k', .within collects opens reaches, order, something, ?_⟩
  rw [opens.frame, List.length_append, ← Nat.add_assoc, ← offset, ← addressable]
  change Publication.mk (k.frame.offset + i + 1 + place) _ _ = _
  rw [← Int.add_assoc, ← Int.add_assoc]
  rfl

/-- Neither the number of a tranche nor the remark on its failure is a publication. -/
theorem accounted_spans {Made : List Publication → Publication → Prop} :
    Ledger.Spans fun l l' => Accounted Made l.publications l'.publications where
  refl l := .none _
  trans h h' := h.trans h'
  tranche l number total := by
    rw [l.note_publications _ fun _ => Event.noConfusion]
    exact .none _
  ignored l number b := by
    rw [l.note_publications _ fun _ => Event.noConfusion]
    exact .none _

theorem Acts.accounts (collects : Collects start m own i k) (ready : k.Ready start i op) {k' : Machine}
    (acts : (k.enter i op).Acts i op (.ok j) k') :
    Accounted (Makes start m) k.ledger.publications k'.ledger.publications := by
  have same : (k.enter i op).captured op = k.captured op := rfl
  have publications := acts.publishes.publications
  rw [same, enter_publications] at publications
  by_cases nothing : k.captured op = []
  · rw [if_pos nothing, List.append_nil] at publications
    rw [publications]
    exact .none _
  · obtain ⟨offset, addressable⟩ := collects.numbers
    rw [if_neg nothing] at publications
    rw [publications]
    refine .more (.none _) ⟨i, own, op, k, .here collects ready, rfl, nothing, ?_⟩
    rw [← offset, ← addressable]
    rfl

/-- What a round publishes is captured by its operation, or in one of its tranches. -/
theorem Rounds.accounts {t : Turn} (collects : Collects start m own i k)
    (inner : ∀ child, k.Opens (Machine.run 0) start i child → Accounted (Makes 0 child)
      child.ledger.publications ((Machine.run 0) child).2.ledger.publications)
    (rounds : k.Rounds (Machine.run 0) start i t) :
    Accounted (Makes start m) k.ledger.publications t.machine.ledger.publications := by
  have noted : ∀ e, (∀ p, e ≠ .published p) →
      Accounted (Makes start m) k.ledger.publications (k.note e).ledger.publications := by
    intro e other
    change Accounted _ _ (k.ledger.note e).publications
    rw [k.ledger.note_publications e other]
    exact .none _
  have served : ∀ {op r k'}, k.Ready start i op → op.primitive? = some .fork →
      (k.enter i op).Serves (Machine.run 0) i op r k' →
      Accounted (Makes start m) k.ledger.publications k'.ledger.publications := by
    intro op r k' ready fork serves
    rw [← enter_publications k i op]
    refine serves.spans accounted_spans fun v d s child get cut opens => ?_
    have tranche : k.Opens (Machine.run 0) start i child := .intro ready fork get cut opens
    exact (inner child tranche).mono fun _ _ => Makes.within collects tranche
  -- Only an operation that is carried out publishes; all other notes leave the publications alone.
  cases rounds with
  | completed beyond => exact noted _ fun _ => Event.noConfusion
  | outside within missing => exact .none _
  | skipped here disabled => exact noted _ fun _ => Event.noConfusion
  | paused here enabled pauses => exact noted _ fun _ => Event.noConfusion
  | exceeded here enabled goes excess => exact .none _
  | @failed op f k' ready acts =>
    rw [conclude_ledger, acts.failed_ledger, enter_publications]
    exact .none _
  | acted ready acts => exact acts.accounts collects ready
  | halted ready fork serves =>
    rw [conclude_ledger]
    exact served ready fork serves
  | served ready fork serves =>
    have accounted := served ready fork serves
    exact accounted

theorem Collects.onward {k' : Machine} (collects : Collects start m own i k)
    (onward : k.round (Machine.run 0) start i = .onward j k') : ∃ own', Collects start m own' j k' := by
  rcases (rounds_iff.mpr onward).onward with ⟨op, here, disabled, rfl, rfl⟩ | ⟨op, _, _, ready, -⟩
  · exact ⟨own, .skips collects here disabled⟩
  · exact ⟨own ++ k.captured op, .dispatches collects ready onward⟩

/-- All that a run publishes are texts captured in it. -/
theorem accounts : Stepwise (fun _ _ => True)
    (fun start m i k => (∃ own, Collects start m own i k) ∧
      Accounted (Makes start m) m.ledger.publications k.ledger.publications)
    (fun start m _ k => Accounted (Makes start m) m.ledger.publications k.ledger.publications) where
  begins {start m} _ := by
    have noted := m.ledger.note_publications (.started m.ops.length start) fun _ => Event.noConfusion
    refine ⟨⟨[], .begins⟩, ?_⟩
    change Accounted _ _ (m.ledger.note _).publications
    rw [noted]
    exact .none _
  unended inv := inv.2
  opens _ _ := trivial
  round {start m i k t} inner inv rounds := by
    obtain ⟨⟨own, collects⟩, sofar⟩ := inv
    have accounted := sofar.trans (rounds.accounts collects inner)
    cases t with
    | ended stop k' => exact accounted
    | onward j k' => exact ⟨collects.onward rounds.eq, accounted⟩

/-- The captured texts are those that were published, after every operation of every execution and where
it ends; and each publication has the texts that an enabled Register captured, with the place of the
Register in the outermost list and, for its number, how many texts its execution had captured before it,
and those around it before the Forks on the way. -/
theorem registers_published (ops : List Operation) (dish : Dish) (limit : Option Int) (start : Int) :
    let m := fresh ops dish limit
    (∀ start' m', Arises start m start' m' →
      (∀ n i k, Passes start' m' n i k →
        k.ledger.registers = k.ledger.publications.flatMap (·.texts)) ∧
      (m'.run start').2.ledger.registers =
        (m'.run start').2.ledger.publications.flatMap (·.texts)) ∧
    ∀ before p after, (m.run start).2.ledger.publications = before ++ p :: after →
      p.texts ≠ [] ∧ ∃ path op k, Reaches start m p.place path op k ∧
        k.ledger.publications = before ∧ p.base = path.length ∧ p.texts = k.captured op ∧
        ∃ op₀, m.opAt? p.place = some op₀ ∧ op₀.does .register ∧ op₀.Akin op := by
  intro m
  -- That the texts agree holds of the empty ledger, and is kept wherever a ledger grows.
  have agrees : m.ledger.Agrees := rfl
  refine ⟨?_, ?_⟩
  · intro start' m' arises
    have begun := arises.grows.agrees agrees
    exact ⟨fun n i k passes => (growth.passes trivial passes).agrees begun,
      (growth.run trivial).agrees begun⟩
  · intro before p after published
    have accounted : Accounted (Makes start m) [] (m.run start).2.ledger.publications :=
      accounts.run trivial
    rw [published] at accounted
    obtain ⟨place, path, op, k, reaches, order, something, rfl⟩ := accounted.made
    have here : m.frame.offset + place = place := Int.zero_add place
    have number : m.frame.addressable + path.length = path.length := Nat.zero_add _
    rw [here, number]
    obtain ⟨-, op₀, there, same⟩ := reaches.opAt
    have register : op₀.does .register := by
      rw [← same.does]
      exact Operation.does_iff.mpr ⟨captured_register something, reaches.enabled⟩
    exact ⟨something, path, op, k, reaches, order, rfl, rfl, op₀, there, register, same⟩

-- A Register in front of a Fork, and one in it that captures the first letter of each tranche.
def lettering : List Operation :=
  [⟨"Register", [.text "^(.)", .bool true, .bool false], "string", "string", false, false, none⟩,
    ⟨"Fork", [.text ",", .text ";", .bool false], "string", "string", false, false, none⟩,
    ⟨"Register", [.text "^(.)", .bool true, .bool false], "string", "string", false, false, none⟩]

/-- Both tranches publish the place of the same Register, and number their texts after the one that was
captured before the Fork. -/
theorem registers_published_lettering :
    ((fresh lettering ⟨.text "ab,cd", "string"⟩ none).run 0).2.ledger.publications =
        [⟨0, 0, [Glyph.ofText "a"]⟩, ⟨2, 1, [Glyph.ofText "a"]⟩, ⟨2, 1, [Glyph.ofText "c"]⟩] ∧
      ∃ path op k, Reaches 0 (fresh lettering ⟨.text "ab,cd", "string"⟩ none) 2 path op k ∧
        k.ledger.publications = [⟨0, 0, [Glyph.ofText "a"]⟩, ⟨2, 1, [Glyph.ofText "a"]⟩] ∧ path.length = 1 ∧
        k.captured op = [Glyph.ofText "c"] := by
  have published : ((fresh lettering ⟨.text "ab,cd", "string"⟩ none).run 0).2.ledger.publications =
      [⟨0, 0, [Glyph.ofText "a"]⟩, ⟨2, 1, [Glyph.ofText "a"]⟩] ++ ⟨2, 1, [Glyph.ofText "c"]⟩ :: [] := by
    decide +kernel
  obtain ⟨-, made⟩ := registers_published lettering ⟨.text "ab,cd", "string"⟩ none 0
  obtain ⟨-, path, op, k, reaches, order, number, texts, -⟩ := made _ _ _ published
  exact ⟨published, path, op, k, reaches, order, number.symm, texts.symm⟩

end Machine

end Kitchen.Run
