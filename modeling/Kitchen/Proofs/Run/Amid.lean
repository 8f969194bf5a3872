import Kitchen.Proofs.Run.Elsewhere
import Kitchen.Proofs.Run.Straight
import Kitchen.Proofs.Run.Thinning
import Mathlib.Data.List.TakeWhile

namespace Kitchen.Run

-- No enabled operation captures anything.
def Mute (ops : List Operation) : Prop :=
  ∀ op ∈ ops, op.does .register = false

-- Nothing in the list leads out of it: it has no enabled Return, and every enabled Fork has an enabled Merge
-- after it.
structure Closed (ops : List Operation) : Prop where
  stays : ∀ op ∈ ops, op.does .finish = false
  merges : ∀ i (h : i < ops.length), ops[i].does .fork → (ops.drop (i + 1)).any (·.does .merge)

instance (ops : List Operation) : Decidable (Mute ops) :=
  inferInstanceAs (Decidable (∀ op ∈ ops, op.does .register = false))

instance (ops : List Operation) : Decidable (Closed ops) :=
  decidable_of_iff ((∀ op ∈ ops, op.does .finish = false) ∧
      ∀ i (h : i < ops.length), ops[i].does .fork → (ops.drop (i + 1)).any (·.does .merge))
    ⟨fun h => ⟨h.1, h.2⟩, fun h => ⟨h.stays, h.merges⟩⟩

theorem Mute.akin {ops ops' : List Operation} (mute : Mute ops) (akin : Machine.OpsAkin ops ops') :
    Mute ops' := by
  intro op mem
  obtain ⟨op₀, mem₀, same⟩ := akin.back mem
  rw [same.does]
  exact mute op₀ mem₀

/-- What is carried out in a mute list is no Register. -/
theorem Mute.silent {ops : List Operation} {op : Operation} (mute : Mute ops) (mem : op ∈ ops)
    (enabled : op.disabled = false) : op.primitive? ≠ some .register := by
  intro primitive
  have register := mute op mem
  rw [Operation.does_iff.mpr ⟨primitive, enabled⟩] at register
  cases register

theorem Closed.akin {ops ops' : List Operation} (closed : Closed ops) (akin : Machine.OpsAkin ops ops') :
    Closed ops' := by
  have does : ∀ {xs ys : List Operation} (p : Primitive), Machine.OpsAkin xs ys →
      ys.any (·.does p) = xs.any (·.does p) := by
    intro xs ys p akin
    induction akin with
    | nil => rfl
    | cons first _ ih => rw [List.any_cons, List.any_cons, first.does, ih]
  constructor
  · intro op mem
    obtain ⟨op₀, mem₀, same⟩ := akin.back mem
    rw [same.does]
    exact closed.stays op₀ mem₀
  · intro i within fork
    have within₀ : i < ops.length := akin.length_eq ▸ within
    have same : ops[i].Akin ops'[i] := akin.get within₀ within
    rw [same.does] at fork
    rw [does .merge (List.forall₂_drop (i + 1) akin)]
    exact closed.merges i within₀ fork

def Stop.shift (δ : Int) : Stop → Stop
  | .at p => .at (p + δ)
  | .broken b => .broken { b with place := b.place + δ }
  | stop => stop

theorem Stop.shift_zero (stop : Stop) : stop.shift 0 = stop := by
  cases stop with
  | «at» p => exact congrArg Stop.at (Int.add_zero p)
  | broken b => simp only [shift, Int.add_zero]
  | _ => rfl

-- Two rounds end alike, or go on alike, the second one at a place that lies so far behind.
inductive Turn.Abreast (δ : Int) (R : Machine → Machine → Prop) : Turn → Turn → Prop where
  | ended {stop : Stop} {m m' : Machine} (related : R m m') :
      Abreast δ R (.ended stop m) (.ended (stop.shift δ) m')
  | onward {i : Int} {m m' : Machine} (related : R m m') :
      Abreast δ R (.onward i m) (.onward (i + δ) m')

-- A list runs in the same way with other operations after it: nothing in it jumps or pauses, and if there are
-- such operations, it is left at its end only and captures nothing.
structure Contained (post ops : List Operation) : Prop where
  unpaused : Unpaused ops
  straight : Straight ops
  inside : post = [] ∨ Mute ops ∧ Closed ops

theorem Contained.akin {post ops ops' : List Operation} (contained : Contained post ops)
    (akin : Machine.OpsAkin ops ops') : Contained post ops' where
  unpaused := contained.unpaused.akin akin
  straight := contained.straight.akin akin
  inside := contained.inside.imp_right fun h => ⟨h.1.akin akin, h.2.akin akin⟩

-- What an operation does that neither jumps nor touches what stands after its list.
structure Contained.Op (post : List Operation) (op : Operation) : Prop where
  jump : op.primitive? ≠ some .jump
  conditional : op.primitive? ≠ some .conditionalJump
  inside : post = [] ∨ op.primitive? ≠ some .register ∧ op.primitive? ≠ some .finish

theorem Closed.stay {ops : List Operation} {op : Operation} (closed : Closed ops) (mem : op ∈ ops)
    (enabled : op.disabled = false) : op.primitive? ≠ some .finish := by
  intro primitive
  have finish := closed.stays op mem
  rw [Operation.does_iff.mpr ⟨primitive, enabled⟩] at finish
  cases finish

theorem Contained.op {post ops : List Operation} {op : Operation} (contained : Contained post ops)
    (mem : op ∈ ops) (enabled : op.disabled = false) : Contained.Op post op where
  jump := (contained.straight.jumpless mem enabled).1
  conditional := (contained.straight.jumpless mem enabled).2
  inside := contained.inside.imp_right fun h => ⟨h.1.silent mem enabled, h.2.stay mem enabled⟩

namespace Deed

variable {o o' : Outlook} {op : Operation} {d d' : Dish} {deed : Deed} {post : List Operation} {p : Primitive}

def Stays (post : List Operation) : Deed → Prop
  | .leap _ _ => False
  | .capture _ | .finish => post = []
  | .pass | .stay => True

/-- Only a Return finishes. -/
theorem ofPrimitive_finish (primitive : op.primitive? = some p)
    (h : ofPrimitive o op d p = (.ok finish, d')) : p = .finish := by
  have leapless : ¬Leaps o op finish := by
    rintro (pass | stays | ⟨label, budget, place, same, -⟩)
    · cases pass
    · cases stays
    · cases same
  cases p with
  | finish => rfl
  | register => rcases register_deed h with pass | ⟨texts, captures, -⟩ <;> contradiction
  | jump => exact absurd (jump_deed primitive h) leapless
  | conditionalJump => exact absurd (conditionalJump_deed primitive h) leapless
  | _ => cases h

theorem stays_of_decided (contained : Contained.Op post op) (primitive : op.primitive? = some p)
    (decided : ofPrimitive o op d p = (.ok deed, d')) : deed.Stays post := by
  cases deed with
  | leap label place =>
    obtain ⟨budget, here, -⟩ := ofPrimitive_leap primitive decided
    unfold Operation.budget? at here
    split at here
    · next jump => exact contained.jump jump
    · next conditional => exact contained.conditional conditional
    · cases here
  | capture texts =>
    obtain ⟨rfl, -⟩ := ofPrimitive_capture primitive decided
    exact contained.inside.resolve_right fun h => h.1 primitive
  | finish =>
    obtain rfl := ofPrimitive_finish primitive decided
    exact contained.inside.resolve_right fun h => h.2 primitive
  | _ => trivial

/-- Only jumps look around. -/
theorem ofPrimitive_outlook (o' : Outlook) (contained : Contained.Op post op)
    (primitive : op.primitive? = some p) : ofPrimitive o' op d p = ofPrimitive o op d p := by
  cases p with
  | jump => exact absurd primitive contained.jump
  | conditionalJump => exact absurd primitive contained.conditional
  | _ => rfl

end Deed

namespace Machine

variable {run : Machine → Stop × Machine} {start start' i : Int} {op : Operation}
  {m m' k k' : Machine} {pre post : List Operation} {t : Turn}

-- A machine, and one that runs the same operations with others before and after them. What the ledger of the
-- second one holds is what the first one has captured.
structure Amid (pre post : List Operation) (m m' : Machine) : Prop where
  ops : m'.ops = pre ++ m.ops ++ post
  dish : m'.dish = m.dish
  offset : m'.frame.offset = m.frame.offset
  addressable : m'.frame.addressable = m.frame.addressable
  ledger : Ledger.Echoes (.opened none) pre.length m.ledger m'.ledger

theorem Amid.length (amid : Amid pre post m m') :
    m'.ops.length = pre.length + m.ops.length + post.length := by
  rw [amid.ops, List.length_append, List.length_append]

theorem Amid.note (amid : Amid pre post m m') {e e' : Event} (other : ∀ p, e ≠ .published p)
    (other' : ∀ p, e' ≠ .published p) : Amid pre post (m.note e) (m'.note e') :=
  { amid with ledger := amid.ledger.note other other' }

theorem Amid.enter (amid : Amid pre post m m') (i i' : Int) (op : Operation) :
    Amid pre post (m.enter i op) (m'.enter i' op) :=
  { amid with ledger := amid.ledger.count.note (fun _ => Event.noConfusion) fun _ => Event.noConfusion }

/-- The same operation stands at the place that lies so far behind. -/
theorem Amid.opAt (amid : Amid pre post m m') (front : 0 ≤ i) (here : m.opAt? i = some op) :
    m'.opAt? (i + pre.length) = some op := by
  have length := amid.length
  have within := opAt_lt here
  have there := opAt_some front here
  rw [opAt_nonneg (by omega) (by omega), amid.ops, List.append_assoc,
    List.getElem?_append_right (by omega), List.getElem?_append_left (by omega)]
  have place : (i + pre.length).toNat - pre.length = i.toNat := by omega
  rw [place]
  exact there

theorem Amid.ready (amid : Amid pre post m m') (front : 0 ≤ i) (contained : Contained post m.ops)
    (ready : m.Ready start i op) : m'.Ready start' (i + pre.length) op where
  here := amid.opAt front ready.here
  enabled := ready.enabled
  goes := by
    rintro ⟨pauses, -⟩
    rw [contained.unpaused op (opAt_mem ready.here) ready.enabled] at pauses
    cases pauses
  allowed := exceeded_unlimited (l := m'.ledger.count) amid.ledger.free'

theorem follows_amid (front : 0 ≤ i) (size size' : Nat) :
    follows size' (i + pre.length) = pre.length + follows size i := by
  obtain ⟨n, rfl⟩ := Int.eq_ofNat_of_zero_le front
  rw [follows_nat, ← Int.natCast_add, follows_nat, Nat.add_comm n, Nat.add_assoc]

/-- A Register with nothing after its list fills the references in the same operations. -/
theorem Amid.capture (amid : Amid pre [] m m') (front : 0 ≤ m.frame.cursor)
    (cursor : m'.frame.cursor = m.frame.cursor + pre.length) (texts : List (List Text.Glyph)) :
    Amid pre [] (m.capture texts) (m'.capture texts) where
  ops := by
    change m'.ops.take (follows m'.ops.length m'.frame.cursor) ++
        (m'.ops.drop (follows m'.ops.length m'.frame.cursor)).map
          (resolveArgs ⟨m'.frame.addressable, texts⟩) =
      pre ++ (m.ops.take (follows m.ops.length m.frame.cursor) ++
        (m.ops.drop (follows m.ops.length m.frame.cursor)).map
          (resolveArgs ⟨m.frame.addressable, texts⟩)) ++ []
    rw [cursor, follows_amid front m.ops.length, amid.ops, amid.addressable, List.append_nil,
      List.append_nil, List.take_length_add_append, List.drop_length_add_append, List.append_assoc]
  dish := amid.dish
  offset := amid.offset
  addressable := congrArg (· + texts.length) amid.addressable
  ledger := by
    have moved : (⟨m'.frame.offset + m'.frame.cursor, m'.frame.addressable, texts⟩ :
        Publication) = Publication.shift pre.length
          ⟨m.frame.offset + m.frame.cursor, m.frame.addressable, texts⟩ := by
      simp only [Publication.shift, cursor, amid.offset, amid.addressable, Int.add_assoc]
    have published := amid.ledger.publish
      ⟨m.frame.offset + m.frame.cursor, m.frame.addressable, texts⟩
    rw [← moved] at published
    exact published

theorem Amid.enact {deed : Deed} (amid : Amid pre post m m') (front : 0 ≤ m.frame.cursor)
    (cursor : m'.frame.cursor = m.frame.cursor + pre.length) (stays : deed.Stays post) :
    Amid pre post (m.enact deed) (m'.enact deed) ∧
      (m'.enact deed).frame.cursor = (m.enact deed).frame.cursor + pre.length := by
  cases deed with
  | pass => exact ⟨amid, cursor⟩
  | stay => exact ⟨amid.note (fun _ => Event.noConfusion) fun _ => Event.noConfusion, cursor⟩
  | leap label place => exact stays.elim
  | capture texts =>
    obtain rfl : post = [] := stays
    exact ⟨amid.capture front cursor texts, cursor⟩
  | finish =>
    obtain rfl : post = [] := stays
    refine ⟨{ amid with }, ?_⟩
    have length := amid.length
    change (m'.ops.length : Int) = m.ops.length + pre.length
    rw [length, List.length_nil]
    omega

/-- An operation that acts does the same at the place that lies so far behind. -/
theorem Acts.amid {r : Except Failure Int} (acts : m.Acts i op r k) (amid : Amid pre post m m')
    (front : 0 ≤ i) (contained : Contained.Op post op) :
    ∃ k', m'.Acts (i + pre.length) op (r.map (· + (pre.length : Int))) k' ∧ Amid pre post k k' := by
  cases acts with
  | unreadable get => exact ⟨m', .unreadable (by rwa [amid.dish]), amid⟩
  | refused ordinary get made =>
    rw [← amid.dish] at get
    exact ⟨_, .refused ordinary get made, { amid with dish := rfl }⟩
  | produced ordinary get made =>
    exact ⟨_, .produced ordinary (by rwa [amid.dish]) made, { amid with dish := rfl }⟩
  | declined primitive other get decided =>
    rw [← Deed.ofPrimitive_outlook m'.outlook contained primitive] at decided
    exact ⟨_, .declined primitive other (by rwa [amid.dish]) decided, { amid with dish := rfl }⟩
  | @enacted p v d d' deed primitive other get decided =>
    have stays := Deed.stays_of_decided contained primitive decided
    rw [← Deed.ofPrimitive_outlook m'.outlook contained primitive] at decided
    have moved : Amid pre post { m.moveTo i with dish := d' }
        { m'.moveTo (i + pre.length) with dish := d' } := { amid with dish := rfl }
    obtain ⟨enacted, cursor⟩ := moved.enact front rfl stays
    have acts' : m'.Acts (i + pre.length) op _ _ :=
      .enacted primitive other (by rwa [amid.dish]) decided
    rw [cursor] at acts'
    exact ⟨_, acts', enacted⟩

/-- A Fork runs the same operations, as the Merge that ends them stands in its list, or nothing stands
after this. -/
theorem Amid.forkBody (amid : Amid pre post m m') (front : 0 ≤ i) (d : Dish)
    (contained : Contained post m.ops) (here : m.opAt? i = some op) (fork : op.does .fork) :
    (m'.forking (i + pre.length) d).forkBody = (m.forking i d).forkBody := by
  change (m'.ops.drop (follows m'.ops.length (i + pre.length))).takeWhile _ =
    (m.ops.drop (follows m.ops.length i)).takeWhile _
  obtain ⟨n, rfl⟩ := Int.eq_ofNat_of_zero_le front
  have there : m.ops[n]? = some op := opAt_some front here
  obtain ⟨within, same⟩ := List.getElem?_eq_some_iff.mp there
  rw [follows_amid front m.ops.length, amid.ops, List.append_assoc, List.drop_length_add_append, follows_nat,
    List.drop_append_of_le_length (by omega), List.takeWhile_append]
  rcases contained.inside with rfl | ⟨-, closed⟩
  · rw [List.takeWhile_nil, List.append_nil]
    split
    · next whole => exact ((List.takeWhile_prefix _).eq_of_length whole).symm
    · rfl
  · apply if_neg
    intro whole
    -- Else no operation after the Fork would be a Merge.
    have all := List.takeWhile_eq_self_iff.mp ((List.takeWhile_prefix _).eq_of_length whole)
    obtain ⟨merge, mem, does⟩ := List.any_eq_true.mp (closed.merges n within (same ▸ fork))
    have other := all merge mem
    rw [does] at other
    cases other

theorem Amid.split {s : Split} {d : Dish} (amid : Amid pre post m m') (front : 0 ≤ i)
    (contained : Contained post m.ops) (here : m.opAt? i = some op) (fork : op.does .fork)
    (cut : (m.forking i d).split op = (.ok s, d)) :
    (m'.forking (i + pre.length) d).split op =
      (.ok (s.elsewhere (s.frame.offset + pre.length)), d) := by
  have dishes : (m'.forking (i + pre.length) d).dish = (m.forking i d).dish := rfl
  have same := split_congr op dishes
  rw [cut, amid.forkBody front d contained here fork] at same
  obtain ⟨separator, delimiter, ignoring, more, v, parts, -, -, -, rfl⟩ := split_ok cut
  have inner : (m'.forking (i + pre.length) d).frame.inner =
      { (m.forking i d).frame.inner with offset := (m.forking i d).frame.inner.offset + pre.length } := by
    have offset : m.frame.offset + (i + pre.length) + 1 = m.frame.offset + i + 1 + pre.length := by
      omega
    simp only [Frame.inner, forking, moveTo, amid.offset, amid.addressable, offset]
  rw [inner] at same
  exact same

theorem Serves.amid {r : Except Halt Int} (oblivious : Oblivious run) (serves : m.Serves run i op r k)
    (amid : Amid pre post m m') (front : 0 ≤ i) (contained : Contained post m.ops)
    (here : m.opAt? i = some op) (fork : op.does .fork) :
    ∃ k', m'.Serves run (i + pre.length) op (r.map (· + (pre.length : Int))) k' ∧ Amid pre post k k' := by
  have tranches : ∀ {s : Split} {halt h},
      s.serveAll run 1 s.parts (s.opening m.ledger) = (halt, h) →
      ∃ ledger', (s.elsewhere (s.frame.offset + pre.length)).serveAll run 1 s.parts
          ((s.elsewhere (s.frame.offset + pre.length)).opening m'.ledger) =
            (halt, { h with ledger := ledger' }) ∧
        Ledger.Echoes (.opened none) pre.length h.ledger ledger' :=
    fun served => Split.serveAll_alike oblivious 1 _ amid.ledger served
  have cutting : ∀ {s d}, (m.forking i d).split op = (.ok s, d) →
      (m'.forking (i + pre.length) d).split op = (.ok (s.elsewhere (s.frame.offset + pre.length)), d) :=
    fun cut => amid.split front contained here fork cut
  cases serves with
  | @unsplit v d f get cut =>
    have dishes : (m'.forking (i + pre.length) d).dish = (m.forking i d).dish := rfl
    have same := split_congr op dishes
    rw [cut] at same
    exact ⟨_, .unsplit (by rwa [amid.dish]) same, { amid with dish := rfl }⟩
  | @halted v d s halt h get cut served =>
    obtain ⟨ledger', served', echoed⟩ := tranches served
    have serves' : m'.Serves run (i + pre.length) op _ _ :=
      .halted (by rwa [amid.dish]) (cutting cut) served'
    exact ⟨_, serves', { amid with dish := rfl, ledger := echoed }⟩
  | @unset v d s h e get cut served set =>
    obtain ⟨ledger', served', echoed⟩ := tranches served
    have serves' : m'.Serves run (i + pre.length) op _ _ :=
      .unset (by rwa [amid.dish]) (cutting cut) served' set
    exact ⟨_, serves', { amid with dish := rfl, ledger := echoed }⟩
  | @joined v d d' s h get cut served set =>
    obtain ⟨ledger', served', echoed⟩ := tranches served
    have serves' : m'.Serves run (i + pre.length) op _ _ :=
      .joined (by rwa [amid.dish]) (cutting cut) served' set
    have place : i + pre.length + h.progress = i + h.progress + pre.length := by omega
    rw [place] at serves'
    exact ⟨_, serves', { amid with dish := rfl, ledger := echoed }⟩

theorem conclude_amid (amid : Amid pre post m m') (i : Int) (op : Operation) (halt : Halt) :
    Turn.Abreast pre.length (Amid pre post) (m.conclude i op halt)
      (m'.conclude (i + pre.length) op halt) := by
  have ended : ∀ (stop : Stop) {k k' : Machine}, Amid pre post k k' →
      Turn.Abreast pre.length (Amid pre post) (.ended stop k) (.ended (stop.shift pre.length) k') :=
    fun _ _ _ related => .ended related
  unfold conclude
  cases halt with
  | failed f =>
    dsimp only
    cases f.isExpected with
    | true => exact ended (.at i) { amid with dish := rfl }
    | false => exact ended (.broken ⟨op.name, i, f⟩) amid
  | broken b => exact ended (.broken { b with place := i }) amid
  | overLimit l => exact ended (.overLimit l) amid
  | unfinished => exact ended .unfinished amid

/-- A round at a place of the list goes as one at the place that lies so far behind. -/
theorem Rounds.amid (oblivious : Oblivious run) (rounds : m.Rounds run start i t) (start' : Int)
    (front : 0 ≤ i) (amid : Amid pre post m m') (contained : Contained post m.ops)
    (ahead : post = [] ∨ i < m.ops.length) :
    Turn.Abreast pre.length (Amid pre post) t (m'.round run start' (i + pre.length)) := by
  have length := amid.length
  cases rounds with
  | completed beyond =>
    obtain rfl : post = [] := ahead.resolve_right (by omega)
    rw [List.length_nil] at length
    have both : m'.Rounds run start' (i + pre.length) _ := .completed (by omega)
    have size : (m'.ops.length : Int) = m.ops.length + pre.length := by omega
    rw [both.eq, size]
    exact .ended (amid.note (fun _ => Event.noConfusion) fun _ => Event.noConfusion)
  | outside within missing =>
    rw [opAt_nonneg front within, List.getElem?_eq_none_iff] at missing
    omega
  | skipped here disabled =>
    have both : m'.Rounds run start' (i + pre.length) _ := .skipped (amid.opAt front here) disabled
    have next : i + pre.length + 1 = i + 1 + pre.length := by omega
    rw [both.eq, next]
    exact .onward (amid.note (fun _ => Event.noConfusion) fun _ => Event.noConfusion)
  | paused here enabled pauses =>
    have goes := contained.unpaused _ (opAt_mem here) enabled
    rw [pauses.1] at goes
    cases goes
  | exceeded here enabled goes excess =>
    rw [exceeded_unlimited (l := m.ledger.count) amid.ledger.free] at excess
    cases excess
  | @failed op f k ready acts =>
    have stays := contained.op (opAt_mem ready.here) ready.enabled
    obtain ⟨k', acts', amid'⟩ := acts.amid (amid.enter i (i + pre.length) op) front stays
    have both : m'.Rounds run start' (i + pre.length) _ :=
      .failed (amid.ready front contained ready) acts'
    rw [both.eq]
    exact conclude_amid amid' i op _
  | @acted op j k ready acts =>
    have stays := contained.op (opAt_mem ready.here) ready.enabled
    obtain ⟨k', acts', amid'⟩ := acts.amid (amid.enter i (i + pre.length) op) front stays
    have both : m'.Rounds run start' (i + pre.length) _ :=
      .acted (amid.ready front contained ready) acts'
    have next : j + pre.length + 1 = j + 1 + pre.length := by omega
    rw [both.eq, next]
    exact .onward { amid' with }
  | @halted op halt k ready fork serves =>
    have does := Operation.does_iff.mpr ⟨fork, ready.enabled⟩
    obtain ⟨k', serves', amid'⟩ := serves.amid oblivious (amid.enter i (i + pre.length) op) front
      contained ready.here does
    have both : m'.Rounds run start' (i + pre.length) _ :=
      .halted (amid.ready front contained ready) fork serves'
    rw [both.eq]
    exact conclude_amid amid' i op halt
  | @served op j k ready fork serves =>
    have does := Operation.does_iff.mpr ⟨fork, ready.enabled⟩
    obtain ⟨k', serves', amid'⟩ := serves.amid oblivious (amid.enter i (i + pre.length) op) front
      contained ready.here does
    have both : m'.Rounds run start' (i + pre.length) _ :=
      .served (amid.ready front contained ready) fork serves'
    have next : j + pre.length + 1 = j + 1 + pre.length := by omega
    rw [both.eq, next]
    exact .onward { amid' with }

end Machine

end Kitchen.Run
