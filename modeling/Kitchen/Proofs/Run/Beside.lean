import Kitchen.Proofs.Dish.Legible
import Kitchen.Proofs.Run.Elsewhere
import Kitchen.Proofs.Run.Typing

namespace Kitchen

structure Operation.Silenced (a b : Operation) : Prop where
  comment : a.primitive? = some .comment
  comment' : b.primitive? = some .comment
  disabled : a.disabled = true
  enabled : b.disabled = false
  goes : b.pauses = false

namespace Run

-- Two lists of operations that are the same but for a Comment, at the place `p`, that is passed over in the
-- first and carried out in the second. Places outside the lists stand for no Comment.
inductive Muted : Int → List Operation → List Operation → Prop where
  | nil (p : Int) : Muted p [] []
  | same {p : Int} {ops ops' : List Operation} (op : Operation) (rest : Muted (p - 1) ops ops') :
      Muted p (op :: ops) (op :: ops')
  | comment {ops ops' : List Operation} {op op' : Operation} (silenced : op.Silenced op')
      (rest : Muted (-1) ops ops') : Muted 0 (op :: ops) (op' :: ops')

namespace Muted

variable {p : Int} {ops ops' : List Operation} {op op' : Operation} {n : Nat}

theorem refl (p : Int) (ops : List Operation) : Muted p ops ops := by
  induction ops generalizing p with
  | nil => exact .nil p
  | cons op ops ih => exact .same op (ih (p - 1))

theorem insert (silenced : op.Silenced op') (before after : List Operation) :
    Muted before.length (before ++ op :: after) (before ++ op' :: after) := by
  induction before with
  | nil => exact .comment silenced (.refl _ _)
  | cons first before ih =>
    refine .same first ?_
    have shorter : ((first :: before).length : Int) - 1 = before.length := by
      rw [List.length_cons]
      omega
    rw [shorter]
    exact ih

theorem length (muted : Muted p ops ops') : ops'.length = ops.length := by
  induction muted with
  | nil => rfl
  | same op rest ih => exact congrArg (· + 1) ih
  | comment silenced rest ih => exact congrArg (· + 1) ih

theorem getElem? (muted : Muted p ops ops') (here : ops[n]? = some op) :
    ∃ op', ops'[n]? = some op' ∧ (op' = op ∨ op.Silenced op' ∧ p = n) := by
  induction muted generalizing n with
  | nil => cases here
  | @same p _ _ first rest ih =>
    cases n with
    | zero => exact ⟨first, rfl, .inl (by simpa using here)⟩
    | succ n =>
      obtain ⟨op', there, related⟩ := ih (by simpa using here)
      refine ⟨op', by simpa using there, related.imp_right fun ⟨silenced, place⟩ => ?_⟩
      exact ⟨silenced, by omega⟩
  | @comment _ _ first first' silenced rest ih =>
    -- There is no other Comment in the rest, where its place would be before the front.
    cases n with
    | zero =>
      obtain rfl : first = op := by simpa using here
      exact ⟨first', rfl, .inr ⟨silenced, rfl⟩⟩
    | succ n =>
      obtain ⟨op', there, related⟩ := ih (by simpa using here)
      refine ⟨op', by simpa using there, .inl (related.resolve_right fun ⟨_, place⟩ => ?_)⟩
      omega

theorem drop (muted : Muted p ops ops') (n : Nat) : Muted (p - n) (ops.drop n) (ops'.drop n) := by
  induction n generalizing p ops ops' with
  | zero =>
    have none : p - ((0 : Nat) : Int) = p := by omega
    rw [none]
    exact muted
  | succ n ih =>
    cases muted with
    | nil => exact .nil _
    | same op rest =>
      have further : p - ((n + 1 : Nat) : Int) = p - 1 - n := by omega
      rw [further]
      exact ih rest
    | comment silenced rest =>
      have further : (0 : Int) - ((n + 1 : Nat) : Int) = -1 - n := by omega
      rw [further]
      exact ih rest

theorem takeWhile (test : Operation → Bool)
    (blind : ∀ {a b}, a.Silenced b → test a = true ∧ test b = true)
    (muted : Muted p ops ops') : Muted p (ops.takeWhile test) (ops'.takeWhile test) := by
  induction muted with
  | nil p => exact .nil p
  | @same p _ _ op rest ih =>
    by_cases passes : test op
    · rw [List.takeWhile_cons_of_pos passes, List.takeWhile_cons_of_pos passes]
      exact .same op ih
    · rw [List.takeWhile_cons_of_neg passes, List.takeWhile_cons_of_neg passes]
      exact .nil p
  | comment silenced rest ih =>
    rw [List.takeWhile_cons_of_pos (blind silenced).1, List.takeWhile_cons_of_pos (blind silenced).2]
    exact .comment silenced ih

theorem map (f : Operation → Operation) (keeps : ∀ {a b}, a.Silenced b → (f a).Silenced (f b))
    (muted : Muted p ops ops') : Muted p (ops.map f) (ops'.map f) := by
  induction muted with
  | nil p => exact .nil p
  | same op rest ih => exact .same (f op) ih
  | comment silenced rest ih => exact .comment (keeps silenced) ih

theorem mapRest (f : Operation → Operation) (keeps : ∀ {a b}, a.Silenced b → (f a).Silenced (f b))
    (k : Nat) (muted : Muted p ops ops') :
    Muted p (ops.take k ++ (ops.drop k).map f) (ops'.take k ++ (ops'.drop k).map f) := by
  induction k generalizing p ops ops' with
  | zero => exact muted.map f keeps
  | succ k ih =>
    cases muted with
    | nil => exact .nil p
    | same op rest => exact .same op (ih rest)
    | comment silenced rest => exact .comment silenced (ih rest)

theorem labelPosition (muted : Muted p ops ops') (label : Value) :
    labelPosition? label ops' = labelPosition? label ops := by
  have unnamed : ∀ {op : Operation}, op.primitive? = some .comment →
      (op.does .label && op.args.head?.any (·.same label)) = false := by
    intro op comment
    simp only [Operation.does, comment]
    rfl
  unfold labelPosition?
  induction muted with
  | nil => rfl
  | same op rest ih => rw [List.findIdx?_cons, List.findIdx?_cons, ih]
  | comment silenced rest ih =>
    rw [List.findIdx?_cons, List.findIdx?_cons, ih, unnamed silenced.comment,
      unnamed silenced.comment']

/-- Comments have no budgets, so as many rounds are granted for both lists. -/
theorem rounds (muted : Muted p ops ops') (limit : Option Int) :
    Run.rounds ops' limit = Run.rounds ops limit := by
  have unbudgeted : ∀ {op : Operation}, op.primitive? = some .comment →
      Operation.budget? op = none := by
    intro op comment
    simp only [Operation.budget?, comment]
  have bounds : jumpBound ops' = jumpBound ops := by
    unfold jumpBound
    generalize some 0 = most
    induction muted generalizing most with
    | nil => rfl
    | same op rest ih => exact ih _
    | comment silenced rest ih =>
      rw [List.foldl_cons, List.foldl_cons, unbudgeted silenced.comment,
        unbudgeted silenced.comment']
      exact ih most
  unfold Run.rounds
  rw [bounds, muted.length]

end Muted

structure Ledger.Beside (l l' : Ledger) : Prop where
  free : l.limit = none
  free' : l'.limit = none
  registers : l'.registers = l.registers

namespace Machine

-- Two machines that go on in step. The first passes over the Comment that stands at the place `p` of the
-- outermost list; the dishes cannot be told apart by the types that operations ask for.
structure Beside (p : Int) (tags : List String) (m m' : Machine) : Prop where
  ops : Muted (p - m.frame.offset) m.ops m'.ops
  dish : m.dish.Reads tags m'.dish
  jumps : m'.frame.jumps = m.frame.jumps
  addressable : m'.frame.addressable = m.frame.addressable
  offset : m'.frame.offset = m.frame.offset
  ledger : m.ledger.Beside m'.ledger
  asks : ∀ op ∈ m.ops, op.disabled = false → op.input ∈ tags ∧ op.Textual

structure InStep (p : Int) (tags : List String) (r r' : Stop × Machine) : Prop where
  stop : r'.1 = r.1
  machines : r.2.Beside p tags r'.2

variable {p i j : Int} {tags : List String} {run : Machine → Stop × Machine} {op : Operation}
  {m m' k k' : Machine}

namespace Beside

theorem reads (beside : m.Beside p tags m') (mem : op ∈ m.ops) (enabled : op.disabled = false) :
    m'.dish.get op.input = m.dish.get op.input :=
  beside.dish _ (beside.asks op mem enabled).1

/-- Once both were asked for a type they have the same dish. -/
theorem served (beside : m.Beside p tags m') (d : Dish) :
    Beside p tags { m with dish := d } { m' with dish := d } :=
  { beside with dish := fun _ _ => rfl }

theorem note (beside : m.Beside p tags m') (e e' : Event) : (m.note e).Beside p tags (m'.note e') :=
  { beside with ledger := ⟨beside.ledger.free, beside.ledger.free', beside.ledger.registers⟩ }

theorem enter (beside : m.Beside p tags m') (i : Int) (op op' : Operation) :
    (m.enter i op).Beside p tags (m'.enter i op') :=
  { beside with ledger := ⟨beside.ledger.free, beside.ledger.free', beside.ledger.registers⟩ }

theorem moveTo (beside : m.Beside p tags m') (i i' : Int) :
    (m.moveTo i).Beside p tags (m'.moveTo i') :=
  { beside with }

theorem complete (beside : m.Beside p tags m') (last last' : Option Nat) :
    Beside p tags { m with last := last } { m' with last := last' } :=
  { beside with }

theorem outlook (beside : m.Beside p tags m') : m'.outlook = m.outlook := by
  -- Jumps look at labels and at the number of jumps; a Comment is no label.
  unfold Machine.outlook
  rw [beside.jumps]
  congr 1
  funext label
  exact beside.ops.labelPosition label

theorem size (beside : m.Beside p tags m') : m'.ops.length = m.ops.length :=
  beside.ops.length

end Beside

theorem resolveArgs_silenced (c : Reference.Capture) {a b : Operation} (silenced : a.Silenced b) :
    (resolveArgs c a).Silenced (resolveArgs c b) where
  comment := (resolveArgs_akin c a).primitive.trans silenced.comment
  comment' := (resolveArgs_akin c b).primitive.trans silenced.comment'
  disabled := (resolveArgs_akin c a).disabled.trans silenced.disabled
  enabled := (resolveArgs_akin c b).disabled.trans silenced.enabled
  goes := (resolveArgs_akin c b).pauses.trans silenced.goes

theorem asks_akin {ops ops' : List Operation} (akin : OpsAkin ops ops')
    (asks : ∀ op ∈ ops, op.disabled = false → op.input ∈ tags ∧ op.Textual) :
    ∀ op ∈ ops', op.disabled = false → op.input ∈ tags ∧ op.Textual := by
  intro op mem enabled
  obtain ⟨op₀, mem₀, same⟩ := OpsAkin.back akin mem
  obtain ⟨input, textual⟩ := asks op₀ mem₀ (same.disabled.symm.trans enabled)
  refine ⟨?_, textual.akin same⟩
  rw [same.rest]
  exact input

theorem Beside.capture (beside : m.Beside p tags m') (cursor : m'.frame.cursor = m.frame.cursor)
    (texts : List (List Text.Glyph)) : (m.capture texts).Beside p tags (m'.capture texts) where
  ops := by
    change Muted (p - m.frame.offset)
      (m.ops.take (follows m.ops.length m.frame.cursor) ++
        (m.ops.drop (follows m.ops.length m.frame.cursor)).map
          (resolveArgs ⟨m.frame.addressable, texts⟩))
      (m'.ops.take (follows m'.ops.length m'.frame.cursor) ++
        (m'.ops.drop (follows m'.ops.length m'.frame.cursor)).map
          (resolveArgs ⟨m'.frame.addressable, texts⟩))
    rw [cursor, beside.size, beside.addressable]
    exact beside.ops.mapRest _ (resolveArgs_silenced _) _
  dish := beside.dish
  jumps := beside.jumps
  addressable := congrArg (· + texts.length) beside.addressable
  offset := beside.offset
  ledger := ⟨beside.ledger.free, beside.ledger.free',
    congrArg (· ++ texts) beside.ledger.registers⟩
  asks := asks_akin (m.capture_akin texts) beside.asks

/-- The deeds of both lead to the same place. -/
theorem Beside.enact (beside : m.Beside p tags m') (cursor : m'.frame.cursor = m.frame.cursor)
    (deed : Deed) : (m.enact deed).Beside p tags (m'.enact deed) ∧
      (m'.enact deed).frame.cursor = (m.enact deed).frame.cursor := by
  cases deed with
  | pass => exact ⟨beside, cursor⟩
  | stay => exact ⟨beside.note _ _, cursor⟩
  | leap label place =>
    refine ⟨?_, rfl⟩
    exact { beside with
      jumps := congrArg (· + 1) beside.jumps
      ledger := ⟨beside.ledger.free, beside.ledger.free', beside.ledger.registers⟩ }
  | capture texts => exact ⟨beside.capture cursor texts, cursor⟩
  | finish => exact ⟨beside.moveTo _ _, congrArg Nat.cast beside.size⟩

/-- What an operation other than a Fork does, it does in both. -/
theorem Acts.beside {r : Except Failure Int} (acts : m.Acts i op r k) (beside : m.Beside p tags m')
    (mem : op ∈ m.ops) (enabled : op.disabled = false) :
    ∃ k', m'.Acts i op r k' ∧ k.Beside p tags k' := by
  have reads := beside.reads mem enabled
  cases acts with
  | unreadable get => exact ⟨m', .unreadable (reads.trans get), beside⟩
  | refused ordinary get made =>
    exact ⟨_, .refused ordinary (reads.trans get) made, beside.served _⟩
  | produced ordinary get made =>
    exact ⟨_, .produced ordinary (reads.trans get) made, beside.served _⟩
  | declined primitive other get decided =>
    rw [← beside.outlook] at decided
    exact ⟨_, .declined primitive other (reads.trans get) decided, (beside.moveTo i i).served _⟩
  | @enacted p v d d' deed primitive other get decided =>
    rw [← beside.outlook] at decided
    obtain ⟨machines, cursor⟩ := ((beside.moveTo i i).served d').enact rfl deed
    have acts' : m'.Acts i op _ _ := .enacted primitive other (reads.trans get) decided
    rw [cursor] at acts'
    exact ⟨_, acts', machines⟩

structure Harvest.Beside (h h' : Harvest) : Prop where
  output : h'.output = h.output
  progress : h'.progress = h.progress
  ledger : h.ledger.Beside h'.ledger

namespace Split

def within (s : Split) (body : List Operation) (frame : Frame) : Split :=
  { s with body, frame }

-- A Fork and the same one in another machine. Whatever dish is put into them, the machines that run their
-- tranches go on in step.
structure Beside (p : Int) (tags : List String) (s : Split) (body : List Operation) (frame : Frame) :
    Prop where
  output : s.op.output ∈ tags
  machines : ∀ dish l l', l.Beside l' →
    Machine.Beside p tags ⟨s.body, dish, s.frame, l, none⟩ ⟨body, dish, frame, l', none⟩

variable {s : Split} {body : List Operation} {frame : Frame} {number : Nat} {v : Value}
  {h h' h₁ : Harvest} {halt : Option Halt} {ledger ledger' : Ledger}

theorem remark_beside (beside : ledger.Beside ledger') (number : Nat) (stop : Stop) :
    (remark number stop ledger).Beside (remark number stop ledger') := by
  cases stop with
  | broken b => exact ⟨beside.free, beside.free', beside.registers⟩
  | _ => exact beside

/-- Tranches that end in step bring the same. -/
theorem Serve.beside (output : s.op.output ∈ tags)
    (inner : ∀ dish, Dish.make v s.op.input = .ok dish → InStep p tags (run (s.next number dish h))
      (run ((s.within body frame).next number dish h')))
    (harvests : h.Beside h') (serve : s.Serve run number v h halt h₁) :
    ∃ h₁', (s.within body frame).Serve run number v h' halt h₁' ∧ h₁.Beside h₁' := by
  have child : ∀ {dish stop m}, Dish.make v s.op.input = .ok dish →
      run (s.next number dish h) = (stop, m) →
      ∃ m', run ((s.within body frame).next number dish h') = (stop, m') ∧
        m.Beside p tags m' := by
    intro dish stop m made ran
    obtain ⟨stops, machines⟩ := inner dish made
    rw [ran] at stops machines
    exact ⟨(run ((s.within body frame).next number dish h')).2, Prod.ext stops rfl, machines⟩
  cases serve with
  | unmade made =>
    refine ⟨_, .unmade made, harvests.output, harvests.progress, ?_⟩
    exact ⟨harvests.ledger.free, harvests.ledger.free', harvests.ledger.registers⟩
  | stopped made ran reach =>
    obtain ⟨m', ran', machines⟩ := child made ran
    exact ⟨_, .stopped made ran' reach, harvests.output, harvests.progress, machines.ledger⟩
  | @unread dish stop m progress e made ran reach get =>
    obtain ⟨m', ran', machines⟩ := child made ran
    have get' : m'.dish.get (s.within body frame).op.output = .error e :=
      (machines.dish _ output).trans get
    exact ⟨_, .unread made ran' reach get', harvests.output, harvests.progress,
      remark_beside machines.ledger _ _⟩
  | @brought dish d stop m progress w made ran reach get =>
    obtain ⟨m', ran', machines⟩ := child made ran
    have get' : m'.dish.get (s.within body frame).op.output = .ok (w, d) :=
      (machines.dish _ output).trans get
    refine ⟨_, .brought made ran' reach get', ?_, rfl, remark_beside machines.ledger _ _⟩
    exact congrArg (· ++ outputText w ++ s.delimiter) harvests.output

theorem serveAll_beside (splits : s.Beside p tags body frame) (keeps : KeepsShape run)
    (ledgers : ledger.Beside ledger')
    (inner : ∀ child child', s.Opens run ledger child →
      (s.within body frame).Opens run ledger' child' → child.Beside p tags child' →
      InStep p tags (run child) (run child'))
    (served : s.serveAll run 1 s.parts (s.opening ledger) = (halt, h₁)) :
    ∃ h₁', (s.within body frame).serveAll run 1 s.parts ((s.within body frame).opening ledger') =
      (halt, h₁') ∧ h₁.Beside h₁' := by
  -- The induction is on the tranches still to come, after those that were brought in.
  suffices all : ∀ after before h h', s.parts = before ++ after →
      s.serveAll run 1 before (s.opening ledger) = (none, h) →
      (s.within body frame).serveAll run 1 before ((s.within body frame).opening ledger') =
        (none, h') → h.Beside h' →
      s.serveAll run (before.length + 1) after h = (halt, h₁) →
      ∃ h₁', (s.within body frame).serveAll run (before.length + 1) after h' = (halt, h₁') ∧
        h₁.Beside h₁' from
    all s.parts [] _ _ rfl rfl rfl ⟨rfl, rfl, ledgers⟩ served
  intro after
  induction after with
  | nil =>
    intro before h h' _ _ _ harvests eq
    obtain ⟨rfl, rfl⟩ : none = halt ∧ h = h₁ := by simpa [serveAll] using eq
    exact ⟨h', rfl, harvests⟩
  | cons v after ih =>
    intro before h h' parts sofar sofar' harvests eq
    obtain ⟨halt₂, h₂, serve⟩ := serve_serve run s (before.length + 1) v h
    have children : ∀ dish, Dish.make v s.op.input = .ok dish →
        InStep p tags (run (s.next (before.length + 1) dish h))
          (run ((s.within body frame).next (before.length + 1) dish h')) := by
      intro dish made
      have opens : s.Opens run ledger (s.next (before.length + 1) dish h) :=
        .intro parts sofar made
      have opens' : (s.within body frame).Opens run ledger'
          ((s.within body frame).next (before.length + 1) dish h') := .intro parts sofar' made
      refine inner _ _ opens opens' ?_
      have machines := splits.machines dish
        (h.ledger.note (.tranche (before.length + 1) s.parts.length))
        (h'.ledger.note (.tranche (before.length + 1) s.parts.length))
        ⟨harvests.ledger.free, harvests.ledger.free', harvests.ledger.registers⟩
      -- Both tranches begin with the operations that their Forks began with.
      have ops : s.restore h.ops = s.body := opens.ops keeps
      have ops' : (s.within body frame).restore h'.ops = body := opens'.ops keeps
      unfold next machine
      rw [ops, ops']
      exact machines
    obtain ⟨h₂', serve', harvests₂⟩ := serve.beside splits.output children harvests
    rw [serveAll, serve.eq] at eq
    rw [serveAll, serve'.eq]
    cases halt₂ with
    | some halt₂ =>
      obtain ⟨rfl, rfl⟩ : some halt₂ = halt ∧ h₂ = h₁ := by simpa using eq
      exact ⟨h₂', rfl, harvests₂⟩
    | none =>
      have further := ih (before ++ [v]) h₂ h₂' (by simpa using parts) (serve.joins sofar)
        (serve'.joins sofar') harvests₂
      simpa using further (by simpa using eq)

end Split

/-- A Fork in each of the two runs the same operations, but for the Comment. -/
theorem Beside.split {n : Nat} {d : Dish} {s : Split} (beside : m.Beside p tags m')
    (mem : op ∈ m.ops) (enabled : op.disabled = false) (fork : op.primitive? = some .fork)
    (texts : "string" ∈ tags) (cut : (m.forking n d).split op = (.ok s, d)) :
    ∃ body frame, (m'.forking n d).split op = (.ok (s.within body frame), d) ∧
      s.Beside p tags body frame := by
  have dishes : (m'.forking n d).dish = (m.forking n d).dish := rfl
  have same := split_congr op dishes
  rw [cut] at same
  refine ⟨_, _, same, ?_⟩
  obtain ⟨separator, delimiter, ignoring, more, w, parts, -, -, -, rfl⟩ := split_ok cut
  -- A Merge ends both lists at the same operation, as a Comment is none.
  have muted : Muted (p - (m.frame.offset + n + 1)) (m.forking n d).forkBody
      (m'.forking n d).forkBody := by
    have rest := beside.ops.drop (n + 1)
    have further : p - m.frame.offset - ((n + 1 : Nat) : Int) = p - (m.frame.offset + n + 1) := by
      omega
    rw [further] at rest
    change Muted _ ((m.ops.drop (follows m.ops.length n)).takeWhile _)
      ((m'.ops.drop (follows m'.ops.length n)).takeWhile _)
    rw [follows_nat, follows_nat]
    refine rest.takeWhile _ fun silenced => ⟨?_, ?_⟩
    · simp only [Operation.does, silenced.comment]
      rfl
    · simp only [Operation.does, silenced.comment']
      rfl
  constructor
  case output =>
    rw [((beside.asks op mem enabled).2 _ fork).2]
    exact texts
  case machines =>
    intro dish l l' ledgers
    constructor
    case ops => exact muted
    case dish => exact fun _ _ => rfl
    case jumps => rfl
    case addressable => exact beside.addressable
    case offset => exact congrArg (· + (n : Int) + 1) beside.offset
    case ledger => exact ledgers
    case asks => exact fun op' inner => beside.asks op' ((m.forking n d).forkBody_subset inner)

/-- What a Fork does, it does in both. -/
theorem Serves.beside {n : Nat} {r : Except Halt Int} (beside : m.Beside p tags m') (mem : op ∈ m.ops)
    (enabled : op.disabled = false) (fork : op.primitive? = some .fork) (texts : "string" ∈ tags)
    (keeps : KeepsShape run)
    (inner : ∀ v d s s' child child', m.dish.get op.input = .ok (v, d) →
      m'.dish.get op.input = .ok (v, d) → (m.forking n d).split op = (.ok s, d) →
      (m'.forking n d).split op = (.ok s', d) → s.Opens run m.ledger child →
      s'.Opens run m'.ledger child' → child.Beside p tags child' →
      InStep p tags (run child) (run child'))
    (serves : m.Serves run n op r k) : ∃ k', m'.Serves run n op r k' ∧ k.Beside p tags k' := by
  have reads := beside.reads mem enabled
  have moved : ∀ d, (m.forking n d).Beside p tags (m'.forking n d) :=
    fun d => (beside.moveTo n n).served d
  -- Both Forks cut the same text, so that their tranches begin with the same dishes.
  have tranches : ∀ {v d s halt h}, m.dish.get op.input = .ok (v, d) →
      (m.forking n d).split op = (.ok s, d) →
      s.serveAll run 1 s.parts (s.opening m.ledger) = (halt, h) →
      ∃ s' h', (m'.forking n d).split op = (.ok s', d) ∧
        s'.serveAll run 1 s'.parts (s'.opening m'.ledger) = (halt, h') ∧ h.Beside h' := by
    intro v d s halt h get cut served
    obtain ⟨body, frame, cut', splits⟩ := beside.split mem enabled fork texts cut
    obtain ⟨h', served', harvests⟩ := Split.serveAll_beside splits keeps beside.ledger
      (fun child child' opens opens' machines =>
        inner v d s _ child child' get (reads.trans get) cut cut' opens opens' machines) served
    exact ⟨_, h', cut', served', harvests⟩
  cases serves with
  | @unsplit v d f get cut =>
    have dishes : (m'.forking n d).dish = (m.forking n d).dish := rfl
    have same := split_congr op dishes
    rw [cut] at same
    exact ⟨_, .unsplit (reads.trans get) same, moved d⟩
  | @halted v d s halt h get cut served =>
    obtain ⟨s', h', cut', served', harvests⟩ := tranches get cut served
    exact ⟨_, .halted (reads.trans get) cut' served',
      { moved d with ledger := harvests.ledger }⟩
  | @unset v d s h e get cut served set =>
    obtain ⟨s', h', cut', served', harvests⟩ := tranches get cut served
    rw [← harvests.output] at set
    exact ⟨_, .unset (reads.trans get) cut' served' set,
      { moved d with ledger := harvests.ledger }⟩
  | @joined v d d' s h get cut served set =>
    obtain ⟨s', h', cut', served', harvests⟩ := tranches get cut served
    have progress := harvests.progress
    rw [← harvests.output] at set
    rw [← progress]
    exact ⟨_, .joined (reads.trans get) cut' served' set,
      { (beside.moveTo _ _).served d' with ledger := harvests.ledger }⟩

end Machine

end Run

end Kitchen
