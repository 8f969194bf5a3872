import Kitchen.Command.Choices
import Kitchen.Proofs.Outcome
import Mathlib.Data.List.Basic

namespace Kitchen.Command

open Storage (Path Tree)

-- The ways to write a switch with its value.
inductive Spells (s : Switch) (value : String) : List String → Prop
  | apart : Spells s value [s.long, value]
  | joined : Spells s value [s.long ++ "=" ++ value]

namespace Line

variable {form : Form} {s : Switch} {value word : String} {held kept left right words source : List String}
  {given : List (Switch × String)}

theorem addAll_nil (r : Except Slip Line) : addAll [] <$> r = r := by
  cases r <;> rfl

theorem addAll_addAll (more : List (Switch × String)) (r : Except Slip Line) :
    addAll given <$> addAll more <$> r = addAll (given ++ more) <$> r := by
  cases r with
  | error => rfl
  | ok l => simp [addAll, Functor.map, Except.map]

theorem of_addAll_ok (front : List (Switch × String)) {r : Except Slip Line}
    (h : addAll front <$> r = .ok ⟨given, kept⟩) :
    ∃ rest, given = front ++ rest ∧ r = .ok ⟨rest, kept⟩ := by
  cases r with
  | error => cases h
  | ok l =>
    cases h
    exact ⟨l.given, rfl, rfl⟩

theorem eq_dashes (dashes : Word.ofText form word = .dashes) : word = "--" := by
  unfold Word.ofText at dashes
  split at dashes
  · next letters => exact String.toList_inj.mp letters
  · dsimp only at dashes
    split at dashes
    · cases dashes
    · split at dashes <;> cases dashes
  · cases dashes

/-- The switches of a word that stands alone are put in front of all that is read after it. -/
theorem readWith_short {cs : List Char} (short : Word.ofText form word = .short cs)
    (known : shorts form cs = .ok given) :
    readWith form held (word :: words) = addAll given <$> readWith form held words := by
  rw [readWith, short]
  dsimp only
  rw [known]
  cases readWith form held words <;> rfl

theorem readWith_flag (flag : Word.ofText form word = .long s none) (bare : s.value? = none) :
    readWith form held (word :: words) = addAll [(s, "")] <$> readWith form held words := by
  rw [readWith, flag]
  dsimp only
  rw [bare]
  rfl

theorem readWith_joined {need : String} (joined : Word.ofText form word = .long s (some value))
    (needs : s.value? = some need) :
    readWith form held (word :: words) = addAll [(s, value)] <$> readWith form held words := by
  rw [readWith, joined]
  dsimp only
  rw [needs]
  rfl

theorem readWith_apart {need : String} (apart : Word.ofText form word = .long s none)
    (needs : s.value? = some need) :
    readWith form held (word :: value :: words) = addAll [(s, value)] <$> readWith form held words := by
  rw [readWith, apart]
  dsimp only
  rw [needs]
  rfl

/-- Words that end with a whole switch, or with none, can be read on from their end. Two dashes are not among
them, nor, for a group, the name of a command. -/
theorem readWith_append (plain : "--" ∉ left) (read : readWith form held left = .ok ⟨given, kept⟩)
    (few : form.isGroup = true → kept = held.reverse) :
    readWith form held (left ++ words) = addAll given <$> readWith form kept.reverse words := by
  fun_induction readWith form held left generalizing given kept with
  | case1 held =>
    cases read
    rw [List.reverse_reverse, addAll_nil, List.nil_append]
  | case2 held w ws is group =>
    cases read
    exact absurd (few group) (by simp)
  | case3 held w ws is single ih =>
    rw [List.cons_append, readWith, is]
    dsimp only
    rw [if_neg single]
    exact ih (plain ∘ List.mem_cons_of_mem w) read fun group => absurd group single
  | case4 held w ws is => exact absurd (List.mem_cons.mpr (.inl (eq_dashes is).symm)) plain
  | case5 => cases read
  | case6 held w ws cs is ih =>
    obtain ⟨front, known, read⟩ := bind_ok read
    obtain ⟨l, later, read⟩ := bind_ok read
    cases read
    rw [List.cons_append, readWith_short is known, ih (plain ∘ List.mem_cons_of_mem w) later few,
      addAll_addAll]
  | case7 held w ws s bare is ih =>
    obtain ⟨rest, rfl, later⟩ := of_addAll_ok [(s, "")] read
    rw [List.cons_append, readWith_flag is bare, ih (plain ∘ List.mem_cons_of_mem w) later few,
      addAll_addAll]
  | case8 => cases read
  | case9 held w ws s need value needs is ih =>
    obtain ⟨rest, rfl, later⟩ := of_addAll_ok [(s, value)] read
    rw [List.cons_append, readWith_joined is needs, ih (plain ∘ List.mem_cons_of_mem w) later few,
      addAll_addAll]
  | case10 => cases read
  | case11 held w s need needs value ws is ih =>
    have fewer : "--" ∉ ws := fun mem => plain (List.mem_cons_of_mem w (List.mem_cons_of_mem value mem))
    obtain ⟨rest, rfl, later⟩ := of_addAll_ok [(s, value)] read
    rw [List.cons_append, List.cons_append, readWith_apart is needs, ih fewer later few, addAll_addAll]

/-- A group reads switches up to the name of a command, and leaves this and all words after it. -/
theorem read_group (group : form.isGroup = true) (name : Word.ofText form word = .plain)
    (plain : "--" ∉ left) (switches : Line.read form left = .ok ⟨given, []⟩) :
    Line.read form (left ++ word :: words) = .ok ⟨given, word :: words⟩ := by
  have stop : readWith form [] (word :: words) = .ok ⟨[], word :: words⟩ := by
    rw [readWith, name]
    exact if_pos group
  calc readWith form [] (left ++ word :: words)
      = addAll given <$> readWith form [] (word :: words) := readWith_append plain switches fun _ => rfl
    _ = .ok ⟨given, word :: words⟩ := by
      rw [stop]
      exact congrArg (fun g => Except.ok (Line.mk g (word :: words))) (List.append_nil given)

/-- The long form of a switch is longer than its two dashes, and has no equals sign. -/
theorem long_letters (s : Switch) :
    ∃ c cs, s.long.toList = '-' :: '-' :: c :: cs ∧ '=' ∉ s.long.toList := by
  cases s <;> exact ⟨_, _, rfl, by decide⟩

theorem long?_long (known : s ∈ form.switches) : long? form s.long = some s := by
  revert known
  cases form <;> cases s <;> decide

theorem takeWhile_name {name : List Char} (none : '=' ∉ name) (rest : List Char) :
    (name ++ rest).takeWhile (· ≠ '=') = name ++ rest.takeWhile (· ≠ '=') := by
  refine List.takeWhile_append_of_pos fun c mem => ?_
  exact decide_eq_true fun same => none (same ▸ mem)

theorem cut_name {name : List Char} (none : '=' ∉ name) : cut name = (name, Option.none) := by
  have all := takeWhile_name none []
  rw [List.append_nil, List.takeWhile_nil, List.append_nil] at all
  rw [cut, all, List.drop_length]

theorem cut_value {name : List Char} (none : '=' ∉ name) (value : List Char) :
    cut (name ++ '=' :: value) = (name, some value) := by
  have front := takeWhile_name none ('=' :: value)
  rw [List.takeWhile_cons_of_neg (by decide), List.append_nil] at front
  rw [cut, front, List.drop_left]

/-- A word that begins with two dashes is the switch that it names in front of an equals sign. -/
theorem ofText_named {name : List Char} {value : Option (List Char)} {c : Char} {cs : List Char}
    (letters : word.toList = '-' :: '-' :: c :: cs) (parts : cut word.toList = (name, value))
    (known : long? form (String.ofList name) = some s) :
    Word.ofText form word = .long s (value.map String.ofList) := by
  rw [letters] at parts
  simp only [Word.ofText, letters, parts, known]

theorem ofText_long (known : s ∈ form.switches) : Word.ofText form s.long = .long s none := by
  obtain ⟨c, cs, letters, none⟩ := long_letters s
  refine ofText_named letters (cut_name none) ?_
  rw [String.ofList_toList, long?_long known]

theorem ofText_joined (known : s ∈ form.switches) (value : String) :
    Word.ofText form (s.long ++ "=" ++ value) = .long s (some value) := by
  obtain ⟨c, cs, letters, none⟩ := long_letters s
  have all : (s.long ++ "=" ++ value).toList = s.long.toList ++ '=' :: value.toList := by simp
  have front : (s.long ++ "=" ++ value).toList = '-' :: '-' :: c :: (cs ++ '=' :: value.toList) := by
    rw [all, letters]
    rfl
  have parts := cut_value none value.toList
  rw [← all] at parts
  have named : long? form (String.ofList s.long.toList) = some s := by
    rw [String.ofList_toList, long?_long known]
  rw [ofText_named front parts named, Option.map_some, String.ofList_toList]

/-- A switch with its value is read in front of all that follows, however it is written. -/
theorem readWith_spelled {need : String} (known : s ∈ form.switches) (needs : s.value? = some need)
    (spelled : Spells s value source) :
    readWith form held (source ++ words) = addAll [(s, value)] <$> readWith form held words := by
  cases spelled with
  | apart => exact readWith_apart (ofText_long known) needs
  | joined => exact readWith_joined (ofText_joined known value) needs

variable {front back : List (Switch × String)} {rest : List String}

theorem eraseDups_insert {before after : List Switch} (new : s ∉ before ++ after) :
    (before ++ s :: after).eraseDups = before.eraseDups ++ s :: (after.removeAll before).eraseDups := by
  obtain ⟨first, last⟩ := not_or.mp (mt List.mem_append.mpr new)
  have stays : (after.removeAll before).filter (fun s' => !s' == s) = after.removeAll before := by
    refine List.filter_eq_self.mpr fun s' mem => ?_
    have later : s' ∈ after := (List.mem_filter.mp mem).1
    have other : s' ≠ s := fun same => last (same ▸ later)
    simpa using other
  rw [List.eraseDups_append, List.cons_removeAll, if_pos (by simpa using first), List.eraseDups_cons, stays]

def last (given : List (Switch × String)) (s : Switch) : Switch × String :=
  (s, (given.reverse.lookup s).getD "")

theorem settled_eq (l : Line) : l.settled = (l.given.map Prod.fst).eraseDups.map (last l.given) :=
  rfl

theorem map_last_insert {names : List Switch} (out : s ∉ names) :
    names.map (last (front ++ (s, value) :: back)) = names.map (last (front ++ back)) := by
  refine List.map_congr_left fun s' mem => ?_
  have other : s' ≠ s := fun same => out (same ▸ mem)
  have skipped : [(s, value)].lookup s' = none := by simp [other]
  simp only [last, List.reverse_append, List.reverse_cons, List.lookup_append, skipped, Option.or_none]

theorem last_given (new : s ∉ (front ++ back).map Prod.fst) :
    last (front ++ (s, value) :: back) s = (s, value) := by
  have none : back.reverse.lookup s = none := by
    refine List.lookup_eq_none_iff.mpr fun g mem => ?_
    have there : g.1 ∈ (front ++ back).map Prod.fst :=
      List.mem_map_of_mem (List.mem_append_right front (List.mem_reverse.mp mem))
    simpa using fun same : s = g.1 => new (same ▸ there)
  simp [last, List.lookup_append, none]

/-- A switch that is given once is settled somewhere among the others, which are settled as without it. -/
theorem settled_insert (value : String) (rest : List String) (new : s ∉ (front ++ back).map Prod.fst) :
    ∃ before after, (Line.mk (front ++ (s, value) :: back) rest).settled = before ++ (s, value) :: after ∧
      (Line.mk (front ++ back) rest).settled = before ++ after := by
  have split : s ∉ front.map Prod.fst ++ back.map Prod.fst := by
    rw [← List.map_append]
    exact new
  obtain ⟨inFront, inBack⟩ := not_or.mp (mt List.mem_append.mpr split)
  have first : s ∉ (front.map Prod.fst).eraseDups := mt List.mem_eraseDups.mp inFront
  have later : s ∉ ((back.map Prod.fst).removeAll (front.map Prod.fst)).eraseDups :=
    fun mem => inBack (List.mem_filter.mp (List.mem_eraseDups.mp mem)).1
  refine ⟨(front.map Prod.fst).eraseDups.map (last (front ++ back)),
    ((back.map Prod.fst).removeAll (front.map Prod.fst)).eraseDups.map (last (front ++ back)), ?_, ?_⟩
  · rw [settled_eq, List.map_append, List.map_cons, eraseDups_insert split, List.map_append, List.map_cons,
      map_last_insert first, map_last_insert later, last_given new]
  · rw [settled_eq, List.map_append, List.eraseDups_append, List.map_append]

theorem settled_given {l : Line} {g : Switch × String} (mem : g ∈ l.settled) :
    g.1 ∈ l.given.map Prod.fst := by
  obtain ⟨s, there, rfl⟩ := List.mem_map.mp mem
  exact List.mem_eraseDups.mp there

theorem eager?_insert (heeded : s.isEager = false) :
    (Line.mk (front ++ (s, value) :: back) rest).eager? = (Line.mk (front ++ back) rest).eager? := by
  simp [eager?, heeded]

end Line

theorem foldlM_apart {ε α β : Type} {f : β → α → Except ε β} {set : β → β} {xs : List α}
    (apart : ∀ x ∈ xs, ∀ b, f (set b) x = set <$> f b x) (b : β) :
    xs.foldlM f (set b) = set <$> xs.foldlM f b := by
  induction xs generalizing b with
  | nil => rfl
  | cons x xs ih =>
    rw [List.foldlM_cons, List.foldlM_cons, apart x List.mem_cons_self]
    cases f b x with
    | error e => rfl
    | ok b' => exact ih (fun y mem => apart y (List.mem_cons_of_mem x mem)) b'

def Switch.IsSource (s : Switch) : Prop :=
  s = .input ∨ s = .inputFile

instance (s : Switch) : Decidable s.IsSource :=
  inferInstanceAs (Decidable (_ ∨ _))

namespace Choices

variable {t : Tree} {i : Option String → Option String} {f : Option Path → Option Path}
  {given before after : List (Switch × String)}

def feed (i : Option String → Option String) (f : Option Path → Option Path) (c : Choices) : Choices :=
  { c with input := i c.input, inputFile := f c.inputFile }

/-- All other choices are made as if there were no inputs. -/
theorem choose_feed {s : Switch} (other : ¬s.IsSource) (c : Choices) (word : String) :
    (c.feed i f).choose t s word = feed i f <$> c.choose t s word := by
  unfold choose
  cases s with
  | config => cases fileOf t false word <;> rfl
  | input => exact absurd (.inl rfl) other
  | inputFile => exact absurd (.inr rfl) other
  | recipes => cases folderOf t word <;> rfl
  | limit => cases wholeOf word <;> rfl
  | _ => rfl

theorem given_feed (others : ∀ g ∈ given, ¬g.1.IsSource) (c : Choices) :
    given.foldlM (fun c (s, word) => (c.choose t s word).mapError (Slip.unfit s)) (c.feed i f) =
      feed i f <$> given.foldlM (fun c (s, word) => (c.choose t s word).mapError (Slip.unfit s)) c := by
  refine foldlM_apart (fun g mem c => ?_) c
  dsimp only
  rw [choose_feed (others g mem)]
  cases c.choose t g.1 g.2 <;> rfl

/-- An input among others is chosen on top of what the others come to. -/
theorem ofGiven_insert {s : Switch} {word : String} (others : ∀ g ∈ before ++ after, ¬g.1.IsSource)
    (made : ∀ c : Choices, c.choose t s word = .ok (c.feed i f)) :
    ofGiven t (before ++ (s, word) :: after) = feed i f <$> ofGiven t (before ++ after) := by
  unfold ofGiven
  rw [List.foldlM_append, List.foldlM_append, map_bind]
  refine bind_congr fun c => ?_
  rw [List.foldlM_cons]
  dsimp only
  rw [made]
  exact given_feed (fun g mem => others g (List.mem_append_right before mem)) c

/-- Without a switch for an input there is none among the choices. -/
theorem ofGiven_sourceless {c : Choices} (others : ∀ g ∈ given, ¬g.1.IsSource)
    (chosen : ofGiven t given = .ok c) : c.input = .none ∧ c.inputFile = .none := by
  -- Choices that are robbed of their inputs all along are those that are made.
  have robbed := given_feed (t := t) (i := fun _ => .none) (f := fun _ => .none) others Choices.none
  have same : ofGiven t given = feed (fun _ => .none) (fun _ => .none) <$> ofGiven t given := robbed
  rw [chosen] at same
  rw [Except.ok.inj same]
  exact ⟨rfl, rfl⟩

end Choices

namespace Request

variable {t : Tree} {form : Form} {s : Switch} {value need : String} {left right source : List String}
  {i : Option String → Option String} {f : Option Path → Option Path}

-- A request with other choices, and other words to go on with.
def map (set : Choices → Choices) (next : List String → List String) : Request → Request
  | tell s => tell s
  | go c operand rest => go (set c) operand (next rest)

-- Words that are whole switches of a group, and nothing else.
structure Lead (form : Form) (words : List String) : Prop where
  whole : ∃ given, Line.read form words = .ok ⟨given, []⟩
  plain : "--" ∉ words

-- The words of a command around a place for an input: in front of it are whole switches and operands, and
-- neither the front nor the rest says where an input comes from.
structure Around (form : Form) (left right : List String) : Prop where
  whole : ∃ line, Line.read form left = .ok line
  plain : "--" ∉ left
  sourceless : ∀ line, Line.read form (left ++ right) = .ok line → ∀ g ∈ line.given, ¬g.1.IsSource

def ofLine (t : Tree) (form : Form) (line : Line) : Except Slip Request :=
  match line.eager? with
  | some s => .ok (tell s)
  | none => do
    let choices ← Choices.ofGiven t line.settled
    let (operand, rest) ← operandOf form line.rest
    return go choices operand rest

theorem read_eq_ofLine {words : List String} (some_ : form.isGroup = true → words ≠ []) :
    read t form words = Line.read form words >>= ofLine t form := by
  have goes : (form.isGroup && words.isEmpty) = false := by
    cases group : form.isGroup
    · rfl
    · simpa using some_ group
  rw [read, goes]
  rfl

theorem ofLine_insert {front back : List (Switch × String)} {rest : List String} (is_ : s.IsSource)
    (others : ∀ g ∈ front ++ back, ¬g.1.IsSource)
    (made : ∀ c : Choices, c.choose t s value = .ok (c.feed i f)) :
    ofLine t form ⟨front ++ (s, value) :: back, rest⟩ =
      map (Choices.feed i f) id <$> ofLine t form ⟨front ++ back, rest⟩ := by
  have new : s ∉ (front ++ back).map Prod.fst := by
    intro mem
    obtain ⟨g, there, rfl⟩ := List.mem_map.mp mem
    exact others g there is_
  have heeded : s.isEager = false := by rcases is_ with rfl | rfl <;> rfl
  obtain ⟨before, after, within, without⟩ := Line.settled_insert value rest new
  have settled : ∀ g ∈ before ++ after, ¬g.1.IsSource := by
    intro g mem
    rw [← without] at mem
    obtain ⟨g', there, same⟩ := List.mem_map.mp (Line.settled_given mem)
    exact same ▸ others g' there
  unfold ofLine
  rw [Line.eager?_insert heeded]
  split
  · rfl
  · rw [within, without, Choices.ofGiven_insert settled made]
    cases Choices.ofGiven t (before ++ after) with
    | error e => rfl
    | ok c =>
      dsimp only [Functor.map, Except.map, bind, Except.bind]
      cases operandOf form rest <;> rfl

/-- What words ask for with an input among them is what they ask for without it, with the input chosen. -/
theorem read_insert (single : form.isGroup = false) (around : Around form left right)
    (known : s ∈ form.switches) (needs : s.value? = some need) (is_ : s.IsSource)
    (spelled : Spells s value source) (made : ∀ c : Choices, c.choose t s value = .ok (c.feed i f)) :
    read t form (left ++ source ++ right) = map (Choices.feed i f) id <$> read t form (left ++ right) := by
  have no : form.isGroup ≠ true := by simp [single]
  obtain ⟨⟨front, kept⟩, whole⟩ := around.whole
  have without : Line.read form (left ++ right) =
      Line.addAll front <$> Line.readWith form kept.reverse right :=
    Line.readWith_append around.plain whole fun group => absurd group no
  have within : Line.read form (left ++ source ++ right) =
      Line.addAll front <$> Line.addAll [(s, value)] <$> Line.readWith form kept.reverse right := by
    rw [List.append_assoc, ← Line.readWith_spelled known needs spelled]
    exact Line.readWith_append around.plain whole fun group => absurd group no
  have others := around.sourceless
  rw [read_eq_ofLine fun group => absurd group no, read_eq_ofLine fun group => absurd group no, within,
    without]
  rw [without] at others
  cases later : Line.readWith form kept.reverse right with
  | error e => rfl
  | ok l =>
    rw [later] at others
    exact ofLine_insert is_ (others _ rfl) made

/-- The switches in front of the name of a command are read without regard to what follows it. -/
theorem read_lead {lead : List String} {word : String} (group : form.isGroup = true)
    (name : Line.Word.ofText form word = .plain) (leads : Lead form lead) (words : List String) :
    read t form (lead ++ word :: words) =
      map id (fun _ => word :: words) <$> read t form (lead ++ [word]) := by
  obtain ⟨given, whole⟩ := leads.whole
  have operand (words) : operandOf form (word :: words) = .ok ("", word :: words) := if_pos group
  have followed (words) : read t form (lead ++ word :: words) = ofLine t form ⟨given, word :: words⟩ := by
    rw [read_eq_ofLine fun _ => by simp, Line.read_group group name leads.plain whole]
    rfl
  rw [followed, followed, ofLine, ofLine]
  have same : (Line.mk given (word :: words)).eager? = (Line.mk given [word]).eager? := rfl
  rw [same]
  cases (Line.mk given [word]).eager? with
  | some s => rfl
  | none =>
    dsimp only
    rw [operand, operand]
    change Choices.ofGiven t (Line.mk given []).settled >>= _ =
      _ <$> (Choices.ofGiven t (Line.mk given []).settled >>= _)
    cases Choices.ofGiven t (Line.mk given []).settled <;> rfl

/-- Words without a source that ask to go on choose no input. -/
theorem go_sourceless {c : Choices} {operand : String} {rest : List String}
    (single : form.isGroup = false) (around : Around form left right)
    (asked : read t form (left ++ right) = .ok (go c operand rest)) :
    c.input = none ∧ c.inputFile = none := by
  rw [read_eq_ofLine fun group => absurd group (by simp [single])] at asked
  obtain ⟨line, whole, asked⟩ := bind_ok asked
  unfold ofLine at asked
  split at asked
  · cases asked
  · obtain ⟨c', chosen, asked⟩ := bind_ok asked
    obtain ⟨o, -, asked⟩ := bind_ok asked
    cases asked
    refine Choices.ofGiven_sourceless (fun g mem => ?_) chosen
    obtain ⟨g', there, same⟩ := List.mem_map.mp (Line.settled_given mem)
    exact same ▸ around.sourceless line whole g' there

end Request

end Kitchen.Command
