import Kitchen.Proofs.Outcome
import Kitchen.Proofs.Text.Utf8
import Kitchen.Storage.Reading
import Kitchen.Yaml.Meaning

namespace Kitchen.Text.Utf8

theorem decode?_go_encode (place : Nat) (cs : List Char) : decode?.go place (encode cs) = .ok cs := by
  induction cs generalizing place with
  | nil => rw [encode, List.flatMap_nil, decode?.go]
  | cons c cs ih =>
    obtain ⟨b, more, encoded, read⟩ := first_encodeChar c (encode cs)
    have bytes : encode (c :: cs) = b :: (more ++ encode cs) := by
      rw [encode, List.flatMap_cons, encoded]
      rfl
    rw [bytes, decode?.go, read]
    dsimp only
    rw [List.drop_left, ih]
    rfl

theorem decode?_encode (cs : List Char) : decode? (encode cs) = .ok cs :=
  decode?_go_encode 0 cs

end Kitchen.Text.Utf8

namespace Kitchen.Yaml

/-- A document has the value that belongs to its shape. -/
theorem read_parsed {cs : List Char} {shape : Node → Bool} {v : Value}
    (parsed : (Node.ofText? cs).toOption.join.any shape) (value : ∀ n, shape n → n.value = .ok v) :
    read cs = .ok v := by
  cases document : (Node.ofText? cs).toOption.join with
  | none =>
    rw [document] at parsed
    cases parsed
  | some n =>
    rw [document] at parsed
    have node : Node.ofText? cs = .ok (some n) := ok_of_toOption (Option.join_eq_some_iff.mp document)
    unfold read
    rw [node]
    exact value n parsed

end Kitchen.Yaml

namespace Kitchen.Storage

theorem unifyLines_of_none {cs : List Char} (none : '\r' ∉ cs) : unifyLines cs = cs := by
  induction cs with
  | nil => rfl
  | cons c cs ih =>
    obtain ⟨first, rest⟩ := not_or.mp (mt List.mem_cons.mpr none)
    have other : c ≠ '\r' := Ne.symm first
    rw [unifyLines, if_neg other, ih rest]
    exact fun _ same => absurd same other

/-- A text without carriage returns is read from its bytes as it is. -/
theorem textOf_encode (manner : Manner) {cs : List Char} (none : '\r' ∉ cs) :
    textOf manner (Text.Utf8.encode cs) = .ok cs := by
  rw [textOf, Text.Utf8.decode?_encode]
  exact congrArg Except.ok (unifyLines_of_none none)

namespace Tree

variable {t t' t'' : Tree} {p place : Path} {item : Item}

def Extends (t' t : Tree) : Prop :=
  ∀ place item, t.at? place = some item → t'.at? place = some item

theorem Extends.refl (t : Tree) : t.Extends t :=
  fun _ _ there => there

theorem Extends.trans (later : t''.Extends t') (first : t'.Extends t) : t''.Extends t :=
  fun place item there => later place item (first place item there)

/-- A walk stops at what is there, or where nothing is. -/
theorem walk_stops (parts : List String) (there : t.at? place = some .folder) :
    match t.walk place parts with
    | .found stop item => t.at? stop = some item
    | .free stop => t.at? stop = none
    | _ => True := by
  induction parts generalizing place with
  | nil => exact there
  | cons part rest ih =>
    unfold walk
    dsimp only
    cases next : t.at? (place.step part) with
    | none =>
      cases rest with
      | nil => exact next
      | cons => trivial
    | some item =>
      cases item with
      | folder => exact ih next
      | file content =>
        cases rest with
        | nil => exact next
        | cons => trivial

theorem at?_base (lead : Nat) : t.at? ⟨lead, []⟩ = some .folder :=
  rfl

theorem site_found (found : t.site p = .found place item) : t.at? place = some item := by
  have stops := walk_stops p.parts (t.at?_base (min p.lead 1))
  rw [site] at found
  rw [found] at stops
  exact stops

theorem site_free (free : t.site p = .free place) : t.at? place = none := by
  have stops := walk_stops p.parts (t.at?_base (min p.lead 1))
  rw [site] at free
  rw [free] at stops
  exact stops

/-- What a walk finds, it finds in a tree that holds more. -/
theorem Extends.walk {start : Path} {parts : List String} (more : t'.Extends t)
    (found : t.walk start parts = .found place item) : t'.walk start parts = .found place item := by
  induction parts generalizing start with
  | nil => exact found
  | cons part rest ih =>
    unfold Tree.walk at found ⊢
    dsimp only at found ⊢
    cases next : t.at? (start.step part) with
    | none =>
      rw [next] at found
      cases rest <;> cases found
    | some there =>
      rw [more _ _ next]
      rw [next] at found
      cases there with
      | folder => exact ih found
      | file content => exact found

theorem Extends.site (more : t'.Extends t) (found : t.site p = .found place item) :
    t'.site p = .found place item :=
  more.walk found

theorem find?_eq_some : t.find? p = some item ↔ ∃ place, t.site p = .found place item := by
  unfold find?
  cases t.site p <;> simp

theorem Extends.find? (more : t'.Extends t) (found : t.find? p = some item) :
    t'.find? p = some item := by
  obtain ⟨place, site⟩ := find?_eq_some.mp found
  exact find?_eq_some.mpr ⟨place, more.site site⟩

theorem read_of_find? {content : List UInt8} (found : t.find? p = some (.file content)) :
    t.read p = .ok content := by
  obtain ⟨place, site⟩ := find?_eq_some.mp found
  rw [read, site]

theorem find?_put_self (item : Item) :
    ((t.put place item).items.find? fun e => e.1 == place) = some (place, item) := by
  have gone : (t.items.filter fun e => e.1 != place).find? (fun e => e.1 == place) = none := by
    simp
  rw [put, List.find?_append, gone]
  simp

theorem find?_put_of_ne {other : Path} (item : Item) (ne : other ≠ place) :
    ((t.put place item).items.find? fun e => e.1 == other) = t.items.find? fun e => e.1 == other := by
  have kept : (t.items.filter fun e => e.1 != place).find? (fun e => e.1 == other) =
      t.items.find? fun e => e.1 == other := by
    rw [List.find?_filter]
    congr 1
    funext e
    by_cases mine : e.1 = other
    · simp [mine, ne]
    · simp [mine]
  rw [put, List.find?_append, kept]
  simp [Ne.symm ne]

/-- An item that is put where nothing was, or where the same was already, keeps all others. -/
theorem extends_put (vacant : ∀ there, t.at? place = some there → there = item) :
    (t.put place item).Extends t := by
  intro other there found
  by_cases same : other = place
  · subst same
    cases vacant there found
    unfold at? at found ⊢
    split at found
    · next up => exact (if_pos up).trans found
    · next low => rw [if_neg low, find?_put_self]; rfl
  · unfold at? at found ⊢
    rw [find?_put_of_ne item same]
    exact found

theorem extends_append (made : t.append p [] = .ok t') : t'.Extends t := by
  unfold append revise at made
  split at made
  · next place content site =>
    cases made
    refine extends_put fun there found => ?_
    rw [site_found site] at found
    dsimp only
    rw [List.append_nil]
    exact (Option.some.inj found).symm
  · next place site =>
    cases made
    exact extends_put fun there found => absurd (found.symm.trans (site_free site)) nofun
  all_goals cases made

theorem extends_makeFolder (made : t.makeFolder p = .ok t') : t'.Extends t := by
  unfold makeFolder at made
  split at made
  · next place site =>
    cases made
    exact extends_put fun there found => absurd (found.symm.trans (site_free site)) nofun
  all_goals cases made

theorem extends_ensureFolder (made : t.ensureFolder p = .ok t') : t'.Extends t := by
  unfold ensureFolder at made
  split at made
  · split at made
    · cases made
      exact .refl t
    · cases made
  · exact extends_makeFolder made

theorem extends_ensureFolders (made : t.ensureFolders p = .ok t') : t'.Extends t := by
  unfold ensureFolders at made
  generalize p.parts.length = fuel at made
  induction fuel generalizing p t' with
  | zero => exact extends_ensureFolder made
  | succ fuel ih =>
    unfold ensureFolders.go at made
    split at made
    · obtain ⟨above, first, made⟩ := bind_ok made
      exact (extends_ensureFolder made).trans (ih first)
    · exact extends_ensureFolder made

end Tree

end Kitchen.Storage
