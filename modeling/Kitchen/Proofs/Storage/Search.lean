import Kitchen.Storage.Wildcard
import Mathlib.Data.List.Lex
import Mathlib.Data.String.Basic

namespace Kitchen.Storage

variable {t : Tree} {g p q : Path} {name : String} {cs : List Char}

-- A character that means more than itself in a path or in a pattern.
def Special (c : Char) : Prop :=
  c = '/' ∨ c = '*' ∨ c = '?' ∨ c = '['

instance (c : Char) : Decidable (Special c) :=
  inferInstanceAs (Decidable (_ ∨ _))

theorem plain_of_all (all : cs.all fun c => !decide (Special c)) :
    ∀ c ∈ cs, ¬Special c := by
  simpa using all

structure Simple (name : String) : Prop where
  letters : ∀ c ∈ name.toList, ¬Special c
  some : name ≠ ""
  other : name ≠ "."
  notUp : name ≠ ".."

namespace Path

theorem splitOn_of_none (none : '/' ∉ cs) : Text.splitOn '/' cs = [cs] := by
  induction cs with
  | nil => rfl
  | cons c cs ih =>
    obtain ⟨first, rest⟩ := not_or.mp (mt List.mem_cons.mpr none)
    rw [Text.splitOn, if_neg (Ne.symm first), ih rest]

theorem ofText_simple (simple : Simple name) : ofText name = ⟨0, [name]⟩ := by
  have none : '/' ∉ name.toList := fun mem => simple.letters '/' mem (.inl rfl)
  have lead : leadOf name.toList = 0 := by
    have empty : name.toList.takeWhile (· = '/') = [] := by
      cases letters : name.toList with
      | nil => rfl
      | cons c cs =>
        have other : c ≠ '/' := fun same => none (by simp [letters, same])
        simp [other]
    unfold leadOf
    rw [empty]
    rfl
  unfold ofText partsOf
  rw [lead, splitOn_of_none none]
  simp [simple.some, simple.other]

theorem under_simple (folder : Path) (simple : Simple name) :
    folder.under (ofText name) = folder.child name := by
  rw [ofText_simple simple]
  rfl

theorem name_child (folder : Path) (name : String) : (folder.child name).name = name := by
  simp [child, Path.name]

theorem parent_child (folder : Path) (name : String) : (folder.child name).parent = folder := by
  simp [child, parent]

/-- What follows the last dot of a name. -/
theorem takeWhile_last (front : List Char) {ext : List Char} (plain : '.' ∉ ext) :
    ((front ++ '.' :: ext).reverse.takeWhile (· ≠ '.')).reverse = ext := by
  have all : ∀ c ∈ ext.reverse, decide (c ≠ '.') = true := by
    intro c mem
    exact decide_eq_true fun same => plain (same ▸ List.mem_reverse.mp mem)
  rw [List.reverse_append, List.reverse_cons, List.append_assoc, List.takeWhile_append_of_pos all]
  simp

/-- The last dot in a name divides it, unless it stands at an end. -/
theorem splitSuffix_append {front ext : List Char} (some : front ≠ []) (some' : ext ≠ [])
    (plain : '.' ∉ ext) : splitSuffix (front ++ '.' :: ext) = (front, '.' :: ext) := by
  have length : (front ++ '.' :: ext).length - ext.length - 1 = front.length := by
    simp only [List.length_append, List.length_cons]
    omega
  unfold splitSuffix
  simp only [takeWhile_last front plain, length, List.take_left, some, some', or_self, if_false]

theorem splitSuffix_dot {ext : List Char} (plain : '.' ∉ ext) :
    splitSuffix ('.' :: ext) = ('.' :: ext, []) := by
  have tail := takeWhile_last [] plain
  rw [List.nil_append] at tail
  have length : ('.' :: ext).length - ext.length - 1 = 0 := by
    simp only [List.length_cons]
    omega
  unfold splitSuffix
  simp only [tail, length, List.take_zero, or_true, if_true]

theorem before_iff : p.before q ↔ p.parts < q.parts :=
  decide_eq_true_iff

end Path

namespace Wildcard

theorem mem_tails {ds : List Char} : ds ∈ tails cs ↔ ds <:+ cs := by
  induction cs with
  | nil => simp [tails]
  | cons c cs ih => simp [tails, ih, List.suffix_cons_iff]

theorem fits_chars {ds : List Char} : fits (cs.map .char) ds ↔ ds = cs := by
  induction cs generalizing ds with
  | nil => simp [fits]
  | cons c cs ih =>
    cases ds with
    | nil => simp [fits]
    | cons d ds => simp [fits, Piece.accepts, ih]

/-- A star with letters after it fits what ends with them. -/
theorem fits_ending {ds : List Char} : fits (.star :: cs.map .char) ds ↔ cs <:+ ds := by
  simp [fits, List.any_eq_true, mem_tails, fits_chars]

end Wildcard

theorem ofPart_simple (simple : Simple name) : Stretch.ofPart? name = some (.named name) := by
  have star : '*' ∉ name.toList := fun mem => simple.letters '*' mem (.inr (.inl rfl))
  have deep : name ≠ "**" := by
    rintro rfl
    exact star (by decide)
  have twice : (Wildcard.tails name.toList).any (['*', '*'].isPrefixOf ·) = false := by
    apply List.any_eq_false.mpr
    intro ds mem stars
    obtain ⟨rest, rfl⟩ := List.isPrefixOf_iff_prefix.mp stars
    exact star ((Wildcard.mem_tails.mp mem).subset List.mem_cons_self)
  have plain : name.toList.any (fun c => c = '*' || c = '?' || c = '[') = false := by
    apply List.any_eq_false.mpr
    intro c mem special
    have letter := simple.letters c mem
    simp only [Special, not_or] at letter
    simp [letter] at special
  unfold Stretch.ofPart?
  simp only [deep, twice, plain, if_false, Bool.false_eq_true]

namespace Tree

/-- To follow a name after other parts, these have to lead to a folder. -/
theorem walk_append (t : Tree) (place : Path) (parts : List String) (name : String) :
    t.walk place (parts ++ [name]) =
      match t.walk place parts with
      | .found place' .folder => t.walk place' [name]
      | .found _ (.file _) => .blocked
      | .free _ => .missing
      | s => s := by
  induction parts generalizing place with
  | nil => rfl
  | cons part rest ih =>
    simp only [List.cons_append, walk]
    cases t.at? (place.step part) with
    | none => cases rest <;> simp
    | some item =>
      cases item with
      | folder => exact ih _
      | file content => cases rest <;> simp

/-- Something of a name that is in a folder is listed in it. -/
theorem names_of_has (notUp : name ≠ "..") (has : t.has (g.child name)) : name ∈ t.names g := by
  have site : t.site (g.child name) =
      match t.site g with
      | .found place .folder => t.walk place [name]
      | .found _ (.file _) => .blocked
      | .free _ => .missing
      | s => s :=
    t.walk_append _ g.parts name
  have here : ∃ place item, t.site (g.child name) = .found place item := by
    unfold Tree.has find? at has
    split at has
    · next place item found => exact ⟨place, item, found⟩
    · cases has
  obtain ⟨place', item', here⟩ := here
  rw [site] at here
  split at here
  · next place folder =>
    -- The item is listed under the place of the folder and its name.
    have step : place.step name = place.child name := if_neg notUp
    have lies : (t.at? (place.child name)).isSome := by
      rw [walk, step] at here
      split at here
      · next at_ => rw [at_]; rfl
      · next at_ => rw [at_]; rfl
      · cases here
    have inner : (place.child name).parts.all (· == "..") = false := by
      simp [Path.child, notUp]
    unfold at? at lies
    rw [inner, if_neg Bool.false_ne_true, Option.isSome_map, List.find?_isSome] at lies
    obtain ⟨⟨path, item⟩, mem, same⟩ := lies
    obtain rfl : path = place.child name := eq_of_beq same
    unfold names
    rw [folder]
    apply List.mem_filterMap.mpr
    refine ⟨([name], item), List.mem_filterMap.mpr ⟨_, mem, ?_⟩, rfl⟩
    simp [Path.child, notUp]
  · cases here
  · cases here
  · next folder file _ =>
    cases item' with
    | folder => exact absurd here (folder place')
    | file content => exact absurd here (file place' content)

theorem mem_select_deep {stretches : List Stretch} :
    q ∈ t.select p (.deep :: stretches) ↔ ∃ g ∈ p :: t.foldersBelow p, q ∈ t.select g stretches := by
  simp only [select, List.mem_flatMap]

theorem mem_select_named : q ∈ t.select g [.named name] ↔ q = g.child name ∧ t.has (g.child name) := by
  simp [select, and_comm]

theorem mem_select_like {ps : List Wildcard.Piece} : q ∈ t.select g [.like ps] ↔
    ∃ name ∈ t.names g, Wildcard.fits ps name.toList ∧ q = g.child name ∧ t.has (g.child name) := by
  simp only [select, List.isEmpty_nil, if_true, List.mem_flatMap, List.mem_filter, and_assoc]
  constructor
  · rintro ⟨name, listed, fits, mem⟩
    by_cases has : t.has (g.child name)
    · rw [if_pos has] at mem
      exact ⟨name, listed, fits, List.mem_singleton.mp mem, has⟩
    · rw [if_neg has] at mem
      cases mem
  · rintro ⟨name, listed, fits, rfl, has⟩
    exact ⟨name, listed, fits, by simp [has]⟩

def Holds (t : Tree) (p : Path) (name : String) (q : Path) : Prop :=
  ∃ g ∈ p :: t.foldersBelow p, q = g.child name ∧ t.has q

theorem search_one {pattern : String} {stretch : Stretch} (parts : (Path.ofText pattern).parts = [pattern])
    (means : Stretch.ofPart? pattern = some stretch) :
    t.search? p pattern = some (if t.isFolder p then t.select p [.deep, stretch] else []) := by
  simp only [search?, parts, List.mapM_cons, means, List.mapM_nil]
  rfl

/-- Under a name that stands for itself, the things of that name are found. -/
theorem search_simple (simple : Simple name) (folder : t.isFolder p) :
    ∃ found, t.search? p name = some found ∧ ∀ q, q ∈ found ↔ t.Holds p name q := by
  refine ⟨t.select p [.deep, .named name], ?_, fun q => ?_⟩
  · have parts : (Path.ofText name).parts = [name] := by rw [Path.ofText_simple simple]
    rw [search_one parts (ofPart_simple simple), if_pos folder]
  · simp only [mem_select_deep, mem_select_named, Holds]
    constructor
    · rintro ⟨g, below, rfl, has⟩
      exact ⟨g, below, rfl, has⟩
    · rintro ⟨g, below, rfl, has⟩
      exact ⟨g, below, rfl, has⟩

/-- A star and an ending find the things whose names end so. -/
theorem search_ending {ending : String} (parts : (Path.ofText ("*" ++ ending)).parts = ["*" ++ ending])
    (means : Stretch.ofPart? ("*" ++ ending) = some (.like (.star :: ending.toList.map .char)))
    (down : ¬ending.toList <:+ ['.', '.']) :
    q ∈ (t.search? p ("*" ++ ending)).getD [] ↔
      t.isFolder p ∧ ∃ name, ending.toList <:+ name.toList ∧ t.Holds p name q := by
  rw [search_one parts means, Option.getD_some]
  by_cases folder : t.isFolder p
  · simp only [folder, if_true, true_and, mem_select_deep, mem_select_like, Wildcard.fits_ending, Holds]
    constructor
    · rintro ⟨g, below, name, -, ends, rfl, has⟩
      exact ⟨name, ends, g, below, rfl, has⟩
    · rintro ⟨name, ends, g, below, rfl, has⟩
      have notUp : name ≠ ".." := by
        rintro rfl
        exact down ends
      exact ⟨g, below, name, names_of_has notUp has, ends, rfl, has⟩
  · simp [folder]

end Tree

end Kitchen.Storage
