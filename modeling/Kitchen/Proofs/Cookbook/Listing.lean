import Kitchen.Cookbook
import Kitchen.Proofs.Outcome
import Kitchen.Proofs.Storage.Search

/-!
What a cookbook lists and what it finds. For an id that is listed a file is always found that is named after it,
and that is one of those which were listed, unless files that were put aside are in the way: these are not
listed, but they are found, and a lookup takes the first file of all that bear the id.
-/
namespace Kitchen.Cookbook

open Storage (Path Tree Special Simple)

variable {b : Cookbook} {t : Tree} {g p q : Path} {id name suffix : String}

theorem suffix_dotted (mem : suffix ∈ suffixes) : ∃ ext, suffix.toList = '.' :: ext ∧ ext ≠ [] ∧ '.' ∉ ext := by
  have dotted : ∀ s ∈ suffixes, s.toList.head? = some '.' ∧ s.toList.tail ≠ [] ∧ '.' ∉ s.toList.tail := by
    decide
  obtain ⟨first, some, plain⟩ := dotted suffix mem
  exact ⟨_, (List.cons_head?_tail first).symm, some, plain⟩

/-- An id that stands for itself does so with a suffix as well. -/
theorem simple_name (plain : ∀ c ∈ id.toList, ¬Special c) (mem : suffix ∈ suffixes) : Simple (id ++ suffix) := by
  have all : ∀ s ∈ suffixes, (s.toList.all fun c => !decide (Special c)) ∧ 3 ≤ s.toList.length := by decide
  obtain ⟨letters, length⟩ := all suffix mem
  have long : ∀ other : String, other.toList.length < 3 → id ++ suffix ≠ other := by
    rintro other short rfl
    rw [String.toList_append, List.length_append] at short
    omega
  refine ⟨?_, long "" (by decide), long "." (by decide), long ".." (by decide)⟩
  intro c here
  rw [String.toList_append] at here
  exact (List.mem_append.mp here).elim (plain c) (Storage.plain_of_all letters c)

theorem splitSuffix_name (some : id ≠ "") (mem : suffix ∈ suffixes) :
    Path.splitSuffix (id ++ suffix).toList = (id.toList, suffix.toList) := by
  obtain ⟨ext, dot, some', plain⟩ := suffix_dotted mem
  have some : id.toList ≠ [] := fun empty => some (String.toList_eq_nil_iff.mp empty)
  rw [String.toList_append, dot]
  exact Path.splitSuffix_append some some' plain

theorem stem_name (g : Path) (some : id ≠ "") (mem : suffix ∈ suffixes) :
    (g.child (id ++ suffix)).stem = id ∧ (g.child (id ++ suffix)).suffix = suffix := by
  unfold Path.stem Path.suffix
  rw [Path.name_child, splitSuffix_name some mem]
  exact ⟨String.ofList_toList, String.ofList_toList⟩

/-- A name that ends with a suffix is that of its stem, unless there is nothing but the suffix. -/
theorem name_of_stem (mem : suffix ∈ suffixes) (ends : suffix.toList <:+ name.toList)
    (stem : (g.child name).stem = id) (named : id ∉ suffixes) : id ≠ "" ∧ name = id ++ suffix := by
  obtain ⟨front, split⟩ := ends
  have name_eq : name = String.ofList front ++ suffix := by
    apply String.toList_injective
    rw [String.toList_append, String.toList_ofList, split]
  by_cases empty : front = []
  · obtain ⟨ext, dot, -, plain⟩ := suffix_dotted mem
    have bare : name.toList = '.' :: ext := by rw [← split, empty, dot, List.nil_append]
    have whole : id = suffix := by
      unfold Path.stem at stem
      rw [Path.name_child, bare, Path.splitSuffix_dot plain, ← dot] at stem
      exact stem.symm.trans String.ofList_toList
    exact absurd (whole ▸ mem) named
  · have some : String.ofList front ≠ "" := by
      intro same
      apply empty
      rw [← String.toList_ofList (l := front), same]
      rfl
    rw [name_eq, (stem_name g some mem).1] at stem
    rw [← stem]
    exact ⟨some, name_eq⟩

-- All files that a listing looks at, those that were put aside among them.
def offered (b : Cookbook) (t : Tree) : List Path :=
  suffixes.flatMap fun suffix => (t.search? b.folder ("*" ++ suffix)).getD []

-- A file that is listed under an id.
structure Counts (b : Cookbook) (t : Tree) (id : String) (p : Path) : Prop where
  offered : p ∈ b.offered t
  kept : isAside p = false
  stem : p.stem = id

theorem mem_enter {names : List String} : id ∈ enter name names ↔ id = name ∨ id ∈ names := by
  induction names with
  | nil => simp [enter]
  | cons n names ih =>
    unfold enter
    split
    · simp
    · split
      · next same => simp [same]
      · rw [List.mem_cons, ih, List.mem_cons, or_left_comm]

theorem mem_foldl_enter {ps : List Path} {names : List String} :
    id ∈ ps.foldl (fun names p => enter p.stem names) names ↔ id ∈ names ∨ ∃ p ∈ ps, p.stem = id := by
  induction ps generalizing names with
  | nil => simp
  | cons p ps ih =>
    rw [List.foldl_cons, ih, mem_enter]
    simp only [List.mem_cons, exists_eq_or_imp, eq_comm (a := id), or_assoc, or_left_comm]

theorem mem_ids : id ∈ b.ids t ↔ ∃ p, b.Counts t id p := by
  unfold ids
  rw [mem_foldl_enter]
  constructor
  · rintro (none | ⟨p, mem, stem⟩)
    · exact absurd none List.not_mem_nil
    · obtain ⟨offered, kept⟩ := List.mem_filter.mp mem
      exact ⟨p, offered, by simpa using kept, stem⟩
  · rintro ⟨p, offered, kept, stem⟩
    exact .inr ⟨p, List.mem_filter.mpr ⟨offered, by simpa using kept⟩, stem⟩

theorem mem_offered : p ∈ b.offered t ↔ t.isFolder b.folder ∧
    ∃ suffix ∈ suffixes, ∃ name, suffix.toList <:+ name.toList ∧ t.Holds b.folder name p := by
  have parts : ∀ s ∈ suffixes, (Path.ofText ("*" ++ s)).parts = ["*" ++ s] := by decide +kernel
  have down : ∀ s ∈ suffixes, ¬s.toList <:+ ['.', '.'] := by decide
  have means : ∀ s ∈ suffixes,
      Storage.Stretch.ofPart? ("*" ++ s) = some (.like (.star :: s.toList.map .char)) := by
    simp only [suffixes, List.forall_mem_cons]
    exact ⟨rfl, rfl, rfl, nofun⟩
  unfold offered
  rw [List.mem_flatMap]
  constructor
  · rintro ⟨s, mem, found⟩
    obtain ⟨folder, there⟩ := (Tree.search_ending (parts s mem) (means s mem) (down s mem)).mp found
    exact ⟨folder, s, mem, there⟩
  · rintro ⟨folder, s, mem, there⟩
    exact ⟨s, mem, (Tree.search_ending (parts s mem) (means s mem) (down s mem)).mpr ⟨folder, there⟩⟩

/-- The files of an id are those under its name with one of the suffixes. -/
theorem offered_of_stem (named : id ∉ suffixes) (offered : p ∈ b.offered t) (stem : p.stem = id) :
    id ≠ "" ∧ ∃ suffix ∈ suffixes, t.Holds b.folder (id ++ suffix) p := by
  obtain ⟨-, suffix, mem, name, ends, holds⟩ := mem_offered.mp offered
  obtain ⟨g, below, rfl, has⟩ := holds
  obtain ⟨some, rfl⟩ := name_of_stem mem ends stem named
  exact ⟨some, suffix, mem, g, below, rfl, has⟩

theorem offered_of_holds (folder : t.isFolder b.folder) (some : id ≠ "") (mem : suffix ∈ suffixes)
    (holds : t.Holds b.folder (id ++ suffix) p) : p ∈ b.offered t ∧ p.stem = id ∧ p.suffix = suffix := by
  have ends : suffix.toList <:+ (id ++ suffix).toList := by
    rw [String.toList_append]
    exact List.suffix_append _ _
  obtain ⟨g, below, rfl, has⟩ := holds
  obtain ⟨stem, same⟩ := stem_name g some mem
  exact ⟨mem_offered.mpr ⟨folder, suffix, mem, _, ends, g, below, rfl, has⟩, stem, same⟩

-- The order in which files are taken for an id: by their suffixes, then what is right in the folder, then by
-- their paths.
def Precedes (b : Cookbook) (q p : Path) : Prop :=
  suffixes.idxOf q.suffix < suffixes.idxOf p.suffix ∨
    q.suffix = p.suffix ∧ p.parent ≠ b.folder ∧ (q.parent = b.folder ∨ q.before p)

/-- Going through paths for the first one, it is never given up for one that comes later. -/
theorem foldl_least (ps : List Path) : ∀ {p₀ p : Path},
    ps.foldl (fun least q => if q.before least then q else least) p₀ = p →
      (p = p₀ ∨ p ∈ ps) ∧ ¬p₀.before p ∧ ∀ q ∈ ps, ¬q.before p := by
  induction ps with
  | nil =>
    rintro p₀ _ rfl
    simp [Path.before_iff]
  | cons q ps ih =>
    intro p₀ p least
    rw [List.foldl_cons] at least
    simp only [Path.before_iff] at ih least ⊢
    rw [List.forall_mem_cons, List.mem_cons]
    by_cases sooner : q.parts < p₀.parts
    · -- What came before the first one would come before the one that took its place.
      rw [if_pos sooner] at least
      obtain ⟨mem, start, rest⟩ := ih least
      exact ⟨.inr mem, fun before => start (lt_trans sooner before), start, rest⟩
    · rw [if_neg sooner] at least
      obtain ⟨mem, start, rest⟩ := ih least
      exact ⟨mem.imp_right .inr, start,
        fun before => start (lt_of_le_of_lt (not_lt.mp sooner) before), rest⟩

theorem first_least {ps : List Path} (found : first ps = some p) : p ∈ ps ∧ ∀ q ∈ ps, ¬q.before p := by
  cases ps with
  | nil => cases found
  | cons p₀ ps =>
    obtain ⟨mem, start, rest⟩ := foldl_least ps (Option.some.inj found)
    exact ⟨List.mem_cons.mpr mem, List.forall_mem_cons.mpr ⟨start, rest⟩⟩

theorem first_none {ps : List Path} (none : first ps = none) : ps = [] := by
  cases ps with
  | nil => rfl
  | cons p₀ ps => cases none

/-- With one suffix the file that is found is the first one that has it. -/
theorem findWith_cases (plain : ∀ c ∈ id.toList, ¬Special c) (mem : suffix ∈ suffixes)
    (folder : t.isFolder b.folder) :
    (∃ p, b.findWith t id suffix = .ok (some p) ∧ t.Holds b.folder (id ++ suffix) p ∧
      ∀ q, t.Holds b.folder (id ++ suffix) q → ¬(p.parent ≠ b.folder ∧ (q.parent = b.folder ∨ q.before p))) ∨
    (b.findWith t id suffix = .ok none ∧ ∀ q, ¬t.Holds b.folder (id ++ suffix) q) := by
  have simple := simple_name plain mem
  obtain ⟨found, search, holds⟩ := Tree.search_simple simple folder
  have finds : b.findWith t id suffix =
      if t.has (b.folder.child (id ++ suffix)) then .ok (some (b.folder.child (id ++ suffix)))
      else .ok (first found) := by
    unfold findWith
    dsimp only
    rw [Path.under_simple b.folder simple, search]
  rw [finds]
  by_cases direct : t.has (b.folder.child (id ++ suffix))
  · rw [if_pos direct]
    exact .inl ⟨_, rfl, ⟨b.folder, List.mem_cons_self, rfl, direct⟩,
      fun q _ later => later.1 (Path.parent_child _ _)⟩
  · rw [if_neg direct]
    cases least : first found with
    | none =>
      refine .inr ⟨rfl, fun q there => ?_⟩
      have none := (holds q).mpr there
      rw [first_none least] at none
      cases none
    | some p =>
      obtain ⟨here, none⟩ := first_least least
      refine .inl ⟨p, rfl, (holds p).mp here, fun q there later => ?_⟩
      rcases later.2 with near | before
      · -- Nothing of that name is right in the folder.
        obtain ⟨g, -, rfl, has⟩ := there
        rw [Path.parent_child] at near
        exact direct (near ▸ has)
      · exact none q ((holds q).mpr there) before

/-- Suffixes are tried one after the other, as long as there is no file with them. -/
theorem findAmong_cases (plain : ∀ c ∈ id.toList, ¬Special c) (folder : t.isFolder b.folder)
    {rest : List String} (known : rest ⊆ suffixes) :
    (∃ tried suffix left p, rest = tried ++ suffix :: left ∧ b.findAmong t id rest = .ok (some p) ∧
      (∀ s ∈ tried, ∀ q, ¬t.Holds b.folder (id ++ s) q) ∧ t.Holds b.folder (id ++ suffix) p ∧
      ∀ q, t.Holds b.folder (id ++ suffix) q → ¬(p.parent ≠ b.folder ∧ (q.parent = b.folder ∨ q.before p))) ∨
    (b.findAmong t id rest = .ok none ∧ ∀ s ∈ rest, ∀ q, ¬t.Holds b.folder (id ++ s) q) := by
  induction rest with
  | nil => exact .inr ⟨rfl, nofun⟩
  | cons suffix rest ih =>
    obtain ⟨mem, known⟩ := List.cons_subset.mp known
    rcases findWith_cases plain mem folder with ⟨p, found, holds, least⟩ | ⟨found, none⟩
    · refine .inl ⟨[], suffix, rest, p, rfl, ?_, nofun, holds, least⟩
      rw [findAmong, found]
      rfl
    · have next : b.findAmong t id (suffix :: rest) = b.findAmong t id rest := by
        rw [findAmong, found]
        rfl
      rw [next]
      rcases ih known with ⟨tried, s, left, p, rfl, found, before, holds, least⟩ | ⟨found, others⟩
      · exact .inl ⟨suffix :: tried, s, left, p, rfl, found, List.forall_mem_cons.mpr ⟨none, before⟩,
          holds, least⟩
      · exact .inr ⟨found, List.forall_mem_cons.mpr ⟨none, others⟩⟩

/-- For an id that is listed, the file that is found bears the id, and none that bears it precedes it. -/
theorem find_first (listed : id ∈ b.ids t) (plain : ∀ c ∈ id.toList, ¬Special c) (named : id ∉ suffixes) :
    ∃ p, b.find t id = .ok (some p) ∧ p ∈ b.offered t ∧ p.stem = id ∧
      ∀ q ∈ b.offered t, q.stem = id → ¬b.Precedes q p := by
  obtain ⟨p₀, counts⟩ := mem_ids.mp listed
  have folder := (mem_offered.mp counts.offered).1
  obtain ⟨given, s₀, mem₀, holds₀⟩ := offered_of_stem named counts.offered counts.stem
  rcases findAmong_cases plain folder (List.Subset.refl suffixes) with
    ⟨tried, suffix, left, p, all, found, before, holds, least⟩ | ⟨-, none⟩
  · have mem : suffix ∈ suffixes := all ▸ List.mem_append_right _ List.mem_cons_self
    obtain ⟨offered, stem, same⟩ := offered_of_holds folder given mem holds
    refine ⟨p, found, offered, stem, fun q offered' stem' precedes => ?_⟩
    obtain ⟨-, s, mem', holds'⟩ := offered_of_stem named offered' stem'
    have same' := (offered_of_holds folder given mem' holds').2.2
    rw [Precedes, same, same'] at precedes
    rcases precedes with earlier | ⟨rfl, later⟩
    · -- A file whose suffix is tried earlier would have been found.
      have untried : suffix ∉ tried := fun mem => before suffix mem p holds
      have tried' : s ∉ tried := fun mem => before s mem q holds'
      rw [all, List.idxOf_append_of_notMem untried, List.idxOf_append_of_notMem tried',
        List.idxOf_cons_self] at earlier
      omega
    · exact least q holds' later
  · exact absurd holds₀ (none s₀ mem₀ p₀)

theorem foldersBelow_lead (mem : g ∈ t.foldersBelow p) : g.lead = p.lead := by
  unfold Tree.foldersBelow at mem
  split at mem
  · obtain ⟨⟨parts, item⟩, -, found⟩ := List.mem_filterMap.mp mem
    cases item with
    | folder =>
      cases found
      rfl
    | file content => cases found
  · cases mem

/-- Of two files of an id, one precedes the other. -/
theorem precedes_total (named : id ∉ suffixes) (offered : p ∈ b.offered t) (stem : p.stem = id)
    (offered' : q ∈ b.offered t) (stem' : q.stem = id) (other : p ≠ q) : b.Precedes p q ∨ b.Precedes q p := by
  have folder := (mem_offered.mp offered).1
  obtain ⟨given, s, mem, holds⟩ := offered_of_stem named offered stem
  obtain ⟨-, s', mem', holds'⟩ := offered_of_stem named offered' stem'
  have same := (offered_of_holds folder given mem holds).2.2
  have same' := (offered_of_holds folder given mem' holds').2.2
  unfold Precedes
  rw [same, same']
  rcases lt_trichotomy (suffixes.idxOf s) (suffixes.idxOf s') with earlier | level | later
  · exact .inl (.inl earlier)
  · obtain rfl := (List.idxOf_inj mem).mp level
    obtain ⟨g, below, rfl, -⟩ := holds
    obtain ⟨g', below', rfl, -⟩ := holds'
    rw [Path.parent_child, Path.parent_child]
    by_cases near : g = b.folder
    · have far : g' ≠ b.folder := fun near' => other (by rw [near, near'])
      exact .inl (.inr ⟨rfl, far, .inl near⟩)
    · by_cases near' : g' = b.folder
      · exact .inr (.inr ⟨rfl, near, .inl near'⟩)
      · have lead : g.lead = g'.lead := by
          have lead := foldersBelow_lead ((List.mem_cons.mp below).resolve_left near)
          have lead' := foldersBelow_lead ((List.mem_cons.mp below').resolve_left near')
          exact lead.trans lead'.symm
        have parts : (g.child (id ++ s)).parts ≠ (g'.child (id ++ s)).parts := by
          intro parts
          apply other
          have level : (g.child (id ++ s)).lead = (g'.child (id ++ s)).lead := lead
          cases child : g.child (id ++ s)
          cases child' : g'.child (id ++ s)
          rw [child, child'] at parts level
          cases parts
          cases level
          rfl
        rcases lt_or_gt_of_ne parts with before | before
        · exact .inl (.inr ⟨rfl, near', .inr (Path.before_iff.mpr before)⟩)
        · exact .inr (.inr ⟨rfl, near, .inr (Path.before_iff.mpr before)⟩)
  · exact .inr (.inl later)

/-- For every id that is listed, and that stands for itself, a file is found; it bears the id, and it is one of
those that the listing looks at. It is one that the listing counts exactly if some file that is counted for the
id is preceded by none that bears the id and was put aside. -/
theorem find_listed (listed : id ∈ b.ids t) (plain : ∀ c ∈ id.toList, ¬Special c) (named : id ∉ suffixes) :
    ∃ p, b.find t id = .ok (some p) ∧ p ∈ b.offered t ∧ p.stem = id ∧
      (b.Counts t id p ↔ ∃ q, b.Counts t id q ∧
        ∀ r ∈ b.offered t, r.stem = id → isAside r → ¬b.Precedes r q) := by
  obtain ⟨p, found, offered, stem, least⟩ := find_first listed plain named
  refine ⟨p, found, offered, stem, fun counts => ⟨p, counts, fun r mem same _ => least r mem same⟩, ?_⟩
  rintro ⟨q, counts, clear⟩
  by_cases aside : isAside p
  · -- The file that was put aside precedes all others that bear the id.
    have other : p ≠ q := by
      rintro rfl
      rw [counts.kept] at aside
      cases aside
    rcases precedes_total named offered stem counts.offered counts.stem other with before | before
    · exact absurd before (clear p offered stem aside)
    · exact absurd before (least q counts.offered counts.stem)
  · exact ⟨offered, Bool.eq_false_iff.mpr aside, stem⟩

-- The same definition in a folder below and among those that were put aside, there with one suffix or another.
def rack (aside : String) : Tree :=
  ⟨[(⟨0, ["rack"]⟩, .folder), (⟨0, ["rack", "_deprecated"]⟩, .folder),
    (⟨0, ["rack", "_deprecated", aside]⟩, .file []), (⟨0, ["rack", "warm"]⟩, .folder),
    (⟨0, ["rack", "warm", "tea.yaml"]⟩, .file [])]⟩

/-- With a suffix that is tried later, the file that was put aside is not in the way. -/
theorem find_listed_rack : "tea" ∈ (opened ⟨0, ["rack"]⟩).ids (rack "tea.json") ∧
    (∀ c ∈ "tea".toList, ¬Special c) ∧ "tea" ∉ suffixes ∧
    ∃ p, (opened ⟨0, ["rack"]⟩).find (rack "tea.json") "tea" = .ok (some p) ∧
      (opened ⟨0, ["rack"]⟩).Counts (rack "tea.json") "tea" p := by
  have listed : "tea" ∈ (opened ⟨0, ["rack"]⟩).ids (rack "tea.json") := by decide +kernel
  have plain : ∀ c ∈ "tea".toList, ¬Special c := Storage.plain_of_all (by decide)
  have named : "tea" ∉ suffixes := by decide
  obtain ⟨p, found, offered, stem, -⟩ := find_listed listed plain named
  have kept : ((opened ⟨0, ["rack"]⟩).find (rack "tea.json") "tea").toOption.map (·.map isAside) =
      some (some false) := by
    decide +kernel
  rw [found] at kept
  exact ⟨listed, plain, named, p, found, offered, Option.some.inj (Option.some.inj kept), stem⟩

/-- With the same suffix it is: it comes first by its path, and it is found although it is not listed. -/
theorem find_not_listed : "tea" ∈ (opened ⟨0, ["rack"]⟩).ids (rack "tea.yaml") ∧
    ∃ p, (opened ⟨0, ["rack"]⟩).find (rack "tea.yaml") "tea" = .ok (some p) ∧ isAside p ∧
      ¬(opened ⟨0, ["rack"]⟩).Counts (rack "tea.yaml") "tea" p := by
  refine ⟨by decide +kernel, ?_⟩
  have told : ((opened ⟨0, ["rack"]⟩).find (rack "tea.yaml") "tea").toOption.map (·.map isAside) =
      some (some true) := by
    decide +kernel
  cases found : (opened ⟨0, ["rack"]⟩).find (rack "tea.yaml") "tea" with
  | error f =>
    rw [found] at told
    cases told
  | ok p =>
    rw [found] at told
    obtain ⟨p, rfl, aside⟩ := Option.map_eq_some_iff.mp (Option.some.inj told)
    exact ⟨p, rfl, aside, fun counts => Bool.false_ne_true (counts.kept.symm.trans aside)⟩

end Kitchen.Cookbook
