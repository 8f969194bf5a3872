import Kitchen.Cookbook
import Kitchen.Proofs.Outcome

/-!
Requests for definitions that are made of one cookbook, one after the other. What the cookbook keeps does not
show as long as the files stay as they are: every request is answered as by a cookbook that was just opened.
When files change, an unversioned request is still answered with what was last read for its id.
-/
namespace Kitchen.Cookbook

open Storage (Path Tree)

structure Request where
  id : String
  version : Option String

-- What a request is answered with, and the cookbook after it. A request that fails leaves it as it was.
def ask (b : Cookbook) (t : Tree) (r : Request) : Except Fault Definition × Cookbook :=
  match b.load t r.id r.version with
  | .ok (d, b') => (.ok d, b')
  | .error f => (.error f, b)

-- The cookbook after requests, each made of it with the files as they were then.
def after (b : Cookbook) : List (Tree × Request) → Cookbook
  | [] => b
  | (t, r) :: rest => (b.ask t r).2.after rest

-- The answers to requests, one after the other.
def answers (b : Cookbook) : List (Tree × Request) → List (Except Fault Definition)
  | [] => []
  | (t, r) :: rest => (b.ask t r).1 :: (b.ask t r).2.answers rest

-- A request is answered from its file if it asks for a version, or if nothing is kept under its id.
def Consults (b : Cookbook) (r : Request) : Prop :=
  wanted? r.version = none → b.known.lookup r.id = none

instance (b : Cookbook) (r : Request) : Decidable (b.Consults r) :=
  inferInstanceAs (Decidable (_ → _))

-- The definition that was last read from a file for an id, when requests are made one after the other.
def lastRead (id : String) (b : Cookbook) : List (Tree × Request) → Option Definition
  | [] => none
  | (t, r) :: rest =>
    (lastRead id (b.ask t r).2 rest).or
      (if r.id = id ∧ b.Consults r then (b.ask t r).1.toOption else none)

variable {b b' : Cookbook} {t : Tree} {r : Request} {d : Definition} {f : Fault} {id : String}

theorem findAmong_congr (same : b.folder = b'.folder) (t : Tree) (id : String) (suffixes : List String) :
    b.findAmong t id suffixes = b'.findAmong t id suffixes := by
  induction suffixes with
  | nil => rfl
  | cons suffix rest ih => simp only [findAmong, findWith, same, ih]

/-- What is read for an id depends on the folder, and not on what is kept. -/
theorem read_congr (same : b.folder = b'.folder) (t : Tree) (id : String) : b.read t id = b'.read t id := by
  simp only [read, find, findAmong_congr same]

def checked (r : Request) (d : Definition) : Except Fault Definition :=
  match wanted? r.version with
  | some v => if !d.version.same (.text v) then .error (.otherVersion r.id v d.version) else .ok d
  | none => .ok d

def verdict (b : Cookbook) (t : Tree) (r : Request) : Except Fault Definition :=
  b.read t r.id >>= checked r

theorem verdict_congr (same : b.folder = b'.folder) (t : Tree) (r : Request) :
    b.verdict t r = b'.verdict t r := by
  simp only [verdict, read_congr same]

theorem checked_ok {d' : Definition} (passed : checked r d = .ok d') : d' = d := by
  unfold checked at passed
  split at passed
  · split at passed
    · cases passed
    · exact (Except.ok.inj passed).symm
  · exact (Except.ok.inj passed).symm

theorem verdict_read (given : b.verdict t r = .ok d) : b.read t r.id = .ok d := by
  obtain ⟨d', read, passed⟩ := bind_ok given
  rw [checked_ok passed]
  exact read

theorem verdict_unversioned (unversioned : wanted? r.version = none) (t : Tree) :
    b.verdict t r = b.read t r.id := by
  unfold verdict checked
  rw [unversioned]
  cases b.read t r.id <;> rfl

theorem ask_known (unversioned : wanted? r.version = none) (known : b.known.lookup r.id = some d) (t : Tree) :
    b.ask t r = (.ok d, b) := by
  simp only [ask, load, unversioned, known]

/-- A request that is answered from its file leaves the definition in the cookbook if there is one. -/
theorem ask_consults (consults : b.Consults r) (t : Tree) : b.ask t r =
    match b.verdict t r with
    | .ok d => (.ok d, { b with known := (r.id, d) :: b.known })
    | .error f => (.error f, b) := by
  have loaded : b.load t r.id r.version =
      (b.verdict t r).map fun d => (d, { b with known := (r.id, d) :: b.known }) := by
    unfold load verdict checked
    -- For a version nothing that is kept is looked at; without one there is nothing to look at.
    cases wanted : wanted? r.version with
    | none =>
      rw [consults wanted]
      cases b.read t r.id <;> rfl
    | some v =>
      cases b.read t r.id with
      | error f => rfl
      | ok d => by_cases other : d.version.same (.text v) <;> simp [bind, Except.bind, other] <;> rfl
  unfold ask
  rw [loaded]
  cases b.verdict t r <;> rfl

theorem ask_eq_verdict (consults : b.Consults r) (t : Tree) : (b.ask t r).1 = b.verdict t r := by
  rw [ask_consults consults]
  cases b.verdict t r <;> rfl

theorem ask_folder (b : Cookbook) (t : Tree) (r : Request) : (b.ask t r).2.folder = b.folder := by
  by_cases consults : b.Consults r
  · rw [ask_consults consults]
    cases b.verdict t r <;> rfl
  · obtain ⟨unversioned, known⟩ := Classical.not_imp.mp consults
    obtain ⟨d, known⟩ := Option.ne_none_iff_exists'.mp known
    rw [ask_known unversioned known]

theorem ask_failed (failed : (b.ask t r).1 = .error f) : (b.ask t r).2 = b := by
  unfold ask at failed ⊢
  cases loaded : b.load t r.id r.version with
  | error f' => rfl
  | ok answer =>
    rw [loaded] at failed
    cases failed

/-- What is kept under an id after a request: what the request read for it, or else what was kept before. -/
theorem ask_lookup (b : Cookbook) (t : Tree) (r : Request) (id : String) : (b.ask t r).2.known.lookup id =
    (if r.id = id ∧ b.Consults r then (b.ask t r).1.toOption else none).or (b.known.lookup id) := by
  by_cases consults : b.Consults r
  · rw [ask_consults consults]
    cases b.verdict t r with
    | error f => simp [Except.toOption]
    | ok d =>
      by_cases here : r.id = id
      · simp [here, consults, Except.toOption]
      · have other : (id == r.id) = false := beq_false_of_ne fun same => here same.symm
        simp [here, List.lookup_cons, other]
  · obtain ⟨unversioned, known⟩ := Classical.not_imp.mp consults
    obtain ⟨d, known⟩ := Option.ne_none_iff_exists'.mp known
    rw [ask_known unversioned known]
    simp [consults]

/-- What is kept after a request was read from its file, or was kept before. -/
theorem ask_kept (known : (b.ask t r).2.known.lookup id = some d) :
    b.read t id = .ok d ∨ b.known.lookup id = some d := by
  rw [ask_lookup] at known
  rcases Option.or_eq_some_iff.mp known with new | ⟨-, old⟩
  · split at new
    · next here =>
      obtain ⟨rfl, consults⟩ := here
      rw [ask_eq_verdict consults] at new
      cases given : b.verdict t r with
      | error f =>
        rw [given] at new
        cases new
      | ok d' =>
        rw [given] at new
        cases new
        exact .inl (verdict_read given)
    · cases new
  · exact .inr old

theorem after_folder (b : Cookbook) (history : List (Tree × Request)) :
    (b.after history).folder = b.folder := by
  induction history generalizing b with
  | nil => rfl
  | cons first rest ih => exact (ih _).trans (ask_folder b first.1 first.2)

/-- What is kept under an id is what was last read for it, whatever became of the files. -/
theorem after_lookup (b : Cookbook) (history : List (Tree × Request)) (id : String) :
    (b.after history).known.lookup id = (lastRead id b history).or (b.known.lookup id) := by
  induction history generalizing b with
  | nil => rfl
  | cons first rest ih =>
    obtain ⟨t, r⟩ := first
    -- What later requests read comes first, then what this one read, then what was kept before it.
    rw [after, ih, ask_lookup, lastRead, Option.or_assoc]

theorem answers_append (b : Cookbook) (history later : List (Tree × Request)) :
    b.answers (history ++ later) = b.answers history ++ (b.after history).answers later := by
  induction history generalizing b with
  | nil => rfl
  | cons first rest ih =>
    obtain ⟨t, r⟩ := first
    simp only [List.cons_append, answers, after, ih]

def Mirrors (b : Cookbook) (t : Tree) : Prop :=
  ∀ id d, b.known.lookup id = some d → b.read t id = .ok d

theorem opened_mirrors (folder : Path) (t : Tree) : (opened folder).Mirrors t :=
  nofun

theorem Mirrors.verdict (mirrors : b.Mirrors t) (r : Request) : (b.ask t r).1 = b.verdict t r := by
  by_cases consults : b.Consults r
  · exact ask_eq_verdict consults t
  · -- Only an unversioned request is answered with what is kept, and that is what would be read.
    obtain ⟨unversioned, known⟩ := Classical.not_imp.mp consults
    obtain ⟨d, known⟩ := Option.ne_none_iff_exists'.mp known
    rw [ask_known unversioned known, verdict_unversioned unversioned, mirrors _ _ known]

theorem Mirrors.ask (mirrors : b.Mirrors t) (r : Request) : (b.ask t r).2.Mirrors t := by
  intro id d known
  rw [read_congr (ask_folder b t r)]
  rcases ask_kept known with read | old
  · exact read
  · exact mirrors id d old

theorem Mirrors.answers (mirrors : b.Mirrors t) (rs : List Request) :
    b.answers (rs.map (t, ·)) = rs.map (b.verdict t) := by
  induction rs generalizing b with
  | nil => rfl
  | cons r rs ih =>
    have rest : (b.ask t r).2.verdict t = b.verdict t := funext (verdict_congr (ask_folder b t r) t)
    rw [List.map_cons, Cookbook.answers, mirrors.verdict, ih (mirrors.ask r), rest, List.map_cons]

theorem opened_verdict (folder : Path) (t : Tree) (r : Request) :
    ((opened folder).ask t r).1 = (opened folder).verdict t r :=
  (opened_mirrors folder t).verdict r

/-- The definitions that a cookbook keeps do not show. With the same files all along, requests of any ids and
versions are answered, one after the other, as each of them would be by a cookbook that was just opened. With
files that change, an unversioned request is answered with the definition that was last read for its id, and
if there is none, as by a cookbook that was just opened. A request that fails makes no difference to any
answer after it. -/
theorem cache_transparent (folder : Path) :
    (∀ (t : Tree) (rs : List Request),
      (opened folder).answers (rs.map (t, ·)) = rs.map fun r => ((opened folder).ask t r).1) ∧
    (∀ (history : List (Tree × Request)) (t : Tree) (r : Request), wanted? r.version = none →
      (((opened folder).after history).ask t r).1 =
        match lastRead r.id (opened folder) history with
        | some d => .ok d
        | none => ((opened folder).ask t r).1) ∧
    ∀ (history later : List (Tree × Request)) (t : Tree) (r : Request) (f : Fault),
      (((opened folder).after history).ask t r).1 = .error f →
        (opened folder).answers (history ++ (t, r) :: later) =
          (opened folder).answers history ++ .error f :: ((opened folder).after history).answers later := by
  refine ⟨fun t rs => ?_, fun history t r unversioned => ?_, fun history later t r f failed => ?_⟩
  · rw [(opened_mirrors folder t).answers]
    exact List.map_congr_left fun r _ => (opened_verdict folder t r).symm
  · have kept := after_lookup (opened folder) history r.id
    have nothing : (opened folder).known.lookup r.id = none := rfl
    rw [nothing, Option.or_none] at kept
    cases last : lastRead r.id (opened folder) history with
    | some d =>
      rw [last] at kept
      rw [ask_known unversioned kept]
    | none =>
      rw [last] at kept
      rw [ask_eq_verdict fun _ => kept, opened_verdict, verdict_congr (after_folder _ history)]
  · rw [answers_append, answers, failed, ask_failed failed]

def stocked : Tree :=
  ⟨[(⟨0, ["shelf"]⟩, .folder),
    (⟨0, ["shelf", "tea.json"]⟩, .file (Text.Utf8.encode "\x7b\"recipe_id\": \"tea\"\x7d".toList))]⟩

def shelf : Path := ⟨0, ["shelf"]⟩

def early : Tree × Request := (stocked, ⟨"tea", some "1.0"⟩)

/-- When the file is gone, its definition is still there for those who ask for any version; a request for another
version fails and changes nothing. -/
theorem cache_transparent_stocked : ∃ d f,
    wanted? none = none ∧ lastRead "tea" (opened shelf) [early] = some d ∧
    (((opened shelf).after [early]).ask .empty ⟨"tea", none⟩).1 = .ok d ∧
    (((opened shelf).after [early]).ask .empty ⟨"tea", some "2"⟩).1 = .error f ∧
    (opened shelf).answers [early, (.empty, ⟨"tea", some "2"⟩), (.empty, ⟨"tea", none⟩)] =
      (opened shelf).answers [early] ++ [.error f, .ok d] := by
  obtain ⟨-, unversioned, failing⟩ := cache_transparent shelf
  have found : (lastRead "tea" (opened shelf) [early]).isSome := by decide +kernel
  obtain ⟨d, last⟩ := Option.isSome_iff_exists.mp found
  have kept := unversioned [early] .empty ⟨"tea", none⟩ rfl
  rw [last] at kept
  have lost : (((opened shelf).after [early]).ask .empty ⟨"tea", some "2"⟩).1.toOption.isNone := by
    decide +kernel
  cases failed : (((opened shelf).after [early]).ask .empty ⟨"tea", some "2"⟩).1 with
  | ok d' =>
    rw [failed] at lost
    cases lost
  | error f =>
    have later := failing [early] [(.empty, ⟨"tea", none⟩)] .empty ⟨"tea", some "2"⟩ f failed
    have rest : ((opened shelf).after [early]).answers [(.empty, ⟨"tea", none⟩)] = [.ok d] := by
      rw [answers, answers, kept]
    rw [rest] at later
    exact ⟨d, f, rfl, last, kept, rfl, later⟩

end Kitchen.Cookbook
