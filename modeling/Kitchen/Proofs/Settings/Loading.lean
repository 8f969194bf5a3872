import Kitchen.Proofs.Storage.Contents
import Kitchen.Proofs.Value.Fields
import Kitchen.Proofs.Value.Texts
import Kitchen.Settings

/-!
How the loading of settings ends. Settings are asked for one thing after another, and the first thing that they do
not have decides whether they are refused as faulty. Not all that is asked for is refused in this way: a path that is
no text, a section that is no map and a scalar that says nothing of its kind come out as faults of another kind.
-/
namespace Kitchen

namespace Settings

open Storage (Path Tree)
open Text (Glyph)
open Value (field?)

-- How settings are refused: as faulty, for what is stored, or for neither.
inductive Refusal where
  | own
  | stored
  | stray
  deriving DecidableEq

def Fault.refusal (f : Fault) : Refusal :=
  match f with
  | .trouble _ => .stored
  | f => if f.isOwn then .own else .stray

structure Check where
  holds : Prop
  refusal : Refusal

def Fails (r : Refusal) : List Check → Prop
  | [] => False
  | c :: rest => (¬ c.holds ∧ c.refusal = r) ∨ (c.holds ∧ Fails r rest)

-- Settings whose level, format and limit can be used.
structure Valid (s : Settings) : Prop where
  level : ∃ level ∈ levels, s.level = .ok level
  format : ∃ format ∈ formats, s.format = .ok (.text format)
  limit : s.limit = .ok .null ∨ ∃ v n, s.limit = .ok v ∧ v.whole? = some n ∧ 1 ≤ n

section Asked

variable (w : Surroundings) (t : Tree) (file : Path) (es : List (Value × Value))

def Placed (v : Value) : Prop :=
  ∃ gs p, v.glyphs? = some gs ∧ w.expand? (Glyph.plain gs) = some p

def Sectioned (sect : String) : Prop :=
  ∀ v, field? sect es = some v → v.truthy → ∃ fs, v = .map fs

def told (sect name : String) (usual : Value) : Value :=
  match field? sect es with
  | some (.map fs) => (field? name fs).getD usual
  | _ => usual

def toldLevel : Value := told es "logging" "level" (.text "INFO")

def toldFormat : Value := told es "logging" "format" (.text "pretty")

def toldOutput : Value := told es "logging" "output" .null

def toldLimit : Value := told es "execution" "max_steps" .null

-- What is said of the journal's file, if anything is, is a text that leads somewhere today.
def Journaled (output : Value) : Prop :=
  output.truthy → ∃ gs, output.glyphs? = some gs ∧ Placed w (.ofGlyphs (today w gs))

def spot? (output : Value) : Option Spot :=
  match output.glyphs? with
  | some gs =>
    if gs = [] then none
    else (w.expand? (Glyph.plain (today w gs))).map fun p => ⟨file.parent.under p, today w gs⟩
  | none => none

def complaint (v : Value) : Refusal :=
  if v.isShowable then .own else .stray

def checks : List Check :=
  [⟨Placed w ((field? "recipes_dir" es).getD (.text "recipes")), .stray⟩,
    ⟨Sectioned es "logging", .stray⟩,
    ⟨(toldLevel es).isShowable, .stray⟩,
    ⟨String.ofList (Text.upper (toldLevel es).plain.toList) ∈ levels, .own⟩,
    ⟨∃ format ∈ formats, toldFormat es = .text format, complaint (toldFormat es)⟩,
    ⟨Sectioned es "execution", .stray⟩,
    ⟨toldLimit es = .null ∨ ∃ n, (toldLimit es).whole? = some n ∧ 1 ≤ n, complaint (toldLimit es)⟩,
    ⟨Journaled w (toldOutput es), .stray⟩,
    ⟨∀ s, spot? w file (toldOutput es) = some s → s.unnameable? = none, .stray⟩,
    ⟨∀ s, spot? w file (toldOutput es) = some s →
      t.has s.path.parent ∨ s.path.parent.hasNull = false, .stray⟩,
    ⟨∀ s, spot? w file (toldOutput es) = some s →
      t.has s.path.parent ∨ ∃ t', t.ensureFolders s.path.parent = .ok t', .stored⟩]

-- How a document is refused: one that is not well formed, empty or no map as faulty, one with a scalar that
-- says nothing of its kind for another reason, and a map by the checks.
def Rejects (r : Refusal) : Except Yaml.Fault Value → Prop
  | .error (.malformed _) => r = .own
  | .error _ => r = .stray
  | .ok (.map (e :: es)) => Fails r (checks w t file (e :: es))
  | .ok _ => r = .own

end Asked

section Order

variable {α β : Type} {r : Refusal} {x : Except Fault α} {g : α → Except Fault β} {c : Check} {rest : List Check}

def Refuses (r : Refusal) (x : Except Fault α) : Prop :=
  ∃ f, x = .error f ∧ f.refusal = r

@[simp] theorem refuses_ok (a : α) : ¬ Refuses r (.ok a : Except Fault α) := by
  rintro ⟨f, none, -⟩
  cases none

@[simp] theorem refuses_error {f : Fault} : Refuses r (.error f : Except Fault α) ↔ f.refusal = r := by
  constructor
  · rintro ⟨f', same, refused⟩
    cases same
    exact refused
  · intro refused
    exact ⟨f, rfl, refused⟩

structure Decides (x : Except Fault α) (c : Check) : Prop where
  ok : c.holds → ∃ a, x = .ok a
  refuses : ¬ c.holds → ∃ f, x = .error f ∧ f.refusal = c.refusal

/-- What is decided by a check and goes on after it is decided by this check and those that follow. -/
theorem Decides.bind (decides : Decides x c)
    (next : ∀ a, x = .ok a → c.holds → (Refuses r (g a) ↔ Fails r rest)) :
    Refuses r (x >>= g) ↔ Fails r (c :: rest) := by
  by_cases holds : c.holds
  · obtain ⟨a, came⟩ := decides.ok holds
    have onward : Refuses r (x >>= g) ↔ Refuses r (g a) := by
      rw [came]
      rfl
    rw [onward, next a came holds]
    simp [Fails, holds]
  · obtain ⟨f, came, refused⟩ := decides.refuses holds
    have stopped : Refuses r (x >>= g) ↔ f.refusal = r := by
      rw [came]
      exact refuses_error
    rw [stopped, refused]
    simp [Fails, holds]

theorem decides_demand {b : Bool} {P : Prop} {f : Fault} (same : b = true ↔ P) :
    Decides (demand b f) ⟨P, f.refusal⟩ where
  ok := by
    intro holds
    exact ⟨(), if_pos (same.mpr holds)⟩
  refuses := by
    intro fails
    exact ⟨f, if_neg (mt same.mp fails), rfl⟩

theorem demand_ok {b : Bool} {f : Fault} {u : Unit} (ok : demand b f = .ok u) : b = true := by
  unfold demand at ok
  split at ok
  · assumption
  · cases ok

end Order

variable {w : Surroundings} {t t' : Tree} {p q : Path} {es : List (Value × Value)} {sect name : String}
  {v usual : Value} {r : Refusal} {f : Fault} {s : Settings} {file : Option Path}

theorem refusal_about (own : f.refusal = .own) : (about v f).refusal = complaint v := by
  unfold about complaint
  split
  · exact own
  · rfl

theorem pathOf_glyphs {gs : List Glyph} (text : v.glyphs? = some gs) : pathOf w v = pathAt w gs := by
  cases v with
  | text s => cases text; rfl
  | torn t => cases text; rfl
  | _ => cases text

theorem pathOf_other (other : v.glyphs? = none) : ∃ f, pathOf w v = .error f ∧ f.refusal = .stray := by
  cases v with
  | text s => cases other
  | torn t => cases other
  | _ => exact ⟨_, rfl, rfl⟩

theorem decides_pathOf (w : Surroundings) (v : Value) : Decides (pathOf w v) ⟨Placed w v, .stray⟩ where
  ok := by
    rintro ⟨gs, p, text, leads⟩
    rw [pathOf_glyphs text, pathAt, leads]
    exact ⟨p, rfl⟩
  refuses := by
    intro nowhere
    cases text : v.glyphs? with
    | none => exact pathOf_other text
    | some gs =>
      rw [pathOf_glyphs text, pathAt]
      cases leads : w.expand? (Glyph.plain gs) with
      | none => exact ⟨_, rfl, rfl⟩
      | some p => exact absurd ⟨gs, p, text, leads⟩ nowhere

theorem entry_told (sectioned : Sectioned es sect) :
    entry (sectionOf sect es) name usual = .ok (told es sect name usual) := by
  unfold sectionOf told
  cases there : field? sect es with
  | none => rfl
  | some v =>
    rw [Option.getD_some]
    by_cases given : v.truthy
    · obtain ⟨fs, rfl⟩ := sectioned v there given
      rw [if_pos given]
      rfl
    · rw [if_neg given]
      -- A map that says nothing has no entries.
      cases v with
      | map fs =>
        cases fs with
        | nil => rfl
        | cons => exact absurd rfl given
      | _ => rfl

theorem decides_entry (es : List (Value × Value)) (sect name : String) (usual : Value) :
    Decides (entry (sectionOf sect es) name usual) ⟨Sectioned es sect, .stray⟩ where
  ok sectioned := ⟨_, entry_told sectioned⟩
  refuses := by
    intro odd
    obtain ⟨v, odd⟩ := not_forall.mp odd
    obtain ⟨there, odd⟩ := Classical.not_imp.mp odd
    obtain ⟨given, odd⟩ := Classical.not_imp.mp odd
    have taken : sectionOf sect es = v := by
      unfold sectionOf
      rw [there, Option.getD_some]
      exact if_pos given
    rw [taken]
    cases v with
    | map fs => exact absurd ⟨fs, rfl⟩ odd
    | _ => exact ⟨_, rfl, rfl⟩

theorem allowsLimit_iff : allowsLimit v = true ↔ v = .null ∨ ∃ n, v.whole? = some n ∧ 1 ≤ n := by
  cases v <;> simp [allowsLimit, Value.whole?]

theorem dated_glyphs {gs : List Glyph} (text : v.glyphs? = some gs) : dated w v = .ok (today w gs) := by
  cases v with
  | text s => cases text; rfl
  | torn t => cases text; rfl
  | _ => cases text

theorem dated_other (other : v.glyphs? = none) : ∃ f, dated w v = .error f ∧ f.refusal = .stray := by
  cases v with
  | text s => cases other
  | torn t => cases other
  | _ => exact ⟨_, rfl, rfl⟩

/-- A text says something unless it is empty. -/
theorem truthy_glyphs {gs : List Glyph} (text : v.glyphs? = some gs) : v.truthy ↔ gs ≠ [] := by
  rw [Value.eq_ofGlyphs text, Value.truthy_ofGlyphs]

theorem format_iff : (formats.any fun format => v.same (.text format)) = true ↔
    ∃ format ∈ formats, v = .text format := by
  rw [List.any_eq_true]
  apply exists_congr
  intro format
  apply and_congr_right
  intro _
  cases v <;> simp [Value.same]

-- Settings that were made of the fields of a document.
def made (file p : Path) (es : List (Value × Value)) : Settings :=
  ⟨some file, file.parent.under p, sectionOf "logging" es, sectionOf "execution" es⟩

theorem journalAt_spot (journaled : Journaled w v) : journalAt w (some p) v = .ok (spot? w p v) := by
  unfold journalAt
  by_cases given : v.truthy
  · obtain ⟨gs, text, gs', q, same, leads⟩ := journaled given
    obtain rfl : today w gs = gs' := Option.some.inj ((Value.glyphs?_ofGlyphs _).symm.trans same)
    have filled : gs ≠ [] := (truthy_glyphs text).mp given
    have path : pathAt w (today w gs) = .ok q := by
      rw [pathAt, leads]
    rw [if_pos given, spot?, text]
    dsimp only
    rw [if_neg filled, leads, dated_glyphs text]
    simp only [bind, Except.bind, path]
    rfl
  · rw [if_neg given, spot?]
    cases text : v.glyphs? with
    | none => rfl
    | some gs =>
      have empty : gs = [] := not_not.mp (mt (truthy_glyphs text).mpr given)
      dsimp only
      rw [if_pos empty]

theorem decides_journalAt (w : Surroundings) (p : Path) (v : Value) :
    Decides (journalAt w (some p) v) ⟨Journaled w v, .stray⟩ where
  ok journaled := ⟨_, journalAt_spot journaled⟩
  refuses := by
    intro odd
    obtain ⟨given, odd⟩ := Classical.not_imp.mp odd
    unfold journalAt
    rw [if_pos given]
    cases text : v.glyphs? with
    | none =>
      obtain ⟨f, came, refused⟩ := dated_other (w := w) text
      rw [came]
      exact ⟨f, rfl, refused⟩
    | some gs =>
      have nowhere : ¬ Placed w (.ofGlyphs (today w gs)) := fun placed => odd ⟨gs, text, placed⟩
      obtain ⟨f, came, refused⟩ := (decides_pathOf w _).refuses nowhere
      rw [pathOf_glyphs (Value.glyphs?_ofGlyphs _)] at came
      rw [dated_glyphs text]
      simp only [bind, Except.bind, came]
      exact ⟨f, rfl, refused⟩

theorem refuses_prepare (t : Tree) (file : Option Spot) : Refuses r (prepare t file) ↔
    Fails r [⟨∀ s, file = some s → s.unnameable? = none, .stray⟩,
      ⟨∀ s, file = some s → t.has s.path.parent ∨ s.path.parent.hasNull = false, .stray⟩,
      ⟨∀ s, file = some s → t.has s.path.parent ∨ ∃ t', t.ensureFolders s.path.parent = .ok t', .stored⟩] := by
  cases file with
  | none => simp [prepare, Fails]
  | some s =>
    unfold prepare
    cases nameable : s.unnameable? with
    | some m => simp [Fails, nameable, Fault.refusal, Fault.isOwn]
    | none =>
      by_cases there : t.has s.path.parent
      · simp [Fails, there, nameable]
      · by_cases null : s.path.parent.hasNull
        · simp [Fails, there, nameable, null, Fault.refusal, Fault.isOwn]
        · dsimp only
          rw [if_neg there, if_neg null]
          cases folders : t.ensureFolders s.path.parent with
          | ok t' => simp [Fails, there, nameable, null, folders, Except.mapError]
          | error e => simp [Fails, there, nameable, null, folders, Except.mapError, Fault.refusal]

theorem refuses_validate (w : Surroundings) (t : Tree) (p q : Path) (es : List (Value × Value)) :
    Refuses r ((made p q es).validate w t) ↔ Fails r (checks w t p es).tail := by
  have level : ∀ v : Value, Decides (demand v.isShowable hidden) ⟨v.isShowable, .stray⟩ := fun v =>
    decides_demand Iff.rfl
  have format : ∀ v : Value, Decides (demand (formats.any fun format => v.same (.text format))
      (about v (.format v))) ⟨∃ format ∈ formats, v = .text format, complaint v⟩ := by
    intro v
    rw [← refusal_about (f := .format v) rfl]
    exact decides_demand format_iff
  have limit : ∀ v : Value, Decides (demand (allowsLimit v) (about v (.limit v)))
      ⟨v = .null ∨ ∃ n, v.whole? = some n ∧ 1 ≤ n, complaint v⟩ := by
    intro v
    rw [← refusal_about (f := .limit v) rfl]
    exact decides_demand allowsLimit_iff
  unfold validate Settings.level Settings.format Settings.limit journalSpot
  simp only [bind_assoc, pure_bind]
  apply (decides_entry es "logging" "level" _).bind
  intro said told logging
  obtain rfl : toldLevel es = said := Except.ok.inj ((entry_told logging).symm.trans told)
  apply (level _).bind
  intro _ _ _
  apply (decides_demand List.contains_iff_mem).bind
  intro _ _ _
  have formatted : entry (made p q es).journal "format" (.text "pretty") = .ok (toldFormat es) := entry_told logging
  rw [formatted]
  apply (format _).bind
  intro _ _ _
  apply (decides_entry es "execution" "max_steps" _).bind
  intro said told execution
  obtain rfl : toldLimit es = said := Except.ok.inj ((entry_told execution).symm.trans told)
  apply (limit _).bind
  intro _ _ _
  have output : entry (made p q es).journal "output" .null = .ok (toldOutput es) := entry_told logging
  rw [output]
  apply (decides_journalAt w p (toldOutput es)).bind
  intro file found journaled
  obtain rfl : spot? w p (toldOutput es) = file := Except.ok.inj ((journalAt_spot journaled).symm.trans found)
  exact refuses_prepare t _

theorem ofFields_made (w : Surroundings) (p : Path) (es : List (Value × Value)) :
    ofFields w (some p) es =
      pathOf w ((field? "recipes_dir" es).getD (.text "recipes")) >>= fun q => .ok (made p q es) := by
  unfold ofFields
  congr 1
  funext q
  unfold made Path.under
  by_cases whole : q.isAbsolute <;> simp [whole, bind, Except.bind, pure, Except.pure]

theorem refuses_pair (x : Except Fault Tree) : Refuses r (do return (s, ← x)) ↔ Refuses r x := by
  cases x with
  | error f => exact refuses_error.trans refuses_error.symm
  | ok t' =>
    apply iff_of_false
    · exact refuses_ok (s, t')
    · exact refuses_ok t'

theorem refuses_fields (w : Surroundings) (t : Tree) (p : Path) (es : List (Value × Value)) :
    Refuses r (do let s ← ofFields w (some p) es; return (s, ← s.validate w t)) ↔ Fails r (checks w t p es) := by
  rw [ofFields_made, bind_assoc]
  apply (decides_pathOf w _).bind
  intro q _ _
  exact (refuses_pair _).trans (refuses_validate w t p q es)

-- The file that is loaded: the one that is named, else the one in the home of the program.
def Chosen (w : Surroundings) (file : Option Path) (p : Path) : Prop :=
  file = some p ∨ file = none ∧ ∃ home, w.home? = some home ∧ p = home.child configName

theorem load_chosen (chosen : Chosen w file p) : load w t file =
    (do let s ← ofFile w t p; return (s, ← s.validate w t)) := by
  unfold load
  rcases chosen with rfl | ⟨rfl, home, known, rfl⟩
  · rfl
  · rw [known]
    rfl

theorem documentFields_text {text : String}
    (found : t.find? p = some (.file (Text.Utf8.encode text.toList))) :
    documentFields t p = fieldsIn (Yaml.read (Storage.unifyLines text.toList)) := by
  have there : t.has p := by
    rw [Tree.has, found]
    rfl
  have content : t.readText .pieces p = .ok (Storage.unifyLines text.toList) := by
    rw [Tree.readText, Tree.read_of_find? found]
    dsimp only
    rw [Storage.textOf, Text.Utf8.decode?_encode]
    rfl
  unfold documentFields
  rw [there, content]
  rfl

/-- What is no map is refused as such, whether it says anything or not. -/
theorem fieldsIn_other (other : ∀ es, v ≠ .map es) : ∃ f, fieldsIn (.ok v) = .error f ∧ f.refusal = .own := by
  unfold fieldsIn
  dsimp only
  split
  · cases v with
    | map es => exact absurd rfl (other es)
    | _ => exact ⟨_, rfl, rfl⟩
  · exact ⟨_, rfl, rfl⟩

theorem valid_of_validate (valid : s.validate w t = .ok t') : s.Valid := by
  unfold validate at valid
  obtain ⟨level, leveled, valid⟩ := bind_ok valid
  obtain ⟨_, known, valid⟩ := bind_ok valid
  obtain ⟨format, formatted, valid⟩ := bind_ok valid
  obtain ⟨_, usual, valid⟩ := bind_ok valid
  obtain ⟨limit, limited, valid⟩ := bind_ok valid
  obtain ⟨_, allowed, -⟩ := bind_ok valid
  obtain ⟨text, mem, rfl⟩ := format_iff.mp (demand_ok usual)
  refine ⟨⟨level, List.contains_iff_mem.mp (demand_ok known), leveled⟩, ⟨text, mem, formatted⟩, ?_⟩
  rcases allowsLimit_iff.mp (demand_ok allowed) with rfl | ⟨n, whole, least⟩
  · exact .inl limited
  · exact .inr ⟨limit, n, limited, whole, least⟩

/-- Settings that are loaded from a file can be used, whatever text it holds. Where there are none, what is read from
the text says how they are refused: of all that is asked for, the first thing that they do not have. -/
theorem load_rejects (w : Surroundings) (t : Tree) (text : String) (chosen : Chosen w file p)
    (found : t.find? p = some (.file (Text.Utf8.encode text.toList))) :
    (∀ s t', load w t file = .ok (s, t') → s.Valid) ∧
      ∀ r, (∃ f, load w t file = .error f ∧ f.refusal = r) ↔
        Rejects w t p r (Yaml.read (Storage.unifyLines text.toList)) := by
  rw [load_chosen chosen]
  constructor
  · intro s t' loaded
    obtain ⟨s', -, loaded⟩ := bind_ok loaded
    obtain ⟨t'', valid, loaded⟩ := bind_ok loaded
    cases loaded
    exact valid_of_validate valid
  · intro r
    change Refuses r _ ↔ _
    unfold ofFile
    rw [documentFields_text found]
    cases Yaml.read (Storage.unifyLines text.toList) with
    | error f => cases f <;> exact refuses_error.trans eq_comm
    | ok v =>
      have other (odd : ∀ es, v ≠ .map es) : Refuses r (do
          let s ← (do ofFields w (some p) (← fieldsIn (.ok v)))
          return (s, ← s.validate w t)) ↔ r = .own := by
        obtain ⟨f, empty, own⟩ := fieldsIn_other odd
        rw [empty, eq_comm, ← own]
        exact refuses_error
      cases v with
      | map es =>
        cases es with
        | nil => exact refuses_error.trans eq_comm
        | cons e es => exact refuses_fields w t p (e :: es)
      | _ => exact other fun es same => nomatch same

def filed (text : String) : Tree :=
  ⟨[(⟨0, ["home"]⟩, .folder), (⟨0, ["home", "config.yaml"]⟩, .file (Text.Utf8.encode text.toList))]⟩

def homely : Surroundings := ⟨⟨1, ["home", "oracle"]⟩, [], some "home", "2024-01-02"⟩

theorem chosen_homely : Chosen homely none ⟨0, ["home", "config.yaml"]⟩ :=
  .inr ⟨rfl, ⟨0, ["home"]⟩, by decide +kernel, rfl⟩

def shouting : String := "logging:\n  level: loud\n"

def shoutingFields : List (Value × Value) := [(.text "logging", .map [(.text "level", .text "loud")])]

def isShouting : Yaml.Node → Bool
  | .map .map [(.scalar .str "logging", .map .map [(.scalar .str "level", .scalar .str "loud")])] => true
  | _ => false

theorem isShouting_value {n : Yaml.Node} (shouting : isShouting n) : n.value = .ok (.map shoutingFields) := by
  unfold isShouting at shouting
  split at shouting
  · simp [Yaml.Node.value, Yaml.Node.entryValues, Yaml.Node.mergedValues, Yaml.Node.ownValues,
      Yaml.scalarValue, Yaml.Node.keyTag, Yaml.mapOf, Value.insert, Value.isHashable, bind,
      Except.bind, pure, Except.pure, shoutingFields]
  · cases shouting

/-- The level is refused as such. -/
theorem load_rejects_shouting : Chosen homely none ⟨0, ["home", "config.yaml"]⟩ ∧
    (filed shouting).find? ⟨0, ["home", "config.yaml"]⟩ =
      some (.file (Text.Utf8.encode shouting.toList)) ∧
    ∃ f, load homely (filed shouting) none = .error f ∧ f.refusal = .own := by
  have found : (filed shouting).find? ⟨0, ["home", "config.yaml"]⟩ =
      some (.file (Text.Utf8.encode shouting.toList)) := by decide +kernel
  refine ⟨chosen_homely, found, ?_⟩
  apply ((load_rejects homely (filed shouting) shouting chosen_homely found).2 .own).mpr
  have read : Yaml.read (Storage.unifyLines shouting.toList) = .ok (.map shoutingFields) :=
    Yaml.read_parsed (by decide +kernel) fun n => isShouting_value
  rw [read]
  have folder : (field? "recipes_dir" shoutingFields).getD (.text "recipes") = .text "recipes" := by
    rw [shoutingFields, Value.field?_cons, if_neg (by decide), Value.field?_nil, Option.getD_none]
  have sect : field? "logging" shoutingFields = some (.map [(.text "level", .text "loud")]) := by
    rw [shoutingFields, Value.field?_cons, if_pos rfl]
  have placed : Placed homely ((field? "recipes_dir" shoutingFields).getD (.text "recipes")) :=
    ⟨Glyph.ofText "recipes", ⟨0, ["recipes"]⟩, by rw [folder]; rfl, by decide +kernel⟩
  have sectioned : Sectioned shoutingFields "logging" := by
    intro v there _
    exact ⟨_, Option.some.inj (there.symm.trans sect)⟩
  have level : toldLevel shoutingFields = .text "loud" := by
    unfold toldLevel told
    rw [sect]
    change (field? "level" [(.text "level", .text "loud")]).getD (.text "INFO") = .text "loud"
    rw [Value.field?_cons, if_pos rfl, Option.getD_some]
  have showable : (toldLevel shoutingFields).isShowable := by
    rw [level]
    rfl
  refine .inr ⟨placed, .inr ⟨sectioned, .inr ⟨showable, .inl ⟨?_, rfl⟩⟩⟩⟩
  change String.ofList (Text.upper (toldLevel shoutingFields).plain.toList) ∉ levels
  rw [level]
  decide +kernel

def numbered : String := "recipes_dir: 5\n"

def isNumbered : Yaml.Node → Bool
  | .map .map [(.scalar .str "recipes_dir", .scalar .int "5")] => true
  | _ => false

theorem isNumbered_value {n : Yaml.Node} (numbered : isNumbered n) :
    n.value = .ok (.map [(.text "recipes_dir", .int 5)]) := by
  unfold isNumbered at numbered
  split at numbered
  · have five : Yaml.intOf "5" = .ok 5 := by decide +kernel
    simp [Yaml.Node.value, Yaml.Node.entryValues, Yaml.Node.mergedValues, Yaml.Node.ownValues,
      Yaml.scalarValue, Yaml.Node.keyTag, Yaml.mapOf, Value.insert, Value.isHashable, five, bind,
      Except.bind, pure, Except.pure, Except.map]
  · cases numbered

/-- It is not refused as a fault of the settings. -/
theorem load_numbered : ∃ f, load homely (filed numbered) none = .error f ∧ f.isOwn = false ∧ f.refusal = .stray := by
  have found : (filed numbered).find? ⟨0, ["home", "config.yaml"]⟩ =
      some (.file (Text.Utf8.encode numbered.toList)) := by decide +kernel
  have read : Yaml.read (Storage.unifyLines numbered.toList) = .ok (.map [(.text "recipes_dir", .int 5)]) :=
    Yaml.read_parsed (by decide +kernel) fun n => isNumbered_value
  refine ⟨.notPath "int", ?_, rfl, rfl⟩
  have folder : field? "recipes_dir" [(.text "recipes_dir", .int 5)] = some (.int 5) := by
    rw [Value.field?_cons, if_pos rfl]
  rw [load_chosen chosen_homely, ofFile, documentFields_text found, read]
  change (ofFields homely _ [(.text "recipes_dir", .int 5)] >>= _) = _
  rw [ofFields_made, folder]
  rfl

end Settings

end Kitchen
