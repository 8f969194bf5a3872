import Kitchen.Command.Desk
import Kitchen.Proofs.Storage.Contents

namespace Kitchen

open Storage (Path Tree)

namespace Settings

theorem extends_prepare {t t' : Tree} {file : Option Spot} (made : prepare t file = .ok t') : t'.Extends t := by
  unfold prepare at made
  split at made
  · cases made
    exact .refl t
  · split at made
    · cases made
    · dsimp only at made
      split at made
      · cases made
        exact .refl t
      · split at made
        · cases made
        · exact Tree.extends_ensureFolders (mapError_ok made)

theorem extends_validate {w : Surroundings} {t t' : Tree} {s : Settings}
    (valid : s.validate w t = .ok t') : t'.Extends t := by
  unfold validate at valid
  obtain ⟨level, -, valid⟩ := bind_ok valid
  obtain ⟨-, -, valid⟩ := bind_ok valid
  obtain ⟨format, -, valid⟩ := bind_ok valid
  obtain ⟨-, -, valid⟩ := bind_ok valid
  obtain ⟨limit, -, valid⟩ := bind_ok valid
  obtain ⟨-, -, valid⟩ := bind_ok valid
  obtain ⟨file, -, made⟩ := bind_ok valid
  exact extends_prepare made

theorem extends_load {w : Surroundings} {t t' : Tree} {file : Option Path} {s : Settings}
    (loaded : load w t file = .ok (s, t')) : t'.Extends t := by
  have checked : ∀ p, (do let s ← ofFile w t p; return (s, ← s.validate w t)) = Except.ok (s, t') →
      t'.Extends t := by
    intro p read
    obtain ⟨s', -, read⟩ := bind_ok read
    obtain ⟨t'', valid, read⟩ := bind_ok read
    cases read
    exact extends_validate valid
  unfold load at loaded
  dsimp only at loaded
  split at loaded
  · exact checked _ loaded
  · exact checked _ loaded
  · cases loaded

end Settings

namespace Command

namespace Work

variable {α β : Type}

theorem run_bind (x : Work α) (f : α → Work β) (s : Scene) :
    (x >>= f).run.run s = match x.run.run s with
      | (.ok a, s') => (f a).run.run s'
      | (.error e, s') => (.error e, s') := by
  change (match x.run.run s with
    | (r, s') => (ExceptT.bindCont f r).run s') = _
  rcases x.run.run s with ⟨_ | a, s'⟩ <;> rfl

theorem run_map (g : α → β) (x : Work α) (s : Scene) :
    (g <$> x).run.run s = match x.run.run s with
      | (.ok a, s') => (.ok (g a), s')
      | (.error e, s') => (.error e, s') := by
  rw [map_eq_pure_bind, run_bind]
  rfl

theorem run_tree (s : Scene) : tree.run.run s = (.ok s.tree, s) :=
  rfl

def Saving (x : Work α) : Prop :=
  ∀ s, (x.run.run s).2.tree.Extends s.tree

theorem saving_pure (a : α) : Saving (pure a : Work α) :=
  fun s => .refl s.tree

theorem Saving.bind {x : Work α} {f : α → Work β} (first : Saving x) (later : ∀ a, Saving (f a)) :
    Saving (x >>= f) := by
  intro s
  rw [run_bind]
  have kept := first s
  revert kept
  rcases x.run.run s with ⟨_ | a, s'⟩
  · exact id
  · exact (later a s').trans

theorem saving_of_tree {f : Tree → Work α} (each : ∀ s, ((f s.tree).run.run s).2.tree.Extends s.tree) :
    Saving (tree >>= f) :=
  each

theorem saving_expect {ε : Type} (mishap : ε → Mishap) (r : Except ε α) : Saving (expect mishap r) := by
  intro s
  cases r <;> exact .refl s.tree

theorem saving_fail (m : Mishap) : Saving (fail m : Work α) :=
  fun s => .refl s.tree

theorem saving_complain (text : String) : Saving (complain text) :=
  (saving_expect _ _).bind fun _ s => .refl s.tree

theorem saving_giveUp (text : String) : Saving (giveUp text : Work α) :=
  (saving_complain text).bind fun _ s => .refl s.tree

end Work

open Work

namespace Desk

theorem saving_settings? (w : Surroundings) (config : Option Path) : Saving (settings? w config) := by
  refine saving_of_tree fun s => ?_
  split
  · next st t file _ loaded => exact Settings.extends_load loaded
  · split
    · exact saving_giveUp _ s
    · exact saving_fail _ s
  · split
    · exact saving_expect _ _ s
    · exact saving_fail _ s

theorem saving_openFile (p : Path) : Saving (openFile p) := by
  intro s
  unfold openFile
  change (StateT.run (ExceptT.run (do
    let t ← expect .trouble (s.tree.ensureFolders p.parent)
    setTree t
    setTree (← expect .trouble (t.append p [])))) s).2.tree.Extends s.tree
  cases folders : s.tree.ensureFolders p.parent with
  | error e => exact .refl s.tree
  | ok t =>
    have first := Tree.extends_ensureFolders folders
    change (StateT.run (ExceptT.run (do setTree t; setTree (← expect .trouble (t.append p [])))) s).2.tree.Extends
      s.tree
    cases file : t.append p [] with
    | error e => exact first
    | ok t' => exact (Tree.extends_append file).trans first

theorem saving_opened (w : Surroundings) (stamp : Journal.Stamp) (c : Choices) : Saving (opened w stamp c) := by
  unfold opened
  refine (saving_settings? w c.config).bind fun st => ?_
  refine (saving_expect _ _).bind fun file => ?_
  have rest (level : String) : Saving (do
      let format ← expect .settings st.format
      let console ← expect .settings st.console
      let setup ← expect .journal (Journal.setup file.isSome level format.plain console.truthy)
      file.forM openFile
      return (⟨st, setup.least, setup.outlets, file, stamp⟩ : Desk)) := by
    refine (saving_expect _ _).bind fun format => ?_
    refine (saving_expect _ _).bind fun console => ?_
    refine (saving_expect _ _).bind fun setup => ?_
    refine Saving.bind ?_ fun _ => saving_pure _
    cases file with
    | none => exact saving_pure ()
    | some p => exact saving_openFile p
  dsimp only
  split
  · exact rest "DEBUG"
  · exact (saving_expect _ _).bind rest

end Desk

end Command

end Kitchen
