import Kitchen.Command.Choices
import Kitchen.Command.Scene
import Kitchen.Surroundings

namespace Kitchen.Command

open Storage (Path Tree)

structure Desk where
  settings : Settings
  least : Int
  outlets : List Journal.Outlet
  file : Option Path
  stamp : Journal.Stamp

namespace Desk

-- The settings of a file that was chosen, or else of the home of the program. Settings of the home that are
-- missing or faulty are replaced by the standard ones.
def settings? (w : Surroundings) (config : Option Path) : Work Settings := do
  match Settings.load w (← Work.tree) config, config with
  | .ok (s, t), _ =>
    Work.setTree t
    return s
  | .error f, some _ =>
    if f.isOwn then Work.giveUp s!"Invalid config: {f.message}" else Work.fail (.settings f)
  | .error f, none =>
    if f.isOwn then Work.expect .settings (Settings.standard w) else Work.fail (.settings f)

def openFile (p : Path) : Work Unit := do
  let t ← Work.expect .trouble ((← Work.tree).ensureFolders p.parent)
  Work.setTree t
  Work.setTree (← Work.expect .trouble (t.append p []))

def opened (w : Surroundings) (stamp : Journal.Stamp) (c : Choices) : Work Desk := do
  let s ← settings? w c.config
  let file ← Work.expect .settings (s.journalFile w)
  let level ← if c.verbose then pure "DEBUG" else Work.expect .settings s.level
  let format ← Work.expect .settings s.format
  let console ← Work.expect .settings s.console
  let setup ← Work.expect .journal
    (Journal.setup file.isSome level format.plain console.truthy)
  file.forM openFile
  return ⟨s, setup.least, setup.outlets, file, stamp⟩

def put (d : Desk) (r : Journal.Record) (o : Journal.Outlet) : Work Unit := do
  match o, o.line? d.stamp r, d.file with
  | .decorated, _, _ => modify fun s => { s with drawn := s.drawn ++ [r] }
  | .stream, some line, _ => Work.warn (line ++ "\n")
  | .file _, some line, some p =>
    let bytes := Text.Utf8.encode (line ++ "\n").toList
    Work.setTree (← Work.expect .trouble ((← Work.tree).append p bytes))
  | _, _, _ => pure ()

def record (d : Desk) (rs : List Journal.Record) : Work Unit :=
  (rs.filter (d.least ≤ ·.level)).forM fun r => d.outlets.forM (d.put r)

end Desk

end Kitchen.Command
