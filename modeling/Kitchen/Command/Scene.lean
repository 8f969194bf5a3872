import Kitchen.Command.Slip
import Kitchen.Cookbook
import Kitchen.Failure
import Kitchen.Journal.Outlet
import Kitchen.Screen.Table
import Kitchen.Settings

namespace Kitchen.Command

open Storage (Path Tree)

inductive Mishap where
  | settings (f : Settings.Fault)
  | cookbook (f : Cookbook.Fault)
  | journal (f : Journal.SetupFault)
  | trouble (t : Storage.Trouble)
  | unreadable (u : Storage.Unreadable)
  | failure (f : Failure)
  | unwritable (u : Json.Unwritable)
  | json (f : Json.Fault)
  | markup (f : Screen.Markup.Fault)
  | notShowable (kind : String)
  | endless

def Mishap.message : Mishap → String
  | settings f => f.message
  | cookbook f => f.message
  | journal f => f.message
  | trouble t => t.message
  | unreadable (.trouble t) => t.message
  | unreadable (.undecodable u) => u.message
  | failure f => Text.Glyph.plain f.message
  | unwritable u => u.message
  | json f => f.message
  | markup f => f.message
  | notShowable kind =>
    s!"unable to render {kind}; a string or other renderable object is required"
  | endless => "no end in sight"

inductive Ending where
  | quit (code : Nat)
  | slip (form : Form) (s : Slip)
  | mishap (m : Mishap)

structure Scene where
  tree : Tree
  out : String
  err : String
  drawn : List Journal.Record
  baked : Option Nat

def Scene.on (t : Tree) : Scene := ⟨t, "", "", [], none⟩

abbrev Work (α : Type) := ExceptT Ending (StateM Scene) α

namespace Work

def quit {α : Type} (code : Nat) : Work α := throw (.quit code)

def fail {α : Type} (m : Mishap) : Work α := throw (.mishap m)

def expect {α ε : Type} (mishap : ε → Mishap) : Except ε α → Work α
  | .ok a => pure a
  | .error e => fail (mishap e)

def tree : Work Tree := do return (← get).tree

def setTree (t : Tree) : Work Unit := modify fun s => { s with tree := t }

def say (text : String) : Work Unit := modify fun s => { s with out := s.out ++ text }

def sayLine (text : String) : Work Unit := say (text ++ "\n")

def warn (text : String) : Work Unit := modify fun s => { s with err := s.err ++ text }

def complain (text : String) : Work Unit := do
  warn (← expect .markup (Screen.message "✗ " text))

def giveUp {α : Type} (text : String) : Work α := do
  complain text
  quit 1

end Work

end Kitchen.Command
