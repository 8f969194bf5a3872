import Kitchen.Journal.Record
import Kitchen.Text.Case

namespace Kitchen.Journal

inductive Outlet where
  | file (structured : Bool)
  | decorated
  | stream
  deriving DecidableEq, Repr

structure Stamp where
  zoned : String
  plain : String
  deriving DecidableEq, Repr

-- The line of a record in an outlet. Decorated lines are drawn by the console itself, and a record that JSON
-- cannot hold has no line.
def Outlet.line? (s : Stamp) (r : Record) : Outlet → Option String
  | file true | stream => (r.jsonLine s.zoned).toOption
  | file false => some (r.plainLine s.plain)
  | decorated => none

structure Setup where
  least : Int
  outlets : List Outlet
  deriving DecidableEq, Repr

inductive SetupFault where
  | unknownLevel (name : String)
  deriving DecidableEq, Repr

def SetupFault.message : SetupFault → String
  | unknownLevel name => s!"module 'logging' has no attribute '{name}'"

def setup (toFile : Bool) (level format : String) (console : Bool) : Except SetupFault Setup :=
  let name := String.ofList (Text.upper level.toList)
  match level? name with
  | none => .error (.unknownLevel name)
  | some least =>
    let file := if toFile then [.file (format == "structured")] else []
    let screen :=
      if !console then [] else if format == "pretty" then [.decorated] else [.stream]
    .ok ⟨least, file ++ screen⟩

end Kitchen.Journal
