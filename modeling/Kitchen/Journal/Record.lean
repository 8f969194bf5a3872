import Kitchen.Json.Writer
import Kitchen.Value.Equal

namespace Kitchen.Journal

structure Record where
  level : Int
  source : String
  message : String
  details : List (String × Value)
  deriving Repr

def debug : Int := 10
def info : Int := 20
def warning : Int := 30
def error : Int := 40
def critical : Int := 50

def levelName (level : Int) : String :=
  if level = 0 then "NOTSET"
  else if level = debug then "DEBUG"
  else if level = info then "INFO"
  else if level = warning then "WARNING"
  else if level = error then "ERROR"
  else if level = critical then "CRITICAL"
  else s!"Level {level}"

def level? : String → Option Int
  | "NOTSET" => some 0
  | "DEBUG" => some debug
  | "INFO" => some info
  | "WARNING" | "WARN" => some warning
  | "ERROR" => some error
  | "CRITICAL" | "FATAL" => some critical
  | _ => none

def shownDetails : List String := ["recipe_id", "progress"]

def Record.fields (time : String) (r : Record) : List (String × Value) :=
  [("timestamp", .text time), ("level", .text (levelName r.level)), ("logger", .text r.source),
    ("message", .text r.message)]
    ++ shownDetails.filterMap fun name => (r.details.lookup name).map (name, ·)

def Record.jsonLine (time : String) (r : Record) : Except Json.Unwritable String :=
  Json.write Json.spaced (.map ((r.fields time).map fun (k, v) => (.text k, v)))

def Record.plainLine (time : String) (r : Record) : String :=
  s!"{time} - {r.source} - {levelName r.level} - {r.message}"

end Kitchen.Journal
