namespace Kitchen.Command

inductive Switch where
  | version
  | config
  | verbose
  | force
  | input
  | inputFile
  | recipes
  | limit
  | help
  deriving DecidableEq, Repr

namespace Switch

def long : Switch → String
  | version => "--version"
  | config => "--config"
  | verbose => "--verbose"
  | force => "--force"
  | input => "--input"
  | inputFile => "--input-file"
  | recipes => "--recipes-dir"
  | limit => "--max-steps"
  | help => "--help"

def short? : Switch → Option Char
  | verbose => some 'v'
  | _ => none

def value? : Switch → Option String
  | config | inputFile => some "FILE"
  | recipes => some "DIRECTORY"
  | input => some "TEXT"
  | limit => some "INTEGER"
  | _ => none

def isEager : Switch → Bool
  | version | help => true
  | _ => false

def note : Switch → String
  | version => "Show the version and exit."
  | config => "Path to config.yaml (default: $ROUX_HOME/config.yaml)"
  | verbose => "Log flow-control decisions (DEBUG)"
  | force => "Overwrite existing configuration"
  | input => "Input text (default: read stdin)"
  | inputFile => "Read input from file"
  | recipes => "Override recipes directory"
  | limit => "Abort after this many operations"
  | help => "Show this message and exit."

def shown (s : Switch) : String :=
  (match s.short? with
    | some c => "-" ++ String.singleton c ++ ", "
    | none => "")
    ++ s.long
    ++ (match s.value? with
      | some v => " " ++ v
      | none => "")

end Switch

inductive Form where
  | top
  | init
  | recipes
  | list
  | detail
  | run
  | bake
  deriving DecidableEq, Repr

namespace Form

def path : Form → String
  | top => "roux"
  | init => "roux init"
  | recipes => "roux recipes"
  | list => "roux recipes list"
  | detail => "roux recipes show"
  | run => "roux run"
  | bake => "roux bake"

def commands : Form → List (String × Form)
  | top => [("bake", bake), ("init", init), ("recipes", recipes), ("run", run)]
  | recipes => [("list", list), ("show", detail)]
  | _ => []

def isGroup (f : Form) : Bool := !f.commands.isEmpty

def operand? : Form → Option String
  | detail | run => some "RECIPE"
  | bake => some "RECIPE_JSON"
  | _ => none

def switches : Form → List Switch
  | top => [.version, .config, .verbose, .help]
  | init => [.force, .help]
  | recipes => [.help]
  | list | detail => [.recipes, .help]
  | run => [.input, .inputFile, .recipes, .limit, .help]
  | bake => [.input, .inputFile, .limit, .help]

def usage (f : Form) : String :=
  "Usage: " ++ f.path ++ " [OPTIONS]"
    ++ (if f.isGroup then " COMMAND [ARGS]..." else "")
    ++ (match f.operand? with
      | some o => " " ++ o
      | none => "")

def summary : Form → String
  | top => "roux - Recipe interpreter for data transformations."
  | init => "Initialize roux configuration."
  | recipes => "Manage and inspect stored recipes."
  | list => "List available recipes."
  | detail => "Show recipe definition details."
  | run => "Run a stored recipe by ID."
  | bake => "Run an inline recipe."

def remarks : Form → List String
  | top => ["Run recipes of operations, with jumps, registers and fork/merge."]
  | bake =>
    ["RECIPE_JSON is a list of operations, e.g. '[\x7b\"op\": \"Fork\", \"args\": [\",\",",
      "\";\", false]\x7d, \x7b\"op\": \"To Upper case\"\x7d]'"]
  | _ => []

def rows (entries : List (String × String)) : List String :=
  let size := (entries.map fun e => e.1.length).foldl max 0
  entries.map fun (a, b) =>
    "  " ++ a ++ String.ofList (List.replicate (size + 2 - a.length) ' ') ++ b

def help (f : Form) : String :=
  let remarks := if f.remarks.isEmpty then [] else "" :: f.remarks.map ("  " ++ ·)
  let commands :=
    if f.isGroup then ["", "Commands:"] ++ rows (f.commands.map fun (name, g) => (name, g.summary))
    else []
  let lines := [f.usage, "", "  " ++ f.summary] ++ remarks ++ ["", "Options:"]
    ++ rows (f.switches.map fun s => (s.shown, s.note)) ++ commands
  String.join (lines.map (· ++ "\n"))

end Form

end Kitchen.Command
