import Kitchen.Command.Form
import Kitchen.Json.Fault
import Kitchen.Value.Literal

namespace Kitchen.Command

inductive Unfit where
  | noFile (name : String)
  | folder (name : String)
  | file (name : String)
  | notWhole (word : String)
  deriving DecidableEq, Repr

inductive Slip where
  | unknownSwitch (word : String) (alike : List String)
  | noValue (word : String)
  | needlessValue (word : String)
  | unfit (s : Switch) (u : Unfit)
  | noOperand (name : String)
  | extra (words : List String)
  | noCommand
  | unknownCommand (word : String)
  | twoInputs
  | notJson (f : Json.Fault)
  deriving DecidableEq, Repr

def quoted (s : String) : String := (Value.text s).literal

def Unfit.message : Unfit → String
  | noFile name => s!"File {quoted name} does not exist."
  | folder name => s!"File {quoted name} is a directory."
  | file name => s!"Directory {quoted name} is a file."
  | notWhole word => s!"{quoted word} is not a valid integer."

namespace Slip

def hint : List String → String
  | [] => ""
  | [word] => " Did you mean " ++ word ++ "?"
  | words => " (Possible options: " ++ ", ".intercalate (words.mergeSort (· ≤ ·)) ++ ")"

def message : Slip → String
  | unknownSwitch word alike => s!"No such option: {word}{hint alike}"
  | noValue word => s!"Option {quoted word} requires an argument."
  | needlessValue word => s!"Option {quoted word} does not take a value."
  | unfit s u => s!"Invalid value for '{s.long}': {u.message}"
  | noOperand name => s!"Missing argument '{name}'."
  | extra [word] => s!"Got unexpected extra argument ({word})"
  | extra words => "Got unexpected extra arguments (" ++ " ".intercalate words ++ ")"
  | noCommand => "Missing command."
  | unknownCommand word => s!"No such command {quoted word}."
  | twoInputs => "--input and --input-file are mutually exclusive"
  | notJson f => s!"RECIPE_JSON is not valid JSON: {f.message}"

def showsUsage : Slip → Bool
  | noValue _ | needlessValue _ => false
  | _ => true

def report (form : Form) (s : Slip) : String :=
  (if s.showsUsage then s!"{form.usage}\nTry '{form.path} --help' for help.\n\n" else "")
    ++ s!"Error: {s.message}\n"

end Slip

end Kitchen.Command
