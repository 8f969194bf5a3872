import Kitchen.Command.Line
import Kitchen.Number.Integer
import Kitchen.Storage.Tree
import Kitchen.Text.Blank

namespace Kitchen.Command

open Storage (Path Tree)

structure Choices where
  config : Option Path
  verbose : Bool
  force : Bool
  input : Option String
  inputFile : Option Path
  recipes : Option Path
  limit : Option Int
  deriving DecidableEq, Repr

namespace Choices

def none : Choices := ⟨.none, false, false, .none, .none, .none, .none⟩

def asksFolder (word : String) : Bool :=
  match (Text.splitOn '/' word.toList).getLast? with
  | some last => last = [] || last = ['.'] || last = ['.', '.']
  | .none => false

def named? (t : Tree) (word : String) : Option Storage.Item :=
  if word.isEmpty then .none
  else (t.find? (Path.ofText word)).filter fun item => item == .folder || !asksFolder word

def fileOf (t : Tree) (needed : Bool) (word : String) : Except Unfit Path :=
  match named? t word with
  | some .folder => .error (.folder word)
  | some (.file _) => .ok (Path.ofText word)
  | .none => if needed then .error (.noFile word) else .ok (Path.ofText word)

def folderOf (t : Tree) (word : String) : Except Unfit Path :=
  match named? t word with
  | some (.file _) => .error (.file word)
  | _ => .ok (Path.ofText word)

def wholeOf (word : String) : Except Unfit Int :=
  match Number.readInteger (Text.strip word.toList) with
  | .ok n => .ok n
  | .error _ => .error (.notWhole word)

def choose (t : Tree) (c : Choices) (s : Switch) (word : String) : Except Unfit Choices :=
  match s with
  | .config => return { c with config := some (← fileOf t false word) }
  | .verbose => .ok { c with verbose := true }
  | .force => .ok { c with force := true }
  | .input => .ok { c with input := some word }
  | .inputFile => return { c with inputFile := some (← fileOf t true word) }
  | .recipes => return { c with recipes := some (← folderOf t word) }
  | .limit => return { c with limit := some (← wholeOf word) }
  | .version | .help => .ok c

def ofGiven (t : Tree) (given : List (Switch × String)) : Except Slip Choices :=
  given.foldlM (fun c (s, word) => (c.choose t s word).mapError (.unfit s)) none

end Choices

inductive Request where
  | tell (s : Switch)
  | go (c : Choices) (operand : String) (rest : List String)
  deriving DecidableEq, Repr

-- The operand of a command, if it needs one, and the words after it. A group has none, and a command takes no
-- words after its operand.
def operandOf (form : Form) (words : List String) : Except Slip (String × List String) :=
  if form.isGroup then .ok ("", words)
  else match form.operand?, words with
    | some name, [] => .error (.noOperand name)
    | some _, [word] => .ok (word, [])
    | some _, _ :: rest => .error (.extra rest)
    | none, [] => .ok ("", [])
    | none, rest => .error (.extra rest)

def Request.read (t : Tree) (form : Form) (words : List String) : Except Slip Request := do
  if form.isGroup && words.isEmpty then return .tell .help
  let line ← Line.read form words
  match line.eager? with
  | some s => return .tell s
  | none =>
    let choices ← Choices.ofGiven t line.settled
    let (operand, rest) ← operandOf form line.rest
    return .go choices operand rest

end Kitchen.Command
