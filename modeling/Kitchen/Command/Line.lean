import Kitchen.Command.Slip
import Kitchen.Text.Likeness

namespace Kitchen.Command

structure Line where
  given : List (Switch × String)
  rest : List String
  deriving DecidableEq, Repr

namespace Line

def cut (word : List Char) : List Char × Option (List Char) :=
  let name := word.takeWhile (· ≠ '=')
  match word.drop name.length with
  | [] => (name, none)
  | _ :: value => (name, some value)

def long? (form : Form) (name : String) : Option Switch :=
  form.switches.find? (·.long == name)

def shorts (form : Form) : List Char → Except Slip (List (Switch × String))
  | [] => .ok []
  | c :: cs =>
    match form.switches.find? (·.short? == some c) with
    | none => .error (.unknownSwitch (String.ofList ['-', c]) [])
    | some s => ((s, "") :: ·) <$> shorts form cs

inductive Word where
  | plain
  | dashes
  | long (s : Switch) (value : Option String)
  | short (cs : List Char)
  | unknown (name : String)
  deriving DecidableEq, Repr

def Word.ofText (form : Form) (w : String) : Word :=
  match w.toList with
  | ['-', '-'] => .dashes
  | '-' :: c :: cs =>
    let (name, value) := cut ('-' :: c :: cs)
    match long? form (String.ofList name) with
    | some s => .long s (value.map String.ofList)
    | none => if c = '-' then .unknown (String.ofList name) else .short (c :: cs)
  | _ => .plain

def add (s : Switch) (value : String) (l : Line) : Line :=
  { l with given := (s, value) :: l.given }

def addAll (given : List (Switch × String)) (l : Line) : Line :=
  { l with given := given ++ l.given }

def readWith (form : Form) (held : List String) : List String → Except Slip Line
  | [] => .ok ⟨[], held.reverse⟩
  | w :: ws =>
    match Word.ofText form w with
    | .plain =>
      if form.isGroup then .ok ⟨[], held.reverse ++ w :: ws⟩ else readWith form (w :: held) ws
    | .dashes => .ok ⟨[], held.reverse ++ ws⟩
    | .unknown name =>
      .error (.unknownSwitch name (Text.Likeness.candidates name (form.switches.map Switch.long)))
    | .short cs => do
      let given ← shorts form cs
      return (← readWith form held ws).addAll given
    | .long s value =>
      match s.value?, value with
      | none, none => (add s "") <$> readWith form held ws
      | none, some _ => .error (.needlessValue s.long)
      | some _, some v => (add s v) <$> readWith form held ws
      | some _, none =>
        match ws with
        | [] => .error (.noValue s.long)
        | v :: ws => (add s v) <$> readWith form held ws

def read (form : Form) (words : List String) : Except Slip Line :=
  readWith form [] words

def settled (l : Line) : List (Switch × String) :=
  (l.given.map Prod.fst).eraseDups.map fun s => (s, (l.given.reverse.lookup s).getD "")

def eager? (l : Line) : Option Switch :=
  (l.given.map Prod.fst).find? Switch.isEager

end Line

end Kitchen.Command
