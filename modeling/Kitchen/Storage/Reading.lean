import Kitchen.Storage.Tree
import Kitchen.Text.Hex
import Kitchen.Text.Utf8

namespace Kitchen.Storage

structure Undecodable where
  first : UInt8
  start : Nat
  size : Nat
  reason : String
  deriving DecidableEq, Repr

def Undecodable.message (u : Undecodable) : String :=
  let what :=
    if u.size = 1 then
      s!"byte 0x{String.ofList (Text.hexPadded u.first.toNat 2)} in position {u.start}"
    else s!"bytes in position {u.start}-{u.start + u.size - 1}"
  s!"'utf-8' codec can't decode {what}: {u.reason}"

inductive Manner where
  | whole
  | pieces
  deriving DecidableEq, Repr

def Undecodable.ofBytes (manner : Manner) (start : Nat) (b : UInt8) (rest : List UInt8) : Undecodable :=
  if (Text.Utf8.promise b.toNat).isNone then ⟨b, start, 1, "invalid start byte"⟩
  else
    let size := (Text.Utf8.first b rest).2 + 1
    if size ≤ rest.length then ⟨b, start, size, "invalid continuation byte"⟩
    else ⟨b, if manner = .pieces then 0 else start, size, "unexpected end of data"⟩

def unifyLines : List Char → List Char
  | '\r' :: '\n' :: rest => '\n' :: unifyLines rest
  | c :: rest => (if c = '\r' then '\n' else c) :: unifyLines rest
  | [] => []

def textOf (manner : Manner) (content : List UInt8) : Except Undecodable (List Char) :=
  match Text.Utf8.decode? content with
  | .ok cs => .ok (unifyLines cs)
  | .error start =>
    match content.drop start with
    | b :: rest => .error (.ofBytes manner start b rest)
    | [] => .ok []

inductive Unreadable where
  | trouble (t : Trouble)
  | undecodable (u : Undecodable)
  deriving DecidableEq, Repr

def Tree.readText (t : Tree) (manner : Manner) (p : Path) : Except Unreadable (List Char) :=
  match t.read p with
  | .error e => .error (.trouble e)
  | .ok content => (textOf manner content).mapError .undecodable

end Kitchen.Storage
