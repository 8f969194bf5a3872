import Kitchen.Number.Integer

namespace Kitchen.Json

inductive Reason where
  | noValue
  | extra
  | noName
  | noColon
  | noComma
  | unterminated
  | control
  | badEscape
  | badUnit
  | byteOrderMark
  | tooLong (digits : Nat)
  deriving DecidableEq, Repr

structure Stop where
  reason : Reason
  left : Nat
  deriving DecidableEq, Repr

structure Fault where
  reason : Reason
  place : Nat
  line : Nat
  column : Nat
  deriving DecidableEq, Repr

def lineAndColumn (before : List Char) : Nat × Nat :=
  (before.count '\n' + 1, (before.reverse.takeWhile (· ≠ '\n')).length + 1)

def Stop.at (s : Stop) (text : List Char) : Fault :=
  let place := text.length - s.left
  let (line, column) := lineAndColumn (text.take place)
  ⟨s.reason, place, line, column⟩

def Reason.message : Reason → String
  | noValue => "Expecting value"
  | extra => "Extra data"
  | noName => "Expecting property name enclosed in double quotes"
  | noColon => "Expecting ':' delimiter"
  | noComma => "Expecting ',' delimiter"
  | unterminated => "Unterminated string starting at"
  | control => "Invalid control character at"
  | badEscape => "Invalid \\escape"
  | badUnit => "Invalid \\uXXXX escape"
  | byteOrderMark => "Unexpected UTF-8 BOM (decode using utf-8-sig)"
  | tooLong n => Number.IntegerFault.message "" (.tooLong n)

def Fault.isGrammatical (f : Fault) : Bool :=
  match f.reason with
  | .tooLong _ => false
  | _ => true

def Fault.message (f : Fault) : String :=
  if f.isGrammatical then
    s!"{f.reason.message}: line {f.line} column {f.column} (char {f.place})"
  else f.reason.message

end Kitchen.Json
