import Kitchen.Text.Glyph

namespace Kitchen.Pattern

open Text (Glyph)

-- Why a pattern cannot be read. A message that ends in a stretch of the pattern, right behind the place of
-- the fault, has its length.
inductive Reason where
  | danglingEscape
  | missingName (what : String)
  | unterminatedName (terminator : Char)
  | badGroupName (name : List Glyph)
  | incompleteEscape (escape : String)
  | missingBrace
  | undefinedCharacter (name : List Glyph)
  | octalRange (escape : String)
  | badEscape (escape : String)
  | codePointTooLarge
  | openGroup
  | invalidGroup (n : Nat)
  | groupInLookbehind
  | redefinedGroup (name : List Glyph) (now before : Nat)
  | unterminatedSet
  | badRange (length : Nat)
  | repeatOrder
  | nothingToRepeat
  | multipleRepeat
  | repeatTooLarge
  | unexpectedEnd
  | unknownExtension (length : Nat)
  | unknownGroup (name : List Glyph)
  | unterminatedComment
  | unterminatedGroup
  | badGroupNumber
  | tooManyBranches
  | lateFlags
  | localeFlag
  | clashingFlags
  | unknownFlag
  | missingFlagsEnd
  | globalFlagOn
  | missingFlag
  | typeFlagOff
  | missingColon
  | globalFlagOff
  | flagOnAndOff
  | unbalanced
  | variableWidth
  deriving DecidableEq, Repr

def shown (name : List Glyph) : String :=
  String.ofList (Glyph.quoted name)

namespace Reason

def message : Reason → String
  | danglingEscape => "bad escape (end of pattern)"
  | missingName what => s!"missing {what}"
  | unterminatedName t => s!"missing {t}, unterminated name"
  | badGroupName name => s!"bad character in group name {shown name}"
  | incompleteEscape e => s!"incomplete escape {e}"
  | missingBrace => "missing \x7b"
  | undefinedCharacter name => s!"undefined character name {shown name}"
  | octalRange e => s!"octal escape value {e} outside of range 0-0o377"
  | badEscape e => s!"bad escape {e}"
  | codePointTooLarge => "Python int too large to convert to C int"
  | openGroup => "cannot refer to an open group"
  | invalidGroup n => s!"invalid group reference {n}"
  | groupInLookbehind => "cannot refer to group defined in the same lookbehind subpattern"
  | redefinedGroup name now before =>
    s!"redefinition of group name {shown name} as group {now}; was group {before}"
  | unterminatedSet => "unterminated character set"
  | badRange _ => "bad character range "
  | repeatOrder => "min repeat greater than max repeat"
  | nothingToRepeat => "nothing to repeat"
  | multipleRepeat => "multiple repeat"
  | repeatTooLarge => "the repetition number is too large"
  | unexpectedEnd => "unexpected end of pattern"
  | unknownExtension _ => "unknown extension "
  | unknownGroup name => s!"unknown group name {shown name}"
  | unterminatedComment => "missing ), unterminated comment"
  | unterminatedGroup => "missing ), unterminated subpattern"
  | badGroupNumber => "bad group number"
  | tooManyBranches => "conditional backref with more than two branches"
  | lateFlags => "global flags not at the start of the expression"
  | localeFlag => "bad inline flags: cannot use 'L' flag with a str pattern"
  | clashingFlags => "bad inline flags: flags 'a', 'u' and 'L' are incompatible"
  | unknownFlag => "unknown flag"
  | missingFlagsEnd => "missing -, : or )"
  | globalFlagOn => "bad inline flags: cannot turn on global flag"
  | missingFlag => "missing flag"
  | typeFlagOff => "bad inline flags: cannot turn off flags 'a', 'u' and 'L'"
  | missingColon => "missing :"
  | globalFlagOff => "bad inline flags: cannot turn off global flag"
  | flagOnAndOff => "bad inline flags: flag turned on and off"
  | unbalanced => "unbalanced parenthesis"
  | variableWidth => "look-behind requires fixed-width pattern"

def quotes : Reason → Nat
  | badRange length | unknownExtension length => length
  | _ => 0

def hasPlace : Reason → Bool
  | variableWidth | repeatTooLarge | codePointTooLarge => false
  | _ => true

end Reason

structure Stop where
  reason : Reason
  place : Nat
  deriving DecidableEq, Repr

structure Fault where
  reason : Reason
  quote : List Glyph
  place : Nat
  line : Nat
  column : Nat
  severalLines : Bool
  deriving DecidableEq, Repr

def Stop.at (s : Stop) (text : List Glyph) : Fault :=
  let before := text.take s.place
  ⟨s.reason, (text.drop s.place).take s.reason.quotes, s.place, before.count (.char '\n') + 1,
    (before.reverse.takeWhile (· ≠ .char '\n')).length + 1, text.contains (.char '\n')⟩

def Fault.position (f : Fault) : String :=
  if !f.reason.hasPlace then ""
  else if f.severalLines then s!" at position {f.place} (line {f.line}, column {f.column})"
  else s!" at position {f.place}"

def Fault.message (f : Fault) : List Glyph :=
  Glyph.ofText f.reason.message ++ f.quote ++ Glyph.ofText f.position

def Fault.isMalformed (f : Fault) : Bool :=
  f.reason != .repeatTooLarge && f.reason != .codePointTooLarge

end Kitchen.Pattern
