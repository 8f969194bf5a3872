import Kitchen.Number.Integer
import Kitchen.Value.Literal

namespace Kitchen.Yaml

inductive Blunder where
  | unprintable
  | noToken (c : Char)
  | keyWithoutValue
  | itemHere
  | keyHere
  | valueHere
  | unclosedQuote
  | markInQuote
  | escape
  | blockHeader
  | incompleteName
  | incompleteTag
  | incompleteDirective
  | noContent
  | unclosedBlock
  | noComma
  | noDocumentStart
  | severalDocuments
  | unknownAlias (name : String)
  | repeatedAnchor (name : String)
  | unknownTag (tag : String)
  | kindOfNode
  | notMergeable
  | unhashableKey
  | binary
  deriving DecidableEq, Repr

def Blunder.message : Blunder → String
  | unprintable => "special characters are not allowed"
  | noToken c => s!"no token starts with {(Value.text (String.singleton c)).literal}"
  | keyWithoutValue => "a key has no ':'"
  | itemHere => "no item of a list may start here"
  | keyHere => "no key may start here"
  | valueHere => "no value may start here"
  | unclosedQuote => "a quote is not closed"
  | markInQuote => "a mark between documents stands in a quote"
  | escape => "an escape has no meaning"
  | blockHeader => "a block of text starts with unknown signs"
  | incompleteName => "a name is not complete"
  | incompleteTag => "a tag is not complete"
  | incompleteDirective => "a directive is not complete"
  | noContent => "a value is missing"
  | unclosedBlock => "a block does not end where it should"
  | noComma => "a comma or a closing bracket is missing"
  | noDocumentStart => "a document does not start with '---'"
  | severalDocuments => "there is more than one document"
  | unknownAlias name => s!"nothing is named '{name}'"
  | repeatedAnchor name => s!"two values are named '{name}'"
  | unknownTag tag => s!"no value has the tag '{tag}'"
  | kindOfNode => "a tag does not fit its value"
  | notMergeable => "only maps can be merged"
  | unhashableKey => "a list or a map cannot be a key"
  | binary => "bytes are not written in base 64"

inductive DateFault where
  | year (n : Nat)
  | month
  | day
  | hour
  | minute
  | second
  | offset (minutes : Int)
  deriving DecidableEq, Repr

def offsetLiteral (minutes : Int) : String :=
  let days := minutes / 1440
  let seconds := minutes % 1440 * 60
  let parts := (if days = 0 then [] else [s!"days={days}"])
    ++ (if seconds = 0 then [] else [s!"seconds={seconds}"])
  "datetime.timedelta(" ++ ", ".intercalate parts ++ ")"

def DateFault.message : DateFault → String
  | year n => s!"year {n} is out of range"
  | month => "month must be in 1..12"
  | day => "day is out of range for month"
  | hour => "hour must be in 0..23"
  | minute => "minute must be in 0..59"
  | second => "second must be in 0..59"
  | offset m =>
    "offset must be a timedelta strictly between -timedelta(hours=24) and timedelta(hours=24), not "
      ++ offsetLiteral m

inductive Fault where
  | malformed (b : Blunder)
  | charRange
  | notInteger (base : Nat) (text : String)
  | longInteger (digits : Nat)
  | notFloat (text : String)
  | notBool (word : String)
  | emptyNumber
  | date (d : DateFault)
  | notMoment
  deriving DecidableEq, Repr

def Fault.message : Fault → String
  | malformed b => b.message
  | charRange => "chr() arg not in range(0x110000)"
  | notInteger base text => s!"invalid literal for int() with base {base}: {(Value.text text).literal}"
  | longInteger digits => (Number.IntegerFault.tooLong digits).message ""
  | notFloat text => s!"could not convert string to float: {(Value.text text).literal}"
  | notBool word => (Value.text word).literal
  | emptyNumber => "string index out of range"
  | date d => d.message
  | notMoment => "'NoneType' object has no attribute 'groupdict'"

def blunder {α : Type} (b : Blunder) : Except Fault α := .error (.malformed b)

end Kitchen.Yaml
