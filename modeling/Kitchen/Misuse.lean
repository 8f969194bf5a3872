import Kitchen.Json.Writer

namespace Kitchen

inductive Misuse where
  | notWhole (kind : String)
  | byteRange
  | negativeCount
  | countTooLarge
  | unencoded
  | notBytes (kind : String)
  | unwritable (u : Json.Unwritable)
  | notIterable (kind : String)
  | notSliceable (kind : String)
  | unhashable (kind : String)
  | lacks (kind member : String)
  | needsBytes (kind : String)
  | separator (kind : String)
  | tooFew (expected got : Nat)
  | notPattern
  | notDecodable (kind : String)
  | notSearchable (kind : String)
  | bytesSearched
  | piece (place : Nat) (kind : String)
  | formatCode (kind : String)
  | formatText (kind : String)
  | unordered (kind : String)
  | unorderedBelow (kind : String)
  | nanToWhole
  | infinityToWhole
  | outOfRange
  | notControl (name : String)
  | noTransform (name : String)
  | noHandler (name : String)
  | nullInPath
  | unencodable (place : Nat) (halves : List Text.Half)
  deriving DecidableEq, Repr

namespace Misuse

inductive Category where
  | kind
  | value
  | member
  | place
  | size
  | encoding
  deriving DecidableEq, Repr

def category : Misuse → Category
  | byteRange | negativeCount | tooFew .. | formatCode _ | notControl _ | nanToWhole | nullInPath
  | unwritable .tooLong => .value
  | lacks .. => .member
  | outOfRange => .place
  | countTooLarge | infinityToWhole => .size
  | unencodable .. => .encoding
  | _ => .kind

def message : Misuse → String
  | notWhole k => s!"'{k}' object cannot be interpreted as an integer"
  | byteRange => "bytes must be in range(0, 256)"
  | negativeCount => "negative count"
  | countTooLarge => "cannot fit 'int' into an index-sized integer"
  | unencoded => "string argument without an encoding"
  | notBytes k => s!"cannot convert '{k}' object to bytes"
  | unwritable u => u.message
  | notIterable k => s!"'{k}' object is not iterable"
  | notSliceable k => s!"'{k}' object is not subscriptable"
  | unhashable k => s!"unhashable type: '{k}'"
  | lacks k a => s!"'{k}' object has no attribute '{a}'"
  | needsBytes k => s!"a bytes-like object is required, not '{k}'"
  | separator k => s!"must be str or None, not {k}"
  | tooFew expected got => s!"not enough values to unpack (expected {expected}, got {got})"
  | notPattern => "first argument must be string or compiled pattern"
  | notDecodable k => s!"decoding to str: need a bytes-like object, {k} found"
  | notSearchable k => s!"expected string or bytes-like object, got '{k}'"
  | bytesSearched => "cannot use a string pattern on a bytes-like object"
  | piece place k => s!"sequence item {place}: expected str instance, {k} found"
  | formatCode k => s!"Unknown format code 'x' for object of type '{k}'"
  | formatText k => s!"unsupported format string passed to {k}.__format__"
  | unordered k => s!"'>=' not supported between instances of 'int' and '{k}'"
  | unorderedBelow k => s!"'<' not supported between instances of '{k}' and 'int'"
  | nanToWhole => "cannot convert float NaN to integer"
  | infinityToWhole => "cannot convert float infinity to integer"
  | outOfRange => "list index out of range"
  | notControl name => s!"Not a flow-control operation: {name}"
  | noTransform name => s!"'{name}' is a flow-control operation and has no transform"
  | noHandler name => s!"Operation '{name}' has no handler"
  | nullInPath => "embedded null byte"
  | unencodable place [h] =>
    let escape := String.ofList ('\\' :: 'u' :: Text.hexPadded h.code 4)
    s!"'utf-8' codec can't encode character '{escape}' in position {place}: surrogates not allowed"
  | unencodable place halves =>
    s!"'utf-8' codec can't encode characters in position {place}-{place + halves.length - 1}: "
      ++ "surrogates not allowed"

end Misuse

end Kitchen
