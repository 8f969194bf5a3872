import Kitchen.Definition
import Kitchen.Digest

namespace Kitchen.Definition

def canonicalText (d : Definition) : Except Json.Unwritable (List Char) :=
  if d.toValue.isShowable then Json.chars Json.canonical d.toValue else .error .tooLong

def fingerprint (d : Definition) : Except Json.Unwritable String :=
  d.canonicalText.map fun cs => Digest.hex (Text.Utf8.encode cs)

end Kitchen.Definition
