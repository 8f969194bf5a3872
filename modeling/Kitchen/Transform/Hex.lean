import Kitchen.Text.Hex
import Kitchen.Transform.Basic

namespace Kitchen.Transform

def hexText (n : Int) : List Char :=
  let ds := Nat.toDigits 16 n.natAbs
  if n < 0 then '-' :: ds else if ds.length < 2 then '0' :: ds else ds

def hexItem (v : Value) : Except Failure (List Char) :=
  match v.whole?, v with
  | some n, _ => .ok (hexText n)
  | none, .float _ | none, .text _ | none, .torn _ => misuse (.formatCode v.kind)
  | none, _ => misuse (.formatText v.kind)

def items : Value → Except Failure (List Value)
  | .bytes bs => .ok (bs.map fun b => .int b.toNat)
  | .text s => .ok (s.toList.map fun c => .text (String.singleton c))
  | .torn t => .ok (t.glyphs.map fun g => .ofGlyphs [g])
  | .list xs | .tuple xs | .set xs => .ok xs
  | .map es => .ok (es.map (·.1))
  | v => misuse (.notIterable v.kind)

def encodeBytes (delimiter : List Char) (bs : List UInt8) : List Char :=
  delimiter.intercalate (bs.map fun b => Text.hexPadded b.toNat 2)

def toHex : Transform where
  title := "ToHex"
  name := "To Hex"
  input := "byteArray"
  output := "string"
  defaults := [.text " "]
  run v args :=
    match args.head?.getD (.text " "), v with
    | .text d, .bytes bs => .ok (.text (String.ofList (encodeBytes d.toList bs)))
    | .text d, v => do
      let parts ← (← items v).mapM hexItem
      return .text (String.ofList (d.toList.intercalate parts))
    | .torn d, v => do
      let parts ← (← items v).mapM hexItem
      return .ofGlyphs (d.glyphs.intercalate (parts.map Text.Glyph.ofChars))
    | d, _ => misuse (.lacks d.kind "join")

def isHexDigit (c : Char) : Bool := (Text.hexValue? c).isSome

def pairBytes : List Char → List UInt8
  | a :: b :: rest =>
    .ofNat (16 * (Text.hexValue? a).getD 0 + (Text.hexValue? b).getD 0) :: pairBytes rest
  | _ => []

def decodeHex (s : List Char) : Except Failure (List UInt8) :=
  let ds := s.filter isHexDigit
  if ds.length % 2 = 0 then .ok (pairBytes ds)
  else .error (.refused (Text.Glyph.ofText s!"From Hex: odd number of hex digits ({ds.length})"))

def fromHex : Transform where
  title := "FromHex"
  name := "From Hex"
  input := "string"
  output := "byteArray"
  defaults := []
  run v _ :=
    match v with
    | .text s => .bytes <$> decodeHex s.toList
    | .torn t => .bytes <$> decodeHex (t.glyphs.filterMap Text.Glyph.char?)
    | .bytes _ => misuse .bytesSearched
    | v => misuse (.notSearchable v.kind)

end Kitchen.Transform
