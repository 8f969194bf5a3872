import Kitchen.Text.Hex
import Kitchen.Text.Printable

namespace Kitchen.Text

def quoteFor (hasSingle hasDouble : Bool) : Char :=
  if hasSingle && !hasDouble then '"' else '\''

def escaped (quote c : Char) : List Char :=
  if c = quote ∨ c = '\\' then ['\\', c]
  else if c = '\n' then ['\\', 'n']
  else if c = '\r' then ['\\', 'r']
  else if c = '\t' then ['\\', 't']
  else if isPrintable c then [c]
  else if c.toNat < 0x100 then '\\' :: 'x' :: hexPadded c.toNat 2
  else if c.toNat < 0x10000 then '\\' :: 'u' :: hexPadded c.toNat 4
  else '\\' :: 'U' :: hexPadded c.toNat 8

def quoted (s : List Char) : List Char :=
  let q := quoteFor (s.contains '\'') (s.contains '"')
  q :: s.flatMap (escaped q) ++ [q]

def escapedByte (quote : Char) (b : UInt8) : List Char :=
  let c := Char.ofNat b.toNat
  if c.toNat < 0x7F then escaped quote c else '\\' :: 'x' :: hexPadded b.toNat 2

def quotedBytes (bs : List UInt8) : List Char :=
  let q := quoteFor (bs.contains 39) (bs.contains 34)
  'b' :: q :: bs.flatMap (escapedByte q) ++ [q]

end Kitchen.Text
