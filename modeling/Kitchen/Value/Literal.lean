import Kitchen.Number.Integer
import Kitchen.Text.Quoted
import Kitchen.Value.Basic

namespace Kitchen.Value

mutual

def literal : Value → String
  | null => "None"
  | bool b => if b then "True" else "False"
  | int n => toString n
  | float x => Number.floatText x
  | text s => String.ofList (Text.quoted s.toList)
  | bytes bs => String.ofList (Text.quotedBytes bs)
  | list xs => "[" ++ ", ".intercalate (literals xs) ++ "]"
  | map es => "\x7b" ++ ", ".intercalate (entryLiterals es) ++ "\x7d"
  | tuple [x] => "(" ++ literal x ++ ",)"
  | tuple xs => "(" ++ ", ".intercalate (literals xs) ++ ")"
  | set [] => "set()"
  | set xs => "\x7b" ++ ", ".intercalate (literals xs) ++ "\x7d"
  | date d => d.literal
  | moment m => m.literal
  | torn t => String.ofList (Text.Glyph.quoted t.glyphs)

def literals : List Value → List String
  | [] => []
  | x :: xs => literal x :: literals xs

def entryLiterals : List (Value × Value) → List String
  | [] => []
  | (k, v) :: es => s!"{literal k}: {literal v}" :: entryLiterals es

end

mutual

def isShowable : Value → Bool
  | int n => (Number.digitsOf n.natAbs).length ≤ Number.digitLimit
  | list xs | tuple xs | set xs => areShowable xs
  | map es => entriesShowable es
  | _ => true

def areShowable : List Value → Bool
  | [] => true
  | x :: xs => isShowable x && areShowable xs

def entriesShowable : List (Value × Value) → Bool
  | [] => true
  | (k, v) :: es => isShowable k && isShowable v && entriesShowable es

end

def plain : Value → String
  | text s => s
  | torn t => Text.Glyph.plain t.glyphs
  | date d => d.iso
  | moment m => m.iso " "
  | v => v.literal

def glyphs : Value → List Text.Glyph
  | torn t => t.glyphs
  | v => Text.Glyph.ofText v.plain

def shown (v : Value) : Value :=
  ofGlyphs v.glyphs

end Kitchen.Value
