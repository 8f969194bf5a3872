namespace Kitchen.Yaml

inductive Tag where
  | null
  | bool
  | int
  | float
  | binary
  | timestamp
  | omap
  | pairs
  | set
  | str
  | seq
  | map
  | merge
  | value
  | other (name : String)
  deriving DecidableEq, Repr, Inhabited

namespace Tag

def space : String := "tag:yaml.org,2002:"

def known : List (String × Tag) :=
  [("null", null), ("bool", bool), ("int", int), ("float", float), ("binary", binary),
    ("timestamp", timestamp), ("omap", omap), ("pairs", pairs), ("set", set), ("str", str),
    ("seq", seq), ("map", map), ("merge", merge), ("value", value)]

def ofText (s : String) : Tag :=
  ((known.find? fun k => space ++ k.1 == s).map (·.2)).getD (other s)

def isDigit (c : Char) : Bool := '0' ≤ c && c ≤ '9'

def isBlank (c : Char) : Bool := c = ' ' || c = '\t'

def isFiller (c : Char) : Bool := isDigit c || c = '_'

def boolWords : List String :=
  ["yes", "Yes", "YES", "no", "No", "NO", "true", "True", "TRUE", "false", "False", "FALSE",
    "on", "On", "ON", "off", "Off", "OFF"]

def nullWords : List String := ["", "~", "null", "Null", "NULL"]

def unsigned : List Char → List Char
  | '+' :: rest | '-' :: rest => rest
  | cs => cs

def splitColon : List Char → List (List Char)
  | [] => [[]]
  | ':' :: rest => [] :: splitColon rest
  | c :: rest =>
    match splitColon rest with
    | [] => [[c]]
    | piece :: pieces => (c :: piece) :: pieces

def isSixtieth : List Char → Bool
  | [d] => isDigit d
  | [t, d] => '0' ≤ t && t ≤ '5' && isDigit d
  | _ => false

def isParted : List Char → Bool
  | c :: rest => isDigit c && rest.all isFiller
  | [] => false

def isWhole (cs : List Char) : Bool :=
  match unsigned cs with
  | [] => false
  | ['0'] => true
  | '0' :: 'b' :: rest => !rest.isEmpty && rest.all fun c => c = '0' || c = '1' || c = '_'
  | '0' :: 'x' :: rest =>
    !rest.isEmpty
      && rest.all fun c => isFiller c || ('a' ≤ c && c ≤ 'f') || ('A' ≤ c && c ≤ 'F')
  | '0' :: rest => rest.all fun c => ('0' ≤ c && c ≤ '7') || c = '_'
  | ds =>
    match splitColon ds with
    | first :: more => isParted first && more.all isSixtieth
    | [] => false

def isExponent : List Char → Bool
  | [] => true
  | e :: sign :: ds =>
    (e = 'e' || e = 'E') && (sign = '+' || sign = '-') && !ds.isEmpty && ds.all isDigit
  | _ => false

def isFraction (cs : List Char) : Bool := isExponent (cs.dropWhile isFiller)

-- A number with a point: decimal, in base sixty, infinite or none at all. Without digits before the point it
-- has no sign.
def isReal (cs : List Char) : Bool :=
  let body := unsigned cs
  let words := [".inf", ".Inf", ".INF"]
  words.contains (String.ofList body) || [".nan", ".NaN", ".NAN"].contains (String.ofList cs)
    || (match cs with
      | '.' :: d :: rest => isDigit d && isFraction rest
      | _ => false)
    || (match body.dropWhile (· ≠ '.') with
      | '.' :: rest =>
        match splitColon (body.takeWhile (· ≠ '.')) with
        | [whole] => isParted whole && isFraction rest
        | whole :: more => isParted whole && more.all isSixtieth && rest.all isFiller
        | [] => false
      | _ => false)

structure Stamp where
  year : List Char
  month : List Char
  day : List Char
  time : Option (List Char × List Char × List Char × List Char)
  zone : Option (Option (Char × List Char × List Char))

def takeDigits? (least most : Nat) (cs : List Char) : Option (List Char × List Char) :=
  let ds := (cs.takeWhile isDigit).take most
  if ds.length < least then none else some (ds, cs.drop ds.length)

def expect? (c : Char) : List Char → Option (List Char)
  | d :: rest => if c = d then some rest else none
  | [] => none

def zone? (cs : List Char) : Option (Option (Option (Char × List Char × List Char))) :=
  match cs.dropWhile isBlank with
  | [] => if cs.isEmpty then some none else none
  | ['Z'] => some (some none)
  | sign :: rest => do
    if sign ≠ '+' ∧ sign ≠ '-' then none
    let (hours, rest) ← takeDigits? 1 2 rest
    match rest with
    | [] => some (some (some (sign, hours, [])))
    | ':' :: rest =>
      let (minutes, rest) ← takeDigits? 2 2 rest
      if rest.isEmpty then some (some (some (sign, hours, minutes))) else none
    | _ => none

def afterDate? : List Char → Option (List Char)
  | c :: rest =>
    if c = 'T' || c = 't' then some rest
    else if isBlank c then some (rest.dropWhile isBlank)
    else none
  | [] => none

def stamp? (cs : List Char) : Option Stamp := do
  let (year, rest) ← takeDigits? 4 4 cs
  let (month, rest) ← takeDigits? 1 2 (← expect? '-' rest)
  let (day, rest) ← takeDigits? 1 2 (← expect? '-' rest)
  if rest.isEmpty then return ⟨year, month, day, none, none⟩
  let (hour, rest) ← takeDigits? 1 2 (← afterDate? rest)
  let (minute, rest) ← takeDigits? 2 2 (← expect? ':' rest)
  let (second, rest) ← takeDigits? 2 2 (← expect? ':' rest)
  let (fraction, rest) := match rest with
    | '.' :: more => (more.takeWhile isDigit, more.dropWhile isDigit)
    | _ => ([], rest)
  let zone ← zone? rest
  return ⟨year, month, day, some (hour, minute, second, fraction), zone⟩

def isStamp (cs : List Char) : Bool :=
  (stamp? cs).any fun s => s.time.isSome || (s.month.length = 2 && s.day.length = 2)

def ofPlain (s : String) : Tag :=
  let cs := s.toList
  if boolWords.contains s then bool
  else if isReal cs then float
  else if isWhole cs then int
  else if s == "<<" then merge
  else if nullWords.contains s then null
  else if isStamp cs then timestamp
  else if s == "=" then value
  else str

end Tag

end Kitchen.Yaml
