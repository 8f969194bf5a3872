import Kitchen.Text.Digit

namespace Kitchen.Number

inductive IntegerFault where
  | malformed
  | tooLong (digits : Nat)
  deriving DecidableEq, Repr

-- Longer numbers are not read. All are written, but in digests and complaints none that is longer is shown.
def digitLimit : Nat := 4300

def IntegerFault.message (text : String) : IntegerFault → String
  | .malformed => s!"invalid literal for int() with base 10: {text}"
  | .tooLong n =>
    s!"Exceeds the limit ({digitLimit} digits) for integer string conversion: value has {n} digits; "
      ++ "use sys.set_int_max_str_digits() to increase the limit"

def digitRun? : List Char → Option (List Nat)
  | [] => none
  | [c] => (Text.digit? c).map ([·])
  | c :: '_' :: rest => do return (← Text.digit? c) :: (← digitRun? rest)
  | c :: rest => do return (← Text.digit? c) :: (← digitRun? rest)

def ofDigits (ds : List Nat) : Nat :=
  ds.foldl (fun n d => 10 * n + d) 0

def splitSign : List Char → Bool × List Char
  | '-' :: rest => (true, rest)
  | '+' :: rest => (false, rest)
  | cs => (false, cs)

def signed (negative : Bool) (n : Nat) : Int :=
  if negative then -n else n

def readInteger (cs : List Char) : Except IntegerFault Int :=
  let (negative, body) := splitSign cs
  match digitRun? body with
  | none => .error .malformed
  | some ds =>
    if ds.length > digitLimit then .error (.tooLong ds.length)
    else .ok (signed negative (ofDigits ds))

end Kitchen.Number
