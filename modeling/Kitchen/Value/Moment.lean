import Kitchen.Number.Shortest

namespace Kitchen

structure Date where
  year : Nat
  month : Nat
  day : Nat
  deriving DecidableEq, Repr, Inhabited

structure Moment where
  date : Date
  hour : Nat
  minute : Nat
  second : Nat
  micro : Nat
  offset : Option Int
  deriving DecidableEq, Repr, Inhabited

namespace Date

def isLeap (year : Nat) : Bool :=
  year % 4 == 0 && (year % 100 != 0 || year % 400 == 0)

def daysIn (year month : Nat) : Nat :=
  if month = 2 then if isLeap year then 29 else 28
  else if month ∈ [4, 6, 9, 11] then 30
  else 31

def padded (width n : Nat) : String :=
  let ds := Number.digitsOf n
  String.ofList (List.replicate (width - ds.length) '0' ++ ds)

def iso (d : Date) : String :=
  s!"{padded 4 d.year}-{padded 2 d.month}-{padded 2 d.day}"

def literal (d : Date) : String :=
  s!"datetime.date({d.year}, {d.month}, {d.day})"

end Date

namespace Moment

open Date (padded)

def offsetText (seconds : Int) : String :=
  let n := seconds.natAbs
  let sign := if seconds < 0 then "-" else "+"
  let short := s!"{sign}{padded 2 (n / 3600)}:{padded 2 (n / 60 % 60)}"
  if n % 60 = 0 then short else s!"{short}:{padded 2 (n % 60)}"

def iso (separator : String) (m : Moment) : String :=
  let fraction := if m.micro = 0 then "" else s!".{padded 6 m.micro}"
  let offset := (m.offset.map offsetText).getD ""
  s!"{m.date.iso}{separator}{padded 2 m.hour}:{padded 2 m.minute}:{padded 2 m.second}{fraction}{offset}"

def offsetLiteral (seconds : Int) : String :=
  if seconds = 0 then "datetime.timezone.utc"
  else if 0 < seconds then s!"datetime.timezone(datetime.timedelta(seconds={seconds}))"
  else s!"datetime.timezone(datetime.timedelta(days=-1, seconds={seconds + 86400}))"

def literal (m : Moment) : String :=
  let d := m.date
  let small :=
    if m.micro ≠ 0 then s!", {m.second}, {m.micro}"
    else if m.second ≠ 0 then s!", {m.second}"
    else ""
  let zone := (m.offset.map fun o => s!", tzinfo={offsetLiteral o}").getD ""
  s!"datetime.datetime({d.year}, {d.month}, {d.day}, {m.hour}, {m.minute}{small}{zone})"

end Moment

end Kitchen
