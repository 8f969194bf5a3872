import Kitchen.Misuse
import Kitchen.Number.Reading

namespace Kitchen.Duration

def whole (x : Float) : Except Misuse Int :=
  match Number.truncate? x, Number.parts x with
  | some n, _ => .ok n
  | none, .nan => .error .nanToWhole
  | none, _ => .error .infinityToWhole

def withoutMinutes (x : Float) : Float :=
  match Number.parts x with
  | .finite _ m q =>
    if 0 ≤ q then Float.ofNat (m * Number.twoTo q.toNat % 60)
    else (Float.ofNat (m % (60 * Number.twoTo (-q).toNat))).scaleB q
  | _ => Number.notANumber

def minutes (x : Float) : Float :=
  let quotient := (x - withoutMinutes x) / 60
  let down := quotient.floor
  if quotient - down > 0.5 then down + 1 else down

def ofFloat (x : Float) : Except Misuse String := do
  if x < 1 then return s!"{← whole (x * 1000)}ms"
  if x < 60 then return s!"{← whole x}s"
  let m ← whole (minutes x)
  let s ← whole (withoutMinutes x)
  return s!"{m}m {s}s"

def ofInt (n : Int) : String :=
  if n < 1 then s!"{n * 1000}ms"
  else if n < 60 then s!"{n}s"
  else s!"{n / 60}m {n % 60}s"

def text (v : Value) : Except Misuse String :=
  match v.whole?, v with
  | some n, _ => .ok (ofInt n)
  | none, .float x => ofFloat x
  | none, v => .error (.unorderedBelow v.kind)

end Kitchen.Duration
