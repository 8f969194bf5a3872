import Kitchen.Number.Integer
import Kitchen.Pattern.Basic
import Kitchen.Pattern.Fault
import Kitchen.Text.CharacterName
import Kitchen.Text.Hex
import Kitchen.Text.Name

namespace Kitchen.Pattern

open Text (Glyph)

structure Mode where
  ignoreCase : Bool
  multiline : Bool
  dotAll : Bool
  verbose : Bool
  ascii : Bool
  deriving DecidableEq, Repr, Inhabited

namespace Mode

def fold (m : Mode) : Fold :=
  if m.ignoreCase then if m.ascii then .ascii else .full else .exact

def put (m : Mode) (on : Bool) : Char → Mode
  | 'i' => { m with ignoreCase := on }
  | 'm' => { m with multiline := on }
  | 's' => { m with dotAll := on }
  | 'x' => { m with verbose := on }
  | 'a' => { m with ascii := on }
  | 'u' => { m with ascii := !on }
  | _ => m

def change (m : Mode) (on off : List Char) : Mode :=
  off.foldl (put · false) (on.foldl (put · true) m)

end Mode

structure Reader where
  size : Nat
  rest : List Glyph
  mode : Mode
  names : List (List Glyph × Nat)
  widths : List (Option (Nat × Nat))
  lookbehind : Option Nat
  asked : List (Nat × Nat)

abbrev Reading := StateT Reader (Except Stop)

namespace Reader

def place (r : Reader) : Nat :=
  r.size - r.rest.length

def nextGroup (r : Reader) : Nat :=
  r.widths.length + 1

def width? (r : Reader) (n : Nat) : Option (Nat × Nat) :=
  if n = 0 then none else (r.widths[n - 1]?).join

end Reader

def failAt {α : Type} (place : Nat) (reason : Reason) : Reading α :=
  fun _ => .error ⟨reason, place⟩

def fail {α : Type} (back : Nat) (reason : Reason) : Reading α := do
  failAt ((← get).place - back) reason

inductive Token where
  | plain (g : Glyph)
  | escape (g : Glyph)
  deriving DecidableEq, Repr

def Token.glyphs : Token → List Glyph
  | plain g => [g]
  | escape g => [.char '\\', g]

def Token.length : Token → Nat
  | plain _ => 1
  | escape _ => 2

def peek : Reading (Option Token) := do
  return match (← get).rest with
    | [] => none
    | .char '\\' :: g :: _ => some (.escape g)
    | g :: _ => some (.plain g)

def guardNext : Reading Unit := do
  let r ← get
  if r.rest = [.char '\\'] then failAt (r.size - 1) .danglingEscape

def take : Reading (Option Token) := do
  let t ← peek
  modify fun r => { r with rest := r.rest.drop ((t.map Token.length).getD 0) }
  guardNext
  return t

def accept (c : Char) : Reading Bool := do
  if (← peek) = some (.plain (.char c)) then
    let _ ← take
    return true
  else return false

def takeSome (p : Char → Bool) : Nat → Reading (List Char)
  | 0 => return []
  | n + 1 => do
    match ← peek with
    | some (.plain (.char c)) =>
      if p c then
        let _ ← take
        return c :: (← takeSome p n)
      else return []
    | _ => return []

def takeName (terminator : Char) (what : String) : Nat → List Glyph → Reading (List Glyph)
  | 0, done => fail done.length (.unterminatedName terminator)
  | fuel + 1, done => do
    match ← take with
    | none =>
      if done.isEmpty then fail 0 (.missingName what)
      else fail done.length (.unterminatedName terminator)
    | some t =>
      if t = .plain (.char terminator) then
        if done.isEmpty then fail 1 (.missingName what) else return done
      else takeName terminator what fuel (done ++ t.glyphs)

def name (terminator : Char) (what : String) : Reading (List Glyph) := do
  takeName terminator what ((← get).rest.length + 1) []

def isHex (c : Char) : Bool := (Text.hexValue? c).isSome

def isOctal (c : Char) : Bool := '0' ≤ c && c ≤ '7'

def isDigit (c : Char) : Bool := '0' ≤ c && c ≤ '9'

def isLetter (c : Char) : Bool := ('a' ≤ c && c ≤ 'z') || ('A' ≤ c && c ≤ 'Z')

def octal (ds : List Char) : Nat :=
  ds.foldl (fun n c => 8 * n + (c.toNat - 48)) 0

def decimal (ds : List Char) : Nat :=
  ds.foldl (fun n c => 10 * n + (c.toNat - 48)) 0

def controlEscape? : Char → Option Nat
  | 'a' => some 7
  | 'b' => some 8
  | 'f' => some 12
  | 'n' => some 10
  | 'r' => some 13
  | 't' => some 9
  | 'v' => some 11
  | '\\' => some 92
  | _ => none

def categoryEscape? (ascii : Bool) : Char → Option Item
  | 'd' => some (.category .digit false ascii)
  | 'D' => some (.category .digit true ascii)
  | 's' => some (.category .space false ascii)
  | 'S' => some (.category .space true ascii)
  | 'w' => some (.category .word false ascii)
  | 'W' => some (.category .word true ascii)
  | _ => none

def hexEscape (letter : Char) (digits : Nat) : Reading Nat := do
  let ds ← takeSome isHex digits
  let escape := String.ofList ('\\' :: letter :: ds)
  if ds.length ≠ digits then fail (ds.length + 2) (.incompleteEscape escape)
  else
    let n := (Text.hexNumber? ds).getD 0
    if n ≥ 0x80000000 then fail 0 .codePointTooLarge
    if n < 0x110000 then return n else fail (ds.length + 2) (.badEscape escape)

def octalEscape (ds : List Char) : Reading Nat := do
  if octal ds > 255 then fail (ds.length + 1) (.octalRange (String.ofList ('\\' :: ds)))
  else return octal ds

def namedEscape : Reading Nat := do
  if ← accept '\x7b' then
    let n ← name '\x7d' "character name"
    match Glyph.chars? n with
    | none => fail 2 (.badEscape "\\N")
    | some cs =>
      match Text.characterNamed? (String.ofList cs) with
      | some c => return c
      | none => fail (n.length + 4) (.undefinedCharacter n)
  else fail 0 .missingBrace

def commonEscape? (c : Char) : Reading (Option Nat) := do
  match c with
  | 'x' => return some (← hexEscape 'x' 2)
  | 'u' => return some (← hexEscape 'u' 4)
  | 'U' => return some (← hexEscape 'U' 8)
  | 'N' => return some (← namedEscape)
  | _ => return none

def selfEscape (c : Char) : Reading Nat := do
  if isLetter c || isDigit c then fail 2 (.badEscape (String.ofList ['\\', c]))
  else return c.toNat

def setEscape (mode : Mode) : Glyph → Reading Item
  | .half h => return .one h.code
  | .char c => do
    match controlEscape? c, categoryEscape? mode.ascii c with
    | some n, _ => return .one n
    | none, some item => return item
    | none, none =>
      match ← commonEscape? c with
      | some n => return .one n
      | none =>
        if isOctal c then
          let ds ← takeSome isOctal 2
          return .one (← octalEscape (c :: ds))
        else return .one (← selfEscape c)

def guardLookbehind (n : Nat) : Reading Unit := do
  let r ← get
  match r.lookbehind with
  | none => return
  | some first =>
    if (r.width? n).isNone then fail 0 .openGroup
    if n ≥ first then fail 0 .groupInLookbehind

def character (mode : Mode) (n : Nat) : Node :=
  .one (.literal n false mode.fold)

def reference (mode : Mode) (n back : Nat) : Reading Node := do
  match (← get).width? n with
  | none => fail back .openGroup
  | some (low, high) =>
    guardLookbehind n
    return .same n mode.fold low high

def numberEscape (mode : Mode) (c : Char) : Reading Node := do
  let ds ← takeSome isDigit 1
  let third ←
    if ds.all isOctal && !ds.isEmpty && isOctal c then takeSome isOctal 1 else pure []
  if !third.isEmpty then return character mode (← octalEscape (c :: ds ++ third))
  else
    let n := decimal (c :: ds)
    if n < (← get).nextGroup then reference mode n (ds.length + 2)
    else fail (ds.length + 1) (.invalidGroup n)

def anchorEscape? (mode : Mode) : Char → Option Anchor
  | 'A' => some .textStart
  | 'b' => some (.boundary mode.ascii false)
  | 'B' => some (.boundary mode.ascii true)
  | 'Z' => some .textEnd
  | _ => none

def escapeNode (mode : Mode) : Glyph → Reading Node
  | .half h => return character mode h.code
  | .char c => do
    match anchorEscape? mode c, categoryEscape? mode.ascii c, controlEscape? c with
    | some a, _, _ => return .anchor a
    | none, some item, _ => return .one (.set [item] false mode.fold)
    | none, none, some n => return character mode n
    | none, none, none =>
      match ← commonEscape? c with
      | some n => return character mode n
      | none =>
        if c = '0' then return character mode (octal (← takeSome isOctal 2))
        else if isDigit c then numberEscape mode c
        else return character mode (← selfEscape c)

def setItems (mode : Mode) (start : Nat) : Nat → List Item → Reading (List Item)
  | 0, _ => failAt start .unterminatedSet
  | fuel + 1, done => do
    match ← take with
    | none => failAt start .unterminatedSet
    | some t =>
      if t = .plain (.char ']') ∧ !done.isEmpty then return done
      else
        let first ← match t with
          | .escape g => setEscape mode g
          | .plain g => pure (.one g.code)
        if ← accept '-' then
          match ← take with
          | none => failAt start .unterminatedSet
          | some (.plain (.char ']')) => return done ++ [first, .one 45]
          | some u =>
            let second ← match u with
              | .escape g => setEscape mode g
              | .plain g => pure (.one g.code)
            let length := t.length + 1 + u.length
            match first, second with
            | .one low, .one high =>
              if high < low then fail length (.badRange length)
              else setItems mode start fuel (done ++ [.range low high])
            | _, _ => fail length (.badRange length)
        else setItems mode start fuel (done ++ [first])

def charSet (mode : Mode) : Reading Node := do
  let r ← get
  let negated ← accept '^'
  let items ← setItems mode (r.place - 1) (r.rest.length + 1) []
  match items with
  | [.one c] => return .one (.literal c negated mode.fold)
  | items => return .one (.set items negated mode.fold)

def repeatLimit : Nat := 4294967295

def braces? : Reading (Option (Nat × Option Nat)) := do
  let r ← get
  if (← peek) = some (.plain (.char '\x7d')) then return none
  let low ← takeSome isDigit r.rest.length
  let high ← if ← accept ',' then takeSome isDigit r.rest.length else pure low
  if !(← accept '\x7d') then
    modify fun now => { now with rest := r.rest }
    return none
  let least := decimal low
  if least ≥ repeatLimit then fail 0 .repeatTooLarge
  if high.isEmpty then return some (least, none)
  let most := decimal high
  if most ≥ repeatLimit then fail 0 .repeatTooLarge
  if most < least then failAt r.place .repeatOrder
  return some (least, some most)

def bounds? : Glyph → Reading (Option (Nat × Option Nat))
  | .char '?' => return some (0, some 1)
  | .char '*' => return some (0, none)
  | .char '+' => return some (1, none)
  | .char '\x7b' => braces?
  | _ => return none

structure Part where
  node : Node
  isAnchor : Bool
  isRepeated : Bool

def Part.plain (node : Node) : Part :=
  match node with
  | .anchor _ => ⟨node, true, false⟩
  | _ => ⟨node, false, false⟩

def greed : Reading Greed := do
  if ← accept '?' then return .lazy
  if ← accept '+' then return .possessive
  return .greedy

def repeatLast (start low : Nat) (high : Option Nat) (parts : List Part) : Reading (List Part) := do
  match parts with
  | [] => failAt start .nothingToRepeat
  | last :: before =>
    if last.isAnchor then failAt start .nothingToRepeat
    if last.isRepeated then failAt start .multipleRepeat
    return ⟨.repeated (← greed) low high last.node, false, true⟩ :: before

def joinParts (parts : List Part) : Node :=
  match parts with
  | [] => .empty
  | last :: before => before.foldl (fun rest p => .cat p.node rest) last.node

def isFlag (c : Char) : Bool := "iLmsxatu".toList.contains c

def notFlag (t : Token) (otherwise : Reason) : Reason :=
  match t with
  | .plain (.char c) =>
    if Text.isWord c && !Text.isDigit c && c != '_' then .unknownFlag else otherwise
  | _ => otherwise

def flagsOn : Nat → List Char → Char → Reading (List Char × Char)
  | 0, _, _ => fail 0 .missingFlagsEnd
  | fuel + 1, done, c => do
    if c = 'L' then fail 0 .localeFlag
    let on := done ++ [c]
    if on.contains 'a' && on.contains 'u' then fail 0 .clashingFlags
    match ← take with
    | none => fail 0 .missingFlagsEnd
    | some (.plain (.char d)) =>
      if d = ')' ∨ d = '-' ∨ d = ':' then return (on, d)
      else if isFlag d then flagsOn fuel on d
      else fail 1 (notFlag (.plain (.char d)) .missingFlagsEnd)
    | some t => fail t.length (notFlag t .missingFlagsEnd)

def flagsOff : Nat → List Char → Char → Reading (List Char)
  | 0, _, _ => fail 0 .missingColon
  | fuel + 1, done, c => do
    if c = 'a' ∨ c = 'u' ∨ c = 'L' then fail 0 .typeFlagOff
    let off := done ++ [c]
    match ← take with
    | none => fail 0 .missingColon
    | some (.plain (.char d)) =>
      if d = ':' then return off
      else if isFlag d then flagsOff fuel off d
      else fail 1 (notFlag (.plain (.char d)) .missingColon)
    | some t => fail t.length (notFlag t .missingColon)

inductive Flags where
  | whole (on : List Char)
  | group (on off : List Char)

def flags (c : Char) : Reading Flags := do
  let fuel := (← get).rest.length + 1
  let (on, stop) ← if c = '-' then pure ([], '-') else flagsOn fuel [] c
  if stop = ')' then return .whole on
  if on.contains 't' then fail 1 .globalFlagOn
  let off ←
    if stop = '-' then
      match ← take with
      | none => fail 0 .missingFlag
      | some (.plain (.char d)) =>
        if isFlag d then flagsOff fuel [] d else fail 1 (notFlag (.plain (.char d)) .missingFlag)
      | some t => fail t.length (notFlag t .missingFlag)
    else pure []
  if off.contains 't' then fail 1 .globalFlagOff
  if on.any off.contains then fail 1 .flagOnAndOff
  return .group on off

def openGroup (name : Option (List Glyph)) : Reading Nat := do
  let r ← get
  let n := r.nextGroup
  match name with
  | none => set { r with widths := r.widths ++ [none] }
  | some s =>
    match r.names.lookup s with
    | some before => fail (s.length + 1) (.redefinedGroup s n before)
    | none => set { r with widths := r.widths ++ [none], names := (s, n) :: r.names }
  return n

def closeGroup (n : Nat) (body : Node) : Reading Unit :=
  modify fun r => { r with widths := r.widths.set (n - 1) (some body.width) }

def skipComment (start : Nat) : Nat → Reading Unit
  | 0 => failAt start .unterminatedComment
  | fuel + 1 => do
    match ← take with
    | none => failAt start .unterminatedComment
    | some t => if t = .plain (.char ')') then return else skipComment start fuel

def skipLine : Nat → Reading Unit
  | 0 => return
  | fuel + 1 => do
    match ← take with
    | none => return
    | some t => if t = .plain (.char '\n') then return else skipLine fuel

def isName (s : List Glyph) : Bool :=
  (Glyph.chars? s).any Text.isName

def conditionGroup : Reading Nat := do
  let s ← name ')' "group name"
  let n ←
    if isName s then
      match (← get).names.lookup s with
      | none => fail (s.length + 1) (.unknownGroup s)
      | some n => pure n
    else
      match (Glyph.chars? s).map (Number.readInteger ∘ Text.strip) with
      | none | some (.error _) => fail (s.length + 1) (.badGroupName s)
      | some (.ok n) =>
        if n < 0 then fail (s.length + 1) (.badGroupName s)
        else if n = 0 then fail (s.length + 1) .badGroupNumber
        else if n ≥ 1073741823 then fail (s.length + 1) (.invalidGroup n.toNat)
        else
          modify fun r =>
            if r.asked.any (·.1 == n.toNat) then r
            else { r with asked := r.asked ++ [(n.toNat, r.place - s.length - 1)] }
          pure n.toNat
  guardLookbehind n
  return n

def knownName (s : List Glyph) : Reading Unit := do
  if !isName s then fail (s.length + 1) (.badGroupName s)

inductive Special where
  | part (node : Node)
  | nothing
  | mode (mode : Mode)

mutual

def alternatives : Nat → Mode → Bool → Reading Node
  | 0, _, _ => fail 0 .unexpectedEnd
  | fuel + 1, mode, outermost => do
    let first ← sequence fuel mode outermost []
    if ← accept '|' then
      let r ← get
      let mode := if outermost then r.mode else mode
      return .alt first (← laterAlternatives fuel mode)
    else return first

def laterAlternatives : Nat → Mode → Reading Node
  | 0, _ => fail 0 .unexpectedEnd
  | fuel + 1, mode => do
    let first ← sequence fuel mode false []
    if ← accept '|' then return .alt first (← laterAlternatives fuel mode)
    else return first

-- One alternative; the parts read so far stand in reverse. Flags for the whole pattern may stand only before
-- the first part of the first one.
def sequence : Nat → Mode → Bool → List Part → Reading Node
  | 0, _, _, _ => fail 0 .unexpectedEnd
  | fuel + 1, mode, first, done => do
    let start := (← get).place
    match ← peek with
    | none => return joinParts done
    | some (.escape g) =>
      let _ ← take
      let node ← escapeNode mode g
      sequence fuel mode first (.plain node :: done)
    | some (.plain g) =>
      if g = .char '|' ∨ g = .char ')' then return joinParts done
      let _ ← take
      if mode.verbose ∧ g.meets " \t\n\r\x0b\x0c".toList.contains then sequence fuel mode first done
      else if mode.verbose ∧ g = .char '#' then
        let r ← get
        skipLine (r.rest.length + 1)
        sequence fuel mode first done
      else if g = .char '[' then
        let node ← charSet mode
        sequence fuel mode first (.plain node :: done)
      else if g = .char '.' then
        let t : Test := if mode.dotAll then .any else .anyButNewline
        sequence fuel mode first (.plain (.one t) :: done)
      else if g = .char '^' then
        let a : Anchor := if mode.multiline then .lineStart else .textStart
        sequence fuel mode first (.plain (.anchor a) :: done)
      else if g = .char '$' then
        let a : Anchor := if mode.multiline then .lineEnd else .textEndOrNewline
        sequence fuel mode first (.plain (.anchor a) :: done)
      else if g = .char '(' then
        if ← accept '?' then
          match ← special fuel mode start (first && done.isEmpty) with
          | .part node => sequence fuel mode first (⟨node, false, false⟩ :: done)
          | .nothing => sequence fuel mode first done
          | .mode mode => sequence fuel mode first done
        else
          let node ← group fuel mode start none
          sequence fuel mode first (.plain node :: done)
      else
        match ← bounds? g with
        | some (low, high) => sequence fuel mode first (← repeatLast start low high done)
        | none => sequence fuel mode first (.plain (character mode g.code) :: done)

def group : Nat → Mode → Nat → Option (List Glyph) → Reading Node
  | 0, _, _, _ => fail 0 .unexpectedEnd
  | fuel + 1, mode, start, name => do
    let n ← openGroup name
    let body ← alternatives fuel mode false
    if !(← accept ')') then failAt start .unterminatedGroup
    closeGroup n body
    return .capture n body

def inside : Nat → Mode → Nat → Reading Node
  | 0, _, _ => fail 0 .unexpectedEnd
  | fuel + 1, mode, start => do
    let body ← alternatives fuel mode false
    if !(← accept ')') then failAt start .unterminatedGroup
    return body

def special : Nat → Mode → Nat → Bool → Reading Special
  | 0, _, _, _ => fail 0 .unexpectedEnd
  | fuel + 1, mode, start, mayBeWhole => do
    match ← take with
    | none => fail 0 .unexpectedEnd
    | some (.plain (.char 'P')) =>
      if ← accept '<' then
        let s ← name '>' "group name"
        knownName s
        return .part (← group fuel mode start (some s))
      else if ← accept '=' then
        let s ← name ')' "group name"
        knownName s
        match (← get).names.lookup s with
        | none => fail (s.length + 1) (.unknownGroup s)
        | some n => return .part (← reference mode n (s.length + 1))
      else
        match ← take with
        | none => fail 0 .unexpectedEnd
        | some t => fail (t.length + 2) (.unknownExtension (t.length + 2))
    | some (.plain (.char ':')) => return .part (← inside fuel mode start)
    | some (.plain (.char '#')) =>
      skipComment start ((← get).rest.length + 1)
      return .nothing
    | some (.plain (.char '=')) => return .part (.ahead false (← inside fuel mode start))
    | some (.plain (.char '!')) => return .part (.ahead true (← inside fuel mode start))
    | some (.plain (.char '<')) =>
      match ← take with
      | none => fail 0 .unexpectedEnd
      | some t =>
        if t = .plain (.char '=') ∨ t = .plain (.char '!') then
          let before := (← get).lookbehind
          modify fun r => { r with lookbehind := some (before.getD r.nextGroup) }
          let body ← alternatives fuel mode false
          modify fun r => { r with lookbehind := before }
          if !(← accept ')') then failAt start .unterminatedGroup
          return .part (.behind (t = .plain (.char '!')) body.width.1 body)
        else fail (t.length + 2) (.unknownExtension (t.length + 2))
    | some (.plain (.char '(')) =>
      let n ← conditionGroup
      let yes ← sequence fuel mode false []
      let no ←
        if ← accept '|' then
          let no ← sequence fuel mode false []
          if (← peek) = some (.plain (.char '|')) then fail 0 .tooManyBranches
          pure no
        else pure .empty
      if !(← accept ')') then failAt start .unterminatedGroup
      return .part (.choose n yes no)
    | some (.plain (.char '>')) => return .part (.atomic (← inside fuel mode start))
    | some t =>
      match t with
      | .plain (.char c) =>
        if isFlag c || c = '-' then
          match ← flags c with
          | .whole on =>
            if !mayBeWhole then failAt start .lateFlags
            modify fun r => { r with mode := r.mode.change on [] }
            return .mode (mode.change on [])
          | .group on off => return .part (← inside fuel (mode.change on off) start)
        else fail (t.length + 1) (.unknownExtension (t.length + 1))
      | _ => fail (t.length + 1) (.unknownExtension (t.length + 1))

end

def Node.hasFixedLookbehinds : Node → Bool
  | .behind _ _ body => body.width.1 == body.width.2 && body.hasFixedLookbehinds
  | .cat a b | .alt a b | .choose _ a b => a.hasFixedLookbehinds && b.hasFixedLookbehinds
  | .capture _ body | .repeated _ _ _ body | .atomic body | .ahead _ body => body.hasFixedLookbehinds
  | _ => true

def pattern (fuel : Nat) (mode : Mode) : Reading Pattern := do
  guardNext
  let root ← alternatives fuel mode true
  let r ← get
  if !r.rest.isEmpty then fail 0 .unbalanced
  match r.asked.find? (·.1 ≥ r.nextGroup) with
  | some (n, place) => failAt place (.invalidGroup n)
  | none => pure ()
  if !root.hasFixedLookbehinds then fail 0 .variableWidth
  return ⟨root, r.widths.length⟩

def readGlyphs (mode : Mode) (text : List Glyph) : Except Stop Pattern :=
  (pattern (4 * text.length + 8) mode).run' ⟨text.length, text, mode, [], [], none, []⟩

def read (mode : Mode) (text : List Glyph) : Except Fault Pattern :=
  (readGlyphs mode text).mapError (·.at text)

end Kitchen.Pattern
