import Kitchen.Yaml.Tag
import Kitchen.Yaml.Token.Lexer

namespace Kitchen.Yaml

inductive Node where
  | scalar (tag : Tag) (text : String)
  | torn (tag : Tag) (t : Text.Torn)
  | list (tag : Tag) (items : List Node)
  | map (tag : Tag) (entries : List (Node × Node))
  deriving Repr, Inhabited

namespace Node

def absent : Node := .scalar .null ""

structure Rest where
  tokens : List Token
  named : List (String × Node)

abbrev Handles := List (String × String)

def standardHandles : Handles := [("!", "!"), ("!!", Tag.space)]

structure Properties where
  anchor : Option String
  tag : Option String

def fullTag (handles : Handles) : Option String → String → Except Fault String
  | none, rest => .ok rest
  | some handle, rest =>
    match handles.lookup handle with
    | some meaning => .ok (meaning ++ rest)
    | none => blunder (.unknownTag handle)

def properties (handles : Handles) (tokens : List Token) : Except Fault (Properties × List Token) :=
  match tokens with
  | .anchor name :: .tag h t :: rest => do return (⟨some name, some (← fullTag handles h t)⟩, rest)
  | .anchor name :: rest => .ok (⟨some name, none⟩, rest)
  | .tag h t :: .anchor name :: rest => do return (⟨some name, some (← fullTag handles h t)⟩, rest)
  | .tag h t :: rest => do return (⟨none, some (← fullTag handles h t)⟩, rest)
  | tokens => .ok (⟨none, none⟩, tokens)

def scalarTag (given : Option String) (plain : Bool) (text : String) : Tag :=
  match given with
  | some "!" => .ofPlain text
  | some t => .ofText t
  | none => if plain then .ofPlain text else .str

def collectionTag (given : Option String) (standard : Tag) : Tag :=
  match given with
  | some "!" | none => standard
  | some t => .ofText t

def bind (anchor : Option String) (n : Node) (r : Rest) : Except Fault (Node × Rest) :=
  match anchor with
  | none => .ok (n, r)
  | some name =>
    if (r.named.lookup name).isSome then blunder (.repeatedAnchor name)
    else .ok (n, { r with named := (name, n) :: r.named })

def expectComma (first : Bool) (r : Rest) : Except Fault Rest :=
  if first then .ok r
  else match r.tokens with
    | .comma :: rest => .ok { r with tokens := rest }
    | _ => blunder .noComma

-- Where a node may stand: in a block or between brackets, and whether the items of a list may follow without
-- indentation.
inductive Setting where
  | flow
  | block
  | loose
  deriving DecidableEq

def meets (ts : List Token) (r : Rest) : Bool :=
  r.tokens.head?.any (ts.contains ·)

mutual

def node (handles : Handles) : Nat → Setting → Rest → Except Fault (Node × Rest)
  | 0, _, _ => blunder .noContent
  | fuel + 1, setting, r =>
    match r.tokens with
    | .alias name :: rest =>
      match r.named.lookup name with
      | some n => .ok (n, { r with tokens := rest })
      | none => blunder (.unknownAlias name)
    | tokens => do
      let (props, tokens) ← properties handles tokens
      let inside (rest : List Token) : Rest := { r with tokens := rest }
      match tokens, setting with
      | .item :: _, .loose =>
        let (items, r) ← looseItems handles fuel (inside tokens)
        bind props.anchor (.list (collectionTag props.tag .seq) items) r
      | .scalar text plain :: rest, _ =>
        bind props.anchor (.scalar (scalarTag props.tag plain text) text) (inside rest)
      | .torn t :: rest, _ =>
        let text := (Value.torn t).plain
        bind props.anchor (.torn (scalarTag props.tag false text) t) (inside rest)
      | .openList :: rest, _ =>
        let (items, r) ← flowItems handles fuel true (inside rest)
        bind props.anchor (.list (collectionTag props.tag .seq) items) r
      | .openMap :: rest, _ =>
        let (entries, r) ← flowEntries handles fuel true (inside rest)
        bind props.anchor (.map (collectionTag props.tag .map) entries) r
      | .blockList :: rest, .block | .blockList :: rest, .loose =>
        let (items, r) ← blockItems handles fuel (inside rest)
        bind props.anchor (.list (collectionTag props.tag .seq) items) r
      | .blockMap :: rest, .block | .blockMap :: rest, .loose =>
        let (entries, r) ← blockEntries handles fuel (inside rest)
        bind props.anchor (.map (collectionTag props.tag .map) entries) r
      | tokens, _ =>
        if props.anchor.isSome || props.tag.isSome then
          bind props.anchor (.scalar (scalarTag props.tag true "") "") (inside tokens)
        else blunder .noContent

def optional (handles : Handles) : Nat → Setting → List Token → Rest → Except Fault (Node × Rest)
  | 0, _, _, _ => blunder .noContent
  | fuel + 1, setting, ends, r =>
    if meets ends r then .ok (absent, r) else node handles fuel setting r

def afterColon (handles : Handles) : Nat → Setting → List Token → Rest → Except Fault (Node × Rest)
  | 0, _, _, _ => blunder .noContent
  | fuel + 1, setting, ends, r =>
    match r.tokens with
    | .value :: rest => optional handles fuel setting ends { r with tokens := rest }
    | _ => .ok (absent, r)

def looseItems (handles : Handles) : Nat → Rest → Except Fault (List Node × Rest)
  | 0, _ => blunder .noContent
  | fuel + 1, r =>
    match r.tokens with
    | .item :: rest => do
      let (n, r) ← optional handles fuel .block [.item, .key, .value, .blockEnd] { r with tokens := rest }
      let (ns, r) ← looseItems handles fuel r
      return (n :: ns, r)
    | _ => .ok ([], r)

def blockItems (handles : Handles) : Nat → Rest → Except Fault (List Node × Rest)
  | 0, _ => blunder .noContent
  | fuel + 1, r =>
    match r.tokens with
    | .item :: rest => do
      let (n, r) ← optional handles fuel .block [.item, .blockEnd] { r with tokens := rest }
      let (ns, r) ← blockItems handles fuel r
      return (n :: ns, r)
    | .blockEnd :: rest => .ok ([], { r with tokens := rest })
    | _ => blunder .unclosedBlock

def blockEntries (handles : Handles) : Nat → Rest → Except Fault (List (Node × Node) × Rest)
  | 0, _ => blunder .noContent
  | fuel + 1, r =>
    let ends : List Token := [.key, .value, .blockEnd]
    match r.tokens with
    | .key :: rest => do
      let (k, r) ← optional handles fuel .loose ends { r with tokens := rest }
      let (v, r) ← afterColon handles fuel .loose ends r
      let (es, r) ← blockEntries handles fuel r
      return ((k, v) :: es, r)
    | .blockEnd :: rest => .ok ([], { r with tokens := rest })
    | _ => blunder .unclosedBlock

def flowItems (handles : Handles) : Nat → Bool → Rest → Except Fault (List Node × Rest)
  | 0, _, _ => blunder .noContent
  | fuel + 1, first, r =>
    if meets [.closeList] r then .ok ([], { r with tokens := r.tokens.tail })
    else do
      let r ← expectComma first r
      match r.tokens with
      | .closeList :: rest => return ([], { r with tokens := rest })
      | .key :: rest =>
        let (k, r) ← optional handles fuel .flow [.value, .comma, .closeList] { r with tokens := rest }
        let (v, r) ← afterColon handles fuel .flow [.comma, .closeList] r
        let (ns, r) ← flowItems handles fuel false r
        return (.map .map [(k, v)] :: ns, r)
      | _ =>
        let (n, r) ← node handles fuel .flow r
        let (ns, r) ← flowItems handles fuel false r
        return (n :: ns, r)

def flowEntries (handles : Handles) : Nat → Bool → Rest → Except Fault (List (Node × Node) × Rest)
  | 0, _, _ => blunder .noContent
  | fuel + 1, first, r =>
    if meets [.closeMap] r then .ok ([], { r with tokens := r.tokens.tail })
    else do
      let r ← expectComma first r
      match r.tokens with
      | .closeMap :: rest => return ([], { r with tokens := rest })
      | .key :: rest =>
        let (k, r) ← optional handles fuel .flow [.value, .comma, .closeMap] { r with tokens := rest }
        let (v, r) ← afterColon handles fuel .flow [.comma, .closeMap] r
        let (es, r) ← flowEntries handles fuel false r
        return ((k, v) :: es, r)
      | _ =>
        let (k, r) ← node handles fuel .flow r
        let (es, r) ← flowEntries handles fuel false r
        return ((k, absent) :: es, r)

end

def directives (versioned : Bool) (handles : Handles) :
    List Token → Except Fault (Handles × List Token)
  | .directive (.version major) :: rest =>
    if versioned || major ≠ 1 then blunder .incompleteDirective else directives true handles rest
  | .directive (.handle name meaning) :: rest =>
    if (handles.lookup name).isSome then blunder .incompleteDirective
    else directives versioned ((name, meaning) :: handles) rest
  | .directive .other :: rest => directives versioned handles rest
  | rest => .ok (handles, rest)

def alone (r : Rest) : Except Fault Unit :=
  if (r.tokens.dropWhile (· == .documentEnd)).isEmpty then .ok () else blunder .severalDocuments

def startsDocument : Token → Bool
  | .directive _ | .documentStart => true
  | _ => false

def ofTokens? (tokens : List Token) : Except Fault (Option Node) := do
  if tokens.isEmpty then return none
  let fuel := 4 * tokens.length + 4
  if !tokens.head?.any startsDocument then
    let (n, r) ← node standardHandles fuel .block ⟨tokens, []⟩
    alone r
    return some n
  let (handles, tokens) ← directives false [] tokens
  match tokens with
  | .documentStart :: rest =>
    let bare := rest.head?.all fun t => startsDocument t || t == .documentEnd
    let (n, r) ←
      if bare then pure (absent, ⟨rest, []⟩)
      else node (handles ++ standardHandles) fuel .block ⟨rest, []⟩
    alone r
    return some n
  | _ => blunder .noDocumentStart

def ofText? (cs : List Char) : Except Fault (Option Node) := do
  ofTokens? (← Token.ofText cs)

end Node

end Kitchen.Yaml
