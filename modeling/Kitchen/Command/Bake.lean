import Kitchen.Assembly
import Kitchen.Command.Desk
import Kitchen.Journal.Story
import Kitchen.Run.Execute

namespace Kitchen.Command

open Storage (Path)

-- The input of a bake: a text that was given, the content of a file, or else what is sent. A file for a recipe
-- of bytes is taken as bytes, all else as text with line feeds for line ends.
def inputOf (form : Form) (c : Choices) (sent : List UInt8) (kind : Kind) : Work Value := do
  match c.input, c.inputFile with
  | some _, some _ => throw (.slip form .twoInputs)
  | some s, none => return .text s
  | none, some p =>
    let t ← Work.tree
    if kind = .byteArray then return .bytes (← Work.expect .trouble (t.read p))
    else return .text (String.ofList (← Work.expect .unreadable (t.readText .whole p)))
  | none, none =>
    let cs ← Work.expect (.unreadable ∘ .undecodable) (Storage.textOf .whole sent)
    return .text (String.ofList cs)

def said : Value → Except Misuse String
  | .null => .ok ""
  | .bytes bs => .ok (String.ofList (Text.Utf8.decode bs))
  | v => do
    let _ ← Dish.encoded v.glyphs
    return v.plain

def bake (d : Desk) (recipe : Definition) (input : Value) (limit : Option Int) : Work Unit := do
  let name := recipe.id.plain
  let ops ← match Assembly.operations Catalog.standard recipe.entries with
    | .ok ops => pure ops
    | .error f => Work.giveUp s!"Cannot compile recipe '{name}': {f.message}"
  let limit ← match limit with
    | some n => pure (Value.int n)
    | none => Work.expect .settings d.settings.limit
  d.record [⟨Journal.debug, "roux.cli", s!"Baking {ops.length} operations",
    [("recipe_id", recipe.id)]⟩]
  let dish ← Work.expect (.failure ∘ .ofDish) (Dish.make input recipe.input.tag)
  let (stop, m) := (Run.Machine.fresh ops dish limit.whole?).run 0
  d.record (Journal.story d.least m.ledger)
  match stop with
  | .broken b => Work.giveUp s!"Recipe '{name}' failed at operation {b.place}: {Text.Glyph.plain b.message}"
  | .overLimit _ =>
    Work.giveUp s!"Recipe '{name}' aborted: Step limit of {limit.plain} operations exceeded"
  | .outOfRange => Work.fail (.failure (.misuse .outOfRange))
  | .unfinished => Work.fail .endless
  | .at place =>
    let (v, _) ← Work.expect (.failure ∘ .ofDish) (m.dish.get Kind.string.tag)
    Work.sayLine (← Work.expect (.failure ∘ .misuse) (said v))
    match ops[place.toNat]? with
    | some op => Work.giveUp s!"Stopped at operation {place} ({op.name})"
    | none => modify fun s => { s with baked := some ops.length }

end Kitchen.Command
