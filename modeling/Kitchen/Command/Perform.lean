import Kitchen.Command.Bake
import Kitchen.Duration
import Kitchen.Fingerprint
import Kitchen.Text.Word
import Kitchen.Yaml.Writer

namespace Kitchen.Command

open Storage (Path Tree)

structure Call where
  words : List String
  sent : List UInt8
  stamp : Journal.Stamp
  deriving Repr

def version : String := "0.1.0"

def performInit (w : Surroundings) (force : Bool) : Work Unit := do
  match w.home? with
  | none => Work.fail (.settings .noHome)
  | some home =>
    let t ← Work.tree
    unless t.has home do
      Work.setTree (← Work.expect .trouble (t.ensureFolders home))
    let t ← Work.tree
    let file := home.child Settings.configName
    if t.has file && !force then
      Work.warn s!"Config already exists at {file.text}. Use --force to overwrite.\n"
      Work.quit 1
    let content := Yaml.write false Settings.standardFields
    let t ← Work.expect .trouble (t.write file (Text.Utf8.encode content.toList))
    Work.setTree t
    Work.setTree (← Work.expect .trouble (t.ensureFolder (home.child "recipes")))
    Work.sayLine s!"Initialized roux config at {file.text}"

def cookbook (d : Desk) (c : Choices) : Cookbook :=
  .opened (c.recipes.getD d.settings.recipes)

def listRow (id : String) (r : Except Cookbook.Fault (Definition × Cookbook)) :
    Work (List String) := do
  match r with
  | .error .badPattern => Work.fail (.cookbook .badPattern)
  | .error f => return [id, "-", "-", s!"invalid: {f.message}"]
  | .ok (recipe, _) =>
    let description ← match recipe.description with
      | .null => pure ""
      | .text s => pure s
      | .torn t => pure (Value.torn t).plain
      | v => Work.fail (.notShowable v.kind)
    return [id, recipe.version.plain, toString recipe.entries.length, description]

def performList (d : Desk) (c : Choices) : Work Unit := do
  let book := cookbook d c
  let t ← Work.tree
  match book.ids t with
  | [] => Work.sayLine s!"No recipes found in {book.folder.text}"
  | ids =>
    let rows ← ids.mapM fun id => listRow id (book.load t id none)
    let columns : List Screen.Column :=
      [⟨"Recipe", .left⟩, ⟨"Version", .left⟩, ⟨"Ops", .right⟩, ⟨"Description", .left⟩]
    let table : Screen.Table := ⟨s!"Recipes in {book.folder.text}", columns, rows⟩
    Work.say (← Work.expect .markup table.text)

def definitionFor (book : Cookbook) (id : String) : Work Definition := do
  let t ← Work.tree
  match book.load t id none with
  | .ok (recipe, _) => return recipe
  | .error .badPattern => Work.fail (.cookbook .badPattern)
  | .error f => Work.giveUp f.message

def performDetail (d : Desk) (c : Choices) (id : String) : Work Unit := do
  let book := cookbook d c
  let recipe ← definitionFor book id
  let place ← Work.expect .cookbook (book.find (← Work.tree) id)
  Work.sayLine s!"Recipe: {recipe.id.plain}"
  Work.sayLine ("Definition: " ++ (place.map Path.text).getD "None")
  let digest ← Work.expect .unwritable recipe.fingerprint
  Work.sayLine s!"Hash: {digest}"
  Work.sayLine ""
  Work.sayLine (Yaml.write true recipe.fields)

def suggest (ids : List String) : Work Unit :=
  unless ids.isEmpty do
    Work.warn "\nAvailable recipes:\n"
    ids.forM fun id => Work.warn s!"  {id}\n"

def performRun (d : Desk) (c : Choices) (id : String) (sent : List UInt8) : Work Unit := do
  let book := cookbook d c
  let t ← Work.tree
  match book.load t id none with
  | .ok (recipe, _) =>
    let input ← inputOf .run c sent recipe.input
    bake d recipe input c.limit
  | .error .badPattern => Work.fail (.cookbook .badPattern)
  | .error f =>
    Work.complain f.message
    if f.isAbsence then suggest (book.ids t)
    Work.quit 1

def performBake (d : Desk) (c : Choices) (text : String) (sent : List UInt8) : Work Unit := do
  let config ← match Json.read text with
    | .ok v => pure v
    | .error f => if f.isGrammatical then throw (.slip .bake (.notJson f)) else Work.fail (.json f)
  match Definition.ofConfig (.text "inline") config with
  | .error f => Work.giveUp f.message
  | .ok recipe =>
    let input ← inputOf .bake c sent recipe.input
    bake d recipe input c.limit

def requestOf (form : Form) (words : List String) : Work (Choices × String × List String) := do
  match Request.read (← Work.tree) form words with
  | .error s => throw (.slip form s)
  | .ok (.tell .version) =>
    Work.sayLine s!"roux, version {version}"
    Work.quit 0
  | .ok (.tell _) =>
    Work.say form.help
    Work.quit 0
  | .ok (.go c operand rest) => return (c, operand, rest)

-- The command of a group that words begin with, and the words after it. A name that begins like a switch asks
-- for help.
def commandOf (form : Form) (words : List String) : Work (Form × List String) := do
  match words with
  | [] => throw (.slip form .noCommand)
  | word :: rest =>
    match form.commands.lookup word with
    | some f => return (f, rest)
    | none =>
      if word.toList.head?.any fun c => !Text.isWord c || c = '_' then
        Work.say form.help
        Work.quit 0
      else throw (.slip form (.unknownCommand word))

def performIn (w : Surroundings) (d : Desk) (sent : List UInt8) (form : Form) (words : List String) :
    Work Unit := do
  let (c, operand, _) ← requestOf form words
  match form with
  | .init => performInit w c.force
  | .list => performList d c
  | .detail => performDetail d c operand
  | .run => performRun d c operand sent
  | .bake => performBake d c operand sent
  | .top | .recipes => pure ()

def perform (w : Surroundings) (call : Call) : Work Unit := do
  let (c, _, words) ← requestOf .top call.words
  let (form, words) ← commandOf .top words
  let d ← Desk.opened w call.stamp c
  match form with
  | .recipes =>
    let (_, _, words) ← requestOf .recipes words
    let (form, words) ← commandOf .recipes words
    performIn w d call.sent form words
  | form => performIn w d call.sent form words

def awaitsInput (t : Tree) (words : List String) : Bool :=
  match Request.read t .top words with
  | .ok (.go _ _ (name :: rest)) =>
    match Form.top.commands.lookup name with
    | some form =>
      match Request.read t form rest with
      | .ok (.go c _ _) =>
        (form = .run || form = .bake) && c.input.isNone && c.inputFile.isNone
      | _ => false
    | none => false
  | _ => false

structure Outcome where
  code : Nat
  mishap : Option Mishap
  scene : Scene

def Outcome.ofEnding (s : Scene) : Ending → Outcome
  | .quit code => ⟨code, none, s⟩
  | .slip form slip => ⟨2, none, { s with err := s.err ++ slip.report form }⟩
  | .mishap m => ⟨1, some m, s⟩

def answer (w : Surroundings) (t : Tree) (call : Call) : Outcome :=
  match (perform w call).run.run (.on t) with
  | (.ok _, s) => ⟨0, none, s⟩
  | (.error e, s) => .ofEnding s e

def Outcome.remarks (o : Outcome) (seconds : Float) : String :=
  let time := (Duration.ofFloat seconds).toOption.getD "no time"
  o.scene.err ++ match o.scene.baked with
    | none => ""
    | some n => s!"✓ Baked {n} operations in {time}\n"

end Kitchen.Command
