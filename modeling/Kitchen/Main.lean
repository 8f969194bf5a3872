import Kitchen.Command.Perform
import Std.Time.Format

namespace Kitchen

open Storage (Path Tree)

def gather (t : Tree) (name : String) : IO Tree := do
  if name.isEmpty || t.has (Path.ofText name) then return t
  match ← (IO.FS.realPath name).toBaseIO with
  | .error _ => return t
  | .ok _ =>
    let p := Path.ofText name
    match ← (IO.FS.readBinFile name).toBaseIO with
    | .error _ => return (t.ensureFolders p).toOption.getD t
    | .ok bytes =>
      let above := (t.ensureFolders p.parent).toOption.getD t
      return (above.write p bytes.toList).toOption.getD above

def gatherAll (t : Tree) (names : List String) : IO Tree :=
  names.foldlM gather t

def namesIn (words : List String) : List String :=
  words ++ words.map fun w => String.ofList ((w.toList.dropWhile (· ≠ '=')).drop 1)

def recipeNames (folder : Path) (words : List String) : List String :=
  folder.text :: words.flatMap fun w =>
    Cookbook.suffixes.map fun suffix => (folder.under (Path.ofText (w ++ suffix))).text

def settingsNames (w : Surroundings) (s : Settings) (words : List String) : List String :=
  recipeNames s.recipes words
    ++ match s.journalFile w with
      | .ok (some p) => [p.parent.text, p.text]
      | _ => []

def gathered (w : Surroundings) (listed words : List String) : IO Tree := do
  let home := (w.home?.map Path.text).getD ""
  let config := (w.home?.map fun p => (p.child Settings.configName).text).getD ""
  let t ← gatherAll .empty (home :: config :: listed ++ namesIn words)
  let folders := (namesIn words).filter fun name => t.isFolder (Path.ofText name)
  let t ← gatherAll t (folders.flatMap fun name => recipeNames (Path.ofText name) words)
  let configs := none :: (namesIn words).map fun name => some (Path.ofText name)
  let found := configs.filterMap fun p => ((Settings.load w t p).toOption.map Prod.fst)
  let standard := (Settings.standard w).toOption.toList
  gatherAll t ((found ++ standard).flatMap fun s => settingsNames w s words)

def keep (before after : Tree) : IO Unit :=
  after.items.forM fun (p, item) =>
    unless before.at? p == some item do
      match item with
      | .folder => IO.FS.createDirAll p.text
      | .file content => IO.FS.writeBinFile p.text ⟨content.toArray⟩

partial def bytesOf (input : IO.FS.Stream) (read : ByteArray) : IO ByteArray := do
  let more ← input.read 65536
  if more.isEmpty then return read else bytesOf input (read ++ more)

def listing : IO (List String) := do
  match ← IO.getEnv "ROUX_LISTING" with
  | none => return []
  | some name => return (← IO.FS.lines name).toList

def homesIn (lines : List String) : List (String × Path) :=
  lines.filterMap fun line =>
    match line.splitOn ":" with
    | name :: _ :: _ :: _ :: _ :: home :: _ => some (name, Path.ofText home)
    | _ => none

def surroundings : IO Surroundings := do
  let home := (← IO.getEnv "HOME").getD "/"
  let today ← Std.Time.PlainDate.now
  let users ← (IO.FS.lines "/etc/passwd").toBaseIO
  let homes := homesIn (users.toOption.getD #[]).toList
  return ⟨Path.ofText home, homes, ← IO.getEnv "ROUX_HOME", today.format "uuuu-MM-dd"⟩

def stampNow : IO Journal.Stamp := do
  let now ← Std.Time.DateTime.now
  let zoned := (now.convertZoneRules .UTC).format "uuuu-MM-dd'T'HH:mm:ss.SSSSSS'Z'"
  return ⟨zoned, (← Std.Time.PlainDateTime.now).format "uuuu-MM-dd HH:mm:ss,SSS"⟩

end Kitchen

open Kitchen in
def main (words : List String) : IO UInt32 := do
  let w ← surroundings
  let t ← gathered w (← listing) words
  let sent ←
    if Command.awaitsInput t words then bytesOf (← IO.getStdin) .empty else pure .empty
  let call : Command.Call := ⟨words, sent.toList, ← stampNow⟩
  let start ← IO.monoNanosNow
  let outcome ← IO.lazyPure fun _ => Command.answer w t call
  let taken := (← IO.monoNanosNow) - start
  keep t outcome.scene.tree
  IO.print outcome.scene.out
  outcome.scene.drawn.forM fun r => IO.eprintln s!"{Journal.levelName r.level} {r.message}"
  IO.eprint (outcome.remarks (taken.toFloat / 1000000000))
  match outcome.mishap with
  | some m => IO.eprintln m.message
  | none => pure ()
  return outcome.code.toUInt32
