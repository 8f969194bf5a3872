import Kitchen.Command.Perform
import Kitchen.Proofs.Command.Saving
import Kitchen.Proofs.Command.Words

/-!
Where the input of a run comes from. A text makes the same of a call whether it is given with a switch or sent, and
so does a file that holds it, unless the recipe takes bytes: then a file is taken as bytes, but a text that is given
or sent stays a text.
-/
namespace Kitchen.Command

open Storage (Path Tree)
open Work

variable {w : Surroundings} {t : Tree} {d : Desk} {stamp : Journal.Stamp} {form : Form} {σ σ' : Scene}
  {lead left right source words : List String}

def reply (form : Form) : Except Slip Request → Work (Choices × String × List String)
  | .error s => throw (.slip form s)
  | .ok (.tell .version) => do
    sayLine s!"roux, version {version}"
    quit 0
  | .ok (.tell _) => do
    say form.help
    quit 0
  | .ok (.go c operand rest) => return (c, operand, rest)

theorem requestOf_eq (form : Form) (words : List String) :
    requestOf form words = (do reply form (Request.read (← tree) form words)) :=
  rfl

theorem reply_map (set : Choices → Choices) (next : List String → List String) (r : Except Slip Request) :
    reply form (Request.map set next <$> r) =
      (fun (c, operand, rest) => (set c, operand, next rest)) <$> reply form r := by
  rcases r with e | s | ⟨c, operand, rest⟩
  · rfl
  · cases s <;> rfl
  · rfl

/-- A request that goes on leaves everything as it was. -/
theorem asked_of_ok {asked : Choices × String × List String}
    (ok : (requestOf form words).run.run σ = (.ok asked, σ')) :
    σ' = σ ∧ Request.read σ.tree form words = .ok (.go asked.1 asked.2.1 asked.2.2) := by
  have told : (reply form (Request.read σ.tree form words)).run.run σ = (.ok asked, σ') := ok
  generalize Request.read σ.tree form words = r at told ⊢
  rcases r with e | s | ⟨c, operand, rest⟩
  · cases told
  · cases s <;> cases told
  · cases told
    exact ⟨rfl, rfl⟩

theorem requestOf_lead (leads : Request.Lead .top lead) (words : List String) :
    requestOf .top (lead ++ "run" :: words) =
      (fun (c, operand, _) => (c, operand, "run" :: words)) <$> requestOf .top (lead ++ ["run"]) := by
  rw [requestOf_eq, requestOf_eq, map_bind]
  refine bind_congr fun t => ?_
  rw [Request.read_lead rfl rfl leads, reply_map]
  rfl

def approach (w : Surroundings) (stamp : Journal.Stamp) (lead : List String) : Work Desk := do
  let (c, _, _) ← requestOf .top (lead ++ ["run"])
  Desk.opened w stamp c

theorem perform_lead (leads : Request.Lead .top lead) (sent : List UInt8) :
    perform w ⟨lead ++ "run" :: words, sent, stamp⟩ =
      approach w stamp lead >>= fun d => performIn w d sent .run words := by
  unfold perform approach
  rw [requestOf_lead leads, bind_map_left, bind_assoc]
  rfl

variable {c : Choices} {kind : Kind} {sent content : List UInt8} {s name : String} {p : Path}

/-- A file that a word names is there in a tree that holds more. -/
theorem named_of_extends {t' : Tree} (more : t'.Extends t)
    (named : Choices.named? t name = some (.file content)) :
    Choices.named? t' name = some (.file content) := by
  unfold Choices.named? at named ⊢
  split at named
  · cases named
  · next word =>
    obtain ⟨found, fit⟩ := Option.filter_eq_some_iff.mp named
    rw [if_neg word, more.find? found]
    exact Option.filter_eq_some_iff.mpr ⟨rfl, fit⟩

theorem find?_of_named (named : Choices.named? t name = some (.file content)) :
    t.find? (.ofText name) = some (.file content) := by
  unfold Choices.named? at named
  split at named
  · cases named
  · exact (Option.filter_eq_some_iff.mp named).1

theorem choose_file (named : Choices.named? t name = some (.file content)) (c : Choices) :
    c.choose t .inputFile name = .ok (c.feed id fun _ => some (.ofText name)) := by
  have file : Choices.fileOf t true name = .ok (.ofText name) := by rw [Choices.fileOf, named]
  rw [Choices.choose, file]
  rfl

theorem inputOf_sent (none : c.input = .none ∧ c.inputFile = .none) (feeds : '\r' ∉ s.toList) :
    inputOf form c (Text.Utf8.encode s.toList) kind = pure (.text s) := by
  rw [inputOf, none.1, none.2]
  dsimp only
  rw [Storage.textOf_encode .whole feeds]
  change (pure (Value.text (String.ofList s.toList)) : Work Value) = _
  rw [String.ofList_toList]

theorem inputOf_given (none : c.inputFile = .none) :
    inputOf form (c.feed (fun _ => some s) id) sent kind = pure (.text s) := by
  rw [inputOf, show (c.feed (fun _ => some s) id).inputFile = .none from none]
  rfl

/-- A file is read as a text for all recipes but those that take bytes. -/
theorem inputOf_file (none : c.input = .none) (texts : kind ≠ .byteArray)
    (feeds : '\r' ∉ s.toList) (holds : σ.tree.read p = .ok (Text.Utf8.encode s.toList)) :
    (inputOf form (c.feed id fun _ => some p) sent kind).run.run σ = (.ok (.text s), σ) := by
  have read : σ.tree.readText .whole p = .ok s.toList := by
    rw [Tree.readText, holds]
    dsimp only
    rw [Storage.textOf_encode .whole feeds]
    rfl
  rw [inputOf, show (c.feed id fun _ => some p).input = .none from none]
  dsimp only [Choices.feed]
  simp only [if_neg texts]
  change (do return Value.text (String.ofList (← expect .unreadable (σ.tree.readText .whole p))) : Work Value).run.run
    σ = _
  rw [read]
  exact congrArg (fun text => (Except.ok (Value.text text), σ)) String.ofList_toList

def storedAt (d : Desk) (form : Form) (words : List String) : Work Definition := do
  let (c, id, _) ← requestOf form words
  definitionFor (cookbook d c) id

def stored (w : Surroundings) (call : Call) : Work Definition := do
  let (c, _, words) ← requestOf .top call.words
  let (form, words) ← commandOf .top words
  storedAt (← Desk.opened w call.stamp c) form words

-- Whether a call of `run` comes to a recipe that takes bytes.
def takesBytes (w : Surroundings) (t : Tree) (call : Call) : Bool :=
  match ((stored w call).run.run (.on t)).1 with
  | .ok recipe => recipe.input = .byteArray
  | .error _ => false

theorem stored_lead (leads : Request.Lead .top lead) :
    stored w ⟨lead ++ "run" :: words, sent, stamp⟩ =
      approach w stamp lead >>= fun d => storedAt d .run words := by
  unfold stored approach
  rw [requestOf_lead leads, bind_map_left, bind_assoc]
  rfl

/-- A run goes on alike with an input among its words and with one that is sent, if all that was stored there
comes to the same value for the recipe. -/
theorem performRun_alike {i : Option String → Option String} {f : Option Path → Option Path} {id : String}
    {v : Value} {sent' : List UInt8}
    (same : ∀ recipe, (definitionFor (cookbook d c) id).run.run σ = (.ok recipe, σ) →
      (inputOf .run (c.feed i f) sent recipe.input).run.run σ = (.ok v, σ) ∧
        (inputOf .run c sent' recipe.input).run.run σ = (.ok v, σ)) :
    (performRun d (c.feed i f) id sent).run.run σ = (performRun d c id sent').run.run σ := by
  unfold performRun
  rw [run_bind, run_bind, run_tree]
  dsimp only
  have book : cookbook d (c.feed i f) = cookbook d c := rfl
  rw [book]
  cases loaded : (cookbook d c).load σ.tree id none with
  | error fault => cases fault <;> rfl
  | ok found =>
    obtain ⟨recipe, book⟩ := found
    have there : (definitionFor (cookbook d c) id).run.run σ = (.ok recipe, σ) := by
      rw [definitionFor, run_bind, run_tree]
      dsimp only
      rw [loaded]
      rfl
    obtain ⟨within, without⟩ := same recipe there
    dsimp only
    rw [run_bind, run_bind, within, without]
    rfl

/-- With a desk that is set, an input among the words of a run makes no difference to one that is sent. -/
theorem performIn_insert {switch : Switch} {value : String} {i : Option String → Option String}
    {f : Option Path → Option Path} (around : Request.Around .run left right) (is_ : switch.IsSource)
    (spelled : Spells switch value source)
    (made : ∀ c : Choices, c.choose σ.tree switch value = .ok (c.feed i f)) (feeds : '\r' ∉ s.toList)
    (fed : ∀ (c : Choices) recipe, c.input = none ∧ c.inputFile = none →
      (storedAt d .run (left ++ right)).run.run σ = (.ok recipe, σ) →
        (inputOf .run (c.feed i f) sent recipe.input).run.run σ = (.ok (.text s), σ)) :
    (performIn w d sent .run (left ++ source ++ right)).run.run σ =
      (performIn w d (Text.Utf8.encode s.toList) .run (left ++ right)).run.run σ := by
  have known : switch ∈ Form.run.switches := by rcases is_ with rfl | rfl <;> decide
  obtain ⟨need, needs⟩ : ∃ need, switch.value? = some need := by rcases is_ with rfl | rfl <;> exact ⟨_, rfl⟩
  -- Both calls ask for the same but for the input, and where one is refused the other is refused alike.
  have asks : (requestOf .run (left ++ source ++ right)).run.run σ =
      ((fun asked => (asked.1.feed i f, asked.2)) <$> requestOf .run (left ++ right)).run.run σ := by
    rw [requestOf_eq, requestOf_eq, map_bind, run_bind, run_bind, run_tree]
    dsimp only
    rw [Request.read_insert rfl around known needs is_ spelled made, reply_map]
    rfl
  unfold performIn
  rw [run_bind, run_bind, asks, run_map]
  cases asked : (requestOf .run (left ++ right)).run.run σ with
  | mk result σ' =>
    cases result with
    | error e => rfl
    | ok request =>
      obtain ⟨rfl, go⟩ := asked_of_ok asked
      have none := Request.go_sourceless rfl around go
      refine performRun_alike (v := .text s) fun recipe there => ⟨?_, ?_⟩
      · refine fed request.1 recipe none ?_
        rw [storedAt, run_bind, asked]
        exact there
      · rw [inputOf_sent none feeds]
        rfl

theorem saving_approach (w : Surroundings) (stamp : Journal.Stamp) (lead : List String) :
    Saving (approach w stamp lead) := by
  refine Saving.bind (fun σ => ?_) fun asked => Desk.saving_opened w stamp asked.1
  rw [requestOf_eq, run_bind, run_tree]
  dsimp only
  rcases Request.read σ.tree .top (lead ++ ["run"]) with e | s | ⟨c, operand, rest⟩
  · exact .refl σ.tree
  · cases s <;> exact .refl σ.tree
  · exact .refl σ.tree

theorem answer_insert {switch : Switch} {value : String} {i : Option String → Option String}
    {f : Option Path → Option Path} (leads : Request.Lead .top lead) (around : Request.Around .run left right)
    (is_ : switch.IsSource) (spelled : Spells switch value source)
    (made : ∀ t' : Tree, t'.Extends t → ∀ c : Choices, c.choose t' switch value = .ok (c.feed i f))
    (feeds : '\r' ∉ s.toList)
    (fed : ∀ (σ : Scene) (c : Choices) recipe, σ.tree.Extends t → c.input = none ∧ c.inputFile = none →
      (stored w ⟨lead ++ "run" :: (left ++ right), Text.Utf8.encode s.toList, stamp⟩).run.run (.on t) =
        (.ok recipe, σ) →
      (inputOf .run (c.feed i f) sent recipe.input).run.run σ = (.ok (.text s), σ)) :
    answer w t ⟨lead ++ "run" :: (left ++ source ++ right), sent, stamp⟩ =
      answer w t ⟨lead ++ "run" :: (left ++ right), Text.Utf8.encode s.toList, stamp⟩ := by
  -- The desk is set without regard to the words of the command; files may come to be on the way, but none goes.
  unfold answer
  rw [perform_lead leads, perform_lead leads, run_bind, run_bind]
  have saved := saving_approach w stamp lead (.on t)
  cases approached : (approach w stamp lead).run.run (.on t) with
  | mk result σ =>
    cases result with
    | error e => rfl
    | ok d =>
      rw [approached] at saved
      dsimp only
      rw [performIn_insert around is_ spelled (made σ.tree saved) feeds fun c recipe none there => ?_]
      refine fed σ c recipe saved none ?_
      rw [stored_lead leads, run_bind, approached]
      exact there

/-- Where the input of a run comes from makes no difference: a text without carriage returns comes to the same
whether it is given or sent, for every recipe, with all other words of the call as they may be. A file with its bytes
comes to the same for all recipes but those that take bytes. -/
theorem answer_source (w : Surroundings) (t : Tree) (stamp : Journal.Stamp)
    (leads : Request.Lead .top lead) (around : Request.Around .run left right) (feeds : '\r' ∉ s.toList) :
    (∀ given sent, Spells .input s given →
      answer w t ⟨lead ++ "run" :: (left ++ given ++ right), sent, stamp⟩ =
        answer w t ⟨lead ++ "run" :: (left ++ right), Text.Utf8.encode s.toList, stamp⟩) ∧
    ∀ name file sent, Spells .inputFile name file →
      Choices.named? t name = some (.file (Text.Utf8.encode s.toList)) →
      takesBytes w t ⟨lead ++ "run" :: (left ++ right), Text.Utf8.encode s.toList, stamp⟩ = false →
      answer w t ⟨lead ++ "run" :: (left ++ file ++ right), sent, stamp⟩ =
        answer w t ⟨lead ++ "run" :: (left ++ right), Text.Utf8.encode s.toList, stamp⟩ := by
  constructor
  · -- A text is taken as it is given, and one that is sent is decoded to itself.
    intro given sent spelled
    refine answer_insert leads around (.inl rfl) spelled (i := fun _ => some s) (f := id)
      (fun t' _ c => rfl) feeds fun σ c recipe _ none _ => ?_
    rw [inputOf_given none.2]
    rfl
  · -- The file is still there when it is read, and it is read as a text.
    intro name file sent spelled named texts
    refine answer_insert leads around (.inr rfl) spelled (i := id) (f := fun _ => some (.ofText name))
      (fun t' more => choose_file (named_of_extends more named)) feeds
      fun σ c recipe more none there => ?_
    have other : recipe.input ≠ .byteArray := by
      rw [takesBytes, there] at texts
      simpa using texts
    have holds := Tree.read_of_find? (find?_of_named (named_of_extends more named))
    exact inputOf_file none.1 other feeds holds

-- A folder with a recipe that takes a text, one that takes bytes, and a cup of text.
def shelf : Tree :=
  ⟨[(⟨0, ["recipes"]⟩, .folder),
    (⟨0, ["recipes", "upper.json"]⟩, .file (Text.Utf8.encode
      "\x7b\"recipe_id\": \"upper\", \"operations\": [\x7b\"op\": \"To Upper case\"\x7d]\x7d".toList)),
    (⟨0, ["recipes", "hex.json"]⟩, .file (Text.Utf8.encode
      "\x7b\"recipe_id\": \"hex\", \"input_type\": \"byteArray\", \"operations\": [\x7b\"op\": \"To Hex\"\x7d]\x7d".toList)),
    (⟨0, ["cup.txt"]⟩, .file (Text.Utf8.encode "ab".toList))]⟩

def homely : Surroundings := ⟨⟨1, ["home"]⟩, [], none, "2024-01-02"⟩

def answerBeside (words : List String) (sent : String) : Outcome :=
  answer homely shelf ⟨words, Text.Utf8.encode sent.toList, ⟨"", ""⟩⟩

def Outcome.shown (o : Outcome) : Nat × String :=
  (o.code, o.scene.out)

theorem lead_nil : Request.Lead .top [] where
  whole := ⟨[], rfl⟩
  plain := List.not_mem_nil

theorem around_upper : Request.Around .run ["upper"] ["--recipes-dir", "recipes", "--max-steps", "5"] where
  whole := ⟨⟨[], ["upper"]⟩, rfl⟩
  plain := by decide
  sourceless := by
    intro line read
    have same : Line.read .run ["upper", "--recipes-dir", "recipes", "--max-steps", "5"] =
      .ok ⟨[(.recipes, "recipes"), (.limit, "5")], ["upper"]⟩ := rfl
    cases same.symm.trans read
    decide

/-- A recipe that takes a text comes to the same from all three. -/
theorem answer_source_upper :
    answerBeside ["run", "upper", "--input", "ab", "--recipes-dir", "recipes", "--max-steps", "5"] "" =
      answerBeside ["run", "upper", "--recipes-dir", "recipes", "--max-steps", "5"] "ab" ∧
    answerBeside ["run", "upper", "--input-file=cup.txt", "--recipes-dir", "recipes", "--max-steps", "5"] "" =
      answerBeside ["run", "upper", "--recipes-dir", "recipes", "--max-steps", "5"] "ab" ∧
    (answerBeside ["run", "upper", "--recipes-dir", "recipes", "--max-steps", "5"] "ab").shown = (0, "AB\n") := by
  have same := answer_source (s := "ab") homely shelf ⟨"", ""⟩ lead_nil
    around_upper (by decide)
  have spelled : Spells .inputFile "cup.txt" ["--input-file=cup.txt"] := .joined
  have given := same.1 ["--input", "ab"] (Text.Utf8.encode "".toList) .apart
  have file := same.2 "cup.txt" _ (Text.Utf8.encode "".toList) spelled (by decide +kernel) (by decide +kernel)
  exact ⟨given, file, by decide +kernel⟩

/-- A recipe that takes bytes takes them from a file, and fails on the same text that is given or sent. -/
theorem answer_source_hex :
    (answerBeside ["run", "hex", "--input-file", "cup.txt", "--recipes-dir", "recipes"] "").shown =
      (0, "61 62\n") ∧
    (answerBeside ["run", "hex", "--input", "ab", "--recipes-dir", "recipes"] "").shown = (1, "") ∧
    (answerBeside ["run", "hex", "--recipes-dir", "recipes"] "ab").shown = (1, "") := by
  decide +kernel

end Kitchen.Command
