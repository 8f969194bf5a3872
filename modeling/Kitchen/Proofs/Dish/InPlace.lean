import Kitchen.Proofs.Dish.Detour
import Kitchen.Proofs.Json.Accepted
import Kitchen.Proofs.Number.Grammar

/-!
Dishes that are changed in place. A call changes the value and the tag one after the other, and can fail at several
places on its way; a dish whose call fails is as it was before. So only a dish without a value can have a tag that is
not known, and a dish that is of its type refuses nothing but unknown types, numbers that are none and JSON that is
none.
-/
namespace Kitchen.Dish

abbrev InPlace := EStateM Fault Dish

def await {α : Type} : Except Fault α → InPlace α
  | .ok a => pure a
  | .error f => throw f

def content : Kind → Value → Except Fault Value
  | .byteArray, .list xs => ((xs.mapM byte).mapError .misuse).map .bytes
  | _, v => .ok v

def putValue (v : Value) : InPlace Unit :=
  modify fun d => { d with value := v }

def putTag (tag : String) : InPlace Unit :=
  modify fun d => { d with tag }

def ownBytes : InPlace (List UInt8) := do
  let d ← getThe Dish
  match Kind.ofTag? d.tag with
  | some k => await ((toBytes d.valueOrEmpty k).mapError .misuse)
  | none => throw (.unknownType d.tag)

def become (target : Kind) : InPlace Unit := do
  let d ← getThe Dish
  match d.value with
  | .null => putTag target.tag
  | _ =>
    let bs ← ownBytes
    let v ← await ((ofBytes bs target).mapError (.unconvertible d.tag target.tag))
    putValue v
    putTag target.tag

-- Turns the dish to a type, and gives its value.
def ask (tag : String) : InPlace Value := do
  let target ← await (kindOf tag)
  let d ← getThe Dish
  if d.tag = tag then pure () else become target
  let d ← getThe Dish
  return d.valueOrEmpty

-- Replaces the value and the tag.
def put (v : Value) (tag : String) : InPlace Unit := do
  let kind ← await (kindOf tag)
  let v ← await (content kind v)
  putValue v
  putTag tag

variable {d d' e : Dish} {k t : Kind} {v w : Value} {tag : String} {f : Fault} {bs : List UInt8}

-- The outcome of a call on a dish: another dish if it succeeds, and the dish itself if it fails.
def outcome {α : Type} (d : Dish) : Except Fault (α × Dish) → EStateM.Result Fault Dish α
  | .ok (a, d') => .ok a d'
  | .error f => .error f d

theorem ownBytes_run (some : v ≠ .null) : ownBytes.run ⟨v, tag⟩ =
    outcome ⟨v, tag⟩ ((kindOf tag >>= fun k => (toBytes v k).mapError .misuse).map (·, ⟨v, tag⟩)) := by
  have value : valueOrEmpty ⟨v, tag⟩ = v := valueOrEmpty_some some
  change (match Kind.ofTag? tag with
    | .some k => await ((toBytes (valueOrEmpty ⟨v, tag⟩) k).mapError .misuse)
    | .none => throw (.unknownType tag) : InPlace (List UInt8)).run ⟨v, tag⟩ = _
  rw [value]
  unfold kindOf
  cases Kind.ofTag? tag with
  | none => rfl
  | some k =>
    dsimp only [bind, Except.bind]
    cases toBytes v k <;> rfl

theorem become_run (d : Dish) (target : Kind) :
    (become target).run d = outcome d ((d.translate target).map ((), ·)) := by
  obtain ⟨v, tag⟩ := d
  by_cases some : v = .null
  · subst some
    rfl
  · have steps : (become target).run ⟨v, tag⟩ = (do
        let bs ← ownBytes
        let w ← await ((ofBytes bs target).mapError (.unconvertible tag target.tag))
        putValue w
        putTag target.tag : InPlace Unit).run ⟨v, tag⟩ := by
      cases v with
      | null => exact absurd rfl some
      | _ => rfl
    have translated : Dish.translate ⟨v, tag⟩ target = (do
        let bs ← kindOf tag >>= fun k => (toBytes v k).mapError Fault.misuse
        let w ← (ofBytes bs target).mapError (.unconvertible tag target.tag)
        return ⟨w, target.tag⟩) := by
      rw [bind_assoc]
      cases v with
      | null => exact absurd rfl some
      | _ => rfl
    rw [steps, translated]
    -- The dish is changed only after the last step that can fail.
    change EStateM.bind ownBytes _ _ = _
    unfold EStateM.bind
    have bytes := @ownBytes_run v tag some
    dsimp only [EStateM.run] at bytes
    rw [bytes]
    cases kindOf tag >>= fun k => (toBytes v k).mapError Fault.misuse with
    | error f => rfl
    | ok bs =>
      change (await ((ofBytes bs target).mapError _) >>= _ : InPlace Unit).run ⟨v, tag⟩ = outcome _ (Except.map _
        ((ofBytes bs target).mapError _ >>= _))
      cases ofBytes bs target <;> rfl

/-- Asking a dish in place comes to what asking it comes to. -/
theorem ask_run (tag : String) (d : Dish) : (ask tag).run d = outcome d (d.get tag) := by
  unfold ask Dish.get Dish.turn
  cases kindOf tag with
  | error f => rfl
  | ok k =>
    let held : InPlace Value := do
      let d ← getThe Dish
      return d.valueOrEmpty
    change (if d.tag = tag then held else become k >>= fun _ => held : InPlace Value).run d = outcome d
      ((if d.tag = tag then pure d else d.translate k) >>= fun d' => pure (d'.valueOrEmpty, d'))
    by_cases own : d.tag = tag
    · rw [if_pos own, if_pos own]
      rfl
    · rw [if_neg own, if_neg own]
      have turned := become_run d k
      change EStateM.bind (become k) _ d = _
      unfold EStateM.bind
      dsimp only [EStateM.run] at turned
      rw [turned]
      cases d.translate k <;> rfl

/-- What is made of a value and a tag holds what is stored under the type. -/
theorem set_content (v : Value) (tag : String) :
    Dish.set v tag = kindOf tag >>= fun k => (content k v).map (⟨·, tag⟩) := by
  unfold Dish.set
  cases kindOf tag with
  | error f => rfl
  | ok k =>
    cases k with
    | byteArray =>
      cases v with
      | list xs =>
        change ((xs.mapM byte).mapError Fault.misuse >>= _) = (((xs.mapM byte).mapError _).map _).map _
        cases xs.mapM byte <;> rfl
      | _ => rfl
    | _ => rfl

/-- Replacing what a dish holds in place comes to the dish that is made of it. -/
theorem put_run (v : Value) (tag : String) (d : Dish) :
    (put v tag).run d = outcome d ((Dish.set v tag).map ((), ·)) := by
  rw [set_content]
  unfold put
  cases kindOf tag with
  | error f => rfl
  | ok k =>
    change (await (content k v) >>= _ : InPlace Unit).run d = outcome d (((content k v).map _).map _)
    cases content k v <;> rfl

/-- A call that fails leaves the dish as it was. -/
theorem outcome_failed {α : Type} {r : Except Fault (α × Dish)} (failed : outcome d r = .error f e) :
    e = d ∧ r = .error f := by
  cases r with
  | error f' =>
    cases failed
    exact ⟨rfl, rfl⟩
  | ok a => cases failed

-- What can be done with a dish. After a clone, it is the clone that is gone on with.
inductive Call where
  | get (tag : String)
  | set (v : Value) (tag : String)
  | clone

def dishOf {α : Type} : EStateM.Result Fault Dish α → Dish
  | .ok _ d => d
  | .error _ d => d

def next (d : Dish) : Call → Dish
  | .get tag => dishOf ((ask tag).run d)
  | .set v tag => dishOf ((put v tag).run d)
  | .clone =>
    match d.clone with
    | .ok d' => d'
    | .error _ => d

def after (d : Dish) (calls : List Call) : Dish :=
  calls.foldl next d

def Known (d : Dish) : Prop :=
  d.value = .null ∨ ∃ k, Kind.ofTag? d.tag = some k

theorem set_known (set : Dish.set v tag = .ok d) : d.Known := by
  have same : d.tag = tag := set_tag set
  rw [set_content] at set
  obtain ⟨k, known, -⟩ := bind_ok set
  refine .inr ⟨k, ?_⟩
  rw [same]
  exact kindOf_ok known

theorem make_known (made : Dish.make v tag = .ok d) : d.Known := by
  unfold Dish.make at made
  split at made
  · cases made
    exact .inl rfl
  · exact set_known made

theorem get_known (get : d.get tag = .ok (v, d')) : d'.Known := by
  obtain ⟨turned, -⟩ := get_eq get
  have same : d'.tag = tag := turn_tag turned
  refine .inr ?_
  rw [same]
  exact turn_known turned

theorem clone_known (cloned : d.clone = .ok d') : d'.Known := by
  unfold Dish.clone at cloned
  split at cloned
  · obtain ⟨cs, -, cloned⟩ := bind_ok cloned
    obtain ⟨w, -, cloned⟩ := bind_ok cloned
    exact make_known cloned
  · exact make_known cloned

theorem Known.next (known : d.Known) (call : Call) : (d.next call).Known := by
  cases call with
  | get tag =>
    change (dishOf ((ask tag).run d)).Known
    rw [ask_run]
    cases answer : d.get tag with
    | error f => exact known
    | ok a => exact get_known answer
  | set v tag =>
    change (dishOf ((put v tag).run d)).Known
    rw [put_run]
    cases made : Dish.set v tag with
    | error f => exact known
    | ok d' => exact set_known made
  | clone =>
    change Known (match d.clone with
      | .ok d' => d'
      | .error _ => d)
    split
    · next cloned => exact clone_known cloned
    · exact known

/-- Whatever is done with a dish, it comes to no tag that is not known but without a value. -/
theorem Known.after (known : d.Known) (calls : List Call) : (d.after calls).Known := by
  induction calls generalizing d with
  | nil => exact known
  | cons call calls ih => exact ih (known.next call)

/-- What is read as a number: nothing at all is zero. -/
theorem readNumber_fails {cs : List Char} (stripped : Text.strip cs = cs) :
    (∃ why, readNumber cs = .error why) ↔ cs ≠ [] ∧ ¬ Number.Spelling cs := by
  have float := Number.readFloat_iff stripped
  unfold readNumber
  cases cs with
  | nil => simp
  | cons c cs =>
    rw [if_neg (by simp)]
    split
    · next n whole =>
      have spelling := Number.readInteger_spelling whole
      simp [spelling]
    · split
      · next x read =>
        have spelling := float.mp ⟨x, read⟩
        simp [spelling]
      · next none =>
        have no : ¬ Number.Spelling (c :: cs) := by
          intro spelling
          obtain ⟨x, read⟩ := float.mpr spelling
          rw [none] at read
          cases read
        simp [no]

def Unfit (t : Kind) (cs : List Char) : Prop :=
  match t with
  | .number => Text.strip cs ≠ [] ∧ ¬ Number.Spelling (Text.strip cs)
  | .json => cs ≠ [] ∧ ¬ Json.Document cs
  | _ => False

theorem ofBytes_fails : (∃ why, ofBytes bs t = .error why) ↔ Unfit t (Text.Utf8.decode bs) := by
  unfold ofBytes Unfit
  cases t with
  | string => simp
  | byteArray => simp
  | number => exact readNumber_fails (Text.strip_strip _)
  | json =>
    dsimp only
    generalize Text.Utf8.decode bs = cs
    cases cs with
    | nil => simp
    | cons c cs =>
      rw [if_neg (by simp), ← Json.readChars_iff]
      cases Json.readChars (c :: cs) <;> simp [Except.mapError]

-- It has no value, or one of its type; and no whole number with more digits than are converted, and no text
-- with halves in it.
def Sound (d : Dish) : Prop :=
  d.value = .null ∨ d.Typed ∧ (∀ n, d.value.whole? = some n → Number.Short n) ∧
    (d.tag = Kind.string.tag → d.value.isUntorn)

def Shows (d : Dish) (s : String) : Prop :=
  ∃ d', d.get "string" = .ok (.text s, d')

-- The reasons why a dish refuses a type: there is no such type, or it is another one than its own and the text
-- of the dish is not fit for it.
inductive Refusal (d : Dish) : String → Prop where
  | unknown {tag : String} (unknown : Kind.ofTag? tag = none) : Refusal d tag
  | unfit {t : Kind} {s : String} (other : d.tag ≠ t.tag) (text : d.Shows s) (unfit : Unfit t s.toList) :
      Refusal d t.tag

theorem Shows.unique {s s' : String} (text : d.Shows s) (text' : d.Shows s') : s = s' := by
  obtain ⟨d₁, here⟩ := text
  obtain ⟨d₂, there⟩ := text'
  rw [here] at there
  exact Value.text.inj (Prod.mk.inj (Except.ok.inj there)).1

/-- Of the texts, those that have bytes are without halves. -/
theorem text_of_bytes (text : v.isText) (bytes : toBytes v .string = .ok bs) : ∃ s, v = .text s := by
  cases v with
  | text s => exact ⟨s, rfl⟩
  | torn t =>
    have refused : ∃ m, encoded t.glyphs = .error m := ⟨_, if_pos t.torn⟩
    obtain ⟨m, refused⟩ := refused
    rw [show toBytes (.torn t) .string = encoded t.glyphs from rfl, refused] at bytes
    cases bytes
  | _ => cases text

/-- A value of a type has bytes, if it has no halves when it is a text. -/
theorem toBytes_untorn (holds : k.Holds v) (untorn : k = .string → v.isUntorn) :
    ∃ bs, toBytes v k = .ok bs := by
  by_cases text : k = .string
  · subst text
    obtain ⟨s, same⟩ := Value.shown_of_isUntorn (untorn rfl)
    rw [Value.shown_of_isText holds] at same
    rw [same]
    exact ⟨_, toBytes_text s⟩
  · exact toBytes_ok holds text

/-- The text of a dish is what its bytes are read as. -/
theorem shows_bytes (some : v ≠ .null) (holds : k.Holds v) (bytes : toBytes v k = .ok bs) :
    Shows ⟨v, k.tag⟩ (String.ofList (Text.Utf8.decode bs)) := by
  by_cases own : k = .string
  · -- A text is not turned; its bytes are read as the same text.
    subst own
    obtain ⟨s, rfl⟩ := text_of_bytes holds bytes
    rw [toBytes_text] at bytes
    cases bytes
    change Shows ⟨.text s, "string"⟩ (String.ofList (Text.Utf8.decode (Text.Utf8.encode s.toList)))
    rw [Text.Utf8.decode_encode, String.ofList_toList]
    exact ⟨_, get_own (kind_of_tag .string)⟩
  · exact ⟨_, get_other k .string some (mt tag_injective own) bytes rfl (by simp)⟩

/-- A type that there is is refused if it is another one than the dish's own, and the dish's text is not fit for it. -/
theorem refusal_iff {s : String} (text : d.Shows s) : d.Refusal t.tag ↔ d.tag ≠ t.tag ∧ Unfit t s.toList := by
  constructor
  · intro refusal
    generalize same : t.tag = tag at refusal
    cases refusal with
    | unknown unknown =>
      rw [← same, kind_of_tag] at unknown
      cases unknown
    | @unfit t' s' other text' unfit =>
      obtain rfl := tag_injective same
      obtain rfl := text.unique text'
      exact ⟨other, unfit⟩
  · rintro ⟨other, unfit⟩
    exact .unfit other text unfit

theorem not_unfit_nil (t : Kind) : ¬ Unfit t [] := by
  cases t with
  | number => exact fun unfit => unfit.1 rfl
  | json => exact fun unfit => unfit.1 rfl
  | _ => exact id

/-- A dish that has a value of its type, or none, can be turned to any type but those that it refuses: types that
do not exist, and those that its text is not fit for. It fails in no other way. -/
theorem get_or_refusal
    (typed : d.value = .null ∨ d.Typed ∧ (d.tag = Kind.string.tag → d.value.isUntorn)) (tag : String) :
    (∃ f, d.get tag = .error f ∧ f.Refuses ∧ d.Refusal tag) ∨
      (∃ a, d.get tag = .ok a) ∧ ¬ d.Refusal tag := by
  cases target : Kind.ofTag? tag with
  | none => exact .inl ⟨_, get_unknown d target, trivial, .unknown target⟩
  | some t =>
    obtain rfl := tag_of_kind target
    obtain ⟨v, own⟩ := d
    by_cases some : v = .null
    · -- Without a value it becomes of any type, and its text is empty.
      subst some
      have empty : Shows ⟨.null, own⟩ "" := ⟨_, get_null own .string⟩
      refine .inr ⟨⟨_, get_null own t⟩, fun refusal => ?_⟩
      exact not_unfit_nil t ((refusal_iff empty).mp refusal).2
    · obtain ⟨⟨k, known, value⟩, untorn⟩ := typed.resolve_left some
      obtain rfl : k.tag = own := tag_of_kind known
      have holds : k.Holds v := value.resolve_left some
      obtain ⟨bs, bytes⟩ := toBytes_untorn holds fun text => untorn (congrArg Kind.tag text)
      have refusal := @refusal_iff ⟨v, k.tag⟩ t _ (shows_bytes some holds bytes)
      rw [String.toList_ofList, ← ofBytes_fails] at refusal
      by_cases same : k.tag = t.tag
      · refine .inr ⟨?_, fun refused => (refusal.mp refused).1 same⟩
        rw [← same]
        exact ⟨_, get_own (d := ⟨v, k.tag⟩) known⟩
      · -- It is turned to bytes without fail, and these are read as the type or not.
        have turned := get_read k t some same bytes
        cases read : ofBytes bs t with
        | error why =>
          rw [read] at turned
          exact .inl ⟨_, turned, trivial, refusal.mpr ⟨same, why, read⟩⟩
        | ok w =>
          rw [read] at turned
          refine .inr ⟨⟨_, turned⟩, fun refused => ?_⟩
          obtain ⟨-, why, failed⟩ := refusal.mp refused
          rw [read] at failed
          cases failed

/-- A dish whose value has no bytes cannot be turned. -/
theorem get_misused {m : Misuse} (some : v ≠ .null) (other : k.tag ≠ t.tag) (bytes : toBytes v k = .error m) :
    Dish.get ⟨v, k.tag⟩ t.tag = .error (.misuse m) := by
  have translated : Dish.translate ⟨v, k.tag⟩ t = .error (.misuse m) := by
    unfold translate
    dsimp only
    split
    · exact absurd rfl some
    · rw [kindOf_of_kind (kind_of_tag k)]
      change ((toBytes v k).mapError Fault.misuse >>= _) = _
      rw [bytes]
      rfl
  unfold get turn
  rw [kindOf_of_kind (kind_of_tag t)]
  change ((if k.tag = t.tag then pure ⟨v, k.tag⟩ else Dish.translate ⟨v, k.tag⟩ t) >>= _) = _
  rw [if_neg other, translated]
  rfl

/-- A dish whose tag is known, or that has no value, calls no type unknown but one that it is asked for. -/
theorem Known.unknownType {u : String} (known : d.Known) (failed : d.get tag = .error (.unknownType u)) :
    Kind.ofTag? tag = none := by
  cases target : Kind.ofTag? tag with
  | none => rfl
  | some t =>
    exfalso
    obtain rfl := tag_of_kind target
    obtain ⟨v, own⟩ := d
    by_cases some : v = .null
    · subst some
      rw [get_null] at failed
      cases failed
    obtain ⟨k, known⟩ := known.resolve_left some
    obtain rfl : k.tag = own := tag_of_kind known
    by_cases same : k.tag = t.tag
    · have held := get_own (d := ⟨v, k.tag⟩) known
      rw [← same, held] at failed
      cases failed
    · -- What goes wrong on the way is a misuse of the value, or its bytes are not of the type.
      cases bytes : toBytes v k with
      | error m =>
        rw [get_misused some same bytes] at failed
        cases failed
      | ok bs =>
        rw [get_read k t some same bytes] at failed
        cases read : ofBytes bs t with
        | error why =>
          rw [read] at failed
          cases failed
        | ok w =>
          rw [read] at failed
          cases failed

/-- Calls on dishes are all or nothing. Whatever was done with a dish from when it was made, a call that fails leaves
its value and its tag as they were before, and a tag that is not known stands only with no value, so no type is
called unknown but one that was asked for. If the value is of its type, or if there is none, the dish refuses
exactly the types that do not exist, numbers when its text is none and JSON when its text is not empty and
none, and asking it fails in no other way. -/
theorem calls_all_or_nothing (made : Dish.make v tag = .ok d) (calls : List Call) :
    (∀ asked f e, (ask asked).run (d.after calls) = .error f e → e = d.after calls) ∧
    (∀ w given f e, (put w given).run (d.after calls) = .error f e → e = d.after calls) ∧
    ((d.after calls).value = .null ∨ ∃ k, Kind.ofTag? (d.after calls).tag = some k) ∧
    (∀ asked u e, (ask asked).run (d.after calls) = .error (.unknownType u) e → Kind.ofTag? asked = none) ∧
    ((d.after calls).Sound → ∀ asked,
      (∀ f e, (ask asked).run (d.after calls) = .error f e → f.Refuses) ∧
      ((∃ f e, (ask asked).run (d.after calls) = .error f e) ↔ (d.after calls).Refusal asked)) := by
  have known := (make_known made).after calls
  generalize d.after calls = e at known
  refine ⟨fun asked f e' failed => ?_, fun w given f e' failed => ?_, known, fun asked u e' failed => ?_,
    fun sound asked => ?_⟩
  · rw [ask_run] at failed
    exact (outcome_failed failed).1
  · rw [put_run] at failed
    exact (outcome_failed failed).1
  · rw [ask_run] at failed
    exact known.unknownType (outcome_failed failed).2
  · rw [ask_run]
    have typed := sound.imp_right fun ⟨typed, _, untorn⟩ => And.intro typed untorn
    rcases get_or_refusal typed asked with ⟨f, failed, refuses, refusal⟩ | ⟨⟨a, given⟩, fits⟩
    · rw [failed]
      refine ⟨fun f' e' same => ?_, iff_of_true ⟨f, e, rfl⟩ refusal⟩
      cases same
      exact refuses
    · rw [given]
      refine ⟨fun f' e' same => (by cases same), iff_of_false ?_ fits⟩
      rintro ⟨f, e', same⟩
      cases same

def cutShort : Dish :=
  ⟨.text "[1", "string"⟩

-- It is asked for a type that does not exist, and set to it, and then turned to bytes and cloned.
def tries : List Call :=
  [.get "octal", .set (.int 1) "octal", .get "byteArray", .clone]

/-- The bytes are refused as JSON, for want of a comma at their end, and stay what they are. -/
theorem calls_all_or_nothing_short : Dish.make (.text "[1") "string" = .ok cutShort ∧
    cutShort.after tries = ⟨.bytes [0x5B, 0x31], "byteArray"⟩ ∧ (cutShort.after tries).Sound ∧
    (cutShort.after tries).Refusal "JSON" ∧
    (ask "JSON").run (cutShort.after tries) =
      .error (.unconvertible "byteArray" "JSON" (.notJson ⟨.noComma, 2, 1, 3⟩)) (cutShort.after tries) := by
  have made : Dish.make (.text "[1") "string" = .ok cutShort := make_text "[1"
  have tried : cutShort.after tries = ⟨.bytes [0x5B, 0x31], "byteArray"⟩ := by rfl
  have sound : (cutShort.after tries).Sound := by
    rw [tried]
    refine .inr ⟨ofType_of_kind (k := .byteArray) (.inr ⟨_, rfl⟩) rfl, fun n whole => ?_, fun _ => rfl⟩
    cases whole
  have failed : ∃ e, (ask "JSON").run (cutShort.after tries) =
      .error (.unconvertible "byteArray" "JSON" (.notJson ⟨.noComma, 2, 1, 3⟩)) e := by
    have text : Text.Utf8.decode [0x5B, 0x31] = ['[', '1'] := Text.Utf8.decode_encode ['[', '1']
    have read : ofBytes [0x5B, 0x31] .json = .error (.notJson ⟨.noComma, 2, 1, 3⟩) := by
      unfold ofBytes
      rw [text]
      rfl
    have refused := @get_read .byteArray .json (.bytes [0x5B, 0x31]) _ (by simp) (by decide) rfl
    rw [read] at refused
    refine ⟨⟨.bytes [0x5B, 0x31], "byteArray"⟩, ?_⟩
    rw [tried, ask_run]
    exact congrArg (outcome _) refused
  obtain ⟨e, failed⟩ := failed
  obtain ⟨same, -, -, -, fails⟩ := calls_all_or_nothing made tries
  obtain rfl := same _ _ _ failed
  exact ⟨made, tried, sound, (fails sound "JSON").2.mp ⟨_, _, failed⟩, failed⟩

end Kitchen.Dish
