import Kitchen.Proofs.Assembly.Settling
import Kitchen.Proofs.Json.Plain

/-!
Which configs are recipes. A config is accepted exactly if each of its entries is well formed: it names an
operation that is known, and its arguments can be settled. Of any other config it is said what is wrong
with it.
-/
namespace Kitchen

open Value (field?)

namespace Catalog

variable {c : Catalog} {name : String} {defaults defaults' : List Value}

-- A catalog in which transforms were registered one after the other.
inductive Built : Catalog → Prop where
  | empty : Built .empty
  | register {c c' : Catalog} {t : Transform} (built : Built c) (registered : c.register t = .ok c') :
      Built c'

/-- Transforms have names, and not those of primitives. -/
theorem Built.named (built : c.Built) :
    ∀ t ∈ c.transforms, t.name.isEmpty = false ∧ Primitive.ofName? t.name = none := by
  induction built with
  | empty => exact fun t mem => absurd mem List.not_mem_nil
  | @register c c' t _ registered ih =>
    unfold Catalog.register at registered
    split at registered
    · cases registered
    · next named =>
      split at registered
      · cases registered
      · next free =>
        cases registered
        have here : t.name.isEmpty = false ∧ Primitive.ofName? t.name = none :=
          ⟨Bool.eq_false_iff.mpr named, Option.not_isSome_iff_eq_none.mp free⟩
        exact List.forall_mem_cons.mpr ⟨here, fun t' mem => ih t' (List.mem_of_mem_filter mem)⟩

theorem standard_built : standard.Built := by
  -- A transform that is registered stands before those that were registered earlier.
  have fromHex : Built ⟨[.fromHex]⟩ := .register (t := .fromHex) .empty rfl
  have toHex : Built ⟨[.toHex, .fromHex]⟩ := .register (t := .toHex) fromHex rfl
  have findReplace : Built ⟨[.findReplace, .toHex, .fromHex]⟩ :=
    .register (t := .findReplace) toHex rfl
  have reverse : Built ⟨[.reverse, .findReplace, .toHex, .fromHex]⟩ :=
    .register (t := .reverse) findReplace rfl
  have toLowerCase : Built ⟨[.toLowerCase, .reverse, .findReplace, .toHex, .fromHex]⟩ :=
    .register (t := .toLowerCase) reverse rfl
  exact .register (t := .toUpperCase) toLowerCase rfl

theorem find_named {t : Transform} (found : c.find? name = some t) : t ∈ c.transforms ∧ t.name = name :=
  ⟨List.mem_of_find?_eq_some found, by simpa using List.find?_some found⟩

theorem Knows.nonempty (built : c.Built) (knows : c.Knows name defaults) : name.isEmpty = false := by
  cases knows with
  | primitive p => cases p <;> rfl
  | transform found =>
    obtain ⟨mem, rfl⟩ := find_named found
    exact (built.named _ mem).1

/-- There is one operation of a name at most. -/
theorem Knows.unique (built : c.Built) (knows : c.Knows name defaults) (knows' : c.Knows name defaults') :
    defaults = defaults' := by
  -- No transform is registered under the name of a primitive.
  have apart : ∀ {p : Primitive} {t : Transform}, c.find? p.name ≠ some t := by
    intro p t found
    obtain ⟨mem, same⟩ := find_named found
    have free := (built.named t mem).2
    rw [same, Primitive.ofName?_name] at free
    cases free
  cases knows with
  | primitive p =>
    generalize same : p.name = name at knows'
    cases knows' with
    | primitive p' =>
      have equal := Primitive.ofName?_name p
      rw [same, Primitive.ofName?_name] at equal
      rw [Option.some.inj equal]
    | transform found => exact absurd (same ▸ found) apart
  | transform found =>
    cases knows' with
    | primitive p' => exact absurd found apart
    | transform found' =>
      rw [found] at found'
      rw [Option.some.inj found']

end Catalog

namespace Assembly

variable {c : Catalog} {v config : Value} {e : Entry} {op : Operation} {f : Definition.Fault}
  {defaults args : List Value}

def Gives (fields : List (Value × Value)) (args : List Value) : Prop :=
  (field? "args" fields = none ∧ args = []) ∨ field? "args" fields = some (.list args)

def Readable (defaults args : List Value) : Prop :=
  ∀ (i : Nat) (v : Value), Owed defaults[i]? v → args[i]? = some v → ∃ n, Denotes v n

-- An entry that is an operation: a map that names one that is known, with a list of arguments or none, that can
-- be read as its defaults ask.
inductive WellFormed (c : Catalog) : Value → Prop where
  | entry {fields : List (Value × Value)} {name : String} {defaults args : List Value}
      (named : field? "op" fields = some (.text name)) (known : c.Knows name defaults)
      (gives : Gives fields args) (readable : Readable defaults args) : WellFormed c (.map fields)

-- An operation is that of an entry: it has its name, its arguments as they were settled, and its flags.
inductive Stands : Value → Operation → Prop where
  | entry {fields : List (Value × Value)} {args : List Value} {op : Operation}
      (named : field? "op" fields = some (.text op.name)) (gives : Gives fields args)
      (settled : Settled op.defaults args op.args) (disabled : op.disabled = Entry.flag "disabled" fields)
      (pauses : op.pauses = Entry.flag "breakpoint" fields) : Stands (.map fields) op

-- What is said to be wrong with an entry is wrong with it.
inductive Blames (c : Catalog) : Value → Definition.Fault → Prop where
  | notMap {v : Value} (other : ∀ fields, v ≠ .map fields) : Blames c v (.badEntry v)
  | nameless {fields : List (Value × Value)} (none : field? "op" fields = none) :
      Blames c (.map fields) (.badEntry (.map fields))
  | notList {fields : List (Value × Value)} {name w : Value} (named : field? "op" fields = some name)
      (given : field? "args" fields = some w) (other : ∀ args, w ≠ .list args) :
      Blames c (.map fields) (.argsNotList name)
  | notName {fields : List (Value × Value)} {name : Value} (named : field? "op" fields = some name)
      (other : ¬(name.isText ∧ name.truthy)) : Blames c (.map fields) (.badName name)
  | unknown {fields : List (Value × Value)} {name : Value} (named : field? "op" fields = some name)
      (text : name.isText) (unknown : ∀ s, name = .text s → ∀ defaults, ¬c.Knows s defaults) :
      Blames c (.map fields) (.unknownOperation name)
  | notWhole {fields : List (Value × Value)} {name : String} {v : Value} {defaults args : List Value} {i : Nat}
      (named : field? "op" fields = some (.text name)) (known : c.Knows name defaults)
      (gives : Gives fields args) (owed : Owed defaults[i]? v) (here : args[i]? = some v)
      (unread : ∀ n, ¬Denotes v n) : Blames c (.map fields) (.notWhole name i v)

theorem Gives.unique {fields : List (Value × Value)} {args args' : List Value} (gives : Gives fields args)
    (gives' : Gives fields args') : args = args' := by
  rcases gives with ⟨none, rfl⟩ | given
  · rcases gives' with ⟨-, rfl⟩ | given'
    · rfl
    · rw [none] at given'
      cases given'
  · rcases gives' with ⟨none, -⟩ | given'
    · rw [none] at given
      cases given
    · rw [given] at given'
      cases given'
      rfl

/-- Nothing is wrong with an entry that is well formed. -/
theorem Blames.malformed (built : c.Built) (blames : Blames c v f) : ¬WellFormed c v := by
  rintro ⟨named, known, gives, readable⟩
  -- Each fault denies one of these four.
  cases blames with
  | notMap other => exact other _ rfl
  | nameless none =>
    rw [none] at named
    cases named
  | notList named' given other =>
    rcases gives with ⟨none, -⟩ | given'
    · rw [none] at given
      cases given
    · rw [given'] at given
      exact other _ (Option.some.inj given).symm
  | notName named' other =>
    rw [named] at named'
    cases named'
    refine other ⟨rfl, ?_⟩
    rw [Value.truthy, known.nonempty built]
    rfl
  | unknown named' _ unknown =>
    rw [named] at named'
    exact unknown _ (Option.some.inj named').symm _ known
  | notWhole named' known' gives' owed here unread =>
    rw [named] at named'
    cases named'
    obtain rfl := known.unique built known'
    obtain rfl := gives.unique gives'
    obtain ⟨n, read⟩ := readable _ _ owed here
    exact unread n read

theorem field_plain {name : String} {es : List (Value × Value)} {w : Value} (plain : Json.Plain (.map es))
    (found : field? name es = some w) : Json.Plain w := by
  cases plain with
  | map keys values =>
    obtain ⟨e, here, rfl⟩ := Option.map_eq_some_iff.mp found
    exact values e (List.mem_of_find?_eq_some here)

/-- With a list of arguments, an entry depends on its name alone. -/
theorem ofValue_gives {fields : List (Value × Value)} {name : Value}
    (named : field? "op" fields = some name) (gives : Gives fields args) :
    Entry.ofValue (.map fields) =
      if name.isText && name.truthy then
        .ok ⟨name, args, Entry.flag "disabled" fields, Entry.flag "breakpoint" fields⟩
      else .error (.badName name) := by
  have given : (field? "args" fields).getD (.list []) = .list args := by
    rcases gives with ⟨none, rfl⟩ | given
    · rw [none]
      rfl
    · rw [given]
      rfl
  simp only [Entry.ofValue, named, given]

theorem ofValue_notList {fields : List (Value × Value)} {name w : Value} (plain : Json.Plain w)
    (named : field? "op" fields = some name) (given : field? "args" fields = some w)
    (other : ∀ args, w ≠ .list args) : Entry.ofValue (.map fields) = .error (.argsNotList name) := by
  have here : (field? "args" fields).getD (.list []) = w := by
    rw [given]
    rfl
  simp only [Entry.ofValue, named, here]
  -- A tuple would be as good as a list, but no JSON value is one.
  cases plain with
  | list items => exact absurd rfl (other _)
  | _ => rfl

/-- A JSON value is no entry, and it is said why, or it is read as one with its name, its arguments and its
flags. -/
theorem ofValue_cases (c : Catalog) (plain : Json.Plain v) :
    (∃ f, Entry.ofValue v = .error f ∧ Blames c v f) ∨
      ∃ fields e, v = .map fields ∧ Entry.ofValue v = .ok e ∧
        field? "op" fields = some e.name ∧ e.name.isText ∧ Gives fields e.args ∧
        e.disabled = Entry.flag "disabled" fields ∧ e.pauses = Entry.flag "breakpoint" fields := by
  cases v with
  | map fields =>
    cases named : field? "op" fields with
    | none =>
      refine .inl ⟨_, ?_, .nameless named⟩
      simp only [Entry.ofValue, named]
    | some name =>
      by_cases gives : ∃ args, Gives fields args
      · obtain ⟨args, gives⟩ := gives
        rw [ofValue_gives named gives]
        by_cases good : name.isText ∧ name.truthy
        · exact .inr ⟨fields, _, rfl, if_pos (Bool.and_eq_true_iff.mpr good), named, good.1, gives, rfl, rfl⟩
        · exact .inl ⟨_, if_neg (mt Bool.and_eq_true_iff.mp good), .notName named good⟩
      · -- Something else than a list is given for the arguments.
        obtain ⟨w, given⟩ : ∃ w, field? "args" fields = some w := by
          cases given : field? "args" fields with
          | none => exact absurd ⟨[], .inl ⟨given, rfl⟩⟩ gives
          | some w => exact ⟨w, rfl⟩
        have other : ∀ args, w ≠ .list args := fun args same => gives ⟨args, .inr (same ▸ given)⟩
        exact .inl ⟨_, ofValue_notList (field_plain plain given) named given other,
          .notList named given other⟩
  | _ => exact .inl ⟨_, rfl, .notMap nofun⟩

theorem blames_of_read (plain : Json.Plain v) (read : Entry.ofValue v = .error f) : Blames c v f := by
  rcases ofValue_cases c plain with ⟨f', read', blames⟩ | ⟨fields, e, -, read', -⟩
  · rw [read] at read'
    cases read'
    exact blames
  · rw [read] at read'
    cases read'

theorem blames_of_made (plain : Json.Plain v) (read : Entry.ofValue v = .ok e)
    (made : operation c e = .error f) : Blames c v f := by
  rcases ofValue_cases c plain with ⟨f', read', -⟩ | ⟨fields, e', rfl, read', named, text, gives, -⟩
  · rw [read] at read'
    cases read'
  · rw [read] at read'
    cases read'
    rcases operation_error made with ⟨unknown, rfl⟩ | ⟨name, defaults, same, known, failed⟩
    · exact .unknown named text unknown
    · obtain ⟨i, v, owed, here, unread, rfl⟩ := settleAll_error failed
      rw [Nat.zero_add]
      exact .notWhole (same ▸ named) known gives owed here unread

/-- What was settled had no text in it that could not be read. -/
theorem Settled.readable {settled : List Value} (all : Settled defaults args settled) :
    Readable defaults args := by
  intro i v owed here
  obtain ⟨w, -, settles⟩ := all.given i _ here
  generalize defaults[i]? = default at owed settles
  cases settles with
  | read read => exact ⟨_, read⟩
  | kept free => exact absurd owed free

theorem stands_of_made (plain : Json.Plain v) (read : Entry.ofValue v = .ok e)
    (made : operation c e = .ok op) : WellFormed c v ∧ Stands v op := by
  rcases ofValue_cases c plain with ⟨f', read', -⟩ | ⟨fields, e', rfl, read', named, -, gives, flags⟩
  · rw [read] at read'
    cases read'
  · rw [read] at read'
    cases read'
    have parts := operation_made made
    have settled : Settled op.defaults e.args op.args := settleAll_ok parts.args
    rw [parts.name] at named
    refine ⟨.entry named parts.known gives settled.readable, ?_⟩
    exact .entry named gives settled (parts.disabled.trans flags.1)
      (parts.pauses.trans flags.2)

/-- What went wrong with a config went wrong with one of its entries, unless it is no list. -/
theorem ofConfig_error (plain : Json.Plain config) (made : ofConfig c config = .error f) :
    ((∀ xs, config ≠ .list xs) ∧ f = .configNotList) ∨
      ∃ xs, config = .list xs ∧ ∃ v ∈ xs, Blames c v f := by
  cases plain with
  | @list xs items =>
    refine .inr ⟨xs, rfl, ?_⟩
    unfold ofConfig at made
    -- All entries are read before an operation is made of any of them.
    rcases bind_error made with failed | ⟨d, read, made⟩
    · rcases bind_error failed with failed | ⟨es, -, failed⟩
      · obtain ⟨v, mem, unread⟩ := mapM_error failed
        exact ⟨v, mem, blames_of_read (items v mem) unread⟩
      · cases failed
    · obtain ⟨es, all, read⟩ := bind_ok read
      cases read
      obtain ⟨e, mem, unmade⟩ := mapM_error made
      obtain ⟨v, mem', read⟩ := mapM_ok all e mem
      exact ⟨v, mem', blames_of_made (items v mem') read unmade⟩
  | _ =>
    cases made
    exact .inl ⟨nofun, rfl⟩

/-- What was made of a config was made of its entries, one by one. -/
theorem ofConfig_ok {ops : List Operation} (plain : Json.Plain config)
    (made : ofConfig c config = .ok ops) :
    ∃ xs, config = .list xs ∧ List.Forall₂ (fun v op => WellFormed c v ∧ Stands v op) xs ops := by
  cases plain with
  | @list xs items =>
    refine ⟨xs, rfl, ?_⟩
    obtain ⟨d, parsed, assembled⟩ := bind_ok made
    obtain ⟨es, all, read⟩ := bind_ok parsed
    cases read
    have entries := mapM_forall₂ all
    have made' : List.Forall₂ (fun e op => operation c e = .ok op) es ops := mapM_forall₂ assembled
    clear made parsed all assembled
    induction entries generalizing ops with
    | nil =>
      cases made'
      exact .nil
    | @cons v e xs es first _ ih =>
      obtain ⟨op, ops', here, rest, rfl⟩ := List.forall₂_cons_left_iff.mp made'
      obtain ⟨plain, items'⟩ := List.forall_mem_cons.mp items
      exact .cons (stands_of_made plain first here) (ih items' rest)
  | _ => cases made

/-- A config is accepted exactly if it is a list of well-formed entries. Then there is one operation for each
of them, in their order, with its name, its flags and its arguments as they were settled. Otherwise it is
refused with a fault that says what is wrong: with the config, or with one of its entries. -/
theorem ofConfig_accepts {c : Catalog} (built : c.Built) {config : Value} (plain : Json.Plain config) :
    ((∃ ops, ofConfig c config = .ok ops) ↔ ∃ xs, config = .list xs ∧ ∀ v ∈ xs, WellFormed c v) ∧
    (∀ ops, ofConfig c config = .ok ops → ∃ xs, config = .list xs ∧ List.Forall₂ Stands xs ops) ∧
    ∀ f, ofConfig c config = .error f →
      ((∀ xs, config ≠ .list xs) ∧ f = .configNotList) ∨
        ∃ xs, config = .list xs ∧ ∃ v ∈ xs, Blames c v f := by
  refine ⟨⟨?_, ?_⟩, fun ops made => ?_, fun f => ofConfig_error plain⟩
  · rintro ⟨ops, made⟩
    obtain ⟨xs, rfl, all⟩ := ofConfig_ok plain made
    exact ⟨xs, rfl, ((List.forall₂_and_left _ _).mp all).1⟩
  · rintro ⟨xs, rfl, formed⟩
    cases made : ofConfig c (.list xs) with
    | ok ops => exact ⟨ops, rfl⟩
    | error f =>
      -- A fault would be one of an entry, and there is nothing wrong with any of them.
      rcases ofConfig_error plain made with ⟨other, -⟩ | ⟨xs', same, v, mem, blames⟩
      · exact absurd rfl (other xs)
      · cases same
        exact absurd (formed v mem) (blames.malformed built)
  · obtain ⟨xs, rfl, all⟩ := ofConfig_ok plain made
    exact ⟨xs, rfl, all.imp fun _ _ both => both.2⟩

-- A config with a primitive, whose budget is given as text, and a transform without arguments.
def menu : Value :=
  .list [.map [(.text "op", .text "Jump"), (.text "args", .list [.text "x", .text " 7 "])],
    .map [(.text "op", .text "To Hex")]]

/-- It is accepted, so that both of its entries are well formed. -/
theorem ofConfig_accepts_menu : Catalog.standard.Built ∧ Json.Plain menu ∧
    (ofConfig .standard menu).toOption.map (·.map fun op => op.args.map Value.plain) =
      some [["x", "7"], [" "]] ∧
    ∃ xs, menu = .list xs ∧ ∀ v ∈ xs, WellFormed .standard v := by
  have args : Json.Plain (.list [.text "x", .text " 7 "]) := by
    apply Json.Plain.list
    simp only [List.forall_mem_cons, List.not_mem_nil, false_imp_iff, implies_true, and_true]
    exact ⟨.text "x", .text " 7 "⟩
  have jump : Json.Plain (.map [(.text "op", .text "Jump"),
      (.text "args", .list [.text "x", .text " 7 "])]) := by
    apply Json.Plain.map
    · decide
    · simp only [List.forall_mem_cons, List.not_mem_nil, false_imp_iff, implies_true, and_true]
      exact ⟨.text "Jump", args⟩
  have toHex : Json.Plain (.map [(.text "op", .text "To Hex")]) :=
    .map (by decide) (List.forall_mem_singleton.mpr (.text "To Hex"))
  have plain : Json.Plain menu := by
    apply Json.Plain.list
    simp only [List.forall_mem_cons, List.not_mem_nil, false_imp_iff, implies_true, and_true]
    exact ⟨jump, toHex⟩
  have args : (ofConfig .standard menu).toOption.map (·.map fun op => op.args.map Value.plain) =
      some [["x", "7"], [" "]] := by decide +kernel
  have made : ∃ ops, ofConfig .standard menu = .ok ops := by
    cases made : ofConfig .standard menu with
    | ok ops => exact ⟨ops, rfl⟩
    | error f =>
      rw [made] at args
      cases args
  have accepted := (ofConfig_accepts Catalog.standard_built plain).1.mp made
  exact ⟨Catalog.standard_built, plain, args, accepted⟩

end Assembly

end Kitchen
