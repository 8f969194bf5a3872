import Mathlib.Data.List.Infix
import Kitchen.Proofs.Pattern.Substitution

namespace Kitchen.Pattern

open Text (Glyph)

variable {gs : List Glyph} {s e : Spot} {P Q : Spot → Prop} {follow : Follow}

-- A spot in a text, with groups that hold stretches of this text.
structure Spot.Within (gs : List Glyph) (s : Spot) : Prop where
  whole : s.before.reverse ++ s.after = gs
  held : ∀ t, some t ∈ s.held → t <:+: gs

-- From spots of one kind a continuation comes to spots of another kind, if it comes to any.
def Leads (P Q : Spot → Prop) (follow : Follow) : Prop :=
  ∀ s e, P s → follow s = some e → Q e

namespace Spot.Within

theorem start (gs : List Glyph) (groups : Nat) : (Spot.start gs groups).Within gs where
  whole := rfl
  held t mem := by cases List.eq_of_mem_replicate mem

theorem next {g : Glyph} {rest : List Glyph} (within : s.Within gs) (after : s.after = g :: rest) :
    Spot.Within gs ⟨s.place + 1, g :: s.before, rest, s.held⟩ where
  whole := by
    rw [List.reverse_cons, List.append_assoc, List.singleton_append, ← after]
    exact within.whole
  held := within.held

theorem back {n : Nat} (within : s.Within gs) (back : s.back? n = some e) : e.Within gs := by
  induction n generalizing s with
  | zero =>
    cases back
    exact within
  | succ n ih =>
    unfold Spot.back? at back
    split at back
    · cases back
    · next g rest before =>
      have moved : Spot.Within gs ⟨s.place - 1, rest, g :: s.after, s.held⟩ := by
        refine ⟨?_, within.held⟩
        rw [← within.whole, before, List.reverse_cons, List.append_assoc, List.singleton_append]
      exact ih moved back

/-- What a group comes to hold is a stretch of the text. -/
theorem hold {text : List Glyph} {n : Nat} (within : e.Within gs) (stretch : text <:+: gs) :
    (e.hold n text).Within gs where
  whole := within.whole
  held t mem := by
    rcases List.mem_or_eq_of_mem_set mem with before | same
    · exact within.held t before
    · cases same
      exact stretch

theorem upTo (within : s.Within gs) (e : Spot) : s.upTo e <:+: gs := by
  rw [← within.whole]
  exact (List.take_prefix _ s.after).isInfix.trans (List.suffix_append s.before.reverse s.after).isInfix

theorem holds {held : List (Option (List Glyph))} (within : s.Within gs)
    (stretches : ∀ t, some t ∈ held → t <:+: gs) : Spot.Within gs { s with held := held } :=
  ⟨within.whole, stretches⟩

theorem takeText {fold : Fold} {text : List Glyph} (within : s.Within gs)
    (taken : takeText fold text s = some e) : e.Within gs := by
  induction text generalizing s with
  | nil =>
    cases taken
    exact within
  | cons g text ih =>
    unfold Pattern.takeText at taken
    split at taken
    · cases taken
    · next h rest after =>
      split at taken
      · exact ih (within.next after) taken
      · cases taken

theorem stretch {t : Test} {high : Option Nat} {done : List Spot} {rest : List Glyph} (within : s.Within gs)
    (after : s.after = rest) (before : ∀ e ∈ done, e.Within gs) :
    ∀ e ∈ stretch t high s done rest, e.Within gs := by
  have here : ∀ e ∈ s :: done, e.Within gs := List.forall_mem_cons.mpr ⟨within, before⟩
  induction rest generalizing high s done with
  | nil =>
    have ends : Pattern.stretch t high s done [] = s :: done := by
      unfold Pattern.stretch
      split
      · rfl
      · rfl
      · next same => cases same
    rw [ends]
    exact here
  | cons g rest ih =>
    unfold Pattern.stretch
    split
    · exact here
    · next none => cases none
    · next g' rest' _ same =>
      obtain ⟨rfl, rfl⟩ := List.cons.inj same
      split
      · exact ih (within.next after) rfl here (List.forall_mem_cons.mpr ⟨within.next after, here⟩)
      · exact here

end Spot.Within

namespace Leads

variable {body : Spot → Follow → Option Spot} {low : Nat} {high : Option Nat}

theorem greedily (leads : Leads P Q follow) (each : ∀ f, Leads P Q f → Leads P Q (body · f)) (fuel count : Nat)
    (last : Option Nat) : Leads P Q (greedily body low high follow fuel count last) := by
  induction fuel generalizing count last with
  | zero => exact fun s e _ led => by cases led
  | succ fuel ih =>
    intro s e here led
    unfold Pattern.greedily at led
    split at led
    · exact each _ (ih (count + 1) last) s e here led
    · split at led
      · split at led
        · next found =>
          cases led
          exact each _ (ih (count + 1) (some s.place)) s e here found
        · exact leads s e here led
      · exact leads s e here led

theorem lazily (leads : Leads P Q follow) (each : ∀ f, Leads P Q f → Leads P Q (body · f)) (fuel count : Nat)
    (last : Option Nat) : Leads P Q (lazily body low high follow fuel count last) := by
  induction fuel generalizing count last with
  | zero => exact fun s e _ led => by cases led
  | succ fuel ih =>
    intro s e here led
    unfold Pattern.lazily at led
    split at led
    · exact each _ (ih (count + 1) last) s e here led
    · split at led
      · next found =>
        cases led
        exact leads s e here found
      · split at led
        · exact each _ (ih (count + 1) (some s.place)) s e here led
        · cases led

theorem possessively (each : Leads P P (body · some)) (fuel count : Nat) :
    Leads P P (possessively body low high fuel count) := by
  induction fuel generalizing count with
  | zero => exact fun s e _ led => by cases led
  | succ fuel ih =>
    intro s e here led
    unfold Pattern.possessively at led
    split at led
    · split at led
      · cases led
      · next e' found => exact ih (count + 1) e' e (each s e' here found) led
    · split at led
      · split at led
        · cases led
          exact here
        · next e' found =>
          have there : P e' := each s e' here found
          split at led
          · cases led
            exact there
          · exact ih (count + 1) e' e there led
      · cases led
        exact here

end Leads

/-- Whatever a node takes, it leads on within the text, and its groups hold stretches of the text. -/
theorem Node.run_within (node : Node) (leads : Leads (·.Within gs) Q follow) (within : s.Within gs)
    (led : node.run s follow = some e) : Q e := by
  have itself : Leads (·.Within gs) (·.Within gs) some := by
    rintro s e within ⟨⟩
    exact within
  induction node generalizing Q follow s e with
  | empty => exact leads s e within led
  | one t =>
    rw [Node.run] at led
    split at led
    · cases led
    · next g rest after =>
      split at led
      · exact leads _ e (within.next after) led
      · cases led
  | anchor a =>
    rw [Node.run] at led
    split at led
    · exact leads s e within led
    · cases led
  | cat a b first second =>
    rw [Node.run] at led
    exact first (fun _ _ within led => second leads within led) within led
  | alt a b first second =>
    rw [Node.run] at led
    split at led
    · next found =>
      cases led
      exact first leads within found
    · exact second leads within led
  | capture n body inner =>
    rw [Node.run] at led
    have held : Leads (·.Within gs) Q fun e => follow (e.hold n (s.upTo e)) :=
      fun e' e within' led => leads _ e (within'.hold (within.upTo e')) led
    exact inner held within led
  | same n fold low high =>
    rw [Node.run] at led
    split at led
    · cases led
    · split at led
      · cases led
      · next taken => exact leads _ e (within.takeText taken) led
  | repeated greed low high body inner =>
    have each : ∀ f, Leads (·.Within gs) Q f → Leads (·.Within gs) Q (body.run · f) :=
      fun f leads _ _ within led => inner leads within led
    cases greed with
    | greedy =>
      by_cases single : ∃ t, body = .one t
      · obtain ⟨t, rfl⟩ := single
        rw [Node.run] at led
        obtain ⟨e', mem, led⟩ := List.exists_of_findSome?_eq_some led
        have among := (List.takeWhile_sublist _).subset mem
        have within' : e'.Within gs := within.stretch rfl (fun _ none => by cases none) e' among
        exact leads e' e within' led
      · rw [Node.run] at led
        · exact Leads.greedily leads each _ _ _ s e within led
        · exact fun t same => single ⟨t, same⟩
    | lazy =>
      rw [Node.run] at led
      exact Leads.lazily leads each _ _ _ s e within led
    | possessive =>
      rw [Node.run] at led
      split at led
      · cases led
      · next e' found =>
        have each : Leads (·.Within gs) (·.Within gs) (body.run · some) :=
          fun _ _ within led => inner itself within led
        exact leads e' e (Leads.possessively each _ _ s e' within found) led
  | atomic body inner =>
    rw [Node.run] at led
    split at led
    · cases led
    · next e' found => exact leads e' e (inner itself within found) led
  | ahead negated body inner =>
    rw [Node.run] at led
    split at led
    · split at led
      · exact leads s e within led
      · cases led
    · next e' found =>
      split at led
      · cases led
      · exact leads _ e (within.holds (inner itself within found).held) led
  | behind negated width body inner =>
    rw [Node.run] at led
    split at led
    · split at led
      · exact leads s e within led
      · cases led
    · next e' found =>
      split at led
      · cases led
      · obtain ⟨b, back, found⟩ := Option.bind_eq_some_iff.mp found
        exact leads _ e (within.holds (inner itself (within.back back) found).held) led
  | choose n yes no first second =>
    rw [Node.run] at led
    split at led
    · exact second leads within led
    · exact first leads within led

variable {p : Pattern} {nonempty : Bool} {b : Spot}

theorem matchAt_within (within : s.Within gs) (hit : p.matchAt nonempty s = some e) : e.Within gs := by
  refine p.root.run_within (fun s' e' within' ended => ?_) within hit
  split at ended
  · cases ended
  · cases ended
    exact within'

theorem findFrom_within (within : s.Within gs) (found : p.findFrom nonempty s = some (b, e)) :
    e.Within gs := by
  generalize left : s.after = rest
  induction rest generalizing s nonempty with
  | nil =>
    cases hit : p.matchAt nonempty s with
    | none => simp [findFrom_end left hit] at found
    | some e' =>
      obtain ⟨rfl, rfl⟩ : s = b ∧ e' = e := by simpa [findFrom_here hit] using found
      exact matchAt_within within hit
  | cons g rest ih =>
    cases hit : p.matchAt nonempty s with
    | none =>
      rw [findFrom_onward left hit] at found
      exact ih (within.next left) found rfl
    | some e' =>
      obtain ⟨rfl, rfl⟩ : s = b ∧ e' = e := by simpa [findFrom_here hit] using found
      exact matchAt_within within hit

theorem Spot.Within.cleared (within : s.Within gs) : s.cleared.Within gs where
  whole := within.whole
  held t mem := by
    obtain ⟨_, -, same⟩ := List.mem_map.mp mem
    cases same

/-- What is kept between matches are stretches of the text. -/
theorem kept_stretch {limit : Option Nat} {t : List Glyph} (mem : .kept t ∈ p.pieces limit gs) : t <:+: gs := by
  have keep {xs : List Glyph} {rest : List Piece} (stretch : xs <:+: gs) (later : .kept t ∈ rest → t <:+: gs)
      (mem : .kept t ∈ pieces.keep xs rest) : t <:+: gs := by
    unfold pieces.keep at mem
    split at mem
    · exact later mem
    · rcases List.mem_cons.mp mem with same | there
      · cases same
        exact stretch
      · exact later there
  have last {s : Spot} (within : s.Within gs) : .kept t ∈ pieces.keep s.after [] → t <:+: gs := by
    refine keep ?_ fun none => by cases none
    rw [← within.whole]
    exact (List.suffix_append s.before.reverse s.after).isInfix
  have within : (Spot.start gs p.groups).Within gs := .start gs p.groups
  unfold pieces at mem
  generalize 2 * gs.length + 2 = fuel at mem
  generalize Spot.start gs p.groups = s at mem within
  generalize false = nonempty at mem
  fun_induction pieces.go p fuel limit nonempty s with
  | case1 limit nonempty s => exact last within mem
  | case2 fuel nonempty s => exact last within mem
  | case3 fuel limit nonempty s going none => exact last within mem
  | case4 fuel limit nonempty s going b e found ih =>
    refine keep (within.upTo b) (fun there => ?_) mem
    rcases List.mem_cons.mp there with same | there
    · cases same
    · exact ih (findFrom_within within found).cleared there

/-- What the groups of a match hold are stretches of the text. -/
theorem search_stretch {held : List (Option (List Glyph))} {t : List Glyph} (found : p.search gs = some held)
    (mem : some t ∈ held) : t <:+: gs := by
  obtain ⟨⟨b, e⟩, here, rfl⟩ := Option.map_eq_some_iff.mp found
  exact (findFrom_within (.start gs p.groups) here).held t mem

end Kitchen.Pattern
