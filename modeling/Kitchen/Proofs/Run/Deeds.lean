import Kitchen.Proofs.Outcome
import Kitchen.Proofs.Pattern.Groups
import Kitchen.Proofs.Run.Round

namespace Kitchen

open Text (Glyph)

/-- Only texts are searched. -/
theorem Pattern.subject_ok {v : Value} {gs : List Glyph} (searched : subject v = .ok gs) :
    v.glyphs? = some gs := by
  unfold subject at searched
  split at searched
  · next text =>
    cases searched
    exact text
  · cases searched
  · cases searched

namespace Run

namespace Deed

variable {o : Outlook} {op : Operation} {d d' : Dish} {deed : Deed} {label budget : Value}
  {place : Nat}

/-- A budget allows a jump only if it is greater than the number of jumps taken. -/
theorem spent_whole {jumps : Nat} {n : Int} (whole : budget.whole? = some n)
    (left : spent jumps budget = .ok false) : (jumps : Int) < n := by
  unfold spent at left
  simp only [whole, Except.ok.injEq, decide_eq_false_iff_not] at left
  omega

theorem byText_dish (d : Dish) (f : Value → Except Failure Deed) :
    (byText d f).2 = d ∨ ∃ v, d.get "string" = .ok (v, (byText d f).2) := by
  unfold byText
  cases get : d.get "string" with
  | error e => exact .inl rfl
  | ok vd => exact .inr ⟨vd.1, rfl⟩

theorem aim_dish {f : Nat → Decision}
    (h : ∀ place, (f place).2 = d ∨ ∃ v, d.get "string" = .ok (v, (f place).2)) :
    (aim o label budget d f).2 = d ∨ ∃ v, d.get "string" = .ok (v, (aim o label budget d f).2) := by
  unfold aim
  split
  · exact .inl rfl
  · exact h _
  · exact .inl rfl

/-- A primitive that looks at its dish turns it to text or leaves it. -/
theorem ofPrimitive_dish (o : Outlook) (op : Operation) (d : Dish) (p : Primitive) :
    (ofPrimitive o op d p).2 = d ∨ ∃ v, d.get "string" = .ok (v, (ofPrimitive o op d p).2) := by
  -- Only a Register and a conditional Jump look at the dish, and they ask for it as text.
  cases p with
  | register =>
    simp only [ofPrimitive, register]
    split
    · split
      · exact .inl rfl
      · exact byText_dish d _
    · exact .inl rfl
  | jump =>
    simp only [ofPrimitive, jump]
    split
    · exact aim_dish fun _ => .inl rfl
    · exact .inl rfl
  | conditionalJump =>
    simp only [ofPrimitive, conditionalJump]
    split
    · apply aim_dish
      intro place
      split
      · exact .inl rfl
      · exact byText_dish d _
    · exact .inl rfl
  | _ => exact .inl rfl

theorem byText_ok {f : Value → Except Failure Deed} (h : byText d f = (.ok deed, d')) :
    ∃ v, d.get "string" = .ok (v, d') ∧ f v = .ok deed := by
  unfold byText at h
  split at h
  · cases h
  · next v _ get =>
    obtain ⟨decided, rfl⟩ := Prod.mk.inj h
    exact ⟨v, get, decided⟩

/-- Unless it stays, aiming comes to what its continuation decides on. -/
theorem aim_ok {f : Nat → Decision} (h : aim o label budget d f = (.ok deed, d')) :
    deed = stay ∨ (spent o.jumps budget = .ok false ∧
      ∃ place, o.find label = some place ∧ f place = (.ok deed, d')) := by
  unfold aim at h
  split at h
  · cases h
  · next allowed found => exact .inr ⟨allowed, _, found, h⟩
  · cases h
    exact .inl rfl

/-- A Register captures something or passes. What it captures are stretches of the text that its dish is. -/
theorem register_deed (h : register op d = (.ok deed, d')) :
    deed = pass ∨ ∃ texts, deed = capture texts ∧ texts ≠ [] ∧
      ∃ v gs, d.get "string" = .ok (v, d') ∧ v.glyphs? = some gs ∧ ∀ t ∈ texts, t <:+: gs := by
  unfold register at h
  split at h
  · split at h
    · cases h
    · obtain ⟨v, get, decided⟩ := byText_ok h
      obtain ⟨gs, subject, decided⟩ := bind_ok decided
      split at decided
      · cases decided
        exact .inl rfl
      · cases decided
        exact .inl rfl
      · -- The groups of the first match are captured, and there is at least one.
        next held something found =>
        cases decided
        refine .inr ⟨_, rfl, fun nothing => something (List.map_eq_nil_iff.mp nothing), v, gs, get,
          Pattern.subject_ok subject, fun t mem => ?_⟩
        obtain ⟨group, there, rfl⟩ := List.mem_map.mp mem
        cases group with
        | none => exact List.nil_infix
        | some t => exact Pattern.search_stretch found there
  · cases h

-- What jumps decide on: a jump is taken within its budget and to the place of its label.
def Leaps (o : Outlook) (op : Operation) (deed : Deed) : Prop :=
  deed = pass ∨ deed = stay ∨ ∃ label budget place, deed = leap label place ∧
    Operation.budget? op = some budget ∧ spent o.jumps budget = .ok false ∧
    o.find label = some place

theorem jump_deed (primitive : op.primitive? = some .jump) (h : jump o op d = (.ok deed, d')) :
    Leaps o op deed := by
  unfold jump at h
  split at h
  · next label budget rest args =>
    rcases aim_ok h with stays | ⟨allowed, place, found, decided⟩
    · exact .inr (.inl stays)
    · cases decided
      refine .inr (.inr ⟨label, budget, place, rfl, ?_, allowed, found⟩)
      simp only [Operation.budget?, primitive, args, List.getElem?_cons_succ,
        List.getElem?_cons_zero]
  · cases h

/-- Without a pattern it never jumps; with one it jumps if the text says so. -/
theorem conditionalJump_deed (primitive : op.primitive? = some .conditionalJump)
    (h : conditionalJump o op d = (.ok deed, d')) : Leaps o op deed := by
  unfold conditionalJump at h
  split at h
  · next pattern inverted label budget rest args =>
    rcases aim_ok h with stays | ⟨allowed, place, found, decided⟩
    · exact .inr (.inl stays)
    · have here : Operation.budget? op = some budget := by
        simp only [Operation.budget?, primitive, args, List.getElem?_cons_succ,
          List.getElem?_cons_zero]
      -- An empty pattern passes; any other one jumps or passes by its match.
      split at decided
      · cases decided
        exact .inl rfl
      · obtain ⟨v, -, decided⟩ := byText_ok decided
        simp only [bind, Except.bind, pure, Except.pure] at decided
        split at decided
        · cases decided
        · split at decided
          · cases decided
          · split at decided
            · cases decided
              exact .inr (.inr ⟨label, budget, place, rfl, here, allowed, found⟩)
            · cases decided
              exact .inl rfl
  · cases h

/-- A jump is taken within its budget and to the place of its label. -/
theorem ofPrimitive_leap {p : Primitive} (primitive : op.primitive? = some p)
    (h : ofPrimitive o op d p = (.ok (leap label place), d')) :
    ∃ budget, Operation.budget? op = some budget ∧ spent o.jumps budget = .ok false ∧
      o.find label = some place := by
  -- Primitives other than jumps pass, finish or capture, whatever they look at.
  have leaps : Leaps o op (leap label place) := by
    cases p with
    | register => rcases register_deed h with pass | ⟨texts, captures, -⟩ <;> contradiction
    | jump => exact jump_deed primitive h
    | conditionalJump => exact conditionalJump_deed primitive h
    | _ => cases h
  rcases leaps with pass | stays | ⟨label', budget, place', same, here, allowed, found⟩
  · cases pass
  · cases stays
  · cases same
    exact ⟨budget, here, allowed, found⟩

/-- Only a Register captures, and never nothing. -/
theorem ofPrimitive_capture {p : Primitive} {texts : List (List Glyph)}
    (primitive : op.primitive? = some p) (h : ofPrimitive o op d p = (.ok (capture texts), d')) :
    p = .register ∧ texts ≠ [] := by
  have leapless : ¬Leaps o op (capture texts) := by
    rintro (pass | stays | ⟨label, budget, place, same, -⟩)
    · cases pass
    · cases stays
    · cases same
  cases p with
  | register =>
    rcases register_deed h with pass | ⟨texts', captures, something, -⟩
    · cases pass
    · cases captures
      exact ⟨rfl, something⟩
  | jump => exact absurd (jump_deed primitive h) leapless
  | conditionalJump => exact absurd (conditionalJump_deed primitive h) leapless
  | _ => cases h

/-- What is captured are stretches of the text that the dish is. -/
theorem ofPrimitive_stretches {p : Primitive} {texts : List (List Glyph)}
    (primitive : op.primitive? = some p) (h : ofPrimitive o op d p = (.ok (capture texts), d')) :
    ∃ v gs, d.get "string" = .ok (v, d') ∧ v.glyphs? = some gs ∧ ∀ t ∈ texts, t <:+: gs := by
  obtain ⟨rfl, -⟩ := ofPrimitive_capture primitive h
  rcases register_deed h with pass | ⟨texts', captures, -, stretches⟩
  · cases pass
  · cases captures
    exact stretches

end Deed

namespace Machine

variable {run : Machine → Stop × Machine} {i : Int} {op : Operation} {m k : Machine}

@[simp] theorem enact_dish (m : Machine) (deed : Deed) : (m.enact deed).dish = m.dish := by
  cases deed <;> rfl

@[simp] theorem enact_limit (m : Machine) (deed : Deed) :
    (m.enact deed).ledger.limit = m.ledger.limit := by
  cases deed <;> rfl

@[simp] theorem enact_steps (m : Machine) (deed : Deed) :
    (m.enact deed).ledger.steps = m.ledger.steps := by
  cases deed <;> rfl

/-- Where the run is after an operation other than a Fork: where it was, at the end, or at a label, to
which it came by a jump that a budget allowed. -/
theorem Acts.goes {j : Int} (acts : m.Acts i op (.ok j) k) :
    (j = i ∧ k.frame.jumps = m.frame.jumps) ∨
      (j = m.ops.length ∧ k.frame.jumps = m.frame.jumps) ∨
      ∃ (label budget : Value) (place : Nat), j = place ∧
        labelPosition? label m.ops = some place ∧ k.frame.jumps = m.frame.jumps + 1 ∧
        Operation.budget? op = some budget ∧ Deed.spent m.frame.jumps budget = .ok false := by
  generalize hr : Except.ok j = r at acts
  cases acts with
  | produced ordinary get made =>
    cases hr
    exact .inl ⟨rfl, rfl⟩
  | @enacted p v d d' deed primitive other get decided =>
    cases hr
    cases deed with
    | leap label place =>
      obtain ⟨budget, here, allowed, found⟩ := Deed.ofPrimitive_leap primitive decided
      exact .inr (.inr ⟨label, budget, place, rfl, found, rfl, here, allowed⟩)
    | finish => exact .inr (.inl ⟨rfl, rfl⟩)
    | _ => exact .inl ⟨rfl, rfl⟩
  | _ => cases hr

end Machine

end Run

end Kitchen
