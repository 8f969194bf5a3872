import Kitchen.Proofs.Outcome
import Kitchen.Run.Control

namespace Kitchen

def Misuse.isTooFew : Misuse → Bool
  | .tooFew .. => true
  | _ => false

def Failure.isTooFew : Failure → Bool
  | .misuse m => m.isTooFew
  | _ => false

-- A failure that comes neither of too few arguments nor of a transform that refuses.
def Failure.isOrdinary : Failure → Bool
  | .refused _ => false
  | f => !f.isTooFew

theorem Failure.isTooFew_of_isOrdinary {f : Failure} (ordinary : f.isOrdinary) : f.isTooFew = false := by
  cases f with
  | misuse m => simpa [isOrdinary] using ordinary
  | _ => rfl

theorem Failure.isOrdinary_misuse {m : Misuse} (enough : m.isTooFew = false) : (Failure.misuse m).isOrdinary := by
  simp [Failure.isOrdinary, Failure.isTooFew, enough]

theorem Failure.unrefused_of_isOrdinary {f : Failure} {message : List Text.Glyph} (ordinary : f.isOrdinary) :
    f ≠ .refused message := by
  rintro rfl
  cases ordinary

theorem Failure.ofDish_unrefused {e : Dish.Fault} {message : List Text.Glyph} : ofDish e ≠ .refused message := by
  cases e <;> exact Failure.noConfusion

-- An operation has fewer arguments than it takes, and fails for it.
structure Operation.Short (op : Operation) (n : Nat) (f : Failure) : Prop where
  fewer : op.args.length < n
  failure : f = .misuse (.tooFew n op.args.length)

namespace Dish

variable {d : Dish} {v : Value} {k : Kind} {m : Misuse}

theorem byte_enough (failed : byte v = .error m) : m.isTooFew = false := by
  unfold byte at failed
  split at failed
  · cases failed
    rfl
  · split at failed
    · cases failed
    · cases failed
      rfl

theorem bytesOf_enough (failed : bytesOf v = .error m) : m.isTooFew = false := by
  have items : ∀ {xs : List Value}, xs.mapM byte = .error m → m.isTooFew = false := by
    intro xs failed
    obtain ⟨x, -, failed⟩ := mapM_error failed
    exact byte_enough failed
  unfold bytesOf at failed
  split at failed
  · cases failed
  · exact items failed
  · exact items failed
  · exact items failed
  · obtain ⟨e, -, failed⟩ := mapM_error failed
    exact byte_enough failed
  · cases failed
    rfl
  · cases failed
    rfl
  · split at failed
    · cases failed
      rfl
    · split at failed
      · cases failed
        rfl
      · split at failed
        · cases failed
          rfl
        · cases failed

theorem encoded_enough {gs : List Text.Glyph} (failed : encoded gs = .error m) : m.isTooFew = false := by
  unfold encoded at failed
  split at failed
  · cases failed
    rfl
  · cases failed

theorem toBytes_enough (failed : toBytes v k = .error m) : m.isTooFew = false := by
  cases k with
  | byteArray => exact bytesOf_enough failed
  | string => exact encoded_enough failed
  | number => exact encoded_enough failed
  | json =>
    -- Only the value can be unfit to be written; the text always has bytes.
    simp only [toBytes] at failed
    cases written : Json.chars Json.spaced v with
    | error u =>
      rw [written] at failed
      cases failed
      rfl
    | ok cs =>
      rw [written] at failed
      cases failed

/-- A dish that cannot be turned does not have too few arguments: it has none. -/
theorem get_ordinary {tag : String} {e : Fault} (failed : d.get tag = .error e) :
    (Failure.ofDish e).isOrdinary := by
  have kinds : ∀ {tag e}, kindOf tag = .error e → (Failure.ofDish e).isOrdinary := by
    intro tag e failed
    unfold kindOf at failed
    split at failed
    · cases failed
    · cases failed
      rfl
  -- Turning fails for a type that is unknown, on the way to bytes, or on the way from them.
  unfold get at failed
  rcases bind_error failed with failed | ⟨d', -, failed⟩
  · unfold turn at failed
    rcases bind_error failed with failed | ⟨target, -, failed⟩
    · exact kinds failed
    · split at failed
      · cases failed
      · unfold translate at failed
        split at failed
        · cases failed
        · rcases bind_error failed with failed | ⟨source, -, failed⟩
          · exact kinds failed
          · rcases bind_error failed with failed | ⟨bs, -, failed⟩
            · obtain ⟨m, bytes, rfl⟩ := mapError_error failed
              exact Failure.isOrdinary_misuse (toBytes_enough bytes)
            · rcases bind_error failed with failed | ⟨w, -, failed⟩
              · obtain ⟨why, -, rfl⟩ := mapError_error failed
                rfl
              · cases failed
  · cases failed

end Dish

namespace Pattern

variable {v : Value} {f : Failure}

theorem ofValue_ordinary {mode : Mode} (failed : ofValue mode v = .error f) : f.isOrdinary := by
  unfold ofValue at failed
  split at failed
  · obtain ⟨g, -, rfl⟩ := mapError_error failed
    rfl
  · cases failed
    split <;> rfl

theorem subject_ordinary (failed : subject v = .error f) : f.isOrdinary := by
  unfold subject at failed
  split at failed
  · cases failed
  all_goals
    cases failed
    rfl

end Pattern

theorem cons_of_enough {n : Nat} {args : List Value} (enough : n + 1 ≤ args.length) :
    ∃ a more, args = a :: more ∧ n ≤ more.length := by
  cases args with
  | nil => exact absurd enough (Nat.not_succ_le_zero n)
  | cons a more => exact ⟨a, more, rfl, Nat.le_of_succ_le_succ enough⟩

namespace Run

namespace Deed

variable {o : Outlook} {op : Operation} {d : Dish} {f : Failure}

theorem byText_ordinary {g : Value → Except Failure Deed}
    (inner : ∀ {v f}, g v = .error f → f.isOrdinary) (failed : (byText d g).1 = .error f) :
    f.isOrdinary := by
  unfold byText at failed
  split at failed
  · next e get =>
    cases failed
    exact Dish.get_ordinary get
  · exact inner failed

theorem aim_ordinary {label budget : Value} {g : Nat → Decision}
    (inner : ∀ {place f}, (g place).1 = .error f → f.isOrdinary)
    (failed : (aim o label budget d g).1 = .error f) : f.isOrdinary := by
  unfold aim at failed
  split at failed
  · next u left =>
    cases failed
    unfold spent at left
    split at left
    · cases left
    · cases left
    · cases left
      rfl
  · exact inner failed
  · cases failed

theorem register_fault (failed : (register op d).1 = .error f) : f.isOrdinary ∨ op.Short 3 f := by
  unfold register at failed
  split at failed
  · left
    split at failed
    · next g pattern =>
      cases failed
      exact Pattern.ofValue_ordinary pattern
    · apply byText_ordinary _ failed
      intro v f failed
      rcases bind_error failed with failed | ⟨s, -, failed⟩
      · exact Pattern.subject_ordinary failed
      · split at failed <;> cases failed
  · next short =>
    cases failed
    refine .inr ⟨Nat.not_le.mp fun enough => ?_, rfl⟩
    obtain ⟨extractor, more, args, two⟩ := cons_of_enough enough
    obtain ⟨ignoreCase, more, rfl, one⟩ := cons_of_enough two
    obtain ⟨multiline, more, rfl, -⟩ := cons_of_enough one
    exact short _ _ _ _ args

theorem jump_fault (failed : (jump o op d).1 = .error f) : f.isOrdinary ∨ op.Short 2 f := by
  unfold jump at failed
  split at failed
  · exact .inl (aim_ordinary (fun leaps => by cases leaps) failed)
  · next short =>
    cases failed
    refine .inr ⟨Nat.not_le.mp fun enough => ?_, rfl⟩
    obtain ⟨label, more, args, one⟩ := cons_of_enough enough
    obtain ⟨budget, more, rfl, -⟩ := cons_of_enough one
    exact short _ _ _ args

theorem conditionalJump_fault (failed : (conditionalJump o op d).1 = .error f) :
    f.isOrdinary ∨ op.Short 4 f := by
  unfold conditionalJump at failed
  split at failed
  · left
    apply aim_ordinary _ failed
    intro place f failed
    split at failed
    · cases failed
    · apply byText_ordinary _ failed
      intro v f failed
      rcases bind_error failed with failed | ⟨p, -, failed⟩
      · exact Pattern.ofValue_ordinary failed
      · rcases bind_error failed with failed | ⟨s, -, failed⟩
        · exact Pattern.subject_ordinary failed
        · cases failed
  · next short =>
    cases failed
    refine .inr ⟨Nat.not_le.mp fun enough => ?_, rfl⟩
    obtain ⟨pattern, more, args, three⟩ := cons_of_enough enough
    obtain ⟨inverted, more, rfl, two⟩ := cons_of_enough three
    obtain ⟨label, more, rfl, one⟩ := cons_of_enough two
    obtain ⟨budget, more, rfl, -⟩ := cons_of_enough one
    exact short _ _ _ _ _ args

/-- A primitive other than a Fork refuses nothing, and has too few arguments only if it has fewer than it has
defaults. -/
theorem ofPrimitive_fault {p : Primitive} (failed : (ofPrimitive o op d p).1 = .error f) :
    f.isOrdinary ∨ op.Short p.defaults.length f := by
  cases p with
  | register => exact register_fault failed
  | jump => exact jump_fault failed
  | conditionalJump => exact conditionalJump_fault failed
  | _ => cases failed

end Deed

namespace Machine

theorem splitGlyphs_enough {separator : Value} {gs : List Text.Glyph} {m : Misuse}
    (failed : splitGlyphs separator gs = .error m) : m.isTooFew = false := by
  unfold splitGlyphs at failed
  split at failed
  all_goals
    cases failed
    try rfl

theorem tranches_enough {separator v : Value} {m : Misuse} (failed : tranches separator v = .error m) :
    m.isTooFew = false := by
  unfold tranches at failed
  split at failed
  · cases failed
  · split at failed
    · unfold itemsOf at failed
      split at failed
      all_goals
        cases failed
        try rfl
    · unfold splitValue at failed
      split at failed
      · exact splitGlyphs_enough failed
      · exact splitGlyphs_enough failed
      all_goals
        cases failed
        try rfl

theorem split_fault {m : Machine} {op : Operation} {f : Failure} (failed : (m.split op).1 = .error f) :
    f.isOrdinary ∨ op.Short 3 f := by
  unfold split at failed
  split at failed
  · left
    split at failed
    · next e get =>
      cases failed
      exact Dish.get_ordinary get
    · split at failed
      · next u cut =>
        cases failed
        exact Failure.isOrdinary_misuse (tranches_enough cut)
      · cases failed
  · next short =>
    cases failed
    refine .inr ⟨Nat.not_le.mp fun enough => ?_, rfl⟩
    obtain ⟨separator, more, args, two⟩ := cons_of_enough enough
    obtain ⟨delimiter, more, rfl, one⟩ := cons_of_enough two
    obtain ⟨ignoring, more, rfl, -⟩ := cons_of_enough one
    exact short _ _ _ _ args

end Machine

end Run

end Kitchen
