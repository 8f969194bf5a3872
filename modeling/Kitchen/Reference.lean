import Kitchen.Value.Equal

namespace Kitchen.Reference

open Text (Glyph)

def numeral? : List Glyph → Option (List Glyph × Nat × List Glyph)
  | [] => none
  | g :: rest =>
    g.digit?.map fun m =>
      match rest with
      | [] => ([g], m, [])
      | h :: more =>
        match h.digit? with
        | none => ([g], m, rest)
        | some n => ([g, h], 10 * m + n, more)

theorem numeral?_length {gs ds rest : List Glyph} {m : Nat} (h : numeral? gs = some (ds, m, rest)) :
    rest.length < gs.length := by
  cases gs with
  | nil => simp [numeral?] at h
  | cons g tail =>
    simp only [numeral?, Option.map_eq_some_iff] at h
    obtain ⟨v, -, h⟩ := h
    cases tail with
    | nil => simp only [Prod.mk.injEq] at h; simp [← h.2.2]
    | cons d more =>
      simp only at h
      split at h <;> simp only [Prod.mk.injEq] at h <;>
        (have e := congrArg List.length h.2.2; simp only [List.length_cons] at e ⊢; omega)

structure Capture where
  base : Nat
  texts : List (List Glyph)

def Capture.text? (c : Capture) (m : Nat) : Option (List Glyph) :=
  if m < c.base then none else c.texts[m - c.base]?

def slashes (k : Nat) : List Glyph :=
  List.replicate k (.char '\\')

def Capture.fill (c : Capture) (k : Nat) (digits : List Glyph) (m : Nat) : List Glyph :=
  match c.text? m with
  | none => slashes k ++ .char '$' :: .char 'R' :: digits
  | some text =>
    if k % 2 = 1 then slashes (k - 1) ++ .char '$' :: .char 'R' :: digits else slashes k ++ text

-- Fills the references in a text; `k` backslashes have just been read. What is filled in is not looked at
-- again.
def Capture.resolve (c : Capture) (k : Nat) : List Glyph → List Glyph
  | [] => slashes k
  | .char '\\' :: rest => c.resolve (k + 1) rest
  | .char '$' :: .char 'R' :: rest =>
    match h : numeral? rest with
    | none => slashes k ++ .char '$' :: .char 'R' :: c.resolve 0 rest
    | some (digits, m, more) =>
      have := numeral?_length h
      c.fill k digits m ++ c.resolve 0 more
  | g :: rest => slashes k ++ g :: c.resolve 0 rest
termination_by gs => gs.length
decreasing_by all_goals simp_wf; try omega

def Capture.resolveText (c : Capture) (gs : List Glyph) : List Glyph :=
  c.resolve 0 gs

-- The text of an argument in which references are filled.
def textOf? : Value → Option (List Glyph)
  | .map es => (Value.field? "string" es).bind Value.glyphs?
  | v => v.glyphs?

def withText (gs : List Glyph) : Value → Value
  | .map es => .map (Value.insert (.text "string") (.ofGlyphs gs) es)
  | _ => .ofGlyphs gs

def Capture.resolveValue (c : Capture) (v : Value) : Value :=
  match textOf? v with
  | some gs => withText (c.resolveText gs) v
  | none => v

end Kitchen.Reference
