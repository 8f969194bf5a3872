import Kitchen.Json.Reader
import Kitchen.Proofs.Json.Sorting
import Kitchen.Proofs.Outcome

namespace Kitchen

namespace Json

def Writable (v : Value) : Prop :=
  ∃ cs, chars spaced v = .ok cs

def Printable (v : Value) : Prop :=
  ∀ layout, ∃ cs, chars layout v = .ok cs

attribute [local simp] Printable chars charsOfAll charsOfEntries

variable (layout : Layout)

theorem printable_null : Printable .null := by simp

theorem printable_bool (b : Bool) : Printable (.bool b) := by simp

theorem printable_int (n : Int) : Printable (.int n) := by simp

theorem printable_float (x : Float) : Printable (.float x) := by simp

theorem printable_text (s : String) : Printable (.text s) := by simp

theorem printable_torn (t : Text.Torn) : Printable (.torn t) := by simp

theorem charsOfAll_ok {xs : List Value} (items : ∀ x ∈ xs, ∃ cs, chars layout x = .ok cs) :
    ∃ css, charsOfAll layout xs = .ok css := by
  induction xs with
  | nil => simp
  | cons x xs ih =>
    obtain ⟨⟨cs, first⟩, items⟩ := List.forall_mem_cons.mp items
    obtain ⟨css, rest⟩ := ih items
    refine ⟨cs :: css, ?_⟩
    rw [charsOfAll, first, rest]
    rfl

theorem printable_list {xs : List Value} (items : ∀ x ∈ xs, Printable x) : Printable (.list xs) := by
  intro layout
  obtain ⟨css, all⟩ := charsOfAll_ok layout fun x mem => items x mem layout
  refine ⟨'[' :: joined layout.comma css ++ [']'], ?_⟩
  rw [chars, all]
  rfl

def PrintableEntry (e : Value × Value) : Prop :=
  e.1.isText ∧ Printable e.2

theorem charsOfEntries_ok {es : List (Value × Value)}
    (values : ∀ e ∈ es, ∃ cs, chars layout e.2 = .ok cs) :
    ∃ written, charsOfEntries layout es = .ok written := by
  induction es with
  | nil => simp
  | cons e es ih =>
    obtain ⟨k, v⟩ := e
    obtain ⟨⟨cs, first⟩, values⟩ := List.forall_mem_cons.mp values
    obtain ⟨written, rest⟩ := ih values
    refine ⟨(k, cs) :: written, ?_⟩
    dsimp only at first
    rw [charsOfEntries, first, rest]
    rfl

variable {layout}

theorem charsOfAll_iff {xs : List Value} {css : List (List Char)} :
    charsOfAll layout xs = .ok css ↔ List.Forall₂ (fun x cs => chars layout x = .ok cs) xs css := by
  constructor
  · intro written
    induction xs generalizing css with
    | nil =>
      rw [charsOfAll] at written
      cases written
      exact .nil
    | cons x xs ih =>
      rw [charsOfAll] at written
      obtain ⟨cs, first, written⟩ := bind_ok written
      obtain ⟨css', rest, written⟩ := bind_ok written
      cases written
      exact .cons first (ih rest)
  · intro items
    induction items with
    | nil => rw [charsOfAll]
    | cons first _ ih =>
      rw [charsOfAll, first, ih]
      rfl

def WrittenEntry (layout : Layout) (e : Value × Value) (w : Value × List Char) : Prop :=
  w.1 = e.1 ∧ chars layout e.2 = .ok w.2

theorem charsOfEntries_iff {es : List (Value × Value)} {ws : List (Value × List Char)} :
    charsOfEntries layout es = .ok ws ↔ List.Forall₂ (WrittenEntry layout) es ws := by
  constructor
  · intro written
    induction es generalizing ws with
    | nil =>
      rw [charsOfEntries] at written
      cases written
      exact .nil
    | cons e es ih =>
      obtain ⟨k, v⟩ := e
      rw [charsOfEntries] at written
      obtain ⟨cs, first, written⟩ := bind_ok written
      obtain ⟨ws', rest, written⟩ := bind_ok written
      cases written
      exact .cons ⟨rfl, first⟩ (ih rest)
  · intro entries
    induction entries with
    | nil => rw [charsOfEntries]
    | @cons e w _ _ first _ ih =>
      obtain ⟨k, v⟩ := e
      obtain ⟨k', cs⟩ := w
      obtain ⟨rfl, text⟩ := first
      dsimp only at text
      rw [charsOfEntries, text, ih]
      rfl

theorem keys_written {es : List (Value × Value)} {ws : List (Value × List Char)}
    (entries : List.Forall₂ (WrittenEntry layout) es ws) : ws.map (·.1) = es.map (·.1) := by
  induction entries with
  | nil => rfl
  | cons first _ ih => rw [List.map_cons, List.map_cons, first.1, ih]

variable (layout)

def arranged (written : List (Value × List Char)) : Except Unwritable (List (Value × List Char)) :=
  if layout.sorted then sortEntries written else .ok written

def memberText (w : Value × List Char) : Except Unwritable (List Char) := do
  return quoted (← keyText w.1) ++ layout.colon ++ w.2

def object (written : List (Value × List Char)) : Except Unwritable (List Char) := do
  return '{' :: joined layout.comma (← written.mapM (memberText layout)) ++ ['}']

/-- A map is written in three steps: its values, the order of its entries, and the object. -/
theorem chars_map (es : List (Value × Value)) :
    chars layout (.map es) = charsOfEntries layout es >>= arranged layout >>= object layout := by
  rw [chars]
  cases charsOfEntries layout es with
  | error u => rfl
  | ok written =>
    change _ = arranged layout written >>= object layout
    unfold arranged
    -- Sorted or not, what comes of the entries goes on as the members of the object.
    by_cases sorted : layout.sorted
    · rw [if_pos sorted]
      change (if layout.sorted then _ else _) = _
      rw [if_pos sorted]
      rfl
    · rw [if_neg sorted]
      change (if layout.sorted then _ else _) = _
      rw [if_neg sorted]
      rfl

theorem keyText_ofGlyphs (gs : List Text.Glyph) : keyText (.ofGlyphs gs) = .ok gs := by
  rcases Value.ofGlyphs_cases gs with ⟨s, rfl, same⟩ | ⟨t, rfl, same⟩ <;> rw [same] <;> rfl

theorem keyText_text {k : Value} (text : k.isText) : ∃ gs, keyText k = .ok gs := by
  obtain ⟨gs, rfl⟩ := Value.exists_ofGlyphs text
  exact ⟨gs, keyText_ofGlyphs gs⟩

/-- Written values become members of an object if their keys can be written. -/
theorem members_ok {written : List (Value × List Char)}
    (keys : ∀ w ∈ written, ∃ gs, keyText w.1 = .ok gs) :
    ∃ ms, written.mapM (memberText layout) = .ok ms := by
  induction written with
  | nil => exact ⟨[], rfl⟩
  | cons w written ih =>
    obtain ⟨⟨gs, key⟩, keys⟩ := List.forall_mem_cons.mp keys
    obtain ⟨ms, rest⟩ := ih keys
    refine ⟨(quoted gs ++ layout.colon ++ w.2) :: ms, ?_⟩
    rw [List.mapM_cons, rest, memberText, key]
    rfl

/-- Entries under texts can be put in order if the layout asks for it. -/
theorem arranged_ok {written : List (Value × List Char)} (keys : ∀ w ∈ written, w.1.isText) :
    ∃ ws, arranged layout written = .ok ws ∧ ∀ w ∈ ws, w.1.isText := by
  unfold arranged
  by_cases sorted : layout.sorted
  · obtain ⟨ws, all, perm, -⟩ := sortEntries_sorted keys
    rw [if_pos sorted]
    exact ⟨ws, all, fun w mem => keys w (perm.mem_iff.mp mem)⟩
  · rw [if_neg sorted]
    exact ⟨written, rfl, keys⟩

/-- A map is written once its values are, its entries are in order, and its keys can be written. -/
theorem map_written {es : List (Value × Value)} {written ws : List (Value × List Char)}
    (values : charsOfEntries layout es = .ok written) (order : arranged layout written = .ok ws)
    (keys : ∀ w ∈ ws, ∃ gs, keyText w.1 = .ok gs) : ∃ cs, chars layout (.map es) = .ok cs := by
  obtain ⟨ms, members⟩ := members_ok layout keys
  refine ⟨'{' :: joined layout.comma ms ++ ['}'], ?_⟩
  calc chars layout (.map es)
      = charsOfEntries layout es >>= arranged layout >>= object layout := chars_map layout es
    _ = arranged layout written >>= object layout := by rw [values]; rfl
    _ = object layout ws := by rw [order]; rfl
    _ = .ok ('{' :: joined layout.comma ms ++ ['}']) := by rw [object, members]; rfl

theorem printable_map {es : List (Value × Value)} (entries : ∀ e ∈ es, PrintableEntry e) :
    Printable (.map es) := by
  intro layout
  obtain ⟨written, values⟩ := charsOfEntries_ok layout fun e mem => (entries e mem).2 layout
  have keys : ∀ w ∈ written, w.1.isText := by
    intro w mem
    have there : w.1 ∈ es.map (·.1) := keys_written (charsOfEntries_iff.mp values) ▸ List.mem_map_of_mem mem
    obtain ⟨e, mem, same⟩ := List.mem_map.mp there
    exact same ▸ (entries e mem).1
  obtain ⟨ws, order, keys'⟩ := arranged_ok layout keys
  exact map_written layout values order fun w mem => keyText_text (keys' w mem)

end Json

end Kitchen
