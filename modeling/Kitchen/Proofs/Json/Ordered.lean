import Kitchen.Proofs.Json.Rereading
import Mathlib.Data.List.Perm.Basic

namespace Kitchen.Json

open Value (lookup? field?)

variable {v w : Value} {xs ys : List Value} {es fs : List (Value × Value)}

-- Values that differ in the order of keys at most: lists item by item, and maps under each key.
inductive Reordered : Value → Value → Prop where
  | refl (v : Value) : Reordered v v
  | list {xs ys : List Value} (size : xs.length = ys.length) (items : ∀ p ∈ xs.zip ys, Reordered p.1 p.2) :
      Reordered (.list xs) (.list ys)
  | map {es fs : List (Value × Value)} (keys : (es.map (·.1)).Perm (fs.map (·.1)))
      (values : ∀ k v w, (k, v) ∈ es → (k, w) ∈ fs → Reordered v w) : Reordered (.map es) (.map fs)

/-- Texts have no keys. -/
theorem reordered_isText (text : v.isText) : Reordered v w ↔ v = w := by
  constructor
  · intro same
    cases same with
    | refl => rfl
    | list => cases text
    | map => cases text
  · rintro rfl
    exact .refl _

theorem reordered_list : Reordered (.list xs) (.list ys) ↔ List.Forall₂ Reordered xs ys := by
  constructor
  · intro same
    cases same with
    | refl => exact List.forall₂_same.mpr fun x _ => .refl x
    | list size items => exact List.forall₂_iff_zip.mpr ⟨size, fun mem => items _ mem⟩
  · intro items
    exact .list items.length_eq fun p mem => List.forall₂_zip items mem

theorem reordered_map (distinct : (es.map (·.1)).Nodup) : Reordered (.map es) (.map fs) ↔
    (es.map (·.1)).Perm (fs.map (·.1)) ∧ ∀ k v w, (k, v) ∈ es → (k, w) ∈ fs → Reordered v w := by
  constructor
  · intro same
    cases same with
    | refl =>
      refine ⟨.refl _, fun k v w mem mem' => ?_⟩
      rw [Value.unique distinct mem mem']
      exact .refl w
    | map keys values => exact ⟨keys, values⟩
  · rintro ⟨keys, values⟩
    exact .map keys values

/-- The entries of a map may stand in any order. -/
theorem reordered_perm (distinct : (es.map (·.1)).Nodup) (perm : es.Perm fs) :
    Reordered (.map es) (.map fs) := by
  refine .map (perm.map _) fun k v w mem mem' => ?_
  rw [Value.unique distinct mem (perm.mem_iff.mpr mem')]
  exact .refl w

/-- Maps agree if they hold the same under every text. -/
theorem reordered_entries (keyed : Keyed es) (keyed' : Keyed fs) :
    Reordered (.map es) (.map fs) ↔
      ∀ k : Value, k.isText → Option.Rel Reordered (lookup? k es) (lookup? k fs) := by
  rw [reordered_map keyed.distinct]
  constructor
  · rintro ⟨perm, values⟩ k key
    cases found : lookup? k es with
    | none =>
      have missing := mt perm.mem_iff.mpr ((Value.lookup?_eq_none key).mp found)
      rw [(Value.lookup?_eq_none key).mpr missing]
      exact .none
    | some v =>
      have mem := Value.mem_of_lookup? key found
      cases found' : lookup? k fs with
      | none =>
        have there := perm.mem_iff.mp (List.mem_map_of_mem mem)
        exact absurd there ((Value.lookup?_eq_none key).mp found')
      | some w => exact .some (values _ v w mem (Value.mem_of_lookup? key found'))
  · intro alike
    -- Where one of them holds nothing under a text, neither does the other.
    have same : ∀ k : Value, k.isText → (k ∈ es.map (·.1) ↔ k ∈ fs.map (·.1)) := by
      intro k key
      have here := alike k key
      rw [← not_iff_not, ← Value.lookup?_eq_none key, ← Value.lookup?_eq_none key]
      generalize lookup? k es = o, lookup? k fs = o' at here ⊢
      cases here <;> simp
    constructor
    · apply (List.perm_ext_iff_of_nodup keyed.distinct keyed'.distinct).mpr
      intro k
      constructor
      · intro mem
        exact (same k (keyed.key mem)).mp mem
      · intro mem
        exact (same k (keyed'.key mem)).mpr mem
    · intro k v w mem mem'
      have key := keyed.key (List.mem_map_of_mem mem)
      have here := alike k key
      rw [(Value.lookup?_eq_some key keyed.distinct).mpr mem,
        (Value.lookup?_eq_some key keyed'.distinct).mpr mem'] at here
      exact Option.rel_some_some.mp here

/-- Where only names stand before them, it is enough to look under names. -/
theorem reordered_fields (keyed : Keyed es) (keyed' : Keyed fs) (named : ∀ e ∈ es, ∃ name, e.1 = .text name)
    (named' : ∀ e ∈ fs, ∃ name, e.1 = .text name) :
    Reordered (.map es) (.map fs) ↔ ∀ name, Option.Rel Reordered (field? name es) (field? name fs) := by
  have missing : ∀ {gs : List (Value × Value)} (t : Text.Torn), (∀ e ∈ gs, ∃ name, e.1 = .text name) →
      lookup? (.torn t) gs = none := by
    intro gs t named
    apply (Value.lookup?_eq_none rfl).mpr
    intro there
    obtain ⟨e, mem, key⟩ := List.mem_map.mp there
    obtain ⟨name, text⟩ := named e mem
    cases key.symm.trans text
  rw [reordered_entries keyed keyed']
  constructor
  · exact fun alike name => alike (.text name) rfl
  · intro alike k key
    cases k with
    | text name => exact alike name
    | torn t =>
      rw [missing t named, missing t named']
      exact .none
    | _ => cases key

mutual

def ordered : Value → Value
  | .list xs => .list (orderedAll xs)
  | .map es => .map (sortedByKey (orderedEntries es))
  | v => v

def orderedAll : List Value → List Value
  | [] => []
  | x :: xs => ordered x :: orderedAll xs

def orderedEntries : List (Value × Value) → List (Value × Value)
  | [] => []
  | (k, v) :: es => (k, ordered v) :: orderedEntries es

end

theorem orderedAll_eq (xs : List Value) : orderedAll xs = xs.map ordered := by
  induction xs with
  | nil => rfl
  | cons x xs ih => rw [orderedAll, ih, List.map_cons]

theorem orderedEntries_eq (es : List (Value × Value)) :
    orderedEntries es = es.map fun e => (e.1, ordered e.2) := by
  induction es with
  | nil => rfl
  | cons e es ih => rw [orderedEntries, ih, List.map_cons]

theorem keys_orderedEntries (es : List (Value × Value)) :
    (orderedEntries es).map (·.1) = es.map (·.1) := by
  rw [orderedEntries_eq, List.map_map]
  rfl

theorem mem_orderedEntries {k u : Value} :
    (k, u) ∈ orderedEntries es ↔ ∃ v, (k, v) ∈ es ∧ ordered v = u := by
  simp only [orderedEntries_eq, List.mem_map, Prod.mk.injEq, Prod.exists]
  constructor
  · rintro ⟨k', v, mem, rfl, same⟩
    exact ⟨v, mem, same⟩
  · rintro ⟨v, mem, same⟩
    exact ⟨k, v, mem, rfl, same⟩

theorem keyed_orderedEntries (keyed : Keyed es) : Keyed (orderedEntries es) :=
  keyed.of_keys (by rw [keys_orderedEntries])

theorem keyed_sorted (keyed : Keyed es) : Keyed (sortedByKey (orderedEntries es)) :=
  (keyed_orderedEntries keyed).of_keys ((sortedByKey_perm _).map _)

theorem exact_ordered (exact : Exact v) : Exact (ordered v) := by
  -- Only maps change, and they keep their keys and the values under them.
  induction exact with
  | null => exact .null
  | bool b => exact .bool b
  | int short => exact .int short
  | text s => exact .text s
  | torn apart => exact .torn apart
  | @list xs _ ih =>
    rw [ordered, orderedAll_eq]
    exact .list (List.forall_mem_map.mpr ih)
  | @map es keys distinct names _ _ ih =>
    rw [ordered]
    apply exact_map.mpr ⟨keyed_sorted ⟨keys, distinct⟩, ?_⟩
    rintro ⟨k, u⟩ mem
    obtain ⟨v, there, rfl⟩ := mem_orderedEntries.mp ((sortedByKey_perm _).mem_iff.mp mem)
    exact ⟨names (k, v) there, ih _ there⟩

/-- Lists are the same with their keys in order if their items are. -/
theorem ordered_list : ordered (.list xs) = ordered (.list ys) ↔
    List.Forall₂ (fun x y => ordered x = ordered y) xs ys := by
  have items : List.Forall₂ (· = ·) (xs.map ordered) (ys.map ordered) ↔
      xs.map ordered = ys.map ordered := by
    rw [List.forall₂_eq_eq_eq]
  simp only [ordered, orderedAll_eq, Value.list.injEq]
  rw [← items, List.forall₂_map_left_iff, List.forall₂_map_right_iff]

/-- Maps are the same with their keys in order if they have the same entries in any order. -/
theorem ordered_map (keyed : Keyed es) :
    ordered (.map es) = ordered (.map fs) ↔ (orderedEntries es).Perm (orderedEntries fs) := by
  have first := sortedByKey_perm (orderedEntries es)
  have second := sortedByKey_perm (orderedEntries fs)
  simp only [ordered, Value.map.injEq]
  constructor
  · intro same
    rw [same] at first
    exact first.symm.trans second
  · intro perm
    apply (keyed_sorted keyed).sorted_unique
    · exact first.trans (perm.trans second.symm)
    · exact sortedByKey_sorted _
    · exact sortedByKey_sorted _

/-- Values that are the same with their keys in order differ in nothing else. -/
theorem Exact.reordered (exact : Exact v) (exact' : Exact w) (same : ordered v = ordered w) :
    Reordered v w := by
  induction exact generalizing w with
  | @list xs items ih =>
    cases exact' with
    | @list ys items' =>
      have alike := ordered_list.mp same
      refine .list alike.length_eq fun p mem => ?_
      obtain ⟨first, second⟩ := List.of_mem_zip mem
      exact ih p.1 first (items' p.2 second) (List.forall₂_zip alike mem)
    | _ => simp [ordered] at same
  | @map es keys distinct _ _ _ ih =>
    cases exact' with
    | @map fs keys' distinct' names' values' =>
      have perm := (ordered_map ⟨keys, distinct⟩).mp same
      refine .map ?_ fun k v w mem mem' => ?_
      · have keys := perm.map (·.1)
        rwa [keys_orderedEntries, keys_orderedEntries] at keys
      · -- The same key stands over both values once they are in order, and there it stands once.
        have left : (k, ordered v) ∈ orderedEntries fs :=
          perm.mem_iff.mp (mem_orderedEntries.mpr ⟨v, mem, rfl⟩)
        have right : (k, ordered w) ∈ orderedEntries fs := mem_orderedEntries.mpr ⟨w, mem', rfl⟩
        have alike := Value.unique (keyed_orderedEntries ⟨keys', distinct'⟩).distinct left right
        exact ih _ mem (values' _ mem') alike
    | _ => simp [ordered] at same
  | _ =>
    cases exact' with
    | list => simp [ordered] at same
    | map => simp [ordered] at same
    | _ =>
      cases same <;> exact .refl _

/-- Values that differ in the order of keys only are the same with their keys in order. -/
theorem Reordered.same_ordered (same : Reordered v w) (exact : Exact v) (exact' : Exact w) :
    ordered v = ordered w := by
  induction same with
  | refl => rfl
  | @list xs ys size _ ih =>
    have items := exact_list.mp exact
    have items' := exact_list.mp exact'
    apply ordered_list.mpr (List.forall₂_iff_zip.mpr ⟨size, ?_⟩)
    intro x y mem
    obtain ⟨first, second⟩ := List.of_mem_zip mem
    exact ih (x, y) mem (items x first) (items' y second)
  | @map es fs keys _ ih =>
    obtain ⟨keyed, values⟩ := exact_map.mp exact
    obtain ⟨keyed', values'⟩ := exact_map.mp exact'
    have alike : ∀ k v w, (k, v) ∈ es → (k, w) ∈ fs → ordered v = ordered w :=
      fun k v w mem mem' => ih k v w mem mem' (values _ mem).2 (values' _ mem').2
    have single := (keyed_orderedEntries keyed).distinct.of_map
    have single' := (keyed_orderedEntries keyed').distinct.of_map
    apply (ordered_map keyed).mpr ((List.perm_ext_iff_of_nodup single single').mpr ?_)
    -- Each key stands in both maps, over values that are the same with their keys in order.
    rintro ⟨k, u⟩
    rw [mem_orderedEntries, mem_orderedEntries]
    constructor
    · rintro ⟨v, mem, rfl⟩
      obtain ⟨⟨_, w⟩, mem', rfl⟩ := List.mem_map.mp (keys.mem_iff.mp (List.mem_map_of_mem mem))
      exact ⟨w, mem', (alike _ v w mem mem').symm⟩
    · rintro ⟨w, mem', rfl⟩
      obtain ⟨⟨_, v⟩, mem, rfl⟩ := List.mem_map.mp (keys.mem_iff.mpr (List.mem_map_of_mem mem'))
      exact ⟨v, mem, alike _ v w mem mem'⟩

def compact : Layout :=
  { canonical with sorted := false }

theorem compact_legible : compact.Legible where
  comma := ⟨[], rfl, List.forall_mem_nil _⟩
  colon := ⟨[], rfl, List.forall_mem_nil _⟩

/-- It is all one whether entries are sorted before their values are written or after. -/
theorem sortEntries_written {layout : Layout} {ws : List (Value × List Char)} (keyed : Keyed es)
    (written : charsOfEntries layout es = .ok ws) :
    sortEntries ws = charsOfEntries layout (sortedByKey es) := by
  have entries := charsOfEntries_iff.mp written
  have keyed_ws : Keyed ws := keyed.of_keys (by rw [keys_written entries])
  obtain ⟨sorted, found, perm, order⟩ := sortEntries_sorted keyed_ws.texts
  -- The entries that are written last are the same, and stand in the order of the same keys.
  obtain ⟨ws', entries', perm'⟩ := List.perm_comp_forall₂ (sortedByKey_perm es) entries
  have order' : ws'.Pairwise (inOrder · ·) := by
    rw [pairwise_inOrder, keys_written entries', ← pairwise_inOrder]
    exact sortedByKey_sorted es
  have keyed_sorted : Keyed sorted := keyed_ws.of_keys (perm.map _)
  have alike : sorted = ws' := keyed_sorted.sorted_unique (perm.trans perm'.symm) order order'
  rw [found, alike, charsOfEntries_iff.mpr entries']

theorem charsOfAll_ordered {layout layout' : Layout}
    (items : ∀ x ∈ xs, chars layout x = chars layout' (ordered x)) :
    charsOfAll layout xs = charsOfAll layout' (orderedAll xs) := by
  induction xs with
  | nil => rw [orderedAll, charsOfAll, charsOfAll]
  | cons x xs ih =>
    obtain ⟨first, rest⟩ := List.forall_mem_cons.mp items
    rw [orderedAll, charsOfAll, charsOfAll, first, ih rest]

theorem charsOfEntries_ordered {layout layout' : Layout}
    (values : ∀ e ∈ es, chars layout e.2 = chars layout' (ordered e.2)) :
    charsOfEntries layout es = charsOfEntries layout' (orderedEntries es) := by
  induction es with
  | nil => rw [orderedEntries, charsOfEntries, charsOfEntries]
  | cons e es ih =>
    obtain ⟨first, rest⟩ := List.forall_mem_cons.mp values
    rw [orderedEntries, charsOfEntries, charsOfEntries, first, ih rest]

/-- The canonical text of a value is the compact text of it with its keys in order. -/
theorem canonical_ordered (exact : Exact v) : chars canonical v = chars compact (ordered v) := by
  -- By induction the texts of items and values are the same; what is left is the order of the entries.
  induction exact with
  | @list xs _ ih =>
    rw [ordered, chars, chars, charsOfAll_ordered ih]
    rfl
  | @map es keys distinct _ values _ ih =>
    have entries := charsOfEntries_ordered ih
    obtain ⟨ws, written⟩ := charsOfEntries_ok canonical
      fun e mem => (values e mem).plain.printable canonical
    have sorted : sortEntries ws = charsOfEntries compact (sortedByKey (orderedEntries es)) := by
      apply sortEntries_written (keyed_orderedEntries ⟨keys, distinct⟩)
      exact entries.symm.trans written
    calc chars canonical (.map es)
        = charsOfEntries canonical es >>= arranged canonical >>= object canonical := chars_map _ _
      _ = sortEntries ws >>= object canonical := by rw [written]; rfl
      _ = charsOfEntries compact (sortedByKey (orderedEntries es)) >>= object compact := by rw [sorted]; rfl
      _ = chars compact (ordered (.map es)) := by
        rw [ordered, chars_map]
        cases charsOfEntries compact (sortedByKey (orderedEntries es)) <;> rfl
  | _ => rw [ordered, chars, chars] <;> simp

/-- Exact values have one canonical text exactly if they differ in nothing but the order of keys. -/
theorem canonical_eq_iff (exact : Exact v) (exact' : Exact w) :
    ∃ cs ds, chars canonical v = .ok cs ∧ chars canonical w = .ok ds ∧ (cs = ds ↔ Reordered v w) := by
  obtain ⟨cs, u, written, read, -, back⟩ := (exact_ordered exact).plain.reread compact_legible rfl
  obtain ⟨ds, u', written', read', -, back'⟩ := (exact_ordered exact').plain.reread compact_legible rfl
  refine ⟨cs, ds, (canonical_ordered exact).trans written, (canonical_ordered exact').trans written', ?_⟩
  constructor
  · rintro rfl
    apply exact.reordered exact'
    -- The one text is read as both values with their keys in order.
    calc ordered v = u := (back (exact_ordered exact)).symm
      _ = u' := Except.ok.inj (read.symm.trans read')
      _ = ordered w := back' (exact_ordered exact')
  · intro same
    rw [same.same_ordered exact exact'] at written
    exact Except.ok.inj (written.symm.trans written')

end Kitchen.Json
