import Kitchen.Json.Writer
import Kitchen.Proofs.Value.Texts
import Mathlib.Data.List.Nodup

namespace Kitchen.Json

open Text (Glyph)

variable {α β : Type}

@[mk_iff]
structure Keyed (es : List (Value × α)) : Prop where
  texts : ∀ e ∈ es, e.1.isText
  distinct : (es.map (·.1)).Nodup

/-- It does not matter what stands under the keys, nor in which order they stand. -/
theorem Keyed.of_keys {es : List (Value × α)} {fs : List (Value × β)} (keyed : Keyed es)
    (keys : (fs.map (·.1)).Perm (es.map (·.1))) : Keyed fs where
  texts := by
    intro f mem
    obtain ⟨e, there, same⟩ := List.mem_map.mp (keys.mem_iff.mp (List.mem_map_of_mem mem))
    rw [← same]
    exact keyed.texts e there
  distinct := keys.nodup_iff.mpr keyed.distinct

theorem Keyed.key {es : List (Value × α)} {k : Value} (keyed : Keyed es) (mem : k ∈ es.map (·.1)) :
    k.isText := by
  obtain ⟨e, there, rfl⟩ := List.mem_map.mp mem
  exact keyed.texts e there

def keyName (k : Value) : List Glyph :=
  k.glyphs?.getD []

def inOrder (e f : Value × α) : Bool :=
  !Glyph.before (keyName f.1) (keyName e.1)

theorem inOrder_iff {e f : Value × α} : inOrder e f ↔ ¬Glyph.before (keyName f.1) (keyName e.1) := by
  rw [inOrder, Bool.not_eq_true', Bool.not_eq_true]

theorem inOrder_trans {e f g : Value × α} (first : inOrder e f) (second : inOrder f g) : inOrder e g := by
  rw [inOrder_iff] at first second ⊢
  exact Glyph.not_before_trans first second

theorem inOrder_total (e f : Value × α) : inOrder e f || inOrder f e := by
  rw [Bool.or_eq_true, inOrder_iff, inOrder_iff]
  exact Glyph.not_before_total _ _

theorem keyName_ofGlyphs (gs : List Glyph) : keyName (.ofGlyphs gs) = gs := by
  rw [keyName, Value.glyphs?_ofGlyphs, Option.getD_some]

theorem keyName_inj {k l : Value} (first : k.isText) (second : l.isText) (same : keyName k = keyName l) :
    k = l := by
  obtain ⟨gs, rfl⟩ := Value.exists_ofGlyphs first
  obtain ⟨hs, rfl⟩ := Value.exists_ofGlyphs second
  rw [keyName_ofGlyphs, keyName_ofGlyphs] at same
  rw [same]

theorem keyBefore_text {k l : Value} (first : k.isText) (second : l.isText) :
    keyBefore? k l = some (Glyph.before (keyName k) (keyName l)) := by
  obtain ⟨gs, rfl⟩ := Value.exists_ofGlyphs first
  obtain ⟨hs, rfl⟩ := Value.exists_ofGlyphs second
  rw [keyBefore?, Value.glyphs?_ofGlyphs, Value.glyphs?_ofGlyphs, keyName_ofGlyphs, keyName_ofGlyphs]

/-- The order of entries is that of their keys. -/
theorem pairwise_inOrder {es : List (Value × α)} :
    es.Pairwise (inOrder · ·) ↔
      (es.map (·.1)).Pairwise fun k l => ¬Glyph.before (keyName l) (keyName k) := by
  simp only [List.pairwise_map, inOrder_iff]

/-- Entries whose keys are different texts can be put in one order only. -/
theorem Keyed.sorted_unique {es fs : List (Value × α)} (keyed : Keyed es) (perm : es.Perm fs)
    (first : es.Pairwise (inOrder · ·)) (second : fs.Pairwise (inOrder · ·)) : es = fs := by
  apply List.Perm.eq_of_pairwise _ first second perm
  intro e f mem mem' before after
  rw [inOrder_iff] at before after
  have there : f ∈ es := perm.mem_iff.mpr mem'
  -- Each of them stands before the other, so they stand under the same text.
  apply List.inj_on_of_nodup_map keyed.distinct mem there
  apply keyName_inj (keyed.texts e mem) (keyed.texts f there)
  exact Glyph.eq_of_not_before after before

def sortedByKey (es : List (Value × α)) : List (Value × α) :=
  es.mergeSort inOrder

theorem sortedByKey_perm (es : List (Value × α)) : (sortedByKey es).Perm es :=
  List.mergeSort_perm es _

theorem sortedByKey_sorted (es : List (Value × α)) : (sortedByKey es).Pairwise (inOrder · ·) := by
  have trans : ∀ e f g : Value × α, inOrder e f → inOrder f g → inOrder e g :=
    fun _ _ _ first second => inOrder_trans first second
  exact List.pairwise_mergeSort trans inOrder_total es

theorem place_sorted {k : Value} (cs : List Char) {done : List (Value × List Char)} (key : k.isText)
    (keys : ∀ w ∈ done, w.1.isText) (sorted : done.Pairwise (inOrder · ·)) :
    ∃ placed, place k cs done = .ok placed ∧ placed.Perm ((k, cs) :: done) ∧
      placed.Pairwise (inOrder · ·) := by
  induction done with
  | nil => exact ⟨[(k, cs)], rfl, .refl _, List.pairwise_singleton _ _⟩
  | cons w done ih =>
    obtain ⟨k', cs'⟩ := w
    obtain ⟨key', keys'⟩ := List.forall_mem_cons.mp keys
    obtain ⟨least, rest⟩ := List.pairwise_cons.mp sorted
    have compared := keyBefore_text key key'
    by_cases before : Glyph.before (keyName k) (keyName k')
    · rw [before] at compared
      refine ⟨(k, cs) :: (k', cs') :: done, ?_, .refl _, List.pairwise_cons.mpr ⟨?_, sorted⟩⟩
      · simp only [place, compared]
      · have first : inOrder (k, cs) (k', cs') :=
          inOrder_iff.mpr ((Glyph.not_before_total _ _).resolve_left (not_not.mpr before))
        intro w mem
        rcases List.mem_cons.mp mem with rfl | later
        · exact first
        · exact inOrder_trans first (least w later)
    · rw [Bool.eq_false_iff.mpr before] at compared
      obtain ⟨placed, found, perm, order⟩ := ih keys' rest
      refine ⟨(k', cs') :: placed, ?_, ?_, List.pairwise_cons.mpr ⟨?_, order⟩⟩
      · simp only [place, compared, found]
        rfl
      · exact (perm.cons _).trans (.swap _ _ _)
      · intro w mem
        rcases List.mem_cons.mp (perm.mem_iff.mp mem) with rfl | later
        · exact inOrder_iff.mpr before
        · exact least w later

/-- Entries under texts are sorted by them, and none is lost or added. -/
theorem sortEntries_sorted {es : List (Value × List Char)} (keys : ∀ e ∈ es, e.1.isText) :
    ∃ sorted, sortEntries es = .ok sorted ∧ sorted.Perm es ∧ sorted.Pairwise (inOrder · ·) := by
  -- Each entry is placed among those before it, which are sorted already.
  suffices all : ∀ done : List (Value × List Char), (∀ w ∈ done, w.1.isText) →
      done.Pairwise (inOrder · ·) →
      ∃ sorted, es.foldlM (fun sorted (e : Value × List Char) => place e.1 e.2 sorted) done = .ok sorted ∧
        sorted.Perm (done ++ es) ∧ sorted.Pairwise (inOrder · ·) by
    exact all [] (by simp) .nil
  induction es with
  | nil =>
    intro done _ order
    exact ⟨done, rfl, by rw [List.append_nil], order⟩
  | cons e es ih =>
    intro done before order
    obtain ⟨key, keys'⟩ := List.forall_mem_cons.mp keys
    obtain ⟨placed, found, perm, order'⟩ := place_sorted e.2 key before order
    have texts : ∀ w ∈ placed, w.1.isText := by
      intro w mem
      rcases List.mem_cons.mp (perm.mem_iff.mp mem) with rfl | earlier
      · exact key
      · exact before w earlier
    obtain ⟨sorted, rest, perm', order''⟩ := ih keys' placed texts order'
    refine ⟨sorted, ?_, ?_, order''⟩
    · rw [List.foldlM_cons, found]
      exact rest
    · have added : (placed ++ es).Perm (e :: (done ++ es)) := perm.append_right es
      exact perm'.trans (added.trans List.perm_middle.symm)

end Kitchen.Json
