import Mathlib.Data.List.Basic

/-!
Pairs written as one list with a separator between them, and the selection of such keys by a
prefix. Nothing keeps the separator out of the components.

* `prefix_key_iff`: which keys the prefix of a first component selects;
* `selected_alone_iff`: a key is selected by its own first component only exactly if neither
  component has a separator;
* `key_inj`: without separators in the first components the key determines both.
-/

namespace RpcInGo.Lib.Separated

section Keys
variable {α : Type*} {c : α} {s s' i i' : List α}

theorem prefix_concat_iff {l : List α} : s ++ [c] <+: l ↔ ∃ t, l = s ++ c :: t := by
  constructor
  · rintro ⟨t, rfl⟩
    exact ⟨t, by simp⟩
  · rintro ⟨t, rfl⟩
    exact ⟨t, by simp⟩

theorem exists_prefix_concat_iff {l : List α} : (∃ s, s ++ [c] <+: l) ↔ c ∈ l := by
  simp only [prefix_concat_iff, List.mem_iff_append]

/-- The key of `s'` and `i` starts with `s` and a separator if `s` is its first component, or ends
before a separator inside of the first or of the second one. -/
theorem prefix_key_iff :
    s ++ [c] <+: s' ++ c :: i ↔
      s = s' ∨ s ++ [c] <+: s' ∨ ∃ r, s = s' ++ c :: r ∧ r ++ [c] <+: i := by
  constructor
  · rw [prefix_concat_iff]
    rintro ⟨t, ht⟩
    rcases List.append_eq_append_iff.mp ht with ⟨a, ha, hat⟩ | ⟨a, ha, hat⟩
    · cases a with
      | nil => exact .inl (by simpa using ha)
      | cons x a =>
        obtain ⟨rfl, hi⟩ := List.cons.inj hat
        exact .inr (.inr ⟨a, ha, prefix_concat_iff.mpr ⟨t, hi⟩⟩)
    · cases a with
      | nil => exact .inl (by simpa using ha.symm)
      | cons x a =>
        obtain ⟨rfl, -⟩ := List.cons.inj hat
        exact .inr (.inl (prefix_concat_iff.mpr ⟨a, ha⟩))
  · rintro (rfl | h | ⟨r, rfl, h⟩)
    · exact ⟨i, by simp⟩
    · exact h.trans (List.prefix_append _ _)
    · obtain ⟨t, rfl⟩ := h
      exact ⟨t, by simp⟩

theorem selected_alone_iff :
    (∀ s, s ++ [c] <+: s' ++ c :: i ↔ s' = s) ↔ c ∉ s' ∧ c ∉ i := by
  constructor
  · intro h
    constructor
    · intro hmem
      obtain ⟨s, hs⟩ := exists_prefix_concat_iff.mpr hmem
      have heq := (h s).mp (prefix_key_iff.mpr (.inr (.inl hs)))
      obtain ⟨t, ht⟩ := prefix_concat_iff.mp hs
      simp [← heq] at ht
    · intro hmem
      obtain ⟨r, hr⟩ := exists_prefix_concat_iff.mpr hmem
      have heq := (h (s' ++ c :: r)).mp (prefix_key_iff.mpr (.inr (.inr ⟨r, rfl, hr⟩)))
      simp at heq
  · rintro ⟨hs', hi⟩ s
    rw [prefix_key_iff]
    constructor
    · rintro (rfl | h | ⟨r, -, h⟩)
      · rfl
      · exact absurd (exists_prefix_concat_iff.mp ⟨s, h⟩) hs'
      · exact absurd (exists_prefix_concat_iff.mp ⟨r, h⟩) hi
    · rintro rfl
      exact .inl rfl

theorem key_inj (hs : c ∉ s) (hs' : c ∉ s') (h : s ++ c :: i = s' ++ c :: i') :
    s = s' ∧ i = i' := by
  have hpre : s ++ [c] <+: s' ++ c :: i' := prefix_concat_iff.mpr ⟨i, h.symm⟩
  rcases prefix_key_iff.mp hpre with rfl | h' | ⟨r, rfl, -⟩
  · simpa using h
  · exact absurd (exists_prefix_concat_iff.mp ⟨s, h'⟩) hs'
  · simp at hs

end Keys

end RpcInGo.Lib.Separated
