import Mathlib.Data.Set.Basic
import Mathlib.Order.Defs.LinearOrder

/-! Points on a circle, an ordered type that starts again after its end. A value
belongs to the next point at or after it. Taking points away moves only the
values that belonged to them (`IsNext.of_subset`). Among entries in any order, a
scan finds the next point and the last entry at it (`scan_isNext`). -/

namespace RpcInGo.Lib.Circle

section Next
variable {α : Type} [LE α]

/-- `p` is the first point of `P` at or after `h`, going round. -/
inductive IsNext (P : Set α) (h p : α) : Prop
  | ahead : p ∈ P → h ≤ p → (∀ q ∈ P, h ≤ q → p ≤ q) → IsNext P h p
  | around : p ∈ P → (∀ q ∈ P, ¬ h ≤ q) → (∀ q ∈ P, p ≤ q) → IsNext P h p

variable {P Q : Set α} {h p q : α}

theorem IsNext.mem (hp : IsNext P h p) : p ∈ P := by
  cases hp <;> assumption

theorem IsNext.unique [Std.IsLinearOrder α] (hp : IsNext P h p) (hq : IsNext P h q) : p = q := by
  cases hp with
  | ahead hpP hle hfirst =>
    cases hq with
    | ahead hqP hle' hfirst' => exact Std.le_antisymm (hfirst q hqP hle') (hfirst' p hpP hle)
    | around _ hnone _ => exact absurd hle (hnone p hpP)
  | around hpP hnone hleast =>
    cases hq with
    | ahead hqP hle' _ => exact absurd hle' (hnone q hqP)
    | around hqP _ hleast' => exact Std.le_antisymm (hleast q hqP) (hleast' p hpP)

/-- The next point is still the next one when other points are gone. -/
theorem IsNext.of_subset (hp : IsNext P h p) (hsub : Q ⊆ P) (hmem : p ∈ Q) : IsNext Q h p := by
  cases hp with
  | ahead _ hle hfirst => exact .ahead hmem hle fun q hq => hfirst q (hsub hq)
  | around _ hnone hleast =>
    exact .around hmem (fun q hq => hnone q (hsub hq)) fun q hq => hleast q (hsub hq)

end Next

section Scan
variable {α β : Type} [LE α] [DecidableEq α]

/-- The entry at the lowest point, of several at that point the last. -/
structure IsLowest (l : List (α × β)) (e : α × β) : Prop where
  le : ∀ q ∈ l, e.1 ≤ q.1
  last : (l.filter fun q => q.1 = e.1).getLast? = some e

theorem IsLowest.mem {l : List (α × β)} {e : α × β} (h : IsLowest l e) : e ∈ l :=
  (List.mem_filter.mp (List.mem_of_getLast? h.last)).1

variable [DecidableLE α]

def lowest : List (α × β) → Option (α × β)
  | [] => none
  | e :: l =>
    match lowest l with
    | none => some e
    | some m => if m.1 ≤ e.1 then some m else some e

/-- The lowest of the entries at or after `h`, or of all if there is none. -/
def scan (l : List (α × β)) (h : α) : Option (α × β) :=
  (lowest (l.filter fun e => h ≤ e.1)).or (lowest l)

omit [DecidableEq α] in
theorem lowest_eq_none {l : List (α × β)} (h : lowest l = none) : l = [] := by
  cases l with
  | nil => rfl
  | cons e l =>
    rw [lowest] at h
    split at h
    · cases h
    · split at h <;> cases h

variable [Std.IsLinearOrder α]

theorem lowest_isLowest {l : List (α × β)} {e : α × β} (h : lowest l = some e) :
    IsLowest l e := by
  induction l generalizing e with
  | nil => cases h
  | cons a l ih =>
    rw [lowest] at h
    split at h
    · rename_i hnone
      cases h
      rw [lowest_eq_none hnone]
      exact ⟨by simp [Std.le_refl], by simp⟩
    rename_i m hm
    obtain ⟨hle, hlast⟩ := ih hm
    split at h
    · -- the entry found in the rest stays, also against one at its point
      rename_i hma
      obtain rfl := Option.some.inj h
      refine ⟨List.forall_mem_cons.mpr ⟨hma, hle⟩, ?_⟩
      by_cases heq : a.1 = m.1
      · rw [List.filter_cons_of_pos (by simpa using heq), List.getLast?_cons, hlast]
        rfl
      · rw [List.filter_cons_of_neg (by simpa using heq), hlast]
    · rename_i hma
      cases h
      have ham : a.1 ≤ m.1 := (Std.le_total (a := a.1) (b := m.1)).resolve_right hma
      refine ⟨List.forall_mem_cons.mpr ⟨Std.le_refl _, fun q hq => Std.le_trans ham (hle q hq)⟩, ?_⟩
      have hnone : l.filter (fun q => q.1 = a.1) = [] := by
        rw [List.filter_eq_nil_iff]
        intro q hq hqa
        have hmq := hle q hq
        rw [of_decide_eq_true hqa] at hmq
        exact hma hmq
      rw [List.filter_cons_of_pos (by simp), hnone]
      rfl

theorem scan_isNext {l : List (α × β)} (hl : l ≠ []) (h : α) :
    ∃ e, scan l h = some e ∧ IsNext {p | p ∈ l.map Prod.fst} h e.1 ∧
      (l.filter fun q => q.1 = e.1).getLast? = some e := by
  have hmem : ∀ {p : α}, p ∈ l.map Prod.fst → ∃ q ∈ l, q.1 = p := List.mem_map.mp
  cases hahead : lowest (l.filter fun e => h ≤ e.1) with
  | some e =>
    obtain ⟨hle, hlast⟩ := lowest_isLowest hahead
    obtain ⟨hel, hhe⟩ := List.mem_filter.mp (lowest_isLowest hahead).mem
    refine ⟨e, by rw [scan, hahead, Option.some_or], .ahead (List.mem_map_of_mem hel)
      (of_decide_eq_true hhe) ?_, ?_⟩
    · rintro p hp hhp
      obtain ⟨q, hq, rfl⟩ := hmem hp
      exact hle q (List.mem_filter.mpr ⟨hq, decide_eq_true hhp⟩)
    · rw [← hlast, List.filter_filter]
      congr 2
      funext q
      by_cases heq : q.1 = e.1
      · simp [heq, of_decide_eq_true hhe]
      · simp [heq]
  | none =>
    have hbehind := List.filter_eq_nil_iff.mp (lowest_eq_none hahead)
    obtain ⟨e, he⟩ := Option.ne_none_iff_exists'.mp (mt lowest_eq_none hl)
    obtain ⟨hle, hlast⟩ := lowest_isLowest he
    refine ⟨e, by rw [scan, hahead, Option.none_or, he], .around
      (List.mem_map_of_mem (lowest_isLowest he).mem) ?_ ?_, hlast⟩
    · intro p hp hhp
      obtain ⟨q, hq, rfl⟩ := hmem hp
      exact hbehind q hq (decide_eq_true hhp)
    · intro p hp
      obtain ⟨q, hq, rfl⟩ := hmem hp
      exact hle q hq

end Scan

end RpcInGo.Lib.Circle
