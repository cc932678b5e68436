import Mathlib.Data.List.Rotate

/-! A cursor that goes through a list entry by entry and starts again after its end.
Wherever it stands, as many moves as the list has entries pass each of them once
(`visit_lap`). -/

namespace RpcInGo.Lib.Cycle

variable {α : Type}

/-- The entries that `n` moves come to, the first of them at position `k`, counted on
round after round. -/
def visit (l : List α) (k : Nat) : Nat → List α
  | 0 => []
  | n + 1 => (l.rotate k).head?.toList ++ visit l (k + 1) n

theorem visit_succ {l : List α} {k : Nat} {a : α} (h : l[k % l.length]? = some a) (n : Nat) :
    visit l k (n + 1) = a :: visit l (k + 1) n := by
  obtain ⟨hlt, -⟩ := List.getElem?_eq_some_iff.mp h
  have hpos : 0 < l.length := Nat.zero_lt_of_lt hlt
  have hhead : (l.rotate k).head? = some a := by
    rw [List.head?_eq_getElem?, List.getElem?_rotate hpos, Nat.zero_add, h]
  rw [visit, hhead]
  rfl

/-- Only the place in the current round matters. -/
theorem visit_congr (l : List α) {k k' : Nat} (h : k % l.length = k' % l.length) (n : Nat) :
    visit l k n = visit l k' n := by
  induction n generalizing k k' with
  | zero => rfl
  | succ n ih =>
    have hrot : l.rotate k = l.rotate k' := by rw [← List.rotate_mod, h, List.rotate_mod]
    have hnext : (k + 1) % l.length = (k' + 1) % l.length := by
      rw [Nat.add_mod, h, ← Nat.add_mod]
    rw [visit, visit, hrot, ih hnext]

/-- Up to one round, the moves read off the rotated list. -/
theorem visit_eq_take (l : List α) (k : Nat) {n : Nat} (hn : n ≤ l.length) :
    visit l k n = (l.rotate k).take n := by
  induction n generalizing k with
  | zero => rfl
  | succ n ih =>
    rw [visit, ih (k + 1) (by omega), ← List.rotate_rotate]
    have hlen : (l.rotate k).length = l.length := List.length_rotate l k
    cases hrot : l.rotate k with
    | nil =>
      rw [hrot, List.length_nil] at hlen
      omega
    | cons a rest =>
      have hrest : n ≤ rest.length := by
        rw [hrot, List.length_cons] at hlen
        omega
      simp [List.take_append_of_le_length hrest]

theorem visit_lap (l : List α) (k : Nat) : (visit l k l.length).Perm l := by
  have htake : (l.rotate k).take l.length = l.rotate k :=
    List.take_of_length_le (by rw [List.length_rotate])
  rw [visit_eq_take l k (le_refl _), htake]
  exact List.rotate_perm l k

end RpcInGo.Lib.Cycle
