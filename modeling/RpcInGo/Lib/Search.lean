import Mathlib.Tactic.Common

/-! The binary search of Go's `sort.Search`. -/

namespace RpcInGo.Lib.Search

/-- The loop of `sort.Search` on the window `[i, j)`. -/
def searchFrom (f : Nat → Bool) (i j : Nat) : Nat :=
  if i < j then
    if f ((i + j) / 2) then searchFrom f i ((i + j) / 2)
    else searchFrom f ((i + j) / 2 + 1) j
  else i
termination_by j - i

/-- The index that `sort.Search(n, f)` returns. -/
def search (n : Nat) (f : Nat → Bool) : Nat := searchFrom f 0 n

theorem searchFrom_le {f : Nat → Bool} {i j : Nat} (h : i ≤ j) : searchFrom f i j ≤ j := by
  fun_induction searchFrom f i j with
  | case1 i j hij hf ih =>
    have := ih (by omega)
    omega
  | case2 i j hij hf ih => exact ih (by omega)
  | case3 i j hij => exact h

theorem search_le (n : Nat) (f : Nat → Bool) : search n f ≤ n := searchFrom_le (Nat.zero_le n)

section Monotone
variable {n : Nat} {f : Nat → Bool}

theorem searchFrom_spec (hmono : ∀ i j, i ≤ j → j < n → f i = true → f j = true) {i j : Nat}
    (hij : i ≤ j) (hjn : j ≤ n) (hlow : ∀ k < i, f k = false) (hhigh : j < n → f j = true) :
    (∀ k < searchFrom f i j, f k = false) ∧
    (searchFrom f i j < n → f (searchFrom f i j) = true) := by
  fun_induction searchFrom f i j with
  | case1 i j hlt hf ih => exact ih (by omega) (by omega) hlow fun _ => hf
  | case2 i j hlt hf ih =>
    refine ih (by omega) hjn (fun k hk => ?_) hhigh
    rw [Bool.eq_false_iff]
    intro hk'
    exact hf (hmono k _ (by omega) (by omega) hk')
  | case3 i j hge =>
    obtain rfl : i = j := by omega
    exact ⟨hlow, hhigh⟩

/-- On a predicate that stays true, the search finds where it starts to hold. -/
theorem search_spec (hmono : ∀ i j, i ≤ j → j < n → f i = true → f j = true) :
    (∀ k < search n f, f k = false) ∧ (search n f < n → f (search n f) = true) :=
  searchFrom_spec hmono (Nat.zero_le n) (Nat.le_refl n) (fun k hk => absurd hk (Nat.not_lt_zero k))
    fun h => absurd h (Nat.lt_irrefl n)

end Monotone

end RpcInGo.Lib.Search
