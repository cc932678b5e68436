import Mathlib.Data.List.Rotate

/-!
A ring of slots kept in a list, with the index of the current slot. Read backwards
from the current slot it is a queue, the newest slot first: moving on to the next
slot and overwriting it pushes a slot in at the front and the oldest out at the end
(`newestFirst_set`).
-/

namespace RpcInGo.Lib.Ring

variable {α : Type}

/-- The ring read backwards from slot `i`. -/
def newestFirst (l : List α) (i : Nat) : List α := (l.rotate (i + 1)).reverse

/-- `n` slots `a` come in at the front, and as many of the oldest go. -/
def push (a : α) (n : Nat) (l : List α) : List α := (List.replicate n a ++ l).take l.length

@[simp] theorem length_newestFirst (l : List α) (i : Nat) :
    (newestFirst l i).length = l.length := by
  simp [newestFirst]

theorem newestFirst_perm (l : List α) (i : Nat) : (newestFirst l i).Perm l :=
  (List.reverse_perm _).trans (List.rotate_perm l _)

@[simp] theorem newestFirst_replicate (a : α) (n i : Nat) :
    newestFirst (List.replicate n a) i = List.replicate n a := by
  simp [newestFirst]

@[simp] theorem length_push (a : α) (n : Nat) (l : List α) : (push a n l).length = l.length := by
  simp [push]

theorem getElem?_push (a : α) (n : Nat) (l : List α) (i : Nat) :
    (push a n l)[i]? =
      if i < l.length then if i < n then some a else l[i - n]? else none := by
  simp only [push, List.getElem?_take, List.getElem?_append, List.length_replicate,
    List.getElem?_replicate]
  split
  · split <;> rfl
  · rfl

theorem push_zero (a : α) (l : List α) : push a 0 l = l := by simp [push]

theorem push_push (a : α) (m n : Nat) (l : List α) : push a m (push a n l) = push a (n + m) l := by
  apply List.ext_getElem?
  intro i
  simp only [getElem?_push, length_push]
  split
  · split
    · rw [if_pos (by omega)]
    · rw [if_pos (by omega), Nat.sub_sub, Nat.add_comm m n]
      split
      · rw [if_pos (by omega)]
      · rw [if_neg (by omega)]
  · rfl

theorem push_of_length_le (a : α) {n : Nat} {l : List α} (h : l.length ≤ n) :
    push a n l = List.replicate l.length a := by
  rw [push, List.take_append_of_le_length (by simpa using h), List.take_replicate,
    Nat.min_eq_left h]

theorem push_concat (a x : α) (l : List α) : push a 1 (l ++ [x]) = a :: l := by
  simp [push, List.length_append]

/-- The slot after `i` is the oldest one. -/
theorem newestFirst_set (a : α) {l : List α} (i : Nat) (hl : l ≠ []) :
    newestFirst (l.set ((i + 1) % l.length) a) ((i + 1) % l.length) =
      push a 1 (newestFirst l i) := by
  have hlt : (i + 1) % l.length < l.length := Nat.mod_lt _ (List.length_pos_iff.mpr hl)
  have hi : newestFirst l i = (l.rotate ((i + 1) % l.length)).reverse := by
    rw [newestFirst, List.rotate_mod]
  rw [hi]
  generalize (i + 1) % l.length = j at hlt
  -- `l` is the slots before the oldest one, the oldest one, and those after it
  obtain ⟨l₁, x, l₂, rfl, rfl⟩ : ∃ l₁ x l₂, l = l₁ ++ x :: l₂ ∧ l₁.length = j :=
    ⟨l.take j, l[j], l.drop (j + 1), by simp, by simp; omega⟩
  have hset : (l₁ ++ x :: l₂).set l₁.length a = (l₁ ++ [a]) ++ l₂ := by simp
  have hlen : l₁.length + 1 = (l₁ ++ [a]).length := by simp
  rw [newestFirst, hset, hlen, List.rotate_append_length_eq, List.rotate_append_length_eq,
    List.cons_append, List.reverse_cons, push_concat]
  simp

theorem newestFirst_modify (f : α → α) {l : List α} {i : Nat} (h : i < l.length) :
    newestFirst (l.modify i f) i = (newestFirst l i).modifyHead f := by
  obtain ⟨l₁, x, l₂, rfl, rfl⟩ : ∃ l₁ x l₂, l = l₁ ++ x :: l₂ ∧ l₁.length = i :=
    ⟨l.take i, l[i], l.drop (i + 1), by simp, by simp; omega⟩
  have hmod : (l₁ ++ x :: l₂).modify l₁.length f = (l₁ ++ [f x]) ++ l₂ := by
    simp [List.modify_eq_take_cons_drop]
  have happ : l₁ ++ x :: l₂ = (l₁ ++ [x]) ++ l₂ := by simp
  have hlen (y : α) : l₁.length + 1 = (l₁ ++ [y]).length := by simp
  rw [newestFirst, hmod, hlen (f x), List.rotate_append_length_eq, newestFirst, happ, hlen x,
    List.rotate_append_length_eq]
  simp

end RpcInGo.Lib.Ring
