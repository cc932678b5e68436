import Mathlib.Data.List.Basic
import Mathlib.Data.Option.Basic

/-! Slices over shared arrays. A slice is a handle, an array and a length, and two slices
of one array see each other's writes. An append writes behind the slice if its array has
room there, and moves to a new array otherwise. The lemmas say what every slice reads
after each operation, the one that was written through and all others. -/

namespace RpcInGo.Lib.Slices

variable {α : Type}

/-- An array: the cells written so far, and how many there are. -/
structure Backing (α : Type) where
  elems : List α
  cap : Nat
  fits : elems.length ≤ cap

def Backing.set (b : Backing α) (i : Nat) (x : α) : Backing α :=
  ⟨b.elems.set i x, b.cap, by rw [List.length_set]; exact b.fits⟩

/-- Writes the cell `n`, which may not have been written before. -/
def Backing.place (b : Backing α) (n : Nat) (x : α) : Backing α :=
  if h : n < b.cap then
    ⟨b.elems.take n ++ x :: b.elems.drop (n + 1), b.cap, by
      have := b.fits
      simp only [List.length_append, List.length_take, List.length_cons, List.length_drop]
      omega⟩
  else b

abbrev Heap (α : Type) := List (Backing α)

structure Slice where
  array : Option Nat
  len : Nat
  deriving DecidableEq, Repr

def Slice.nil : Slice := ⟨none, 0⟩

def backing (h : Heap α) (s : Slice) : Option (Backing α) := s.array.bind (h[·]?)

/-- `cap(s)`. -/
def capacity (h : Heap α) (s : Slice) : Nat := ((backing h s).map Backing.cap).getD 0

/-- The cells of the slice's array, also those behind its end. -/
def cells (h : Heap α) (s : Slice) : List α := ((backing h s).map Backing.elems).getD []

/-- What a loop over the slice reads. -/
def values (h : Heap α) (s : Slice) : List α := (cells h s).take s.len

/-- A slice of a new array, with `spare` cells behind it. -/
def make (h : Heap α) (l : List α) (spare : Nat) : Slice × Heap α :=
  (⟨some h.length, l.length⟩, h ++ [⟨l, l.length + spare, Nat.le_add_right _ _⟩])

/-- `s[i] = x`. -/
def write (h : Heap α) (s : Slice) (i : Nat) (x : α) : Heap α :=
  match s.array with
  | none => h
  | some a => h.modify a (·.set i x)

/-- `append(s, x)`. -/
def append (h : Heap α) (s : Slice) (x : α) (spare : Nat) : Slice × Heap α :=
  match s.array with
  | none => make h (values h s ++ [x]) spare
  | some a =>
    if s.len < capacity h s then (⟨some a, s.len + 1⟩, h.modify a (·.place s.len x))
    else make h (values h s ++ [x]) spare

/-- The slice lies in its array. -/
structure Valid (h : Heap α) (s : Slice) : Prop where
  allocated : ∀ a, s.array = some a → a < h.length
  within : s.len ≤ (cells h s).length

section Reads
variable {h : Heap α} {s t : Slice}

theorem nil_valid (h : Heap α) : Valid h Slice.nil :=
  ⟨fun _ ha => absurd ha (Option.some_ne_none _).symm, Nat.le_refl _⟩

theorem Valid.length (hs : Valid h s) : (values h s).length = s.len := by
  rw [values, List.length_take, Nat.min_eq_left hs.within]

/-- Two slices of one array, as far as both reach. -/
theorem values_of_shared (ha : t.array = s.array) (hle : t.len ≤ s.len) :
    values h t = (values h s).take t.len := by
  have hcells : cells h t = cells h s := by simp only [cells, backing, ha]
  rw [values, values, hcells, List.take_take, Nat.min_eq_left hle]

/-! ### New arrays -/

theorem cells_make (ht : Valid h t) (l : List α) (spare : Nat) :
    cells (make h l spare).2 t = cells h t := by
  cases ha : t.array with
  | none => simp only [cells, backing, ha, Option.bind_none]
  | some a =>
    have hlt := ht.allocated a ha
    simp only [cells, backing, ha, Option.bind_some, make, List.getElem?_append_left hlt]

theorem values_make (ht : Valid h t) (l : List α) (spare : Nat) :
    values (make h l spare).2 t = values h t := by
  rw [values, cells_make ht, values]

theorem Valid.make (ht : Valid h t) (l : List α) (spare : Nat) :
    Valid (make h l spare).2 t := by
  refine ⟨fun a ha => ?_, by rw [cells_make ht]; exact ht.within⟩
  have := ht.allocated a ha
  simp only [Slices.make, List.length_append, List.length_singleton]
  omega

theorem cells_make_self (h : Heap α) (l : List α) (spare : Nat) :
    cells (make h l spare).2 (make h l spare).1 = l := by
  simp [cells, backing, make]

theorem values_make_self (h : Heap α) (l : List α) (spare : Nat) :
    values (make h l spare).2 (make h l spare).1 = l := by
  rw [values, cells_make_self]
  exact List.take_length

theorem make_valid (h : Heap α) (l : List α) (spare : Nat) :
    Valid (make h l spare).2 (make h l spare).1 := by
  refine ⟨fun a ha => ?_, by rw [cells_make_self]; exact Nat.le_refl _⟩
  cases ha
  simp [make]

/-- No slice so far is of the new array. -/
theorem Valid.array_ne_make (ht : Valid h t) (l : List α) (spare : Nat) :
    t.array ≠ (Slices.make h l spare).1.array := by
  intro ha
  exact Nat.lt_irrefl _ (ht.allocated _ ha)

/-! ### Writes -/

theorem cells_modify (h : Heap α) (t : Slice) (a : Nat) (f : Backing α → Backing α) :
    cells (h.modify a f) t =
      if t.array = some a then ((backing h t).map fun b => (f b).elems).getD [] else cells h t := by
  cases ha : t.array with
  | none => simp [cells, backing, ha]
  | some b =>
    by_cases hab : a = b
    · subst hab
      simp [cells, backing, ha, Function.comp_def]
    · have hba : b ≠ a := Ne.symm hab
      simp [cells, backing, ha, hab, hba]

theorem cells_write (h : Heap α) (s t : Slice) (i : Nat) (x : α) :
    cells (write h s i x) t = if t.array = s.array then (cells h t).set i x else cells h t := by
  cases ha : s.array with
  | none =>
    simp only [write, ha]
    split
    · rename_i hnone
      simp [cells, backing, hnone]
    · rfl
  | some a =>
    simp only [write, ha, cells_modify]
    split
    · cases hb : backing h t <;> simp [cells, hb, Backing.set]
    · rfl

/-- A write through one slice is read through all slices of the array. -/
theorem values_write (h : Heap α) (s t : Slice) (i : Nat) (x : α) :
    values (write h s i x) t =
      if t.array = s.array then (values h t).set i x else values h t := by
  rw [values, cells_write]
  split
  · rw [List.take_set, values]
  · rfl

theorem Valid.write (ht : Valid h t) (s : Slice) (i : Nat) (x : α) : Valid (write h s i x) t := by
  constructor
  · intro a ha
    have := ht.allocated a ha
    unfold Slices.write
    split
    · exact this
    · rwa [List.length_modify]
  · have := ht.within
    rw [cells_write]
    split
    · rwa [List.length_set]
    · exact this

/-! ### Appends -/

theorem append_eq (h : Heap α) (s : Slice) (x : α) (spare : Nat) :
    (∃ a b, s.array = some a ∧ h[a]? = some b ∧ s.len < b.cap ∧
      append h s x spare = (⟨some a, s.len + 1⟩, h.modify a (·.place s.len x))) ∨
    append h s x spare = make h (values h s ++ [x]) spare := by
  cases ha : s.array with
  | none =>
    right
    simp only [append, ha]
  | some a =>
    by_cases hroom : s.len < capacity h s
    · left
      have hbacking : backing h s = h[a]? := by simp [backing, ha]
      cases hb : h[a]? with
      | none => simp [capacity, hbacking, hb] at hroom
      | some b =>
        refine ⟨a, b, rfl, hb, by simpa [capacity, hbacking, hb] using hroom, ?_⟩
        simp only [append, ha, if_pos hroom]
    · right
      simp only [append, ha, if_neg hroom]

theorem take_place {b : Backing α} {n m : Nat} {x : α} (hn : n < b.cap) (hm : m ≤ n)
    (hlen : n ≤ b.elems.length) : (b.place n x).elems.take m = b.elems.take m := by
  rw [Backing.place, dif_pos hn]
  simp only
  rw [List.take_append_of_le_length (by simp; omega), List.take_take, Nat.min_eq_left hm]

theorem take_place_succ {b : Backing α} {n : Nat} {x : α} (hn : n < b.cap)
    (hlen : n ≤ b.elems.length) : (b.place n x).elems.take (n + 1) = b.elems.take n ++ [x] := by
  rw [Backing.place, dif_pos hn]
  have htake : (b.elems.take n).length = n := by simp [hlen]
  simp only
  rw [List.take_append, htake, List.take_of_length_le (by omega)]
  simp

theorem le_length_place {b : Backing α} {n : Nat} {x : α} (hn : n < b.cap) :
    b.elems.length ≤ (b.place n x).elems.length := by
  rw [Backing.place, dif_pos hn]
  simp only [List.length_append, List.length_take, List.length_cons, List.length_drop]
  omega

theorem values_append_self (hs : Valid h s) (x : α) (spare : Nat) :
    values (append h s x spare).2 (append h s x spare).1 = values h s ++ [x] := by
  rcases append_eq h s x spare with ⟨a, b, ha, hb, hroom, heq⟩ | heq
  · have hlen : s.len ≤ b.elems.length := by simpa [cells, backing, ha, hb] using hs.within
    rw [heq]
    simp only [values, cells_modify, backing, Option.bind_some, hb, if_pos, Option.map_some,
      Option.getD_some]
    rw [take_place_succ hroom hlen]
    simp [cells, backing, ha, hb]
  · rw [heq, values_make_self]

theorem append_valid (hs : Valid h s) (x : α) (spare : Nat) :
    Valid (append h s x spare).2 (append h s x spare).1 := by
  rcases append_eq h s x spare with ⟨a, b, ha, hb, hroom, heq⟩ | heq
  · rw [heq]
    have hlen : s.len ≤ b.elems.length := by simpa [cells, backing, ha, hb] using hs.within
    refine ⟨fun a' ha' => ?_, ?_⟩
    · cases ha'
      rw [List.length_modify]
      exact hs.allocated a ha
    · have htake := congrArg List.length
        (take_place_succ hroom hlen : (b.place s.len x).elems.take _ = _)
      simp only [List.length_take, List.length_append, List.length_singleton] at htake
      simp only [cells_modify, backing, Option.bind_some, hb, if_pos, Option.map_some,
        Option.getD_some]
      omega
  · rw [heq]
    exact make_valid _ _ _

/-- An append is not read through a slice that ends before it. -/
theorem values_append (hs : Valid h s) (ht : Valid h t)
    (hle : t.array = s.array → t.len ≤ s.len) (x : α) (spare : Nat) :
    values (append h s x spare).2 t = values h t := by
  rcases append_eq h s x spare with ⟨a, b, ha, hb, hroom, heq⟩ | heq
  · rw [heq]
    by_cases hta : t.array = some a
    · have hlen : s.len ≤ b.elems.length := by simpa [cells, backing, ha, hb] using hs.within
      have hm := hle (hta.trans ha.symm)
      simp only [values, cells, backing, hta, Option.bind_some, List.getElem?_modify_eq, hb,
        Option.map_some, Option.getD_some]
      exact take_place hroom hm hlen
    · simp only [values, cells_modify, if_neg hta]
  · rw [heq, values_make ht]

theorem Valid.append (ht : Valid h t) (s : Slice) (x : α) (spare : Nat) :
    Valid (append h s x spare).2 t := by
  rcases append_eq h s x spare with ⟨a, b, ha, hb, hroom, heq⟩ | heq
  · rw [heq]
    refine ⟨fun a' ha' => by rw [List.length_modify]; exact ht.allocated a' ha', ?_⟩
    have hw := ht.within
    simp only [cells_modify]
    split
    · rename_i hta
      simp only [cells, backing, hta, Option.bind_some, hb, Option.map_some,
        Option.getD_some] at hw ⊢
      exact Nat.le_trans hw (le_length_place hroom)
    · exact hw
  · rw [heq]
    exact ht.make _ _

/-- After an append every other slice of the array still ends before the end of the one
appended to. -/
theorem len_le_append (ht : Valid h t) (hle : t.array = s.array → t.len ≤ s.len) (x : α)
    (spare : Nat) (ha : t.array = (append h s x spare).1.array) :
    t.len ≤ (append h s x spare).1.len := by
  rcases append_eq h s x spare with ⟨a, b, has, hb, hroom, heq⟩ | heq
  · rw [heq] at ha ⊢
    exact Nat.le_succ_of_le (hle (ha.trans has.symm))
  · rw [heq] at ha
    exact absurd ha (ht.array_ne_make _ _)

end Reads

/-! ### Labels

Each array has a label that says what may be written into it; a slice goes by the label of its
array. New arrays get new labels behind those there are. -/

section Labels
variable {L : Type} {P : L → α → Prop} {labels more : List L} {h : Heap α} {s : Slice} {l : L}

/-- Every array holds what its label allows. -/
structure Labelled (P : L → α → Prop) (labels : List L) (h : Heap α) : Prop where
  sized : labels.length = h.length
  allowed : ∀ (a : Nat) l (b : Backing α), labels[a]? = some l → h[a]? = some b →
    ∀ x ∈ b.elems, P l x

/-- The slice is nil, or of an array with the label. -/
def Of (labels : List L) (l : L) (s : Slice) : Prop :=
  ∀ a, s.array = some a → labels[a]? = some l

theorem nil_of (labels : List L) (l : L) : Of labels l Slice.nil := by
  intro a ha
  cases ha

theorem Of.extend (hs : Of labels l s) (more : List L) : Of (labels ++ more) l s := by
  intro a ha
  have hlabel := hs a ha
  rw [List.getElem?_append_left (List.getElem?_eq_some_iff.mp hlabel).1, hlabel]

theorem Labelled.mono {Q : L → α → Prop} (hL : Labelled P labels h) (hPQ : ∀ l x, P l x → Q l x) :
    Labelled Q labels h :=
  ⟨hL.sized, fun a l b hl hb x hx => hPQ l x (hL.allowed a l b hl hb x hx)⟩

theorem Labelled.values (hL : Labelled P labels h) (hs : Of labels l s) :
    ∀ x ∈ values h s, P l x := by
  intro x hx
  have hx := List.mem_of_mem_take hx
  cases ha : s.array with
  | none => simp [cells, backing, ha] at hx
  | some a =>
    cases hb : h[a]? with
    | none => simp [cells, backing, ha, hb] at hx
    | some b => exact hL.allowed a l b (hs a ha) hb x (by simpa [cells, backing, ha, hb] using hx)

theorem Labelled.make (hL : Labelled P labels h) {xs : List α} (hxs : ∀ x ∈ xs, P l x)
    (spare : Nat) : Labelled P (labels ++ [l]) (make h xs spare).2 ∧
      Of (labels ++ [l]) l (Slices.make h xs spare).1 := by
  constructor
  · refine ⟨by simp [Slices.make, hL.sized], fun a l' b hl' hb x hx => ?_⟩
    rcases Nat.lt_or_ge a h.length with hlt | hge
    · rw [List.getElem?_append_left (by rwa [hL.sized])] at hl'
      rw [Slices.make, List.getElem?_append_left hlt] at hb
      exact hL.allowed a l' b hl' hb x hx
    · rw [List.getElem?_append_right (by rwa [hL.sized]), List.getElem?_singleton] at hl'
      rw [Slices.make, List.getElem?_append_right hge, List.getElem?_singleton] at hb
      split at hb
      · cases hb
        rw [hL.sized, if_pos ‹_›] at hl'
        cases hl'
        exact hxs x hx
      · cases hb
  · intro a ha
    cases ha
    rw [← hL.sized]
    exact List.getElem?_concat_length

theorem Labelled.modify (hL : Labelled P labels h) {a : Nat} {f : Backing α → Backing α}
    (hf : ∀ l b, labels[a]? = some l → (∀ x ∈ Backing.elems b, P l x) →
      ∀ x ∈ (f b).elems, P l x) :
    Labelled P labels (h.modify a f) := by
  refine ⟨by rw [List.length_modify, hL.sized], fun a' l b hl hb x hx => ?_⟩
  rw [List.getElem?_modify] at hb
  obtain ⟨b₀, hb₀, rfl⟩ := Option.map_eq_some_iff.mp hb
  have hall := hL.allowed a' l b₀ hl hb₀
  split at hx
  · rename_i heq
    subst heq
    exact hf l b₀ hl hall x hx
  · exact hall x hx

theorem Labelled.write (hL : Labelled P labels h) (hs : Of labels l s) (i : Nat) {x : α}
    (hx : P l x) : Labelled P labels (write h s i x) := by
  unfold Slices.write
  split
  · exact hL
  · rename_i a ha
    refine hL.modify fun l' b hl' hall y hy => ?_
    cases hl'.symm.trans (hs a ha)
    rcases List.mem_or_eq_of_mem_set hy with hy | rfl
    · exact hall y hy
    · exact hx

theorem mem_place {b : Backing α} {n : Nat} {x y : α} (hy : y ∈ (b.place n x).elems) :
    y ∈ b.elems ∨ y = x := by
  unfold Backing.place at hy
  split at hy
  · rcases List.mem_append.mp hy with hy | hy
    · exact .inl (List.mem_of_mem_take hy)
    · rcases List.mem_cons.mp hy with rfl | hy
      · exact .inr rfl
      · exact .inl (List.mem_of_mem_drop hy)
  · exact .inl hy

theorem Labelled.append (hL : Labelled P labels h) (hs : Of labels l s) {x : α} (hx : P l x)
    (spare : Nat) : ∃ more, Labelled P (labels ++ more) (append h s x spare).2 ∧
      Of (labels ++ more) l (Slices.append h s x spare).1 := by
  rcases append_eq h s x spare with ⟨a, b, ha, -, -, heq⟩ | heq
  · refine ⟨[], ?_⟩
    rw [List.append_nil, heq]
    refine ⟨hL.modify fun l' b hl' hall y hy => ?_, fun a' ha' => ?_⟩
    · cases hl'.symm.trans (hs a ha)
      rcases mem_place hy with hy | rfl
      · exact hall y hy
      · exact hx
    · cases ha'
      exact hs a ha
  · rw [heq]
    refine ⟨[l], hL.make (fun y hy => ?_) spare⟩
    rcases List.mem_append.mp hy with hy | hy
    · exact hL.values hs y hy
    · rw [List.mem_singleton.mp hy]
      exact hx

end Labels

end RpcInGo.Lib.Slices
