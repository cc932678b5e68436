import Mathlib.Algebra.BigOperators.Group.List.Basic
import Mathlib.Algebra.Order.BigOperators.Group.List
import Mathlib.Data.List.Forall2
import Mathlib.Tactic.Abel

/-! Goroutines over a shared state, under every interleaving. A configuration
is the shared state with the program point of each goroutine. One transition
lets one goroutine take its next atomic step; whatever the program does not
decide (which ready case a `select` takes, what a network call answers, what
the clock shows) is in the answer `e` of the environment. -/

namespace RpcInGo.Lib.Goroutine

variable {G P E M : Type}

/-- The next atomic step of a goroutine at a program point: the new shared
state, the next program point, and the goroutines started by the step. -/
structure Program (G P E : Type) where
  step : G → P → E → Option (G × P × List P)

structure Config (G P : Type) where
  shared : G
  threads : List P
  deriving DecidableEq

def Program.fire (prog : Program G P E) (s : Config G P) (i : Nat) (e : E) :
    Option (Config G P) :=
  match s.threads[i]? with
  | none => none
  | some p =>
    match prog.step s.shared p e with
    | none => none
    | some (g, q, new) => some ⟨g, s.threads.set i q ++ new⟩

/-- Runs whose every step meets `ok`. -/
inductive Run (prog : Program G P E) (ok : Config G P → Nat → E → Prop) (s : Config G P) :
    List (Nat × E) → Config G P → Prop
  | refl : Run prog ok s [] s
  | step {tr t i e u} : Run prog ok s tr t → ok t i e → prog.fire t i e = some u →
      Run prog ok s (tr ++ [(i, e)]) u

/-- No condition on the steps. -/
def Any (_ : Config G P) (_ : Nat) (_ : E) : Prop := True

instance (s : Config G P) (i : Nat) (e : E) : Decidable (Any s i e) :=
  inferInstanceAs (Decidable True)

/-- Several conditions on the steps, each of which asks something of every step. -/
def Meets {C : Type} (asks : C → Config G P → Nat → E → Bool) (cs : List C) (s : Config G P)
    (i : Nat) (e : E) : Prop :=
  ∀ c ∈ cs, asks c s i e = true

instance {C : Type} (asks : C → Config G P → Nat → E → Bool) (cs : List C) (s : Config G P)
    (i : Nat) (e : E) : Decidable (Meets asks cs s i e) :=
  inferInstanceAs (Decidable (∀ c ∈ cs, asks c s i e = true))

theorem fire_cases {prog : Program G P E} {s t : Config G P} {i : Nat} {e : E}
    (h : prog.fire s i e = some t) :
    ∃ p g q new, s.threads[i]? = some p ∧ prog.step s.shared p e = some (g, q, new) ∧
      t = ⟨g, s.threads.set i q ++ new⟩ := by
  unfold Program.fire at h
  split at h
  · cases h
  · rename_i p hp
    split at h
    · cases h
    · rename_i g q new hs
      exact ⟨p, g, q, new, hp, hs, by simpa using h.symm⟩

/-- A goroutine whose step is possible can be scheduled. -/
theorem fire_isSome {prog : Program G P E} {s : Config G P} {i : Nat} {e : E} {p : P}
    (hi : s.threads[i]? = some p) (hs : (prog.step s.shared p e).isSome) :
    (prog.fire s i e).isSome := by
  obtain ⟨⟨g, q, new⟩, heq⟩ := Option.isSome_iff_exists.mp hs
  simp only [Program.fire, hi, heq, Option.isSome_some]

/-- A step of a program that starts no goroutines. -/
theorem fire_alone {prog : Program G P E} {step : G → P → E → Option (G × P)}
    (hp : ∀ g p e, prog.step g p e = (step g p e).map fun r => (r.1, r.2, []))
    {s t : Config G P} {i : Nat} {e : E} (h : prog.fire s i e = some t) :
    ∃ p g q, s.threads[i]? = some p ∧ step s.shared p e = some (g, q) ∧
      t = ⟨g, s.threads.set i q⟩ := by
  obtain ⟨p, g, q, new, hi, hs, rfl⟩ := fire_cases h
  rw [hp] at hs
  obtain ⟨⟨g', q'⟩, hstep, heq⟩ := Option.map_eq_some_iff.mp hs
  cases heq
  exact ⟨p, g', q', hi, hstep, by simp⟩

/-- A property of program points that a step establishes for the goroutine
that takes it, and keeps for the others, holds of all of them. -/
theorem forall_set {Q R : P → Prop} {ts : List P} {i : Nat} {q : P} (hq : R q)
    (hQ : ∀ p ∈ ts, Q p) (hR : ∀ p, Q p → R p) : ∀ p ∈ ts.set i q, R p := by
  intro p hp
  rcases List.mem_or_eq_of_mem_set hp with hp | rfl
  · exact hR p (hQ p hp)
  · exact hq

/-- The goroutines after a step: the one that took it, the others, and the new ones. -/
theorem getElem?_fired {ts new : List P} {i j : Nat} {q r : P}
    (h : (ts.set i q ++ new)[j]? = some r) :
    (j = i ∧ r = q) ∨ (j ≠ i ∧ ts[j]? = some r) ∨ r ∈ new := by
  rw [List.getElem?_append] at h
  split at h
  · rename_i hlt
    rw [List.length_set] at hlt
    by_cases hj : j = i
    · subst hj
      rw [List.getElem?_set_self hlt] at h
      exact .inl ⟨rfl, (Option.some.inj h).symm⟩
    · rw [List.getElem?_set_ne (Ne.symm hj)] at h
      exact .inr (.inl ⟨hj, h⟩)
  · exact .inr (.inr (List.mem_of_getElem? h))

theorem getElem?_fired_self {ts new : List P} {i : Nat} {p : P} (q : P) (h : ts[i]? = some p) :
    (ts.set i q ++ new)[i]? = some q := by
  obtain ⟨hlt, -⟩ := List.getElem?_eq_some_iff.mp h
  rw [List.getElem?_append_left (by simpa using hlt), List.getElem?_set_self hlt]

theorem getElem?_fired_other {ts new : List P} {i j : Nat} {p : P} (q : P) (hij : i ≠ j)
    (h : ts[j]? = some p) : (ts.set i q ++ new)[j]? = some p := by
  obtain ⟨hlt, -⟩ := List.getElem?_eq_some_iff.mp h
  rw [List.getElem?_append_left (by simpa using hlt), List.getElem?_set_ne hij, h]

theorem set_same {ts : List P} {i : Nat} {p : P} (h : ts[i]? = some p) : ts.set i p = ts := by
  obtain ⟨hlt, rfl⟩ := List.getElem?_eq_some_iff.mp h
  exact List.set_getElem_self hlt

/-- What the step leaves as it was at its own goroutine, it leaves at all. -/
theorem map_set_same {β : Type} {f : P → β} {ts : List P} {i : Nat} {p q : P}
    (h : ts[i]? = some p) (hf : f q = f p) : (ts.set i q).map f = ts.map f := by
  rw [List.map_set, hf]
  exact set_same (by rw [List.getElem?_map, h, Option.map_some])

/-- How a step changes the number of goroutines at certain program points. -/
theorem countP_set {f : P → Bool} {ts : List P} {i : Nat} {p : P} (q : P)
    (h : ts[i]? = some p) : (ts.set i q).countP f + (f p).toNat = ts.countP f + (f q).toNat := by
  obtain ⟨hlt, rfl⟩ := List.getElem?_eq_some_iff.mp h
  rw [List.countP_set hlt]
  cases hp : f ts[i] with
  | false => cases f q <;> rfl
  | true =>
    have hpos : 0 < ts.countP f := List.countP_pos_iff.mpr ⟨_, List.getElem_mem hlt, hp⟩
    cases f q <;> simp only [Bool.toNat_true, Bool.toNat_false, ↓reduceIte, Bool.false_eq_true] <;>
      omega

theorem Run.mono {prog : Program G P E} {ok ok' : Config G P → Nat → E → Prop}
    {s t : Config G P} {tr : List (Nat × E)} (h : Run prog ok s tr t)
    (hok : ∀ s i e, ok s i e → ok' s i e) : Run prog ok' s tr t := by
  induction h with
  | refl => exact .refl
  | step _ ho hf ih => exact .step ih (hok _ _ _ ho) hf

/-- The invariant rule. -/
theorem Run.invariant {prog : Program G P E} {ok : Config G P → Nat → E → Prop}
    {I : Config G P → Prop} {s t : Config G P} {tr : List (Nat × E)}
    (h : Run prog ok s tr t) (h0 : I s)
    (hI : ∀ s i e t, I s → ok s i e → prog.fire s i e = some t → I t) : I t := by
  induction h with
  | refl => exact h0
  | step _ ho hf ih => exact hI _ _ _ _ ih ho hf

theorem Run.trans {prog : Program G P E} {ok : Config G P → Nat → E → Prop}
    {s t u : Config G P} {tr tr' : List (Nat × E)} (h : Run prog ok s tr t)
    (h' : Run prog ok t tr' u) : Run prog ok s (tr ++ tr') u := by
  induction h' with
  | refl => simpa using h
  | step _ ho hf ih =>
    rw [← List.append_assoc]
    exact .step ih ho hf

/-- Goroutine by goroutine, related program points of two programs. -/
theorem forall₂_get {P' : Type} {R : P → P' → Prop} {ts : List P} {us : List P'}
    (h : List.Forall₂ R ts us) {i : Nat} {p : P} (hi : ts[i]? = some p) :
    ∃ q, us[i]? = some q ∧ R p q := by
  induction h generalizing i with
  | nil => simp at hi
  | cons hr _ ih =>
    cases i with
    | zero =>
      cases hi
      exact ⟨_, rfl, hr⟩
    | succ i => exact ih hi

theorem forall₂_set {P' : Type} {R : P → P' → Prop} {ts : List P} {us : List P'}
    (h : List.Forall₂ R ts us) {p : P} {q : P'} (hr : R p q) (i : Nat) :
    List.Forall₂ R (ts.set i p) (us.set i q) := by
  induction h generalizing i with
  | nil => exact .nil
  | cons hr' ht ih =>
    cases i with
    | zero => exact .cons hr ht
    | succ i => exact .cons hr' (ih i)

theorem forall₂_replicate {P' : Type} {R : P → P' → Prop} {ts : List P} {q : P'}
    (h : ∀ p ∈ ts, R p q) : List.Forall₂ R ts (List.replicate ts.length q) := by
  induction ts with
  | nil => exact .nil
  | cons p ts ih => exact .cons (h p (by simp)) (ih fun p' hp => h p' (by simp [hp]))

/-- Forward simulation: when every step of a program is matched by a run of
another from any related configuration, so is every run. -/
theorem Run.simulate {G' P' E' : Type} {prog : Program G P E} {prog' : Program G' P' E'}
    {ok : Config G P → Nat → E → Prop} {ok' : Config G' P' → Nat → E' → Prop}
    {R : Config G P → Config G' P' → Prop} {s t : Config G P} {u : Config G' P'}
    {tr : List (Nat × E)} (h : Run prog ok s tr t) (h0 : R s u)
    (hR : ∀ s i e t u, R s u → ok s i e → prog.fire s i e = some t →
      ∃ tr' v, Run prog' ok' u tr' v ∧ R t v) :
    ∃ tr' v, Run prog' ok' u tr' v ∧ R t v := by
  induction h with
  | refl => exact ⟨[], u, .refl, h0⟩
  | step _ ho hf ih =>
    obtain ⟨tr', v, hrun, hrel⟩ := ih
    obtain ⟨tr'', w, hrun', hrel'⟩ := hR _ _ _ _ _ hrel ho hf
    exact ⟨tr' ++ tr'', w, hrun.trans hrun', hrel'⟩

/-- Simulation by a view of the configurations. -/
theorem Run.view {G' P' E' : Type} {prog : Program G P E} {prog' : Program G' P' E'}
    {ok : Config G P → Nat → E → Prop} {ok' : Config G' P' → Nat → E' → Prop}
    {s t : Config G P} {tr : List (Nat × E)} (view : Config G P → Config G' P')
    (h : Run prog ok s tr t)
    (hview : ∀ s i e t, prog.fire s i e = some t → ∃ tr', Run prog' ok' (view s) tr' (view t)) :
    ∃ tr', Run prog' ok' (view s) tr' (view t) := by
  induction h with
  | refl => exact ⟨[], .refl⟩
  | step _ _ hf ih =>
    obtain ⟨tr', hrun⟩ := ih
    obtain ⟨tr'', hrun'⟩ := hview _ _ _ _ hf
    exact ⟨tr' ++ tr'', hrun.trans hrun'⟩

/-- Execute a schedule; `none` when a step is not possible or not allowed. -/
def exec (prog : Program G P E) (ok : Config G P → Nat → E → Prop)
    [∀ s i e, Decidable (ok s i e)] (s : Config G P) : List (Nat × E) → Option (Config G P)
  | [] => some s
  | (i, e) :: tr =>
    if ok s i e then
      match prog.fire s i e with
      | none => none
      | some t => exec prog ok t tr
    else none

theorem run_of_exec {prog : Program G P E} {ok : Config G P → Nat → E → Prop}
    [∀ s i e, Decidable (ok s i e)] {s t : Config G P} {tr : List (Nat × E)}
    (h : exec prog ok s tr = some t) : Run prog ok s tr t := by
  induction tr generalizing s with
  | nil =>
    cases h
    exact .refl
  | cons a tr ih =>
    obtain ⟨i, e⟩ := a
    unfold exec at h
    split at h
    · rename_i ho
      split at h
      · cases h
      · rename_i u hf
        exact Run.trans (.step .refl ho hf) (ih h)
    · cases h

theorem run_exec {prog : Program G P E} {ok : Config G P → Nat → E → Prop}
    [∀ s i e, Decidable (ok s i e)] {s : Config G P} {tr : List (Nat × E)}
    (h : (exec prog ok s tr).isSome) : Run prog ok s tr ((exec prog ok s tr).get h) :=
  run_of_exec (Option.some_get h).symm

/-! ## Quantities summed over the goroutines -/

def total [AddCommMonoid M] (w : P → M) (ts : List P) : M := (ts.map w).sum

@[simp] theorem total_nil [AddCommMonoid M] (w : P → M) : total w [] = 0 := rfl

@[simp] theorem total_cons [AddCommMonoid M] (w : P → M) (p : P) (ts : List P) :
    total w (p :: ts) = w p + total w ts := by simp [total]

@[simp] theorem total_append [AddCommMonoid M] (w : P → M) (ts us : List P) :
    total w (ts ++ us) = total w ts + total w us := by simp [total]

theorem total_set [AddCommGroup M] (w : P → M) {ts : List P} {i : Nat} {p : P} (q : P)
    (h : ts[i]? = some p) : total w (ts.set i q) = total w ts - w p + w q := by
  induction ts generalizing i with
  | nil => simp at h
  | cons t ts ih =>
    cases i with
    | zero =>
      simp only [List.getElem?_cons_zero, Option.some.injEq] at h
      subst h
      simp only [List.set_cons_zero, total_cons]
      abel
    | succ i =>
      simp only [List.getElem?_cons_succ] at h
      simp only [List.set_cons_succ, total_cons, ih h]
      abel

theorem total_eq_zero [AddCommMonoid M] {w : P → M} {ts : List P} (h : ∀ p ∈ ts, w p = 0) :
    total w ts = 0 := by
  induction ts with
  | nil => rfl
  | cons t ts ih =>
    rw [total_cons, h t (by simp), ih (fun p hp => h p (by simp [hp])), add_zero]

theorem total_nonneg {w : P → Int} {ts : List P} (h : ∀ p ∈ ts, 0 ≤ w p) : 0 ≤ total w ts :=
  List.sum_nonneg (by simpa using h)

theorem le_total_of_mem {w : P → Int} {ts : List P} (h : ∀ p, 0 ≤ w p) {p : P} (hp : p ∈ ts) :
    w p ≤ total w ts := by
  induction ts with
  | nil => simp at hp
  | cons t ts ih =>
    have hn : 0 ≤ total w ts := total_nonneg (fun p _ => h p)
    have ht := h t
    rw [total_cons]
    rcases List.mem_cons.mp hp with rfl | hp
    · omega
    · have := ih hp
      omega

/-- Two goroutines count twice. -/
theorem add_le_total {w : P → Int} {ts : List P} (h : ∀ p, 0 ≤ w p) {i j : Nat} {p q : P}
    (hij : i ≠ j) (hi : ts[i]? = some p) (hj : ts[j]? = some q) : w p + w q ≤ total w ts := by
  induction ts generalizing i j with
  | nil => cases hi
  | cons t ts ih =>
    have ht := h t
    rw [total_cons]
    match i, j with
    | 0, 0 => exact absurd rfl hij
    | 0, j + 1 =>
      cases hi
      have hq : ts[j]? = some q := hj
      have := le_total_of_mem h (List.mem_of_getElem? hq)
      omega
    | i + 1, 0 =>
      cases hj
      have hp : ts[i]? = some p := hi
      have := le_total_of_mem h (List.mem_of_getElem? hp)
      omega
    | i + 1, j + 1 =>
      have := ih (by omega) hi hj
      omega

theorem total_le {v w : P → Int} (h : ∀ p, v p ≤ w p) (ts : List P) : total v ts ≤ total w ts := by
  induction ts with
  | nil => exact le_refl _
  | cons q ts ih =>
    have := h q
    rw [total_cons, total_cons]
    omega

theorem total_add [AddCommMonoid M] (v w : P → M) (ts : List P) :
    total (fun p => v p + w p) ts = total v ts + total w ts := by
  induction ts with
  | nil => simp
  | cons t ts ih =>
    simp only [total_cons, ih]
    abel

end RpcInGo.Lib.Goroutine
