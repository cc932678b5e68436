import Mathlib.Algebra.Order.Ring.Int
import Mathlib.Tactic.Ring

/-!
Meters: services that grant units to requests made at increasing times. A meter
that keeps a credit, a quantity that grows with time at a bounded speed up to a
bound and pays for every unit granted, grants in an interval of time no more
than one full credit and what the interval adds (`Credit.granted_le`).
-/

namespace RpcInGo.Lib.Metering

/-- `serve` gives the state after a request and the units it was granted. -/
structure Meter (S E : Type) where
  serve : S → E → S × Int
  time : E → Int

section Meters
variable {S E : Type} (m : Meter S E)

/-- The units granted to the requests made in `[t₁, t₂]`. -/
def granted (t₁ t₂ : Int) : S → List E → Int
  | _, [] => 0
  | s, e :: es =>
    (if t₁ ≤ m.time e ∧ m.time e ≤ t₂ then (m.serve s e).2 else 0) +
      granted t₁ t₂ (m.serve s e).1 es

/-- Requests made at non-decreasing times, none before `t`. -/
def Ordered (t : Int) : List E → Prop
  | [] => True
  | e :: es => t ≤ m.time e ∧ Ordered (m.time e) es

instance Ordered.instDecidable (t : Int) : (es : List E) → Decidable (Ordered m t es)
  | [] => .isTrue trivial
  | e :: es => @instDecidableAnd _ _ _ (Ordered.instDecidable (m.time e) es)

/-- How a request changes a state with this clock and this credit. -/
inductive Serves (clock credit : S → Int) (cost speed burst : Int) (s : S) (e : E) : Prop
  | idle : (m.serve s e).1 = s → cost * (m.serve s e).2 ≤ 0 →
      Serves clock credit cost speed burst s e
  | active : clock (m.serve s e).1 = m.time e →
      credit (m.serve s e).1 + cost * (m.serve s e).2 ≤ burst →
      credit (m.serve s e).1 + cost * (m.serve s e).2 ≤
        credit s + speed * (m.time e - clock s) →
      Serves clock credit cost speed burst s e

/-- A credit of at most `burst` that grows by at most `speed` in a unit of time
and of which a granted unit takes `cost`. -/
structure Credit (cost speed burst : Int) where
  valid : S → Prop
  clock : S → Int
  credit : S → Int
  speed_nonneg : 0 ≤ speed
  burst_nonneg : 0 ≤ burst
  credit_nonneg : ∀ s, valid s → 0 ≤ credit s
  keeps : ∀ s e, valid s → clock s ≤ m.time e → valid (m.serve s e).1
  serves : ∀ s e, valid s → clock s ≤ m.time e → Serves m clock credit cost speed burst s e

end Meters

section Bounds
variable {S E : Type} {m : Meter S E} {cost speed burst t t₁ t₂ : Int} {s : S} {es : List E}

theorem granted_late (h : Ordered m t es) (ht : t₂ < t) : granted m t₁ t₂ s es = 0 := by
  induction es generalizing s t with
  | nil => rfl
  | cons e es ih =>
    obtain ⟨he, hes⟩ := h
    rw [granted, if_neg (by omega), zero_add]
    exact ih hes (by omega)

/-- From a state whose clock stands in the interval, the credit and what the
rest of the interval adds pay for all that is granted. -/
theorem Credit.granted_le_credit (c : Credit m cost speed burst) (hv : c.valid s)
    (h : Ordered m t es) (hct : c.clock s ≤ t) (h₁ : t₁ ≤ t) (h₂ : c.clock s ≤ t₂) :
    cost * granted m t₁ t₂ s es ≤ c.credit s + speed * (t₂ - c.clock s) := by
  have hpos : ∀ s, c.valid s → c.clock s ≤ t₂ → 0 ≤ c.credit s + speed * (t₂ - c.clock s) :=
    fun s hv h => add_nonneg (c.credit_nonneg s hv) (mul_nonneg c.speed_nonneg (by omega))
  induction es generalizing s t with
  | nil => simpa [granted] using hpos s hv h₂
  | cons e es ih =>
    obtain ⟨he, hes⟩ := h
    have hle : c.clock s ≤ m.time e := by omega
    by_cases hlate : t₂ < m.time e
    · rw [granted, if_neg (by omega), granted_late hes hlate]
      simpa using hpos s hv h₂
    rw [granted, if_pos (by omega), mul_add]
    cases c.serves s e hv hle with
    | idle hs hcost =>
      rw [hs]
      have := ih hv hes (by omega) (by omega) h₂
      omega
    | active hclock _ hpay =>
      have hrest := ih (c.keeps s e hv hle) hes hclock.le (by omega) (by omega)
      rw [hclock] at hrest
      have hsplit : speed * (m.time e - c.clock s) + speed * (t₂ - m.time e) =
          speed * (t₂ - c.clock s) := by ring
      omega

theorem Credit.granted_le (c : Credit m cost speed burst) (hv : c.valid s)
    (h : Ordered m t es) (hct : c.clock s ≤ t) (h₁₂ : t₁ ≤ t₂) :
    cost * granted m t₁ t₂ s es ≤ burst + speed * (t₂ - t₁) := by
  have hpos : 0 ≤ burst + speed * (t₂ - t₁) :=
    add_nonneg c.burst_nonneg (mul_nonneg c.speed_nonneg (by omega))
  induction es generalizing s t with
  | nil => simpa [granted] using hpos
  | cons e es ih =>
    obtain ⟨he, hes⟩ := h
    have hle : c.clock s ≤ m.time e := by omega
    have hv' := c.keeps s e hv hle
    by_cases hlate : t₂ < m.time e
    · rw [granted, if_neg (by omega), granted_late hes hlate]
      simpa using hpos
    cases c.serves s e hv hle with
    | idle hs hcost =>
      have hrest := ih hv hes hle
      rw [granted, hs, mul_add]
      split <;> omega
    | active hclock hburst _ =>
      by_cases hearly : m.time e < t₁
      · rw [granted, if_neg (by omega), zero_add]
        exact ih hv' hes hclock.le
      -- the first request in the interval that takes part finds at most a full credit
      have hrest : cost * granted m t₁ t₂ (m.serve s e).1 es ≤ _ :=
        c.granted_le_credit hv' hes hclock.le (by omega) (by omega)
      rw [granted, if_pos (by omega), mul_add]
      rw [hclock] at hrest
      have hmono : speed * (t₂ - m.time e) ≤ speed * (t₂ - t₁) :=
        mul_le_mul_of_nonneg_left (by omega) c.speed_nonneg
      omega

end Bounds

end RpcInGo.Lib.Metering
