import Mathlib.Order.Bounds.Basic
import RpcInGo.RateLimit.Polling

/-!
How long `WaitN` sleeps. An iteration that is refused computes its sleep from the missing
tokens alone, while the next refill also counts the remainder that was carried over.

* `available_iff`: when a limiter that is left alone has `n` tokens;
* `wait_tight`: after the computed sleep the next iteration is granted, and up to a billion
  tokens per second the sleep is less than one token longer than needed, but for its floor
  of a microsecond.
-/

namespace RpcInGo.RateLimit.WaitTime
open Lib.Metering TokenBucket Polling

/-- None of the attempts takes a token. -/
def TakesNone : TokenBucketLimiter → List Attempt → Prop
  | _, [] => True
  | tb, a :: run => (a.serve tb).2 ≤ 0 ∧ TakesNone (a.serve tb).1 run

instance TakesNone.instDecidable : (tb : TokenBucketLimiter) → (run : List Attempt) →
    Decidable (TakesNone tb run)
  | _, [] => .isTrue trivial
  | tb, a :: run => @instDecidableAnd _ _ _ (TakesNone.instDecidable (a.serve tb).1 run)

section Limiters
variable {rate capacity : Int} {tb : TokenBucketLimiter}

/-! ## Attempts of others -/

theorem serve_untaken {a : Attempt} (h : (a.serve tb).2 ≤ 0) :
    (a.serve tb).1 = tb ∨ (a.serve tb).1 = tb.refill a.now := by
  have hout := serve_outcome tb a
  generalize a.serve tb = r at *
  cases hout with
  | idle _ => exact .inl rfl
  | denied => exact .inr rfl
  | granted hn _ => exact absurd h (by simpa using hn)

/-- They do not show in a later refill. -/
theorem refill_after {polls : List Attempt} {t : Int} {last : Attempt} (hv : Valid rate capacity tb)
    (hrun : Ordered meter t (polls ++ [last])) (hnone : TakesNone tb polls) :
    (after tb polls).refill last.now = tb.refill last.now ∧ t ≤ last.now := by
  induction polls generalizing tb t with
  | nil => exact ⟨rfl, hrun.1⟩
  | cons a polls ih =>
    obtain ⟨ha, hrest⟩ := hrun
    obtain ⟨hun, hnone⟩ := hnone
    obtain ⟨heq, hle⟩ := ih ((serve_outcome tb a).valid hv) hrest hnone
    refine ⟨?_, ha.trans hle⟩
    rw [after, List.foldl_cons, ← after, heq]
    rcases serve_untaken hun with hs | hs
    · rw [hs]
    · rw [hs]
      exact refill_refill hv hle

theorem serve_lastUpdate {a : Attempt} (hv : Valid rate capacity tb) (h : tb.lastUpdate ≤ a.now) :
    (a.serve tb).1.lastUpdate ≤ a.now := by
  have hre := (refill_refilled hv a.now).lastUpdate_eq h
  have hout := serve_outcome tb a
  generalize a.serve tb = r at *
  cases hout with
  | idle _ => exact h
  | denied => exact hre.le
  | granted _ _ => exact hre.le

/-- The clock of a limiter is not ahead of the next attempt. -/
theorem after_lastUpdate {run : List Attempt} {last : Attempt} {t : Int}
    (hv : Valid rate capacity tb) (ht : tb.lastUpdate ≤ t)
    (hrun : Ordered meter t (run ++ [last])) : (after tb run).lastUpdate ≤ last.now := by
  induction run generalizing tb t with
  | nil => exact ht.trans hrun.1
  | cons a run ih =>
    obtain ⟨ha, hrest⟩ := hrun
    exact ih ((serve_outcome tb a).valid hv) (serve_lastUpdate hv (ht.trans ha)) hrest

/-! ## One iteration -/

/-- An iteration that sleeps. -/
theorem waitN_sleep {n now waitNs : Int} (h : (tb.waitN n now).1 = .sleep waitNs) :
    (tb.waitN n now).2 = tb.refill now ∧ (tb.refill now).tokens < n ∧
      waitNs = max microsecond ((n - (tb.refill now).tokens) * (tb.refill now).nsPerToken) := by
  simp only [TokenBucketLimiter.waitN] at h ⊢
  split at h
  · cases h
  split at h
  · cases h
  split at h
  · cases h
  · rename_i hn hcap htokens
    rw [if_neg hn, if_neg hcap, if_neg htokens]
    refine ⟨rfl, not_le.mp htokens, ?_⟩
    cases h
    split <;> omega

theorem waitN_acquired {n now : Int} (hn : 0 < n) (hcap : n ≤ tb.capacity)
    (h : n ≤ (tb.refill now).tokens) : (tb.waitN n now).1 = .acquired := by
  unfold TokenBucketLimiter.waitN
  rw [if_neg (by omega), if_neg (by omega), if_pos h]

/-! ## When the tokens are there -/

/-- A limiter short of `n` tokens has them as soon as remainder and time are worth the
missing ones. -/
theorem available_iff {n d : Int} (hv : Valid rate capacity tb) (hq : 0 < tb.nsPerToken)
    (hshort : tb.tokens < n) (hcap : n ≤ capacity) :
    n ≤ (tb.refill (tb.lastUpdate + d)).tokens ↔
      (n - tb.tokens) * tb.nsPerToken ≤ tb.nsRemainder + d := by
  have hrem := hv.rem_lt hq
  have hre := refill_refilled hv (tb.lastUpdate + d)
  generalize tb.refill (tb.lastUpdate + d) = u at hre
  have hone : tb.nsPerToken ≤ (n - tb.tokens) * tb.nsPerToken :=
    le_mul_of_one_le_left hq.le (by omega)
  cases hre with
  | early hle =>
    refine iff_of_false (not_le.mpr hshort) (not_le.mpr ?_)
    omega
  | full _ hle => omega
  | @counted add rem _ _ hrem₀ hlt hsum =>
    have hmin : n ≤ min tb.capacity (tb.tokens + add) ↔ n - tb.tokens ≤ add := by
      have := hv.capacity_eq
      omega
    have htotal : tb.nsRemainder + d = tb.nsPerToken * add + rem := by omega
    rw [hmin, htotal]
    constructor
    · intro hle
      have := mul_le_mul_of_nonneg_right hle hq.le
      rw [mul_comm add] at this
      omega
    · intro hle
      by_contra hmore
      have := mul_le_mul_of_nonneg_right (show add + 1 ≤ n - tb.tokens by omega) hq.le
      rw [add_mul, one_mul, mul_comm add] at this
      omega

/-- The least time after which `n` tokens are available, if the limiter is left alone. -/
theorem least_available {n : Int} (hv : Valid rate capacity tb) (hq : 0 < tb.nsPerToken)
    (hshort : tb.tokens < n) (hcap : n ≤ capacity) :
    IsLeast {d | 0 ≤ d ∧ n ≤ (tb.refill (tb.lastUpdate + d)).tokens}
      ((n - tb.tokens) * tb.nsPerToken - tb.nsRemainder) := by
  have hrem := hv.rem_lt hq
  have hone : tb.nsPerToken ≤ (n - tb.tokens) * tb.nsPerToken :=
    le_mul_of_one_le_left hq.le (by omega)
  constructor
  · exact ⟨by omega, (available_iff hv hq hshort hcap).mpr (by omega)⟩
  · rintro d ⟨-, hle⟩
    have := (available_iff hv hq hshort hcap).mp hle
    omega

/-- The tokens are there once the time of the missing ones has passed, or any time at all if
a token takes less than a nanosecond. -/
theorem available_of_waited {n later : Int} (hv : Valid rate capacity tb)
    (hshort : tb.tokens < n) (hcap : n ≤ capacity) (hlater : tb.lastUpdate < later)
    (hwait : tb.lastUpdate + (n - tb.tokens) * tb.nsPerToken ≤ later) :
    n ≤ (tb.refill later).tokens := by
  rcases lt_or_ge 0 tb.nsPerToken with hq | hq
  · have havail := (available_iff (d := later - tb.lastUpdate) hv hq hshort hcap).mpr
      (by have := hv.rem_nonneg; omega)
    rwa [add_sub_cancel] at havail
  · have hre := refill_refilled hv later
    generalize tb.refill later = u at hre
    cases hre with
    | early hle => omega
    | full _ _ => exact hcap.trans hv.capacity_eq.ge
    | counted _ _ hrem hlt _ => omega

end Limiters

theorem nsPerToken_pos {rate capacity : Int} {tb : TokenBucketLimiter} (hv : Valid rate capacity tb)
    (hr : 1 ≤ rate) (hle : rate ≤ 10 ^ 9) : 0 < tb.nsPerToken := by
  rw [nsPerToken_of_valid hv]
  have hone : 1 ≤ second / rate := Int.le_ediv_of_mul_le (by omega) (by rwa [one_mul])
  omega

/-- A refused iteration of `WaitN` sleeps long enough: unless others took tokens meanwhile the
next one is granted. Up to a billion tokens per second it does not sleep a token longer than
needed, but for the floor. -/
theorem wait_tight {rate capacity n : Int} (hr : 1 ≤ rate) (hn : 1 ≤ n) (hcap : n ≤ capacity)
    (created : Int) (run : List Attempt) (now waitNs : Int)
    (hrun : Ordered meter created (run ++ [.waitN n now]))
    (hsleep : ((after (newTokenBucketLimiter rate capacity created) run).waitN n now).1 =
      .sleep waitNs) :
    let u := ((after (newTokenBucketLimiter rate capacity created) run).waitN n now).2
    (∀ polls later, Ordered meter now (polls ++ [.waitN n later]) → TakesNone u polls →
      now + waitNs ≤ later → ((after u polls).waitN n later).1 = .acquired) ∧
    (rate ≤ 10 ^ 9 → ∃ least,
      IsLeast {d | 0 ≤ d ∧ n ≤ (u.refill (now + d)).tokens} least ∧ least ≤ waitNs ∧
      (waitNs < least + u.nsPerToken ∨ waitNs = microsecond)) := by
  have hnew : Valid rate capacity (newTokenBucketLimiter rate capacity created) :=
    newTokenBucketLimiter_valid (by omega) created
  have hlast : (after (newTokenBucketLimiter rate capacity created) run).lastUpdate ≤ now :=
    after_lastUpdate hnew le_rfl hrun
  obtain ⟨hu, hshort, hwait⟩ := waitN_sleep hsleep
  rw [hu]
  have hv : Valid rate capacity (after (newTokenBucketLimiter rate capacity created) run) :=
    after_valid hnew run
  have hre := refill_refilled hv now
  have hclock := hre.lastUpdate_eq hlast
  have huv := hre.valid hv
  generalize (after (newTokenBucketLimiter rate capacity created) run).refill now = u at *
  have hmicro : 0 < microsecond := by decide
  refine ⟨fun polls later hpolls hnone hlater => ?_, fun hrate => ?_⟩
  · refine waitN_acquired (by omega) (hcap.trans (after_valid huv polls).capacity_eq.ge) ?_
    have hre : (after u polls).refill later = u.refill later :=
      (refill_after huv hpolls hnone).1
    rw [hre]
    exact available_of_waited huv hshort hcap (by omega) (by omega)
  · have hq := nsPerToken_pos huv hr hrate
    have hrem := huv.rem_lt hq
    have hrem₀ := huv.rem_nonneg
    rw [← hclock]
    exact ⟨_, least_available huv hq hshort hcap, by omega, by omega⟩

/-- A limiter of three tokens per second, emptied, and refused a token with a remainder of
100 nanoseconds. -/
def emptied : List Attempt := [.allowN 2 0, .allowN 1 100]

theorem wait_tight_emptied :
    ((after (newTokenBucketLimiter 3 2 0) emptied).waitN 2 200).1 = .sleep 666666666 ∧
      ((after ((after (newTokenBucketLimiter 3 2 0) emptied).waitN 2 200).2
        [.allowN 2 300]).waitN 2 666666866).1 = .acquired := by
  have h : ((after (newTokenBucketLimiter 3 2 0) emptied).waitN 2 200).1 = .sleep 666666666 := by
    decide
  exact ⟨h, (wait_tight (by decide) (by decide) (by decide) 0 emptied 200 666666666 (by decide)
    h).1 [.allowN 2 300] 666666866 (by decide) (by decide) (by decide)⟩

end RpcInGo.RateLimit.WaitTime
