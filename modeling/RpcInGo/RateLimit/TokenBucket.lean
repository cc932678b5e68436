import Mathlib.Data.Rat.Cast.Order
import Mathlib.Tactic.Linarith
import RpcInGo.Lib.Metering

/-!
The token-bucket limiter, for runs of `AllowN` calls and `WaitN` iterations at
non-decreasing clock readings. A refill counts whole tokens by an integer number
of nanoseconds per token, the quotient of a second by the rate.

* `bounded_iff`: the limiter keeps to its rate and one burst in every interval of
  every run exactly when the rate divides a second, or is so high that a full
  bucket in every nanosecond does not exceed it;
* `over_rate`: at 600 million tokens per second the quotient is one nanosecond,
  and the limiter lets a billion through.
-/

namespace RpcInGo.RateLimit.TokenBucket
open Lib.Metering

/-- Times are in nanoseconds. The mutex makes each use of the limiter one step. -/
structure TokenBucketLimiter where
  capacity : Int
  rate : Int
  tokens : Int
  lastUpdate : Int
  nsRemainder : Int
  deriving DecidableEq, Repr

def second : Int := 1000000000

def microsecond : Int := 1000

def newTokenBucketLimiter (rate capacity now : Int) : TokenBucketLimiter :=
  ⟨capacity, rate, capacity, now, 0⟩

namespace TokenBucketLimiter

def nsPerToken (tb : TokenBucketLimiter) : Int := second.tdiv tb.rate

def refill (tb : TokenBucketLimiter) (now : Int) : TokenBucketLimiter :=
  if now - tb.lastUpdate ≤ 0 then tb
  else if tb.nsPerToken ≤ 0 then
    { tb with lastUpdate := now, tokens := tb.capacity, nsRemainder := 0 }
  else
    let totalNs := tb.nsRemainder + (now - tb.lastUpdate)
    let add := totalNs.tdiv tb.nsPerToken
    let tokens :=
      if add > 0 then
        if tb.tokens + add > tb.capacity then tb.capacity else tb.tokens + add
      else tb.tokens
    { tb with lastUpdate := now, tokens, nsRemainder := totalNs.tmod tb.nsPerToken }

def allowN (tb : TokenBucketLimiter) (n now : Int) : Bool × TokenBucketLimiter :=
  if n ≤ 0 then (true, tb)
  else
    let tb := tb.refill now
    if tb.tokens ≥ n then (true, { tb with tokens := tb.tokens - n }) else (false, tb)

/-- How an iteration of the loop of `WaitN` ends: the call returns, or it sleeps
and, unless its context ends first, tries again. -/
inductive WaitStep
  | acquired
  | errInvalidRequest
  | sleep (waitNs : Int)
  deriving DecidableEq, Repr

def waitN (tb : TokenBucketLimiter) (n now : Int) : WaitStep × TokenBucketLimiter :=
  if n ≤ 0 then (.acquired, tb)
  else if n > tb.capacity then (.errInvalidRequest, tb)
  else
    let tb := tb.refill now
    if tb.tokens ≥ n then (.acquired, { tb with tokens := tb.tokens - n })
    else
      let waitNs := (n - tb.tokens) * tb.nsPerToken
      (.sleep (if waitNs < microsecond then microsecond else waitNs), tb)

end TokenBucketLimiter

/-- A use of the limiter for `n` tokens, at a clock reading. -/
inductive Attempt
  | allowN (n now : Int)
  | waitN (n now : Int)
  deriving DecidableEq, Repr

def Attempt.n : Attempt → Int
  | .allowN n _ | .waitN n _ => n

def Attempt.now : Attempt → Int
  | .allowN _ now | .waitN _ now => now

/-- The limiter after an attempt, and the tokens granted. -/
def Attempt.serve (tb : TokenBucketLimiter) : Attempt → TokenBucketLimiter × Int
  | .allowN n now => ((tb.allowN n now).2, if (tb.allowN n now).1 then n else 0)
  | .waitN n now => ((tb.waitN n now).2, if (tb.waitN n now).1 = .acquired then n else 0)

def meter : Meter TokenBucketLimiter Attempt := ⟨Attempt.serve, Attempt.now⟩

/-- In every interval of every run the limiter grants at most its rate and one
burst, a token more than the capacity. -/
def Bounded (rate capacity : Int) : Prop :=
  ∀ (created : Int) (run : List Attempt) (t₁ t₂ : Int), (∀ a ∈ run, 0 < a.n) →
    Ordered meter created run → t₁ ≤ t₂ →
    (granted meter t₁ t₂ (newTokenBucketLimiter rate capacity created) run : ℚ) ≤
      capacity + 1 + rate * (t₂ - t₁) / 10 ^ 9

/-! ## One attempt -/

section Attempts
variable {rate capacity : Int} {tb : TokenBucketLimiter} {now : Int}

/-- What an attempt can do. -/
inductive Outcome (tb : TokenBucketLimiter) (a : Attempt) : TokenBucketLimiter × Int → Prop
  | idle {n} : n ≤ 0 → Outcome tb a (tb, n)
  | denied : Outcome tb a (tb.refill a.now, 0)
  | granted {n} : 0 < n → n ≤ (tb.refill a.now).tokens →
      Outcome tb a ({ tb.refill a.now with tokens := (tb.refill a.now).tokens - n }, n)

theorem serve_outcome (tb : TokenBucketLimiter) (a : Attempt) : Outcome tb a (a.serve tb) := by
  cases a with
  | allowN n now =>
    simp only [Attempt.serve, TokenBucketLimiter.allowN]
    split
    · exact .idle (by simpa)
    split
    · exact .granted (by omega) (by assumption)
    · exact .denied
  | waitN n now =>
    simp only [Attempt.serve, TokenBucketLimiter.waitN]
    split
    · exact .idle (by simpa)
    split
    · exact .idle le_rfl
    split
    · exact .granted (by omega) (by assumption)
    · exact .denied

/-- The limiters that a run reaches. -/
structure Valid (rate capacity : Int) (tb : TokenBucketLimiter) : Prop where
  rate_eq : tb.rate = rate
  capacity_eq : tb.capacity = capacity
  tokens_nonneg : 0 ≤ tb.tokens
  tokens_le : tb.tokens ≤ capacity
  rem_nonneg : 0 ≤ tb.nsRemainder
  rem_lt : 0 < tb.nsPerToken → tb.nsRemainder < tb.nsPerToken

theorem newTokenBucketLimiter_valid (hc : 0 ≤ capacity) (created : Int) :
    Valid rate capacity (newTokenBucketLimiter rate capacity created) :=
  ⟨rfl, rfl, hc, le_rfl, le_rfl, id⟩

/-- What a refill does to such a limiter. -/
inductive Refilled (tb : TokenBucketLimiter) (now : Int) : TokenBucketLimiter → Prop
  | early : now ≤ tb.lastUpdate → Refilled tb now tb
  | full : tb.lastUpdate < now → tb.nsPerToken ≤ 0 →
      Refilled tb now { tb with lastUpdate := now, tokens := tb.capacity, nsRemainder := 0 }
  | counted {add rem} : tb.lastUpdate < now → 0 ≤ add → 0 ≤ rem → rem < tb.nsPerToken →
      tb.nsPerToken * add + rem = tb.nsRemainder + (now - tb.lastUpdate) →
      Refilled tb now
        { tb with
          lastUpdate := now
          tokens := min tb.capacity (tb.tokens + add)
          nsRemainder := rem }

theorem refill_refilled (hv : Valid rate capacity tb) (now : Int) :
    Refilled tb now (tb.refill now) := by
  unfold TokenBucketLimiter.refill
  split
  · exact .early (by omega)
  split
  · exact .full (by omega) (by assumption)
  have hq : 0 < tb.nsPerToken := by omega
  have htotal : 0 ≤ tb.nsRemainder + (now - tb.lastUpdate) := by have := hv.rem_nonneg; omega
  have hadd := Int.tdiv_nonneg htotal hq.le
  have hle := hv.tokens_le
  rw [← hv.capacity_eq] at hle
  -- the two tests on `add` and on the capacity amount to a minimum
  have htokens : (if (tb.nsRemainder + (now - tb.lastUpdate)).tdiv tb.nsPerToken > 0 then
        if tb.tokens + (tb.nsRemainder + (now - tb.lastUpdate)).tdiv tb.nsPerToken > tb.capacity
        then tb.capacity
        else tb.tokens + (tb.nsRemainder + (now - tb.lastUpdate)).tdiv tb.nsPerToken
      else tb.tokens) =
      min tb.capacity
        (tb.tokens + (tb.nsRemainder + (now - tb.lastUpdate)).tdiv tb.nsPerToken) := by
    split
    · split <;> omega
    · omega
  simp only [htokens]
  exact .counted (by omega) hadd (Int.tmod_nonneg _ htotal) (Int.tmod_lt_of_pos _ hq)
    (Int.mul_tdiv_add_tmod _ _)

theorem Refilled.valid {tb' : TokenBucketLimiter} (h : Refilled tb now tb')
    (hv : Valid rate capacity tb) : Valid rate capacity tb' := by
  have hcap := hv.capacity_eq
  have hnonneg := hv.tokens_nonneg
  have hle := hv.tokens_le
  cases h with
  | early _ => exact hv
  | full _ hq => exact ⟨hv.rate_eq, hcap, hnonneg.trans (hle.trans hcap.ge), hcap.le, le_rfl, id⟩
  | counted _ hadd hrem hlt _ =>
    refine ⟨hv.rate_eq, hcap, ?_, ?_, hrem, fun _ => hlt⟩ <;> simp only <;> omega

theorem Refilled.lastUpdate_eq {tb' : TokenBucketLimiter} (h : Refilled tb now tb')
    (hnow : tb.lastUpdate ≤ now) : tb'.lastUpdate = now := by
  cases h with
  | early hle => omega
  | full => rfl
  | counted => rfl

/-- Tokens and remainder together, in nanoseconds, grow by the time elapsed. -/
theorem Refilled.credit_le {tb' : TokenBucketLimiter} (h : Refilled tb now tb')
    (hq : 0 < tb.nsPerToken) (hnow : tb.lastUpdate ≤ now) :
    tb.nsPerToken * tb'.tokens + tb'.nsRemainder ≤
      tb.nsPerToken * tb.tokens + tb.nsRemainder + (now - tb.lastUpdate) := by
  cases h with
  | early _ => omega
  | full _ h => omega
  | @counted add _ _ _ _ _ hsum =>
    have hmin := mul_le_mul_of_nonneg_left (min_le_right tb.capacity (tb.tokens + add)) hq.le
    rw [mul_add] at hmin
    simp only
    linarith

/-- Without a whole nanosecond for each token, the bucket is full again in the
next nanosecond. -/
theorem Refilled.tokens_le_of_full {tb' : TokenBucketLimiter} (h : Refilled tb now tb')
    (hv : Valid rate capacity tb) (hq : tb.nsPerToken ≤ 0) (hnow : tb.lastUpdate ≤ now) :
    tb'.tokens ≤ tb.tokens + capacity * (now - tb.lastUpdate) := by
  have hc : 0 ≤ capacity := hv.tokens_nonneg.trans hv.tokens_le
  cases h with
  | early _ =>
    have := mul_nonneg hc (show 0 ≤ now - tb.lastUpdate by omega)
    omega
  | full hlt _ =>
    have := mul_le_mul_of_nonneg_left (show 1 ≤ now - tb.lastUpdate by omega) hc
    have := hv.tokens_nonneg
    have := hv.capacity_eq
    simp only
    omega
  | counted _ _ hrem hlt _ => omega

theorem Outcome.valid {a : Attempt} {r : TokenBucketLimiter × Int} (h : Outcome tb a r)
    (hv : Valid rate capacity tb) : Valid rate capacity r.1 := by
  have hr := (refill_refilled hv a.now).valid hv
  cases h with
  | idle _ => exact hv
  | denied => exact hr
  | granted hn hle =>
    refine ⟨hr.rate_eq, hr.capacity_eq, sub_nonneg.mpr hle, ?_, hr.rem_nonneg, hr.rem_lt⟩
    have := hr.tokens_le
    simp only
    omega

end Attempts

/-! ## The credit of the bucket -/

section Bounds
variable {rate capacity : Int}

/-- A token of the bucket is worth `cost` and a nanosecond of its remainder
`weight`, where a refill adds no more than `speed` in a nanosecond. -/
def bucketCredit (rate capacity cost weight speed burst : Int) (hcost : 0 ≤ cost)
    (hweight : 0 ≤ weight) (hspeed : 0 ≤ speed) (hfull : 0 ≤ burst)
    (hburst : ∀ tb, Valid rate capacity tb → cost * tb.tokens + weight * tb.nsRemainder ≤ burst)
    (hrefill : ∀ tb now, Valid rate capacity tb → tb.lastUpdate ≤ now →
      cost * (tb.refill now).tokens + weight * (tb.refill now).nsRemainder ≤
        cost * tb.tokens + weight * tb.nsRemainder + speed * (now - tb.lastUpdate)) :
    Credit meter cost speed burst where
  valid := Valid rate capacity
  clock := TokenBucketLimiter.lastUpdate
  credit tb := cost * tb.tokens + weight * tb.nsRemainder
  speed_nonneg := hspeed
  burst_nonneg := hfull
  credit_nonneg tb hv :=
    add_nonneg (mul_nonneg hcost hv.tokens_nonneg) (mul_nonneg hweight hv.rem_nonneg)
  keeps tb a hv _ := (serve_outcome tb a).valid hv
  serves tb a hv ht := by
    have hre := refill_refilled hv a.now
    have hclock := hre.lastUpdate_eq ht
    have hb := hburst _ (hre.valid hv)
    have hp := hrefill tb (meter.time a) hv ht
    have ho := serve_outcome tb a
    generalize hs : a.serve tb = r at ho
    replace hs : meter.serve tb a = r := hs
    cases ho with
    | idle hn =>
      exact .idle (by rw [hs]) (by rw [hs]; exact mul_nonpos_of_nonneg_of_nonpos hcost hn)
    | denied =>
      refine .active ?_ ?_ ?_ <;> rw [hs]
      · exact hclock
      · simpa using hb
      · simpa [meter] using hp
    | @granted n hn hle =>
      have hpay : cost * ((tb.refill a.now).tokens - n) + weight * (tb.refill a.now).nsRemainder +
          cost * n = cost * (tb.refill a.now).tokens + weight * (tb.refill a.now).nsRemainder := by
        ring
      refine .active ?_ ?_ ?_ <;> rw [hs]
      · exact hclock
      · exact hpay.trans_le hb
      · exact hpay.trans_le hp

theorem nsPerToken_of_valid {tb : TokenBucketLimiter} (hv : Valid rate capacity tb) :
    tb.nsPerToken = second / rate := by
  rw [TokenBucketLimiter.nsPerToken, hv.rate_eq]
  exact Int.tdiv_eq_ediv_of_nonneg (by decide)

/-- The bound on the tokens granted, cleared of its denominator. -/
theorem le_burst_iff (g c r t₁ t₂ : Int) :
    (g : ℚ) ≤ c + 1 + r * (t₂ - t₁) / 10 ^ 9 ↔ second * g ≤ second * (c + 1) + r * (t₂ - t₁) := by
  have hclear : (c + 1 + r * (t₂ - t₁) / 10 ^ 9 : ℚ) =
      ((second * (c + 1) + r * (t₂ - t₁) : Int) : ℚ) / (second : Int) := by
    simp only [second]
    push_cast
    ring
  rw [hclear, le_div_iff₀ (by simp [second])]
  rw [mul_comm second g]
  exact_mod_cast Iff.rfl

theorem bounded_of_dvd (hr : 1 ≤ rate) (hc : 1 ≤ capacity) (hdvd : rate ∣ second) :
    Bounded rate capacity := by
  intro created run t₁ t₂ _ hrun ht
  have hq : second / rate * rate = second := Int.ediv_mul_cancel hdvd
  have hpos : 0 < second / rate := Int.ediv_pos_of_pos_of_dvd (by decide) (by omega) hdvd
  let c : Credit meter (second / rate) 1 (second / rate * (capacity + 1)) :=
    bucketCredit rate capacity _ 1 _ _ hpos.le (by decide) (by decide)
      (mul_nonneg hpos.le (by omega))
      (fun tb hv => by
        have hlt := hv.rem_lt
        rw [nsPerToken_of_valid hv] at hlt
        have := mul_le_mul_of_nonneg_left hv.tokens_le hpos.le
        rw [mul_add]
        linarith [hlt hpos])
      (fun tb now hv hnow => by
        have := (refill_refilled hv now).credit_le (by rwa [nsPerToken_of_valid hv]) hnow
        rw [nsPerToken_of_valid hv] at this
        linarith)
  have hle := c.granted_le (newTokenBucketLimiter_valid (by omega) created) hrun le_rfl ht
  rw [le_burst_iff]
  calc second * granted meter t₁ t₂ (newTokenBucketLimiter rate capacity created) run
      = rate * (second / rate *
          granted meter t₁ t₂ (newTokenBucketLimiter rate capacity created) run) := by
        rw [← mul_assoc, mul_comm rate, hq]
    _ ≤ rate * (second / rate * (capacity + 1) + 1 * (t₂ - t₁)) :=
        mul_le_mul_of_nonneg_left hle (by omega)
    _ = second * (capacity + 1) + rate * (t₂ - t₁) := by
        rw [one_mul, mul_add, ← mul_assoc, mul_comm rate, hq]

theorem bounded_of_high (hc : 1 ≤ capacity) (hhigh : second * capacity ≤ rate)
    (hq : second / rate = 0) : Bounded rate capacity := by
  intro created run t₁ t₂ _ hrun ht
  let c : Credit meter 1 capacity capacity :=
    bucketCredit rate capacity 1 0 capacity capacity (by decide) le_rfl (by omega) (by omega)
      (fun tb hv => by simpa using hv.tokens_le)
      (fun tb now hv hnow => by
        simpa using (refill_refilled hv now).tokens_le_of_full hv
          (by rw [nsPerToken_of_valid hv, hq]) hnow)
  have hle := c.granted_le (newTokenBucketLimiter_valid (by omega) created) hrun le_rfl ht
  rw [one_mul] at hle
  rw [le_burst_iff]
  have hspeed := mul_le_mul_of_nonneg_right hhigh (show 0 ≤ t₂ - t₁ by omega)
  have hscaled := mul_le_mul_of_nonneg_left hle (show 0 ≤ second by decide)
  rw [mul_add, ← mul_assoc] at hscaled
  have : (0 : Int) ≤ second := by decide
  rw [mul_add]
  linarith

/-! ## Runs that exceed the rate -/

/-- `k` calls of `AllowN` for `n` tokens, `step` nanoseconds apart. -/
def steady (n step : Int) (last : Int) : Nat → List Attempt
  | 0 => []
  | k + 1 => .allowN n (last + step) :: steady n step (last + step) k

theorem steady_positive {n step last : Int} {k : Nat} (hn : 0 < n) :
    ∀ a ∈ steady n step last k, 0 < a.n := by
  induction k generalizing last with
  | zero => exact List.forall_mem_nil _
  | succ k ih => exact List.forall_mem_cons.mpr ⟨hn, ih⟩

theorem steady_ordered {n step last : Int} {k : Nat} (hstep : 0 ≤ step) :
    Ordered meter last (steady n step last k) := by
  induction k generalizing last with
  | zero => trivial
  | succ k ih => exact ⟨show last ≤ last + step by omega, ih⟩

/-- A limiter that grants each of the calls and stays ready for the next one
grants them all. -/
theorem granted_steady {P : TokenBucketLimiter → Prop} {n step : Int} (t₁ t₂ : Int)
    (hserve : ∀ tb, P tb → ∃ tb', P tb' ∧ tb'.lastUpdate = tb.lastUpdate + step ∧
      tb.allowN n (tb.lastUpdate + step) = (true, tb'))
    (hstep : 0 ≤ step) {tb : TokenBucketLimiter} (k : Nat) (hP : P tb)
    (h₁ : t₁ ≤ tb.lastUpdate + step) (h₂ : tb.lastUpdate + k * step ≤ t₂) :
    granted meter t₁ t₂ tb (steady n step tb.lastUpdate k) = k * n := by
  induction k generalizing tb with
  | zero => simp [steady, granted]
  | succ k ih =>
    obtain ⟨tb', hP', hlast, hallow⟩ := hserve tb hP
    have hk : (0 : Int) ≤ k * step := mul_nonneg (by omega) hstep
    push_cast at h₂ ⊢
    rw [add_mul, one_mul] at h₂ ⊢
    have hnow : t₁ ≤ tb.lastUpdate + step ∧ tb.lastUpdate + step ≤ t₂ := by omega
    have hrest := ih hP' (by omega) (by omega)
    rw [hlast] at hrest
    simp only [steady, granted, meter, Attempt.now, Attempt.serve, hallow, if_pos hnow, if_true]
    simp only [meter] at hrest
    rw [hrest]
    ring

theorem Bounded.steady_le {n step : Int} (h : Bounded rate capacity) (hn : 0 < n)
    (hstep : 0 ≤ step) {P : TokenBucketLimiter → Prop}
    (hserve : ∀ tb, P tb → ∃ tb', P tb' ∧ tb'.lastUpdate = tb.lastUpdate + step ∧
      tb.allowN n (tb.lastUpdate + step) = (true, tb'))
    (hP : P (newTokenBucketLimiter rate capacity 0)) (k : Nat) :
    second * ((k + 1) * n) ≤ second * (capacity + 1) + rate * (k * step) := by
  have hk : (0 : Int) ≤ k * step := mul_nonneg (by omega) hstep
  have hgranted := granted_steady step ((k + 1) * step) hserve hstep (k + 1) hP
    (by simp [newTokenBucketLimiter]) (by simp [newTokenBucketLimiter])
  have hbound := h 0 (steady n step 0 (k + 1)) step ((k + 1) * step) (steady_positive hn)
    (steady_ordered hstep) (by rw [add_mul]; omega)
  rw [le_burst_iff] at hbound
  change granted meter step ((k + 1) * step) _ (steady n step 0 (k + 1)) = _ at hgranted
  rw [hgranted] at hbound
  push_cast at hbound
  rwa [show ((k : Int) + 1) * step - step = k * step by ring] at hbound

theorem allowN_of_le {tb : TokenBucketLimiter} {n now : Int} (hn : 0 < n)
    (hle : n ≤ (tb.refill now).tokens) :
    tb.allowN n now = (true, { tb.refill now with tokens := (tb.refill now).tokens - n }) := by
  rw [TokenBucketLimiter.allowN, if_neg (by omega)]
  exact if_pos hle

/-- At most one token short of full, and nothing of the next one counted. -/
structure Primed (rate capacity : Int) (tb : TokenBucketLimiter) : Prop where
  valid : Valid rate capacity tb
  tokens_ge : capacity - 1 ≤ tb.tokens
  remainder : tb.nsRemainder = 0

/-- After the time for one token the bucket is full, and nothing is left over. -/
theorem Primed.refill_full {tb : TokenBucketLimiter} (h : Primed rate capacity tb)
    (hq : 0 < second / rate) :
    (tb.refill (tb.lastUpdate + second / rate)).tokens = capacity ∧
      (tb.refill (tb.lastUpdate + second / rate)).nsRemainder = 0 := by
  obtain ⟨hv, hfull, hrem⟩ := h
  have hns := nsPerToken_of_valid hv
  have hre := refill_refilled hv (tb.lastUpdate + second / rate)
  generalize tb.refill (tb.lastUpdate + second / rate) = tb' at hre
  cases hre with
  | early hle => omega
  | full _ hle => omega
  | @counted add rem _ hadd hrem' hlt hsum =>
    rw [hns, hrem] at hsum
    rw [hns] at hlt
    have hpos : 0 < add := by
      rcases hadd.lt_or_eq with hpos | rfl
      · exact hpos
      · simp at hsum
        omega
    have hone : ¬ 2 ≤ add := by
      intro htwo
      have := mul_le_mul_of_nonneg_left htwo hq.le
      omega
    obtain rfl : add = 1 := by omega
    have hcap := hv.capacity_eq
    have hle := hv.tokens_le
    constructor
    · simp only
      omega
    · simp only
      omega

/-- With a whole number of nanoseconds for each token, a full bucket gives one
every time that number has passed. -/
theorem Primed.serve {tb : TokenBucketLimiter} (h : Primed rate capacity tb) (hc : 1 ≤ capacity)
    (hq : 0 < second / rate) : ∃ tb' : TokenBucketLimiter, Primed rate capacity tb' ∧
      tb'.lastUpdate = tb.lastUpdate + second / rate ∧
      tb.allowN 1 (tb.lastUpdate + second / rate) = (true, tb') := by
  obtain ⟨hfull, hrem⟩ := h.refill_full hq
  have hre := refill_refilled h.valid (tb.lastUpdate + second / rate)
  have hone : 1 ≤ (tb.refill (tb.lastUpdate + second / rate)).tokens := by omega
  refine ⟨_, ⟨?_, ?_, ?_⟩, ?_, allowN_of_le Int.one_pos hone⟩
  · exact (Outcome.granted (a := .allowN 1 (tb.lastUpdate + second / rate)) Int.one_pos
      (by rw [Attempt.now]; omega)).valid h.valid
  · simp only
    omega
  · exact hrem
  · exact hre.lastUpdate_eq (by omega)

theorem dvd_of_bounded (hr : 1 ≤ rate) (hc : 1 ≤ capacity) (hle : rate ≤ second)
    (h : Bounded rate capacity) : rate ∣ second := by
  have hq : 0 < second / rate := (Int.le_ediv_iff_mul_le (by omega)).mpr (by omega)
  have hnew : Primed rate capacity (newTokenBucketLimiter rate capacity 0) :=
    ⟨newTokenBucketLimiter_valid (by omega) 0, by simp [newTokenBucketLimiter], rfl⟩
  have hbound := h.steady_le Int.one_pos hq.le (fun _ hp => Primed.serve hp hc hq) hnew
    (capacity * second + 1).toNat
  rw [Int.toNat_of_nonneg (add_nonneg (mul_nonneg (by omega) (by decide)) (by decide))] at hbound
  by_contra hdvd
  have hmod : 0 < second % rate :=
    (Int.emod_nonneg _ (by omega)).lt_of_ne fun h => hdvd (Int.dvd_of_emod_eq_zero h.symm)
  have hdiv := Int.mul_ediv_add_emod second rate
  have hless : rate * (second / rate) ≤ second - 1 := by omega
  have hslow := mul_le_mul_of_nonneg_right hless
    (show 0 ≤ capacity * second + 1 from add_nonneg (mul_nonneg (by omega) (by decide)) (by decide))
  have hcomm : rate * ((capacity * second + 1) * (second / rate)) =
      rate * (second / rate) * (capacity * second + 1) := by ring
  rw [hcomm] at hbound
  simp only [second] at *
  omega

/-- With less than a nanosecond for a token, the bucket is emptied and full again
every nanosecond. -/
theorem Valid.serve_full {tb : TokenBucketLimiter} (hv : Valid rate capacity tb)
    (hc : 1 ≤ capacity) (hq : second / rate = 0) :
    ∃ tb' : TokenBucketLimiter, Valid rate capacity tb' ∧ tb'.lastUpdate = tb.lastUpdate + 1 ∧
      tb.allowN capacity (tb.lastUpdate + 1) = (true, tb') := by
  have hns := nsPerToken_of_valid hv
  have hre := refill_refilled hv (tb.lastUpdate + 1)
  have hlast := hre.lastUpdate_eq (by omega)
  have hfull : (tb.refill (tb.lastUpdate + 1)).tokens = capacity := by
    generalize tb.refill (tb.lastUpdate + 1) = tb' at hre
    cases hre with
    | early hle => omega
    | full _ _ => exact hv.capacity_eq
    | counted _ _ hrem hlt _ => omega
  refine ⟨_, ?_, ?_, allowN_of_le (by omega) hfull.ge⟩
  · exact (Outcome.granted (a := .allowN capacity (tb.lastUpdate + 1)) (by omega)
      hfull.ge).valid hv
  · exact hlast

theorem high_of_bounded (hc : 1 ≤ capacity) (hlt : second < rate)
    (h : Bounded rate capacity) : second * capacity ≤ rate := by
  have hq : second / rate = 0 := Int.ediv_eq_zero_of_lt (by decide) hlt
  have hbound := h.steady_le (by omega) Int.one_nonneg (fun _ hv => Valid.serve_full hv hc hq)
    (newTokenBucketLimiter_valid (by omega) 0) (second + 1).toNat
  simp only [second] at *
  by_contra hlow
  push_cast at hbound
  omega

end Bounds

/-- The limiter keeps to its rate plus one burst exactly when a second is a whole
number of nanoseconds for each token, or when a full bucket in each nanosecond
is within the rate. -/
theorem bounded_iff {rate capacity : Int} (hr : 1 ≤ rate) (hc : 1 ≤ capacity) :
    Bounded rate capacity ↔ rate ∣ 10 ^ 9 ∨ 10 ^ 9 * capacity ≤ rate := by
  change _ ↔ rate ∣ second ∨ second * capacity ≤ rate
  rcases le_or_gt rate second with hle | hlt
  · refine ⟨fun h => .inl (dvd_of_bounded hr hc hle h), ?_⟩
    rintro (hdvd | hhigh)
    · exact bounded_of_dvd hr hc hdvd
    · have : second * 1 ≤ second * capacity := mul_le_mul_of_nonneg_left hc (by decide)
      exact bounded_of_dvd hr hc (by rw [show rate = second by omega])
  · refine ⟨fun h => .inr (high_of_bounded hc hlt h), ?_⟩
    rintro (hdvd | hhigh)
    · exact absurd (Int.le_of_dvd (by decide) hdvd) (by omega)
    · exact bounded_of_high hc hhigh (Int.ediv_eq_zero_of_lt (by decide) hlt)

theorem bounded_hundred : Bounded 100 10 :=
  (bounded_iff (by decide) (by decide)).mpr (.inl (by decide))

/-- Four single tokens in three nanoseconds, from a bucket of one. -/
def everyNanosecond : List Attempt := [.allowN 1 1, .allowN 1 2, .allowN 1 3, .allowN 1 4]

theorem over_rate : ¬ ∀ rate capacity : Int, 1 ≤ rate → 1 ≤ capacity → Bounded rate capacity := by
  intro h
  have hbound := h 600000000 1 (by decide) (by decide) 0 everyNanosecond 1 4 (by decide) (by decide)
    (by decide)
  have hfour : granted meter 1 4 (newTokenBucketLimiter 600000000 1 0) everyNanosecond = 4 := by
    decide
  rw [hfour] at hbound
  norm_num at hbound

end RpcInGo.RateLimit.TokenBucket
