import RpcInGo.RateLimit.Polling

/-!
The token-bucket limiter in the 64-bit integers of the code. A refill adds the tokens of the
time elapsed before it clips them at the capacity, and the sum may wrap around.

* `run_exact`: as long as no sum can wrap, every run of the limiter is one of the limiter over
  the integers;
* `sound_iff`: the limiter keeps its tokens between 0 and the capacity, and the remainder below a
  token, in all runs exactly when the capacity leaves room for the tokens of one refill;
* `unlimited_negative`: with the capacity at the top of its type one token is one too many.
-/

namespace RpcInGo.RateLimit.Wrapping
open TokenBucket Polling

/-! ## The limiter -/

structure WrappingLimiter where
  capacity : Int64
  rate : Int64
  tokens : Int64
  lastUpdate : Int
  nsRemainder : Int64
  deriving DecidableEq

def second : Int64 := 1000000000

def microsecond : Int64 := 1000

def newTokenBucketLimiter (rate capacity : Int64) (now : Int) : WrappingLimiter :=
  ⟨capacity, rate, capacity, now, 0⟩

/-- `Time.Sub`, which saturates. -/
def sub (now last : Int) : Int64 :=
  if now - last < Int64.minValue.toInt then Int64.minValue
  else if Int64.maxValue.toInt < now - last then Int64.maxValue
  else Int64.ofInt (now - last)

namespace WrappingLimiter

def nsPerToken (tb : WrappingLimiter) : Int64 := second / tb.rate

def refill (tb : WrappingLimiter) (now : Int) : WrappingLimiter :=
  let elapsed := sub now tb.lastUpdate
  if elapsed ≤ 0 then tb
  else if tb.nsPerToken ≤ 0 then
    { tb with lastUpdate := now, tokens := tb.capacity, nsRemainder := 0 }
  else
    let totalNs := tb.nsRemainder + elapsed
    let add := totalNs / tb.nsPerToken
    let tokens :=
      if add > 0 then
        if tb.tokens + add > tb.capacity then tb.capacity else tb.tokens + add
      else tb.tokens
    { tb with lastUpdate := now, tokens, nsRemainder := totalNs % tb.nsPerToken }

def allowN (tb : WrappingLimiter) (n : Int64) (now : Int) : Bool × WrappingLimiter :=
  if n ≤ 0 then (true, tb)
  else
    let tb := tb.refill now
    if tb.tokens ≥ n then (true, { tb with tokens := tb.tokens - n }) else (false, tb)

/-- An iteration of the loop. -/
def waitN (tb : WrappingLimiter) (n : Int64) (now : Int) :
    TokenBucketLimiter.WaitStep × WrappingLimiter :=
  if n ≤ 0 then (.acquired, tb)
  else if n > tb.capacity then (.errInvalidRequest, tb)
  else
    let tb := tb.refill now
    if tb.tokens ≥ n then (.acquired, { tb with tokens := tb.tokens - n })
    else
      let waitNs := (n - tb.tokens) * tb.nsPerToken
      (.sleep (if waitNs < microsecond then microsecond else waitNs).toInt, tb)

/-- The limiter over the integers that it stands for. -/
@[simps]
def exact (tb : WrappingLimiter) : TokenBucketLimiter :=
  ⟨tb.capacity.toInt, tb.rate.toInt, tb.tokens.toInt, tb.lastUpdate, tb.nsRemainder.toInt⟩

end WrappingLimiter

inductive Call
  | allowN (n : Int64) (now : Int)
  | waitN (n : Int64) (now : Int)
  deriving DecidableEq

def Call.serve (tb : WrappingLimiter) : Call → WrappingLimiter
  | .allowN n now => (tb.allowN n now).2
  | .waitN n now => (tb.waitN n now).2

def Call.exact : Call → Attempt
  | .allowN n now => .allowN n.toInt now
  | .waitN n now => .waitN n.toInt now

/-- The clock reading of a call that gets as far as taking one. -/
def Call.reading (capacity : Int64) : Call → Option Int
  | .allowN n now => if n ≤ 0 then none else some now
  | .waitN n now => if n ≤ 0 ∨ n > capacity then none else some now

/-- The readings do not decrease, and follow in less than `2 ^ 61` nanoseconds. -/
def Spaced (capacity : Int64) : Int → List Call → Prop
  | _, [] => True
  | t, c :: run =>
    match c.reading capacity with
    | none => Spaced capacity t run
    | some now => t ≤ now ∧ now - t < 2 ^ 61 ∧ Spaced capacity now run

def after (tb : WrappingLimiter) (run : List Call) : WrappingLimiter := run.foldl Call.serve tb

/-- The bounds on tokens and remainder. -/
structure Sound (rate capacity : Int64) (tb : WrappingLimiter) : Prop where
  tokens_nonneg : 0 ≤ tb.tokens
  tokens_le : tb.tokens ≤ capacity
  rem_nonneg : 0 ≤ tb.nsRemainder
  rem_lt : 0 < second / rate → tb.nsRemainder < second / rate
  rem_zero : second / rate = 0 → tb.nsRemainder = 0

/-- Every run keeps the bounds, and so at each of its steps. -/
def KeepsSound (rate capacity : Int64) : Prop :=
  ∀ (created : Int) (run : List Call), Spaced capacity created run →
    Sound rate capacity (after (newTokenBucketLimiter rate capacity created) run)

/-- The most tokens that one refill adds. -/
def mostAdded (rate : Int64) : Int :=
  (10 ^ 9 / rate.toInt + 2 ^ 61 - 2) / (10 ^ 9 / rate.toInt)

/-- The capacity leaves room for them, unless a refill just fills the bucket. -/
def Roomy (rate capacity : Int64) : Prop :=
  10 ^ 9 < rate.toInt ∨ capacity.toInt + mostAdded rate < 2 ^ 63

/-! ## The arithmetic -/

theorem sub_toInt {now last : Int} (h₀ : last ≤ now) (h : now - last < 2 ^ 63) :
    (sub now last).toInt = now - last := by
  rw [sub, Int64.toInt_minValue, Int64.toInt_maxValue, if_neg (by omega), if_neg (by omega)]
  exact Int64.toInt_ofInt_of_le (by omega) h

theorem add_toInt {a b : Int64} (h₀ : -2 ^ 63 ≤ a.toInt + b.toInt)
    (h : a.toInt + b.toInt < 2 ^ 63) : (a + b).toInt = a.toInt + b.toInt := by
  rw [Int64.toInt_add]
  exact Int.bmod_eq_of_le (by omega) (by omega)

theorem add_toInt_wraps {a b : Int64} (h : 2 ^ 63 ≤ a.toInt + b.toInt) :
    (a + b).toInt = a.toInt + b.toInt - 2 ^ 64 := by
  have := a.toInt_lt
  have := b.toInt_lt
  rw [Int64.toInt_add, Int.bmod_def]
  omega

theorem sub_toInt_of_le {a b : Int64} (h₀ : 0 ≤ b.toInt) (h : b.toInt ≤ a.toInt) :
    (a - b).toInt = a.toInt - b.toInt := by
  have := a.toInt_lt
  rw [Int64.toInt_sub]
  exact Int.bmod_eq_of_le (by omega) (by omega)

theorem div_toInt {a b : Int64} (h : 0 ≤ a.toInt) : (a / b).toInt = a.toInt.tdiv b.toInt := by
  refine Int64.toInt_div_of_ne_left a b fun hmin => ?_
  rw [hmin, Int64.toInt_minValue] at h
  omega

theorem nsPerToken_exact (tb : WrappingLimiter) : tb.exact.nsPerToken = tb.nsPerToken.toInt := by
  rw [WrappingLimiter.nsPerToken, div_toInt (by decide)]
  rfl

/-! ## One step over the integers -/

section Steps
variable {rate capacity : Int64} {tb : WrappingLimiter} {now : Int}

/-- The sums of a refill stay in range. -/
def NoWrap (tb : WrappingLimiter) (now : Int) : Prop :=
  0 < tb.nsPerToken.toInt →
    tb.nsRemainder.toInt + (now - tb.lastUpdate) < 2 ^ 63 ∧
    tb.tokens.toInt +
      (tb.nsRemainder.toInt + (now - tb.lastUpdate)).tdiv tb.nsPerToken.toInt < 2 ^ 63

theorem refill_exact (hv : Valid rate.toInt capacity.toInt tb.exact) (hnow : tb.lastUpdate ≤ now)
    (hspan : now - tb.lastUpdate < 2 ^ 63) (hno : NoWrap tb now) :
    (tb.refill now).exact = tb.exact.refill now := by
  have hrem : 0 ≤ tb.nsRemainder.toInt := hv.rem_nonneg
  have htokens : 0 ≤ tb.tokens.toInt := hv.tokens_nonneg
  have helapsed := sub_toInt hnow hspan
  simp only [WrappingLimiter.refill, TokenBucketLimiter.refill, nsPerToken_exact, gt_iff_lt,
    Int64.le_iff_toInt_le, Int64.lt_iff_toInt_lt, helapsed, Int64.toInt_zero,
    WrappingLimiter.exact_lastUpdate]
  by_cases hearly : now - tb.lastUpdate ≤ 0
  · rw [if_pos hearly, if_pos hearly]
  by_cases hq : tb.nsPerToken.toInt ≤ 0
  · rw [if_neg hearly, if_neg hearly, if_pos hq, if_pos hq]
    rfl
  obtain ⟨htotal, hsum⟩ := hno (by omega)
  have htot : (tb.nsRemainder + sub now tb.lastUpdate).toInt =
      tb.nsRemainder.toInt + (now - tb.lastUpdate) := by
    rw [add_toInt (by omega) (by omega), helapsed]
  have hadd : ((tb.nsRemainder + sub now tb.lastUpdate) / tb.nsPerToken).toInt =
      (tb.nsRemainder.toInt + (now - tb.lastUpdate)).tdiv tb.nsPerToken.toInt := by
    rw [div_toInt (by omega), htot]
  have hadd₀ : 0 ≤ (tb.nsRemainder.toInt + (now - tb.lastUpdate)).tdiv tb.nsPerToken.toInt :=
    Int.tdiv_nonneg (by omega) (by omega)
  have hnew : (tb.tokens + (tb.nsRemainder + sub now tb.lastUpdate) / tb.nsPerToken).toInt =
      tb.tokens.toInt +
        (tb.nsRemainder.toInt + (now - tb.lastUpdate)).tdiv tb.nsPerToken.toInt := by
    rw [add_toInt (by omega) (by omega), hadd]
  rw [if_neg hearly, if_neg hearly, if_neg hq, if_neg hq]
  simp only [WrappingLimiter.exact, Int64.toInt_mod, apply_ite Int64.toInt, htot, hadd, hnew]
  congr

theorem take_exact {n : Int64} (hn : 0 ≤ n.toInt) (h : n.toInt ≤ tb.tokens.toInt) :
    { tb with tokens := tb.tokens - n }.exact =
      { tb.exact with tokens := tb.exact.tokens - n.toInt } := by
  simp only [WrappingLimiter.exact, sub_toInt_of_le hn h]

/-- After the refill a call takes its tokens, or leaves them, and says so. -/
theorem taken_exact {α β : Type} {n : Int64} (hn : 0 ≤ n.toInt) (took left : α) (took' left' : β) :
    (if n.toInt ≤ tb.tokens.toInt then (took, { tb with tokens := tb.tokens - n })
      else (left, tb)).2.exact =
    (if n.toInt ≤ tb.tokens.toInt then
      (took', { tb.exact with tokens := tb.exact.tokens - n.toInt })
      else (left', tb.exact)).2 := by
  split
  · rename_i htake
    exact take_exact hn htake
  · rfl

/-- A call takes the same from the limiter over the integers, if its refill does not wrap. -/
theorem serve_exact {c : Call}
    (hre : ∀ now, c.reading tb.capacity = some now →
      (tb.refill now).exact = tb.exact.refill now) :
    (c.serve tb).exact = (c.exact.serve tb.exact).1 := by
  cases c with
  | allowN n now =>
    simp only [Call.serve, Call.exact, Attempt.serve, WrappingLimiter.allowN,
      TokenBucketLimiter.allowN, ge_iff_le, Int64.le_iff_toInt_le, Int64.toInt_zero]
    by_cases hn : n.toInt ≤ 0
    · rw [if_pos hn, if_pos hn]
    have hre := hre now (if_neg (by rwa [Int64.le_iff_toInt_le]))
    rw [if_neg hn, if_neg hn, ← hre]
    exact taken_exact (by omega) _ _ _ _
  | waitN n now =>
    simp only [Call.serve, Call.exact, Attempt.serve, WrappingLimiter.waitN,
      TokenBucketLimiter.waitN, ge_iff_le, gt_iff_lt, Int64.le_iff_toInt_le,
      Int64.lt_iff_toInt_lt, Int64.toInt_zero, WrappingLimiter.exact_capacity]
    by_cases hn : n.toInt ≤ 0
    · rw [if_pos hn, if_pos hn]
    by_cases hcap : tb.capacity.toInt < n.toInt
    · rw [if_neg hn, if_neg hn, if_pos hcap, if_pos hcap]
    have hre := hre now (if_neg (by
      rw [not_or, gt_iff_lt, Int64.le_iff_toInt_le, Int64.lt_iff_toInt_lt]
      exact ⟨hn, hcap⟩))
    rw [if_neg hn, if_neg hn, if_neg hcap, if_neg hcap, ← hre]
    exact taken_exact (by omega) _ _ _ _

/-- The capacity is roomy enough for any refill. -/
theorem Roomy.noWrap (hroom : Roomy rate capacity)
    (hv : Valid rate.toInt capacity.toInt tb.exact) (hnow : tb.lastUpdate ≤ now)
    (hspan : now - tb.lastUpdate < 2 ^ 61) : NoWrap tb now := by
  intro hq
  have hqe : tb.nsPerToken.toInt = 10 ^ 9 / rate.toInt :=
    (nsPerToken_exact tb).symm.trans (nsPerToken_of_valid hv)
  have hrem : tb.nsRemainder.toInt < tb.nsPerToken.toInt := by
    have := hv.rem_lt
    rw [nsPerToken_exact] at this
    exact this hq
  have hrem₀ : 0 ≤ tb.nsRemainder.toInt := hv.rem_nonneg
  have htokens : tb.tokens.toInt ≤ capacity.toInt := hv.tokens_le
  have hle : tb.nsPerToken.toInt ≤ 10 ^ 9 := by
    rw [hqe]
    exact Int.ediv_le_self _ (by decide)
  refine ⟨by omega, ?_⟩
  rcases hroom with hfast | hroom
  · rw [Int.ediv_eq_zero_of_lt (by decide) hfast] at hqe
    omega
  · have hadd : (tb.nsRemainder.toInt + (now - tb.lastUpdate)).tdiv tb.nsPerToken.toInt ≤
        mostAdded rate := by
      rw [Int.tdiv_eq_ediv_of_nonneg (by omega), mostAdded, ← hqe]
      exact Int.ediv_le_ediv hq (by omega)
    omega

theorem serve_idle {c : Call} (h : c.reading tb.capacity = none) : c.serve tb = tb := by
  cases c with
  | allowN n now =>
    rw [Call.reading, ite_eq_left_iff] at h
    rw [Call.serve, WrappingLimiter.allowN, if_pos (by simpa using h)]
  | waitN n now =>
    simp only [Call.reading, ite_eq_left_iff, reduceCtorEq, imp_false, not_not] at h
    simp only [Call.serve, WrappingLimiter.waitN]
    split
    · rfl
    · rw [if_pos (by tauto)]

theorem serve_lastUpdate {c : Call} (h : c.reading tb.capacity = some now) :
    (c.serve tb).lastUpdate = (tb.refill now).lastUpdate := by
  cases c with
  | allowN n t =>
    simp only [Call.reading, Option.ite_none_left_eq_some, Option.some.injEq] at h
    rw [Call.serve, WrappingLimiter.allowN, if_neg h.1, h.2]
    simp only
    split <;> rfl
  | waitN n t =>
    simp only [Call.reading, Option.ite_none_left_eq_some, Option.some.injEq, not_or] at h
    rw [Call.serve, WrappingLimiter.waitN, if_neg h.1.1, if_neg h.1.2, h.2]
    simp only
    split <;> rfl

/-- One call of a run of a roomy limiter. -/
theorem serve_roomy {c : Call} {run : List Call} (hroom : Roomy rate capacity)
    (hv : Valid rate.toInt capacity.toInt tb.exact)
    (hrun : Spaced capacity tb.lastUpdate (c :: run)) :
    (c.serve tb).exact = (c.exact.serve tb.exact).1 ∧
      Spaced capacity (c.serve tb).lastUpdate run := by
  have hcap : tb.capacity = capacity := Int64.toInt_inj.mp hv.capacity_eq
  rw [Spaced, ← hcap] at hrun
  split at hrun
  · rename_i hreading
    refine ⟨serve_exact fun now h => ?_, ?_⟩
    · rw [hreading] at h
      cases h
    · rwa [serve_idle hreading, ← hcap]
  · rename_i now hreading
    obtain ⟨hle, hspan, hrest⟩ := hrun
    have hre : (tb.refill now).exact = tb.exact.refill now :=
      refill_exact hv hle (by omega) (hroom.noWrap hv hle hspan)
    constructor
    · refine serve_exact fun t h => ?_
      rw [hreading] at h
      cases h
      exact hre
    · have hclock := (refill_refilled hv now).lastUpdate_eq hle
      rw [← hre, WrappingLimiter.exact_lastUpdate] at hclock
      rwa [serve_lastUpdate hreading, hclock, ← hcap]

end Steps

/-! ## Whole runs -/

/-- A roomy limiter runs as the one over the integers. -/
theorem run_exact {rate capacity : Int64} (hroom : Roomy rate capacity) {tb : WrappingLimiter}
    (hv : Valid rate.toInt capacity.toInt tb.exact) {run : List Call}
    (hrun : Spaced capacity tb.lastUpdate run) :
    (after tb run).exact = Polling.after tb.exact (run.map Call.exact) := by
  induction run generalizing tb with
  | nil => rfl
  | cons c run ih =>
    obtain ⟨hserve, hrest⟩ := serve_roomy hroom hv hrun
    have hv' : Valid rate.toInt capacity.toInt (c.serve tb).exact := by
      rw [hserve]
      exact (serve_outcome _ _).valid hv
    rw [after, List.foldl_cons, ← after, ih hv' hrest, hserve]
    rfl

/-- Over the integers no remainder is kept when a token takes less than a nanosecond. -/
theorem rem_after {rate capacity : Int} {tb : TokenBucketLimiter} (hv : Valid rate capacity tb)
    (hq : second.toInt / rate ≤ 0) (hrem : tb.nsRemainder = 0) (run : List Attempt) :
    (Polling.after tb run).nsRemainder = 0 := by
  induction run generalizing tb with
  | nil => exact hrem
  | cons a run ih =>
    refine ih ((serve_outcome tb a).valid hv) ?_
    have hrefill : (tb.refill a.now).nsRemainder = 0 := by
      have hre := refill_refilled hv a.now
      generalize tb.refill a.now = u at hre
      cases hre with
      | early _ => exact hrem
      | full _ _ => rfl
      | counted _ _ h₀ hlt _ =>
        have hns : tb.nsPerToken = second.toInt / rate := nsPerToken_of_valid hv
        omega
    change (a.serve tb).1.nsRemainder = 0
    have hout := serve_outcome tb a
    generalize a.serve tb = r at hout
    cases hout with
    | idle _ => exact hrem
    | denied => exact hrefill
    | granted _ _ => exact hrefill

theorem sound_of_valid {rate capacity : Int64} {tb : WrappingLimiter}
    (hv : Valid rate.toInt capacity.toInt tb.exact)
    (hzero : second / rate = 0 → tb.nsRemainder.toInt = 0) : Sound rate capacity tb := by
  have hrate : tb.rate = rate := Int64.toInt_inj.mp hv.rate_eq
  have hlt := hv.rem_lt
  rw [nsPerToken_exact, WrappingLimiter.nsPerToken, hrate] at hlt
  refine ⟨Int64.le_iff_toInt_le.mpr hv.tokens_nonneg, Int64.le_iff_toInt_le.mpr hv.tokens_le,
    Int64.le_iff_toInt_le.mpr hv.rem_nonneg, fun hq => ?_, fun hq => Int64.toInt_inj.mp (hzero hq)⟩
  rw [Int64.lt_iff_toInt_lt] at hq ⊢
  exact hlt hq

theorem Roomy.keepsSound {rate capacity : Int64} (hroom : Roomy rate capacity)
    (hc : 0 ≤ capacity) : KeepsSound rate capacity := by
  intro created run hrun
  have hnew : Valid rate.toInt capacity.toInt (newTokenBucketLimiter rate capacity created).exact :=
    newTokenBucketLimiter_valid (Int64.le_iff_toInt_le.mp hc) created
  have hrun := run_exact hroom hnew hrun
  apply sound_of_valid
  · rw [hrun]
    exact after_valid hnew _
  · intro hq
    have hqe : second.toInt / rate.toInt ≤ 0 := by
      have := congrArg Int64.toInt hq
      rw [div_toInt (by decide), Int.tdiv_eq_ediv_of_nonneg (by decide)] at this
      exact this.le
    have := rem_after hnew hqe rfl (run.map Call.exact)
    rwa [← hrun] at this

/-! ## Capacities that leave no room -/

section Overflow
variable {rate capacity : Int64} {tb : WrappingLimiter} {d : Int}

/-- A refill whose sum wraps leaves a negative number of tokens, which no test catches. -/
theorem refill_wraps (hv : Valid rate.toInt capacity.toInt tb.exact)
    (hq : 0 < tb.nsPerToken.toInt) (hd : 0 < d) (htotal : tb.nsRemainder.toInt + d < 2 ^ 62)
    (hover : 2 ^ 63 ≤ tb.tokens.toInt + (tb.nsRemainder.toInt + d) / tb.nsPerToken.toInt) :
    (tb.refill (tb.lastUpdate + d)).tokens.toInt < 0 := by
  have hrem : 0 ≤ tb.nsRemainder.toInt := hv.rem_nonneg
  have htokens : tb.tokens.toInt < 2 ^ 63 := tb.tokens.toInt_lt
  have hcap : 0 ≤ tb.capacity.toInt := (hv.tokens_nonneg.trans hv.tokens_le).trans hv.capacity_eq.ge
  have helapsed : (sub (tb.lastUpdate + d) tb.lastUpdate).toInt = d := by
    rw [sub_toInt (by omega) (by omega)]
    omega
  have hadd : ((tb.nsRemainder + sub (tb.lastUpdate + d) tb.lastUpdate) / tb.nsPerToken).toInt =
      (tb.nsRemainder.toInt + d) / tb.nsPerToken.toInt := by
    have htot := add_toInt (a := tb.nsRemainder) (b := sub (tb.lastUpdate + d) tb.lastUpdate)
      (by omega) (by omega)
    rw [div_toInt (by omega), htot, helapsed, Int.tdiv_eq_ediv_of_nonneg (by omega)]
  have hle : (tb.nsRemainder.toInt + d) / tb.nsPerToken.toInt ≤ tb.nsRemainder.toInt + d :=
    Int.ediv_le_self _ (by omega)
  have hnew : (tb.tokens +
      (tb.nsRemainder + sub (tb.lastUpdate + d) tb.lastUpdate) / tb.nsPerToken).toInt =
      tb.tokens.toInt + (tb.nsRemainder.toInt + d) / tb.nsPerToken.toInt - 2 ^ 64 := by
    rw [add_toInt_wraps (by omega), hadd]
  simp only [WrappingLimiter.refill, gt_iff_lt, Int64.le_iff_toInt_le, Int64.lt_iff_toInt_lt,
    helapsed, Int64.toInt_zero, hadd, hnew]
  rw [if_neg (by omega), if_neg (by omega)]
  simp only
  rw [if_pos (by omega), if_neg (by omega), hnew]
  omega

/-- A full limiter that is left alone too long. -/
theorem idle_negative {t rem : Int} (hc : 0 ≤ capacity) (hrem₀ : 0 ≤ rem)
    (hrem : rem < (second / rate).toInt)
    (htb : tb.exact = ⟨capacity.toInt, rate.toInt, capacity.toInt, t, rem⟩)
    (hover : 2 ^ 63 ≤ capacity.toInt + (rem + (2 ^ 61 - 1)) / (second / rate).toInt) :
    ((Call.allowN 1 (t + (2 ^ 61 - 1))).serve tb).tokens < 0 := by
  obtain ⟨-, hrate, htokens, hlast, hremainder⟩ := (TokenBucketLimiter.mk.injEq ..).mp htb
  have hq : tb.nsPerToken.toInt = (second / rate).toInt := by
    rw [WrappingLimiter.nsPerToken, Int64.toInt_inj.mp hrate]
  have hv : Valid rate.toInt capacity.toInt tb.exact := by
    have hns := nsPerToken_exact tb
    rw [hq] at hns
    rw [htb] at hns ⊢
    exact ⟨rfl, rfl, Int64.le_iff_toInt_le.mp hc, le_rfl, hrem₀, fun _ => hns.symm ▸ hrem⟩
  have hle : (second / rate).toInt ≤ 10 ^ 9 := by
    rw [← hq, ← nsPerToken_exact, nsPerToken_of_valid hv]
    exact Int.ediv_le_self _ (by decide)
  have hneg : (tb.refill (tb.lastUpdate + (2 ^ 61 - 1))).tokens.toInt < 0 :=
    refill_wraps hv (by omega) (by decide) (by omega) (by rwa [htokens, hremainder, hq])
  rw [hlast] at hneg
  rw [Call.serve, WrappingLimiter.allowN, if_neg (by decide)]
  simp only [ge_iff_le, Int64.le_iff_toInt_le, Int64.toInt_one]
  rwa [if_neg (by omega), Int64.lt_iff_toInt_lt]

/-- The remainder of a new limiter a nanosecond before it would count a token. -/
theorem refill_almost (hq : 0 < (second / rate).toInt) (hc : 0 ≤ capacity) :
    ((newTokenBucketLimiter rate capacity 0).refill ((second / rate).toInt - 1)).exact =
      ⟨capacity.toInt, rate.toInt, capacity.toInt, (second / rate).toInt - 1,
        (second / rate).toInt - 1⟩ := by
  have hnew : Valid rate.toInt capacity.toInt (newTokenBucketLimiter rate capacity 0).exact :=
    newTokenBucketLimiter_valid (Int64.le_iff_toInt_le.mp hc) 0
  have hlt := (second / rate).toInt_lt
  have hdiv : ((second / rate).toInt - 1).tdiv (second / rate).toInt = 0 :=
    Int.tdiv_eq_zero_of_lt (by omega) (by omega)
  have hmod : ((second / rate).toInt - 1).tmod (second / rate).toInt =
      (second / rate).toInt - 1 := Int.tmod_eq_of_lt (by omega) (by omega)
  have hcap := capacity.toInt_lt
  rw [refill_exact hnew (by simp only [newTokenBucketLimiter]; omega)
    (by simp only [newTokenBucketLimiter]; omega)]
  · have hns : (newTokenBucketLimiter rate capacity 0).exact.nsPerToken = (second / rate).toInt :=
      nsPerToken_exact _
    simp only [TokenBucketLimiter.refill, hns]
    simp only [newTokenBucketLimiter, WrappingLimiter.exact, Int64.toInt_zero, sub_zero, zero_add,
      hdiv, hmod]
    split
    · congr <;> omega
    · rw [if_neg (by omega), if_neg (by omega)]
  · intro _
    simp only [newTokenBucketLimiter, WrappingLimiter.nsPerToken, Int64.toInt_zero, zero_add,
      sub_zero, hdiv]
    omega

theorem spaced_allowN {n : Int64} {t now : Int} {run : List Call} (hn : ¬ n ≤ 0) :
    Spaced capacity t (.allowN n now :: run) ↔
      t ≤ now ∧ now - t < 2 ^ 61 ∧ Spaced capacity now run := by
  rw [Spaced, Call.reading, if_neg hn]

theorem Sound.tokens_not_neg (h : Sound rate capacity tb) : ¬ tb.tokens < 0 :=
  Int64.not_lt.mpr h.tokens_nonneg

/-- With the capacity at the top of its type any refill overruns. -/
theorem overrun_top (hq : 0 < (second / rate).toInt) (hle : (second / rate).toInt ≤ 10 ^ 9)
    (htop : capacity.toInt = 2 ^ 63 - 1) : ¬ KeepsSound rate capacity := by
  intro h
  have hadd : 1 ≤ (0 + (2 ^ 61 - 1)) / (second / rate).toInt :=
    Int.le_ediv_of_mul_le hq (by omega)
  have hc : 0 ≤ capacity := Int64.le_iff_toInt_le.mpr (by rw [htop]; decide)
  have hneg : ((Call.allowN 1 (0 + (2 ^ 61 - 1))).serve
      (newTokenBucketLimiter rate capacity 0)).tokens < 0 :=
    idle_negative hc le_rfl hq rfl (by omega)
  have hsound := h 0 [.allowN 1 (0 + (2 ^ 61 - 1))]
    ((spaced_allowN (by decide)).mpr ⟨by decide, by decide, trivial⟩)
  rw [after, List.foldl_cons, List.foldl_nil] at hsound
  exact hsound.tokens_not_neg hneg

/-- Below the top a call for more than the capacity takes nothing and leaves the largest
remainder, with which the next refill adds the most. -/
theorem overrun_below (hq : 0 < (second / rate).toInt) (hle : (second / rate).toInt ≤ 10 ^ 9)
    (hc : 0 ≤ capacity) (hbelow : capacity.toInt < 2 ^ 63 - 1)
    (hover : 2 ^ 63 ≤ capacity.toInt +
      ((second / rate).toInt + 2 ^ 61 - 2) / (second / rate).toInt) :
    ¬ KeepsSound rate capacity := by
  intro h
  have halmost := refill_almost hq hc
  have hfirst : (Call.allowN Int64.maxValue ((second / rate).toInt - 1)).serve
      (newTokenBucketLimiter rate capacity 0) =
      (newTokenBucketLimiter rate capacity 0).refill ((second / rate).toInt - 1) := by
    have htokens := congrArg TokenBucketLimiter.tokens halmost
    rw [WrappingLimiter.exact_tokens] at htokens
    rw [Call.serve, WrappingLimiter.allowN, if_neg (by decide)]
    simp only [ge_iff_le, Int64.le_iff_toInt_le, htokens, Int64.toInt_maxValue]
    rw [if_neg (by omega)]
  have hmost : (second / rate).toInt - 1 + (2 ^ 61 - 1) = (second / rate).toInt + 2 ^ 61 - 2 := by
    omega
  have hneg := idle_negative hc (by omega) (by omega) halmost (by rwa [hmost])
  rw [← hfirst] at hneg
  have hsound := h 0 [.allowN Int64.maxValue ((second / rate).toInt - 1),
      .allowN 1 ((second / rate).toInt - 1 + (2 ^ 61 - 1))]
    ((spaced_allowN (by decide)).mpr ⟨by omega, by omega,
      (spaced_allowN (by decide)).mpr ⟨by omega, by omega, trivial⟩⟩)
  rw [after, List.foldl_cons, List.foldl_cons, List.foldl_nil] at hsound
  exact hsound.tokens_not_neg hneg

theorem KeepsSound.roomy (hr : 1 ≤ rate) (hc : 0 ≤ capacity) (h : KeepsSound rate capacity) :
    Roomy rate capacity := by
  by_contra hroom
  obtain ⟨hslow, hover⟩ := not_or.mp hroom
  have hr₁ : 1 ≤ rate.toInt := Int64.le_iff_toInt_le.mp hr
  have hqe : (second / rate).toInt = 10 ^ 9 / rate.toInt := by
    rw [div_toInt (by decide), Int.tdiv_eq_ediv_of_nonneg (by decide)]
    rfl
  have hone : 1 ≤ 10 ^ 9 / rate.toInt := Int.le_ediv_of_mul_le (by omega) (by omega)
  have hle : 10 ^ 9 / rate.toInt ≤ 10 ^ 9 := Int.ediv_le_self _ (by decide)
  have hcap := capacity.toInt_lt
  rw [mostAdded, ← hqe] at hover
  by_cases htop : capacity.toInt = 2 ^ 63 - 1
  · exact overrun_top (by omega) (by omega) htop h
  · exact overrun_below (by omega) (by omega) hc (by omega) (by omega) h

end Overflow

/-- The bounds hold in every run exactly if the capacity leaves room for one refill. -/
theorem sound_iff {rate capacity : Int64} (hr : 1 ≤ rate) (hc : 0 ≤ capacity) :
    KeepsSound rate capacity ↔ Roomy rate capacity :=
  ⟨fun h => h.roomy hr hc, fun h => h.keepsSound hc⟩

theorem sound_iff_thousand : Roomy 1000 5000 ∧ KeepsSound 1000 5000 := by
  have hroom : Roomy 1000 5000 := .inr (by decide)
  exact ⟨hroom, (sound_iff (by decide) (by decide)).mpr hroom⟩

/-- A second after its start, a limiter whose capacity means no limit counts one token more than
fits, and has the least number of tokens instead of the most. -/
theorem unlimited_negative :
    ¬ ∀ rate capacity : Int64, 1 ≤ rate → 0 ≤ capacity → KeepsSound rate capacity := by
  intro h
  have hsound := h 1 Int64.maxValue (by decide) (by decide) 0 [.allowN 1 1000000000]
    ((spaced_allowN (by decide)).mpr ⟨by decide, by decide, trivial⟩)
  exact hsound.tokens_not_neg (by decide)

end RpcInGo.RateLimit.Wrapping
