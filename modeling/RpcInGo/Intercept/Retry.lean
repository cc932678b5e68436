import RpcInGo.Protocol.Message

/-!
The interceptor chain and the `Retry` interceptor. Invokers and interceptors
pass on a world `W` that records what the environment has been asked; the
context is not a value here but shows in what the environment answers.

* `intercept_cons`: the first interceptor of a chain is the outermost;
* `retryLoop_mono`: what no wait and no attempt ever decreases, `Retry` does
  not decrease.
-/

namespace RpcInGo.Intercept.Retry
open Protocol.Message

variable {Req A W : Type}

/-- What an invoker returns; `none` is nil for the result and for the error. -/
abbrev Outcome (A : Type) := Option A × Option GoError

abbrev Invoker (Req A W : Type) := Req → W → Outcome A × W

abbrev Interceptor (Req A W : Type) := Req → Invoker Req A W → W → Outcome A × W

/-! ## Chains -/

def buildChain (interceptors : List (Interceptor Req A W)) (invoker : Invoker Req A W) :
    Invoker Req A W :=
  interceptors.foldr (fun interceptor next req => interceptor req next) invoker

/-- `Chain.Intercept`. -/
def intercept (interceptors : List (Interceptor Req A W)) (req : Req) (invoker : Invoker Req A W) :
    W → Outcome A × W :=
  if interceptors.length = 0 then invoker req else buildChain interceptors invoker req

theorem intercept_nil (req : Req) (invoker : Invoker Req A W) :
    intercept [] req invoker = invoker req := rfl

theorem intercept_cons (ic : Interceptor Req A W) (ics : List (Interceptor Req A W)) (req : Req)
    (invoker : Invoker Req A W) :
    intercept (ic :: ics) req invoker = ic req fun req => intercept ics req invoker := by
  cases ics <;> rfl

/-! ## Retry -/

/-- An error that is not a `*protocol.Error` counts as a network error. -/
def isRetryable : Option GoError → Bool
  | none => false
  | some (.protocol e) =>
    e.code = errorCodeUnavailable || e.code = errorCodeDeadlineExceeded ||
      e.code = errorCodeResourceExhausted
  | some _ => true

/-- The `select` before an attempt: `some` is the error of the context if its
`Done` channel was taken, `none` that the interval has passed. The first
attempt does not wait. -/
def waitBefore (wait : W → Option CtxErr × W) (attempt : Nat) (w : W) : Option CtxErr × W :=
  if attempt > 0 then wait w else (none, w)

/-- The `for` loop of `Retry`, `left` rounds before its condition fails. -/
def retryLoop (wait : W → Option CtxErr × W) (invoker : Invoker Req A W) (req : Req) :
    Nat → Nat → Option GoError → W → Outcome A × W
  | 0, _, lastErr, w => ((none, lastErr), w)
  | left + 1, attempt, _, w =>
    match waitBefore wait attempt w with
    | (some e, w) => ((none, some e.toGoError), w)
    | (none, w) =>
      match invoker req w with
      | ((result, none), w) => ((result, none), w)
      | ((_, some err), w) =>
        if isRetryable (some err) then retryLoop wait invoker req left (attempt + 1) (some err) w
        else ((none, some err), w)

/-- `Retry`; `wait` is the `select` on the context and on a timer. -/
def retry (wait : Int → W → Option CtxErr × W) (maxRetries interval : Int) :
    Interceptor Req A W := fun req invoker w =>
  -- attempt runs from 0 while attempt <= maxRetries
  retryLoop (wait interval) invoker req (maxRetries + 1).toNat 0 none w

section Mono
variable {wait : W → Option CtxErr × W} {invoker : Invoker Req A W} {req : Req} {m : W → Nat}

theorem waitBefore_mono (hwait : ∀ w, m w ≤ m (wait w).2) (attempt : Nat) (w : W) :
    m w ≤ m (waitBefore wait attempt w).2 := by
  unfold waitBefore
  split
  · exact hwait w
  · exact Nat.le_refl _

/-- A wait that lets the attempt begin, and the attempt. -/
theorem round_mono (hwait : ∀ w, m w ≤ m (wait w).2) (hinv : ∀ w, m w ≤ m (invoker req w).2)
    {attempt : Nat} {w w₁ w₂ : W} {out : Outcome A} (hw : waitBefore wait attempt w = (none, w₁))
    (hi : invoker req w₁ = (out, w₂)) : m w ≤ m w₂ := by
  have h₁ := waitBefore_mono hwait attempt w
  have h₂ := hinv w₁
  rw [hw] at h₁
  rw [hi] at h₂
  exact Nat.le_trans h₁ h₂

theorem retryLoop_mono (hwait : ∀ w, m w ≤ m (wait w).2) (hinv : ∀ w, m w ≤ m (invoker req w).2)
    (left attempt : Nat) (lastErr : Option GoError) (w : W) :
    m w ≤ m (retryLoop wait invoker req left attempt lastErr w).2 := by
  fun_induction retryLoop wait invoker req left attempt lastErr w with
  | case1 => exact Nat.le_refl _
  | case2 left attempt _ w e w₁ hw =>
    have h₁ := waitBefore_mono hwait attempt w
    rwa [hw] at h₁
  | case3 left attempt _ w w₁ hw result w₂ hi => exact round_mono hwait hinv hw hi
  | case4 left attempt _ w w₁ hw result err w₂ hi hr ih =>
    exact Nat.le_trans (round_mono hwait hinv hw hi) ih
  | case5 left attempt _ w w₁ hw result err w₂ hi hr => exact round_mono hwait hinv hw hi

/-- A round whose wait ends by the interval makes an attempt. -/
theorem retryLoop_attempt (hwait : ∀ w, m w ≤ m (wait w).2)
    (hinv : ∀ w, m w + 1 ≤ m (invoker req w).2) {left attempt : Nat} {lastErr : Option GoError}
    {w w₁ : W} (hw : waitBefore wait attempt w = (none, w₁)) :
    m w₁ + 1 ≤ m (retryLoop wait invoker req (left + 1) attempt lastErr w).2 := by
  have hstep := hinv w₁
  have hrest := fun err w => retryLoop_mono hwait (fun w => Nat.le_of_succ_le (hinv w)) left
    (attempt + 1) (some err) w
  rw [retryLoop, hw]
  rcases hi : invoker req w₁ with ⟨⟨result, _ | err⟩, w₂⟩ <;> simp only [hi] at hstep ⊢
  · exact hstep
  · split
    · exact Nat.le_trans hstep (hrest err w₂)
    · exact hstep

/-- A first attempt that fails with a retryable error is followed by a wait. -/
theorem retryLoop_first {left : Nat} {w w₁ : W} {result : Option A} {err : GoError}
    (hi : invoker req w = ((result, some err), w₁)) (hr : isRetryable (some err) = true) :
    retryLoop wait invoker req (left + 1) 0 none w =
      retryLoop wait invoker req left 1 (some err) w₁ := by
  rw [retryLoop]
  simp [waitBefore, hi, hr]

end Mono

end RpcInGo.Intercept.Retry
