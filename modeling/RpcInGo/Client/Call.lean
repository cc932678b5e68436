import RpcInGo.Client.ErrorMap
import RpcInGo.Intercept.Retry

/-!
`Client.Call`: the interceptor chain around the attempts of one call.

* `unmapError_retryable`: every error that a response is turned into counts as
  retryable;
* `single_attempt_iff`: with retries, an application error ends the call after
  one attempt only if it is `Canceled` and the context is canceled before the
  second attempt.
-/

namespace RpcInGo.Client.Call
open Protocol.Message Intercept.Retry ErrorMap

variable {Value : Type}

/-- How much of the environment's answers a call has used. -/
structure World where
  attempts : Nat
  waits : Nat
  deriving DecidableEq, Repr

/-- What the environment answers during one call: how its attempts end, how its
waits between attempts end, and what the circuit breaker of a service makes of
an attempt. The timeout of the call shows only in these answers. -/
structure Env (Value : Type) where
  attempt : Nat → Request Value → Attempt Value
  wait : Nat → Int → Option CtxErr
  callResponse : String → (World → Reply Value × World) → World → Reply Value × World

/-- A `*protocol.Response` behind `any` is a pointer, possibly nil. -/
abbrev CallInterceptor (Value : Type) :=
  Interceptor (Request Value) (Option (Response Value)) World

/-! ## Options -/

/-- The options that `Call` depends on. -/
structure ClientOptions (Value : Type) where
  enableCircuitBreaker : Bool
  interceptors : List (CallInterceptor Value)
  maxRetries : Int
  retryInterval : Int

def defaultOptions : ClientOptions Value := ⟨true, [], 0, 0⟩

def withRetry (maxRetries retryInterval : Int) (o : ClientOptions Value) : ClientOptions Value :=
  { o with maxRetries := maxRetries, retryInterval := retryInterval }

/-- `client.Client`, as far as `Call` reads it. -/
structure RpcClient (Value : Type) where
  breakerOn : Bool
  interceptors : List (CallInterceptor Value)

section Calls
variable (env : Env Value)

def waitFor (interval : Int) (w : World) : Option CtxErr × World :=
  (env.wait w.waits interval, { w with waits := w.waits + 1 })

def buildInterceptors (o : ClientOptions Value) : List (CallInterceptor Value) :=
  (if o.maxRetries > 0 then [retry (waitFor env) o.maxRetries o.retryInterval] else []) ++
    o.interceptors

/-- A fixed-address client has no circuit breaker. -/
def newClient (o : ClientOptions Value) : RpcClient Value := ⟨false, buildInterceptors env o⟩

def newDiscoveryClient (o : ClientOptions Value) : RpcClient Value :=
  ⟨o.enableCircuitBreaker, buildInterceptors env o⟩

/-! ## Calls -/

def callOnce (req : Request Value) (w : World) : Reply Value × World :=
  ((env.attempt w.attempts req).reply, { w with attempts := w.attempts + 1 })

/-- The closure at the end of the chain. -/
def invoker (c : RpcClient Value) : Invoker (Request Value) (Option (Response Value)) World :=
  fun req w =>
    match if c.breakerOn then env.callResponse req.service (callOnce env req) w
      else callOnce env req w with
    | (reply, w) => ((some reply.resp, reply.err), w)

/-- The request of a call; `key` is the affinity key that the context carries. -/
def callRequest (key : Option String) (now : Int) (service method : String)
    (args : Option Value) : Request Value :=
  match key with
  | some k =>
    if k ≠ "" then (newRequest service method args now).setMetadata metaKeyHashKey k
    else newRequest service method args now
  | none => newRequest service method args now

/-- The end of `Call`: an error wins over a result. -/
def callResult : Outcome (Option (Response Value)) → Reply Value
  | (_, some err) => ⟨none, some err⟩
  | (none, none) => ⟨none, none⟩
  | (some resp, none) => ⟨resp, none⟩

def RpcClient.call (c : RpcClient Value) (key : Option String) (now : Int)
    (service method : String) (args : Option Value) (w : World) : Reply Value × World :=
  match intercept c.interceptors (callRequest key now service method args) (invoker env c) w with
  | (out, w) => (callResult out, w)

end Calls

/-- A client whose options end with `WithRetry(n, interval)` in force, that has
no circuit breaker and no other interceptor. -/
structure Retrying (env : Env Value) (n interval : Int) (c : RpcClient Value) : Prop where
  built : ∃ o : ClientOptions Value, o.interceptors = [] ∧
    (c = newClient env (withRetry n interval o) ∨
      c = newDiscoveryClient env (withRetry n interval o))
  no_breaker : c.breakerOn = false

section Errors
variable {env : Env Value} {n interval : Int} {c : RpcClient Value} {resp : Response Value}
  {err : Error}

/-- The codes that `Retry` is documented to retry. -/
def transient (code : Int32) : Bool :=
  code = errorCodeUnavailable || code = errorCodeDeadlineExceeded ||
    code = errorCodeResourceExhausted

theorem unmapError_retryable (h : resp.isError = true) : isRetryable (unmapError resp) = true := by
  have hs : resp.isSuccess = false := by
    rw [Response.isError_eq] at h
    simpa using h
  cases he : resp.error with
  | none => simp [Response.isError, he] at h
  | some err =>
    simp only [unmapError, hs, he, Bool.false_eq_true, ↓reduceIte]
    repeat' split
    all_goals rfl

/-- An application error looks like the error of a done context only for the
code `Canceled`. -/
theorem unmapError_eq_ctxErr (he : resp.error = some err) (hok : err.code ≠ errorCodeOK)
    (ht : transient err.code = false) (e : CtxErr) :
    unmapError resp = some e.toGoError ↔ err.code = errorCodeCanceled ∧ e = .canceled := by
  simp only [transient, Bool.or_eq_false_iff, decide_eq_false_iff_not] at ht
  obtain ⟨⟨hu, hd⟩, hr⟩ := ht
  have hs : resp.isSuccess = false := by simp [Response.isSuccess, he, hok]
  simp only [unmapError, hs, he, hu, hd, hr, Bool.false_eq_true, ↓reduceIte]
  by_cases hc : err.code = errorCodeCanceled
  · cases e <;> simp [hc, CtxErr.toGoError]
  · simp only [hc, ↓reduceIte, false_and, iff_false]
    repeat' split
    all_goals cases e <;> simp [CtxErr.toGoError]

theorem Retrying.interceptors_eq (h : Retrying env n interval c) (hn : 0 < n) :
    c.interceptors = [retry (waitFor env) n interval] := by
  obtain ⟨o, ho, rfl | rfl⟩ := h.built <;>
    simp [newClient, newDiscoveryClient, buildInterceptors, withRetry, ho, hn]

theorem Retrying.invoker_eq (h : Retrying env n interval c) (req : Request Value) (w : World) :
    invoker env c req w =
      ((some (env.attempt w.attempts req).reply.resp, (env.attempt w.attempts req).reply.err),
        { w with attempts := w.attempts + 1 }) := by
  simp [invoker, h.no_breaker, callOnce]

theorem Retrying.invoker_attempts (h : Retrying env n interval c) (req : Request Value)
    (w : World) : w.attempts + 1 ≤ (invoker env c req w).2.attempts := by
  simp [h.invoker_eq]

/-- After an error response to its first attempt, the call goes on to wait. -/
theorem Retrying.call_eq (h : Retrying env n interval c) (hn : 0 < n) {key : Option String}
    {now : Int} {service method : String} {args : Option Value}
    (hresp : env.attempt 0 (callRequest key now service method args) = .responded resp)
    (herr : resp.isError = true) :
    c.call env key now service method args ⟨0, 0⟩ =
      match retryLoop (waitFor env interval) (invoker env c)
        (callRequest key now service method args) n.toNat 1 (unmapError resp) ⟨1, 0⟩ with
      | (out, w) => (callResult out, w) := by
  have hretry := unmapError_retryable herr
  obtain ⟨e, he⟩ : ∃ e, unmapError resp = some e := by
    cases hu : unmapError resp with
    | none => simp [hu, isRetryable] at hretry
    | some e => exact ⟨e, rfl⟩
  rw [he] at hretry ⊢
  have hfirst : invoker env c (callRequest key now service method args) ⟨0, 0⟩ =
      ((some none, some e), ⟨1, 0⟩) := by
    rw [h.invoker_eq, hresp]
    simp [Attempt.reply, herr, he]
  have hrounds : (n + 1).toNat = n.toNat + 1 := by omega
  rw [RpcClient.call, h.interceptors_eq hn, intercept_cons]
  simp only [retry, hrounds, intercept_nil]
  rw [retryLoop_first hfirst hretry]

/-- With retries, a response with an application error ends the call after one
attempt and with its own error exactly if the code is `Canceled` and the
context is canceled before the second attempt. -/
theorem single_attempt_iff (h : Retrying env n interval c) (hn : 0 < n) {key : Option String}
    {now : Int} {service method : String} {args : Option Value}
    (hresp : env.attempt 0 (callRequest key now service method args) = .responded resp)
    (herr : resp.error = some err) (hok : err.code ≠ errorCodeOK)
    (ht : transient err.code = false) :
    ((c.call env key now service method args ⟨0, 0⟩).2.attempts = 1 ∧
      (c.call env key now service method args ⟨0, 0⟩).1 = (Attempt.responded resp).reply) ↔
    err.code = errorCodeCanceled ∧ env.wait 0 interval = some .canceled := by
  have hisErr : resp.isError = true := by simp [Response.isError, herr, hok]
  obtain ⟨left, hleft⟩ : ∃ left, n.toNat = left + 1 := ⟨n.toNat - 1, by omega⟩
  have hreply : (Attempt.responded resp).reply = ⟨none, unmapError resp⟩ := by
    simp [Attempt.reply, hisErr]
  rw [h.call_eq hn hresp hisErr, hleft, hreply]
  cases hw : env.wait 0 interval with
  | some e =>
    have hwait : waitBefore (waitFor env interval) 1 ⟨1, 0⟩ = (some e, ⟨1, 1⟩) := by
      simp [waitBefore, waitFor, hw]
    rw [retryLoop, hwait]
    simp only [callResult, Reply.mk.injEq, true_and, Option.some.injEq]
    rw [eq_comm, unmapError_eq_ctxErr herr hok ht]
  | none =>
    have hwait : waitBefore (waitFor env interval) 1 ⟨1, 0⟩ = (none, ⟨1, 1⟩) := by
      simp [waitBefore, waitFor, hw]
    have htwo : 2 ≤ (retryLoop (waitFor env interval) (invoker env c)
        (callRequest key now service method args) (left + 1) 1 (unmapError resp)
          ⟨1, 0⟩).2.attempts :=
      retryLoop_attempt (m := World.attempts) (fun _ => Nat.le_refl _) (h.invoker_attempts _) hwait
    constructor
    · rintro ⟨hone, -⟩
      dsimp only at hone
      omega
    · rintro ⟨-, hnone⟩
      cases hnone

end Errors

/-- A server that answers every attempt with the same error. -/
def errorEnv (err : Error) (wait : Option CtxErr) : Env Unit where
  attempt _ _ := .responded (newErrorResponse 1 err 0)
  wait _ _ := wait
  callResponse _ attempt w := attempt w

def retryingClient (env : Env Unit) : RpcClient Unit :=
  newClient env (withRetry 2 1000 defaultOptions)

theorem retryingClient_retrying (env : Env Unit) : Retrying env 2 1000 (retryingClient env) :=
  ⟨⟨defaultOptions, rfl, .inl rfl⟩, rfl⟩

def canceledError : Error := newError errorCodeCanceled "canceled"

theorem single_attempt_iff_canceled :
    let env := errorEnv canceledError (some .canceled)
    let out := (retryingClient env).call env none 0 "users" "Get" none ⟨0, 0⟩
    out.2.attempts = 1 ∧ out.1 = (Attempt.responded (newErrorResponse 1 canceledError 0)).reply :=
  (single_attempt_iff (retryingClient_retrying _) (by decide) rfl rfl (by decide) (by decide)).mpr
    ⟨rfl, rfl⟩

def notFoundError : Error := newError errorCodeNotFound "service not found"

/-- The client asks three times for a method that does not exist. -/
theorem application_error_retried :
    ¬ ∀ (env : Env Unit) (n interval : Int) (c : RpcClient Unit) (resp : Response Unit)
      (err : Error) (key : Option String) (now : Int) (service method : String)
      (args : Option Unit), Retrying env n interval c → 0 < n →
      env.attempt 0 (callRequest key now service method args) = .responded resp →
      resp.error = some err → err.code ≠ errorCodeOK → transient err.code = false →
      (c.call env key now service method args ⟨0, 0⟩).2.attempts = 1 ∧
      (c.call env key now service method args ⟨0, 0⟩).1 = (Attempt.responded resp).reply := by
  intro h
  have hbad := h (errorEnv notFoundError none) 2 1000 _ _ _ none 0 "users" "Get" none
    (retryingClient_retrying _) (by decide) rfl rfl (by decide) (by decide)
  have hthree : ((retryingClient (errorEnv notFoundError none)).call (errorEnv notFoundError none)
      none 0 "users" "Get" none ⟨0, 0⟩).2.attempts = 3 := by decide
  have hone := hbad.1
  omega

end RpcInGo.Client.Call
