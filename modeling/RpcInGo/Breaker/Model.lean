import RpcInGo.Breaker.Window
import RpcInGo.Intercept.Retry
import RpcInGo.Lib.Goroutine

/-!
`CircuitBreaker` of `pkg/circuitbreaker/breaker.go`, and any number of
concurrent `Call` executions on one breaker. `beforeCall` and `afterCall` hold
the mutex, so each is one step; `fn` runs between them. The counters are
natural numbers: `beforeCall` counts up only below `MaxRequests`, and
`onSuccess` only below `SuccessThreshold`, so that a `uint32` never wraps.

* `callStep_stepped`: what one step of a call can do;
* `fire_stepped`: what one step of the system can do.
-/

namespace RpcInGo.Breaker.Model
open Lib.Goroutine Protocol.Message Intercept.Retry Window

inductive State
  | closed
  | opened
  | halfOpen
  deriving DecidableEq, Repr

/-- `circuitbreaker.Config`. -/
structure BreakerConfig where
  maxRequests : Nat
  minRequests : Nat
  interval : Int
  timeout : Int
  failureThreshold : Rat
  successThreshold : Nat
  deriving DecidableEq, Repr

def second : Int := 1000000000

def defaultConfig : BreakerConfig := ⟨1, 5, 10 * second, 60 * second, 1 / 2, 2⟩

structure CircuitBreaker where
  state : State
  window : SlidingWindow
  openTime : Int
  halfOpenSuccesses : Nat
  halfOpenInFlight : Nat
  deriving DecidableEq, Repr

def bucketTime (cfg : BreakerConfig) : Int :=
  if cfg.interval.tdiv 10 ≤ 0 then second else cfg.interval.tdiv 10

/-- `New` on a non-nil config. -/
def newCircuitBreaker (cfg : BreakerConfig) (now : Int) : CircuitBreaker :=
  ⟨.closed, newSlidingWindow 10 (bucketTime cfg) now, 0, 0, 0⟩

def beforeCall (cfg : BreakerConfig) (cb : CircuitBreaker) (now : Int) :
    CircuitBreaker × Option GoError :=
  match cb.state with
  | .closed => (cb, none)
  | .opened =>
    if now - cb.openTime > cfg.timeout then
      ({ cb with state := .halfOpen, halfOpenSuccesses := 0, halfOpenInFlight := 0 }, none)
    else (cb, some (.sentinel .errCircuitOpen))
  | .halfOpen =>
    if cb.halfOpenInFlight ≥ cfg.maxRequests then (cb, some (.sentinel .errTooManyRequests))
    else ({ cb with halfOpenInFlight := cb.halfOpenInFlight + 1 }, none)

def onFailure (cfg : BreakerConfig) (cb : CircuitBreaker) (now : Int) : CircuitBreaker :=
  match cb.state with
  | .closed =>
    if cb.window.total < cfg.minRequests then cb
    else if cb.window.failureRate ≥ cfg.failureThreshold then
      { cb with state := .opened, openTime := now }
    else cb
  | .halfOpen => { cb with state := .opened, openTime := now }
  | .opened => cb

def onSuccess (cfg : BreakerConfig) (cb : CircuitBreaker) : CircuitBreaker :=
  match cb.state with
  | .halfOpen =>
    if cb.halfOpenSuccesses + 1 ≥ cfg.successThreshold then
      { cb with halfOpenSuccesses := cb.halfOpenSuccesses + 1, state := .closed,
                window := cb.window.reset }
    else { cb with halfOpenSuccesses := cb.halfOpenSuccesses + 1 }
  | .closed => cb
  | .opened => cb

/-- The slot that `afterCall` gives back before it records the outcome. -/
def giveBack (cb : CircuitBreaker) : CircuitBreaker :=
  if cb.state = .halfOpen ∧ cb.halfOpenInFlight > 0 then
    { cb with halfOpenInFlight := cb.halfOpenInFlight - 1 }
  else cb

/-- `afterCall` reads the clock when it records the outcome, and again if it
opens the breaker. -/
def afterCall (cfg : BreakerConfig) (cb : CircuitBreaker) (err : Option GoError)
    (recorded now : Int) : CircuitBreaker :=
  match err with
  | some _ =>
    onFailure cfg { giveBack cb with window := (giveBack cb).window.recordFailure recorded } now
  | none =>
    onSuccess cfg { giveBack cb with window := (giveBack cb).window.recordSuccess recorded }

section AfterCall
variable {cfg : BreakerConfig} {cb : CircuitBreaker} {err : Option GoError} {recorded now : Int}

@[simp] theorem giveBack_state : (giveBack cb).state = cb.state := by
  unfold giveBack
  split <;> rfl

theorem giveBack_inFlight : (giveBack cb).halfOpenInFlight =
    if cb.state = .halfOpen then cb.halfOpenInFlight - 1 else cb.halfOpenInFlight := by
  unfold giveBack
  split
  · rename_i h
    simp [h.1]
  · rename_i h
    split
    · rename_i hs
      have hzero : ¬ cb.halfOpenInFlight > 0 := fun hpos => h ⟨hs, hpos⟩
      omega
    · rfl

theorem giveBack_rest : (giveBack cb).halfOpenSuccesses = cb.halfOpenSuccesses ∧
    (giveBack cb).openTime = cb.openTime ∧ (giveBack cb).window = cb.window := by
  unfold giveBack
  split <;> exact ⟨rfl, rfl, rfl⟩

/-- Whatever the outcome, a call that finishes gives back one slot. -/
theorem afterCall_inFlight : (afterCall cfg cb err recorded now).halfOpenInFlight =
    if cb.state = .halfOpen then cb.halfOpenInFlight - 1 else cb.halfOpenInFlight := by
  rw [← giveBack_inFlight]
  cases err with
  | some _ =>
    simp only [afterCall, onFailure]
    repeat' split
    all_goals rfl
  | none =>
    simp only [afterCall, onSuccess]
    repeat' split
    all_goals rfl

/-- An open breaker only records the outcomes of late calls. -/
theorem afterCall_opened (h : cb.state = .opened) :
    (afterCall cfg cb err recorded now).state = .opened ∧
    (afterCall cfg cb err recorded now).openTime = cb.openTime := by
  have hopen := (@giveBack_rest cb).2.1
  cases err <;> simp [afterCall, onFailure, onSuccess, h, hopen]

theorem afterCall_closed (h : cb.state = .closed) :
    (afterCall cfg cb err recorded now).state = .closed ∨
    (afterCall cfg cb err recorded now).state = .opened ∧
      (afterCall cfg cb err recorded now).openTime = now := by
  cases err with
  | some _ =>
    simp only [afterCall, onFailure, giveBack_state, h]
    repeat' split
    · exact .inl rfl
    · exact .inr ⟨rfl, rfl⟩
    · exact .inl rfl
  | none => exact .inl (by simp [afterCall, onSuccess, h])

theorem afterCall_halfOpen_failure (h : cb.state = .halfOpen) (e : GoError) :
    (afterCall cfg cb (some e) recorded now).state = .opened ∧
    (afterCall cfg cb (some e) recorded now).openTime = now := by
  simp [afterCall, onFailure, h]

theorem afterCall_halfOpen_success (h : cb.state = .halfOpen) :
    (afterCall cfg cb none recorded now).halfOpenSuccesses = cb.halfOpenSuccesses + 1 ∧
    (afterCall cfg cb none recorded now).state =
      if cb.halfOpenSuccesses + 1 ≥ cfg.successThreshold then .closed else .halfOpen := by
  have hsucc := (@giveBack_rest cb).1
  simp only [afterCall, onSuccess, giveBack_state, h, hsucc]
  split <;> simp

/-- Only `beforeCall` starts a half-open period. -/
theorem halfOpen_of_afterCall (hhalf : (afterCall cfg cb err recorded now).state = .halfOpen) :
    cb.state = .halfOpen := by
  cases hstate : cb.state with
  | halfOpen => rfl
  | opened => exact absurd ((afterCall_opened hstate).1.symm.trans hhalf) nofun
  | closed =>
    rcases afterCall_closed hstate with hc | ⟨ho, -⟩
    · exact absurd (hc.symm.trans hhalf) nofun
    · exact absurd (ho.symm.trans hhalf) nofun

end AfterCall

/-! ## Concurrent calls -/

/-- How a call was admitted, as bookkeeping of the model: the state in which
`beforeCall` found the breaker, and the number of half-open periods begun until
then, the one it may have begun itself included. -/
structure Admission where
  state : State
  period : Nat
  deriving DecidableEq, Repr

/-- The breaker and bookkeeping of the model: the last clock reading, the number
of half-open periods begun, whether a call of the current one has finished at
`halfOpenInFlight = 0`, and how many calls counted in it have panicked. -/
structure Shared where
  cb : CircuitBreaker
  clock : Int
  period : Nat
  settled : Bool
  leaked : Nat
  deriving DecidableEq, Repr

inductive Pc (A : Type)
  | called
  | running (a : Admission)
  | returned (out : Outcome A)
  deriving DecidableEq, Repr

/-- `panic` is a panic of `fn` that the `Recovery` interceptor around the
breaker's one turns into an error. -/
inductive Ev (A : Type)
  | before (now : Int)
  | finish (out : Outcome A) (recorded now : Int)
  | panic (value stack : String)
  deriving DecidableEq, Repr

variable {A : Type}

def recovered (value stack : String) : GoError :=
  .errorf "panic recovered: %v\nstack:\n%s" [.str value, .str stack]

/-- The shared state after `beforeCall` has let a call in. -/
def Shared.letIn (g : Shared) (cb : CircuitBreaker) (now : Int) : Shared :=
  if g.cb.state = .opened then ⟨cb, now, g.period + 1, false, 0⟩
  else { g with cb := cb, clock := now }

/-- The call is counted in the half-open period that is going on. -/
def Shared.counts (g : Shared) (a : Admission) : Bool :=
  g.cb.state = .halfOpen && a.state = .halfOpen && a.period = g.period

def callStep (cfg : BreakerConfig) (g : Shared) : Pc A → Ev A → Option (Shared × Pc A)
  | .called, .before now =>
    if now < g.clock then none
    else
      match beforeCall cfg g.cb now with
      | (cb, some err) => some ({ g with cb := cb, clock := now }, .returned (none, some err))
      | (cb, none) => some (g.letIn cb now, .running ⟨g.cb.state, (g.letIn cb now).period⟩)
  | .running a, .finish out recorded now =>
    if recorded < g.clock ∨ now < recorded then none
    else
      some ({ g with
        cb := afterCall cfg g.cb out.2 recorded now
        clock := now
        settled := g.settled || (g.cb.state = .halfOpen && a.period = g.period &&
          g.cb.halfOpenInFlight = 0) }, .returned out)
  -- nothing of `Call` after `fn` runs
  | .running a, .panic value stack =>
    some ({ g with leaked := if g.counts a then g.leaked + 1 else g.leaked },
      .returned (none, some (recovered value stack)))
  | _, _ => none

def calls (cfg : BreakerConfig) : Program Shared (Pc A) (Ev A) where
  step g pc e := (callStep cfg g pc e).map fun r => (r.1, r.2, [])

/-- A new breaker, and `n` calls to come. -/
def start (cfg : BreakerConfig) (now : Int) (n : Nat) : Config Shared (Pc A) :=
  ⟨⟨newCircuitBreaker cfg now, now, 0, false, 0⟩, List.replicate n .called⟩

/-! ## What a step can do -/

/-- The breaker at the start of a half-open period. -/
def CircuitBreaker.probing (cb : CircuitBreaker) : CircuitBreaker :=
  { cb with state := .halfOpen, halfOpenSuccesses := 0, halfOpenInFlight := 0 }

/-- Why `beforeCall` turns a call away. -/
inductive Rejects (cfg : BreakerConfig) (cb : CircuitBreaker) (now : Int) : GoError → Prop
  | circuitOpen : cb.state = .opened → now ≤ cb.openTime + cfg.timeout →
      Rejects cfg cb now (.sentinel .errCircuitOpen)
  | tooManyRequests : cb.state = .halfOpen → cfg.maxRequests ≤ cb.halfOpenInFlight →
      Rejects cfg cb now (.sentinel .errTooManyRequests)

inductive Stepped (cfg : BreakerConfig) (g : Shared) : Pc A → Ev A → Shared → Pc A → Prop
  | rejected {now : Int} {err : GoError} : g.clock ≤ now → Rejects cfg g.cb now err →
      Stepped cfg g .called (.before now) { g with clock := now } (.returned (none, some err))
  | closed {now : Int} : g.clock ≤ now → g.cb.state = .closed →
      Stepped cfg g .called (.before now) { g with clock := now } (.running ⟨.closed, g.period⟩)
  | opener {now : Int} : g.clock ≤ now → g.cb.state = .opened →
      g.cb.openTime + cfg.timeout < now →
      Stepped cfg g .called (.before now) ⟨g.cb.probing, now, g.period + 1, false, 0⟩
        (.running ⟨.opened, g.period + 1⟩)
  | counted {now : Int} : g.clock ≤ now → g.cb.state = .halfOpen →
      g.cb.halfOpenInFlight < cfg.maxRequests →
      Stepped cfg g .called (.before now)
        { g with cb := { g.cb with halfOpenInFlight := g.cb.halfOpenInFlight + 1 }, clock := now }
        (.running ⟨.halfOpen, g.period⟩)
  | finished {a : Admission} {out : Outcome A} {recorded now : Int} : g.clock ≤ recorded →
      recorded ≤ now →
      Stepped cfg g (.running a) (.finish out recorded now)
        { g with
          cb := afterCall cfg g.cb out.2 recorded now
          clock := now
          settled := g.settled || (g.cb.state = .halfOpen && a.period = g.period &&
            g.cb.halfOpenInFlight = 0) }
        (.returned out)
  | panicked {a : Admission} {value stack : String} :
      Stepped cfg g (.running a) (.panic value stack)
        { g with leaked := if g.counts a then g.leaked + 1 else g.leaked }
        (.returned (none, some (recovered value stack)))

theorem callStep_stepped {cfg : BreakerConfig} {g g' : Shared} {pc pc' : Pc A} {e : Ev A}
    (h : callStep cfg g pc e = some (g', pc')) : Stepped cfg g pc e g' pc' := by
  revert h
  fun_cases callStep cfg g pc e <;> intro h <;> cases h
  case case2 now hclock cb err hb =>
    have hclock := Int.not_lt.mp hclock
    unfold beforeCall at hb
    split at hb
    · cases hb
    · rename_i hs
      split at hb <;> cases hb
      exact .rejected hclock (.circuitOpen hs (by omega))
    · rename_i hs
      split at hb <;> cases hb
      exact .rejected hclock (.tooManyRequests hs (by omega))
  case case3 now hclock cb hb =>
    have hclock := Int.not_lt.mp hclock
    unfold beforeCall at hb
    split at hb
    · rename_i hs
      cases hb
      simpa [Shared.letIn, hs] using Stepped.closed hclock hs
    · rename_i hs
      split at hb <;> cases hb
      simpa [Shared.letIn, hs, CircuitBreaker.probing] using Stepped.opener hclock hs (by omega)
    · rename_i hs
      split at hb <;> cases hb
      simpa [Shared.letIn, hs] using Stepped.counted hclock hs (by omega)
  case case5 a out recorded now hclock =>
    obtain ⟨h₁, h₂⟩ := not_or.mp hclock
    exact .finished (Int.not_lt.mp h₁) (Int.not_lt.mp h₂)
  case case6 a value stack => exact .panicked

theorem fire_stepped {cfg : BreakerConfig} {s t : Config Shared (Pc A)} {i : Nat} {e : Ev A}
    (h : (calls cfg).fire s i e = some t) :
    ∃ pc pc', s.threads[i]? = some pc ∧ Stepped cfg s.shared pc e t.shared pc' ∧
      t.threads = s.threads.set i pc' := by
  obtain ⟨pc, g, pc', hi, hstep, rfl⟩ := fire_alone (fun _ _ _ => rfl) h
  exact ⟨pc, pc', hi, callStep_stepped hstep, rfl⟩

end RpcInGo.Breaker.Model
