import RpcInGo.Breaker.Model

/-!
One `Call` after the other, against the textbook automaton of a breaker: three
states, a window of recent outcomes, no counter of calls in flight.

* `call_refines`: one call, against one step of the automaton;
* `history_textbook`: the same over histories of any length.
-/

namespace RpcInGo.Breaker.Sequential
open Lib.Goroutine Protocol.Message Intercept.Retry Window Model

variable {A : Type}

/-! ## The code -/

/-- One execution of `Call`: the clock readings and what `fn` returns if it
runs. -/
structure Execution (A : Type) where
  before : Int
  out : Outcome A
  recorded : Int
  now : Int
  deriving DecidableEq, Repr

def call (cfg : BreakerConfig) (cb : CircuitBreaker) (x : Execution A) :
    CircuitBreaker × Outcome A :=
  match beforeCall cfg cb x.before with
  | (cb, some err) => (cb, (none, some err))
  | (cb, none) => (afterCall cfg cb x.out.2 x.recorded x.now, x.out)

/-- `fn` runs. -/
def runs (cfg : BreakerConfig) (cb : CircuitBreaker) (now : Int) : Bool :=
  (beforeCall cfg cb now).2.isNone

/-- The breaker after a history, and what the calls returned. -/
def history (cfg : BreakerConfig) (cb : CircuitBreaker) :
    List (Execution A) → CircuitBreaker × List (Outcome A)
  | [] => (cb, [])
  | x :: xs =>
    ((history cfg (call cfg cb x).1 xs).1,
      (call cfg cb x).2 :: (history cfg (call cfg cb x).1 xs).2)

/-! ## The automaton -/

inductive Automaton
  | closed (w : SlidingWindow)
  | opened (w : SlidingWindow) (since : Int)
  | halfOpen (w : SlidingWindow) (successes : Nat)
  deriving DecidableEq, Repr

/-- The window holds enough requests, and enough of them have failed. -/
def Trips (cfg : BreakerConfig) (w : SlidingWindow) : Prop :=
  0 < w.stats.total ∧ cfg.minRequests ≤ w.stats.total ∧
    cfg.failureThreshold ≤ (w.stats.failure + w.stats.timeout : Rat) / w.stats.total

instance (cfg : BreakerConfig) (w : SlidingWindow) : Decidable (Trips cfg w) :=
  inferInstanceAs (Decidable (_ ∧ _ ∧ _))

namespace Automaton

/-- `fn` has run. -/
def observe (cfg : BreakerConfig) (x : Execution A) : Automaton → Automaton
  | closed w =>
    match x.out.2 with
    | none => closed (w.recordSuccess x.recorded)
    | some _ =>
      if Trips cfg (w.recordFailure x.recorded) then opened (w.recordFailure x.recorded) x.now
      else closed (w.recordFailure x.recorded)
  | halfOpen w k =>
    match x.out.2 with
    | none =>
      if k + 1 = max 1 cfg.successThreshold then closed (w.recordSuccess x.recorded).reset
      else halfOpen (w.recordSuccess x.recorded) (k + 1)
    | some _ => opened (w.recordFailure x.recorded) x.now
  | opened w since => opened w since

/-- A call is turned away until the timeout has passed. -/
def rejects (cfg : BreakerConfig) (now : Int) : Automaton → Bool
  | opened _ since => now - since ≤ cfg.timeout
  | _ => false

/-- `fn` is about to run. -/
def entered : Automaton → Automaton
  | opened w _ => halfOpen w 0
  | q => q

def call (cfg : BreakerConfig) (q : Automaton) (x : Execution A) : Automaton × Outcome A :=
  if q.rejects cfg x.before then (q, (none, some (.sentinel .errCircuitOpen)))
  else (q.entered.observe cfg x, x.out)

def history (cfg : BreakerConfig) (q : Automaton) :
    List (Execution A) → Automaton × List (Outcome A)
  | [] => (q, [])
  | x :: xs =>
    ((history cfg (q.call cfg x).1 xs).1, (q.call cfg x).2 :: (history cfg (q.call cfg x).1 xs).2)

end Automaton

def abs (cb : CircuitBreaker) : Automaton :=
  match cb.state with
  | .closed => .closed cb.window
  | .opened => .opened cb.window cb.openTime
  | .halfOpen => .halfOpen cb.window cb.halfOpenSuccesses

/-! ## Refinement -/

/-- What holds of a breaker between two calls. -/
structure Quiet (cfg : BreakerConfig) (cb : CircuitBreaker) : Prop where
  window : cb.window.Valid
  inFlight : cb.halfOpenInFlight = 0
  successes : cb.state = .halfOpen → cb.halfOpenSuccesses < max 1 cfg.successThreshold

theorem quiet_new (cfg : BreakerConfig) (now : Int) : Quiet cfg (newCircuitBreaker cfg now) :=
  ⟨newSlidingWindow_valid (by decide) _ _, rfl, nofun⟩

theorem trips_iff {cfg : BreakerConfig} {w : SlidingWindow} (hpos : 0 < w.total) :
    Trips cfg w ↔ ¬ w.total < cfg.minRequests ∧ w.failureRate ≥ cfg.failureThreshold := by
  have hne : w.stats.total ≠ 0 := Nat.pos_iff_ne_zero.mp hpos
  rw [SlidingWindow.failureRate, if_neg hne, Nat.not_lt]
  constructor
  · rintro ⟨-, hmin, hrate⟩
    exact ⟨hmin, hrate⟩
  · rintro ⟨hmin, hrate⟩
    exact ⟨hpos, hmin, hrate⟩

section Outcomes
variable {cfg : BreakerConfig} {cb : CircuitBreaker} {err : Option GoError} {recorded now : Int}

theorem giveBack_window : (giveBack cb).window = cb.window := (@giveBack_rest cb).2.2

theorem afterCall_window_valid (h : cb.window.Valid) :
    (afterCall cfg cb err recorded now).window.Valid := by
  cases err with
  | some _ =>
    simp only [afterCall, onFailure, giveBack_window]
    repeat' split
    all_goals exact record_valid h _ _
  | none =>
    simp only [afterCall, onSuccess, giveBack_window]
    repeat' split
    · exact clear_valid (record_valid h _ _)
    all_goals exact record_valid h _ _

/-- The outcome of a call that has run is observed as the automaton does. -/
theorem afterCall_observe {x : Execution A} (hw : cb.window.Valid) (hs : cb.state ≠ .opened)
    (hk : cb.state = .halfOpen → cb.halfOpenSuccesses < max 1 cfg.successThreshold) :
    abs (afterCall cfg cb x.out.2 x.recorded x.now) = (abs cb).observe cfg x := by
  cases hstate : cb.state with
  | opened => exact absurd hstate hs
  | closed =>
    cases hout : x.out.2 with
    | none => simp [afterCall, onSuccess, abs, Automaton.observe, hstate, hout, giveBack_window]
    | some err =>
      have hpos : 0 < (cb.window.recordFailure x.recorded).total :=
        record_total_pos hw (fun _ => Nat.succ_pos _) _
      simp only [afterCall, onFailure, abs, Automaton.observe, giveBack_state, hstate, hout,
        giveBack_window]
      by_cases htrips : Trips cfg (cb.window.recordFailure x.recorded)
      · obtain ⟨hmin, hrate⟩ := (trips_iff hpos).mp htrips
        simp [htrips, hmin, hrate]
      · have hneg := (trips_iff hpos).not.mp htrips
        by_cases hmin : (cb.window.recordFailure x.recorded).total < cfg.minRequests
        · simp [htrips, hmin]
        · have hrate : ¬ (cb.window.recordFailure x.recorded).failureRate ≥ cfg.failureThreshold :=
            fun hrate => hneg ⟨hmin, hrate⟩
          simp [htrips, hmin, hrate]
  | halfOpen =>
    have hlt := hk hstate
    cases hout : x.out.2 with
    | some err => simp [afterCall, onFailure, abs, Automaton.observe, hstate, hout, giveBack_window]
    | none =>
      have hsucc := (@giveBack_rest cb).1
      simp only [afterCall, onSuccess, abs, Automaton.observe, giveBack_state, hstate, hout,
        giveBack_window, hsucc]
      by_cases hlast : cb.halfOpenSuccesses + 1 = max 1 cfg.successThreshold
      · simp [hlast]
      · have hge : ¬ cb.halfOpenSuccesses + 1 ≥ cfg.successThreshold := by omega
        simp [hlast, hge]

theorem afterCall_quiet (hw : cb.window.Valid)
    (hone : cb.halfOpenInFlight ≤ 1) (hzero : cb.state ≠ .halfOpen → cb.halfOpenInFlight = 0) :
    Quiet cfg (afterCall cfg cb err recorded now) := by
  refine ⟨afterCall_window_valid hw, ?_, ?_⟩
  · rw [afterCall_inFlight]
    split
    · omega
    · rename_i hs
      exact hzero hs
  · intro hafter
    have hs := halfOpen_of_afterCall hafter
    cases err with
    | some err => exact absurd ((afterCall_halfOpen_failure hs err).1.symm.trans hafter) nofun
    | none =>
      obtain ⟨hsucc, hstate⟩ := @afterCall_halfOpen_success cfg cb recorded now hs
      rw [hstate] at hafter
      split at hafter
      · cases hafter
      · rw [hsucc]
        omega

end Outcomes

/-- The breaker, quiet before, while `fn` runs. -/
def entered (cb : CircuitBreaker) : CircuitBreaker :=
  match cb.state with
  | .closed => cb
  | .opened => cb.probing
  | .halfOpen => { cb with halfOpenInFlight := 1 }

theorem abs_entered (cb : CircuitBreaker) : abs (entered cb) = (abs cb).entered := by
  unfold entered
  cases hs : cb.state with
  | closed => simp [abs, hs, Automaton.entered]
  | opened => simp [abs, hs, Automaton.entered, CircuitBreaker.probing]
  | halfOpen => simp [abs, hs, Automaton.entered]

section Call
variable {cfg : BreakerConfig} {cb : CircuitBreaker} (hmax : 1 ≤ cfg.maxRequests)
  (h : Quiet cfg cb)
include h

theorem entered_ready : (entered cb).window.Valid ∧ (entered cb).state ≠ .opened ∧
    ((entered cb).state = .halfOpen →
      (entered cb).halfOpenSuccesses < max 1 cfg.successThreshold) ∧
    (entered cb).halfOpenInFlight ≤ 1 ∧
    ((entered cb).state ≠ .halfOpen → (entered cb).halfOpenInFlight = 0) := by
  obtain ⟨hw, hzero, hk⟩ := h
  unfold entered
  cases hs : cb.state with
  | closed => exact ⟨hw, by simp [hs], hk, hzero.trans_le (Nat.zero_le _), fun _ => hzero⟩
  | opened =>
    refine ⟨hw, nofun, fun _ => ?_, Nat.zero_le _, fun _ => rfl⟩
    show 0 < max 1 cfg.successThreshold
    omega
  | halfOpen => exact ⟨hw, nofun, fun _ => hk hs, le_refl _, fun hne => absurd rfl hne⟩

include hmax

/-- `beforeCall` on a quiet breaker rejects as the automaton does. -/
theorem beforeCall_quiet (now : Int) : beforeCall cfg cb now =
    if (abs cb).rejects cfg now then (cb, some (.sentinel .errCircuitOpen))
    else (entered cb, none) := by
  have hfree : ¬ 0 ≥ cfg.maxRequests := by omega
  unfold beforeCall entered abs
  cases hs : cb.state with
  | closed => rfl
  | opened =>
    by_cases hlate : now - cb.openTime > cfg.timeout
    · simp [Automaton.rejects, hlate, Int.not_le.mpr hlate, CircuitBreaker.probing]
    · simp [Automaton.rejects, hlate, Int.not_lt.mp hlate]
  | halfOpen => simp [Automaton.rejects, h.inFlight, hfree]

theorem call_refines (x : Execution A) : Quiet cfg (call cfg cb x).1 ∧
    (abs (call cfg cb x).1, (call cfg cb x).2) = (abs cb).call cfg x := by
  obtain ⟨hw, hs, hk, hone, hzero⟩ := entered_ready h
  cases hr : (abs cb).rejects cfg x.before with
  | true =>
    have hcall : call cfg cb x = (cb, (none, some (.sentinel .errCircuitOpen))) := by
      simp [call, beforeCall_quiet hmax h, hr]
    rw [hcall]
    exact ⟨h, by simp [Automaton.call, hr]⟩
  | false =>
    have hcall : call cfg cb x =
        (afterCall cfg (entered cb) x.out.2 x.recorded x.now, x.out) := by
      simp [call, beforeCall_quiet hmax h, hr]
    rw [hcall]
    refine ⟨afterCall_quiet hw hone hzero, ?_⟩
    simp [Automaton.call, hr, afterCall_observe hw hs hk, abs_entered]

theorem history_refines (xs : List (Execution A)) : Quiet cfg (history cfg cb xs).1 ∧
    (abs (history cfg cb xs).1, (history cfg cb xs).2) = (abs cb).history cfg xs := by
  induction xs generalizing cb with
  | nil => exact ⟨h, rfl⟩
  | cons x xs ih =>
    obtain ⟨hquiet, habs⟩ := call_refines hmax h x
    obtain ⟨hquiet', habs'⟩ := ih hquiet
    refine ⟨hquiet', ?_⟩
    simp only [history, Automaton.history, ← habs, ← habs']

end Call

/-! ## Half-open periods of the automaton -/

namespace Automaton
variable {cfg : BreakerConfig}

def state : Automaton → State
  | closed _ => .closed
  | opened _ _ => .opened
  | halfOpen _ _ => .halfOpen

def window : Automaton → SlidingWindow
  | closed w => w
  | opened w _ => w
  | halfOpen w _ => w

theorem history_append (q : Automaton) (xs ys : List (Execution A)) :
    (q.history cfg (xs ++ ys)).1 = ((q.history cfg xs).1.history cfg ys).1 := by
  induction xs generalizing q with
  | nil => rfl
  | cons x xs ih => exact ih _

/-- The first call of a half-open period begins it. -/
theorem call_entered {q : Automaton} {x : Execution A} (h : q.rejects cfg x.before = false) :
    q.call cfg x = q.entered.call cfg x := by
  cases q with
  | closed w => rfl
  | halfOpen w k => rfl
  | opened w since =>
    simp only [call, h]
    rfl

theorem history_entered {q : Automaton} {x : Execution A} (xs : List (Execution A))
    (h : q.rejects cfg x.before = false) :
    q.history cfg (x :: xs) = q.entered.history cfg (x :: xs) := by
  simp only [history, call_entered h]

theorem halfOpen_successes {xs : List (Execution A)} (hok : ∀ x ∈ xs, x.out.2 = none)
    (w : SlidingWindow) (k : Nat) (hlen : k + xs.length < max 1 cfg.successThreshold) :
    ∃ w', ((halfOpen w k).history cfg xs).1 = halfOpen w' (k + xs.length) := by
  induction xs generalizing w k with
  | nil => exact ⟨w, rfl⟩
  | cons x xs ih =>
    obtain ⟨hx, hxs⟩ := List.forall_mem_cons.mp hok
    rw [List.length_cons] at hlen ⊢
    have hmore : ¬ k + 1 = max 1 cfg.successThreshold := by omega
    obtain ⟨w', hw'⟩ := ih hxs (w.recordSuccess x.recorded) (k + 1) (by omega)
    refine ⟨w', ?_⟩
    have hcall : ((halfOpen w k).call cfg x).1 =
        halfOpen (w.recordSuccess x.recorded) (k + 1) := by
      simp [call, rejects, entered, observe, hx, hmore]
    rw [history, hcall, hw', Nat.add_right_comm, Nat.add_assoc]

/-- What the call after `k` successes decides. -/
theorem halfOpen_decides (w : SlidingWindow) (k : Nat) (y : Execution A) :
    (((halfOpen w k).call cfg y).1.state =
      if y.out.2.isSome then .opened
      else if k + 1 = max 1 cfg.successThreshold then .closed else .halfOpen) ∧
    (((halfOpen w k).call cfg y).1.state = .closed →
      ((halfOpen w k).call cfg y).1.window.stats = .zero) := by
  have hcall : ((halfOpen w k).call cfg y).1 = (halfOpen w k).observe cfg y := rfl
  rw [hcall]
  cases hout : y.out.2 with
  | some err => simp [observe, hout, state]
  | none =>
    by_cases hlast : k + 1 = max 1 cfg.successThreshold
    · simp [observe, hout, hlast, state, window, stats_reset]
    · simp [observe, hout, hlast, state]

/-- A half-open period, from the first probe on. -/
theorem period {q : Automaton} {xs : List (Execution A)} {y : Execution A}
    (hq : q.state = .opened) (hok : ∀ x ∈ xs, x.out.2 = none)
    (hlen : xs.length < max 1 cfg.successThreshold)
    (hfirst : ∀ x ∈ (xs ++ [y]).head?, q.rejects cfg x.before = false) :
    ((q.history cfg (xs ++ [y])).1.state =
      if y.out.2.isSome then .opened
      else if xs.length + 1 = max 1 cfg.successThreshold then .closed else .halfOpen) ∧
    ((q.history cfg (xs ++ [y])).1.state = .closed →
      (q.history cfg (xs ++ [y])).1.window.stats = .zero) := by
  obtain ⟨w, hw⟩ : ∃ w, q.entered = halfOpen w 0 := by
    cases q with
    | opened w since => exact ⟨w, rfl⟩
    | closed w => cases hq
    | halfOpen w k => cases hq
  have hsame : q.history cfg (xs ++ [y]) = (halfOpen w 0).history cfg (xs ++ [y]) := by
    rw [← hw]
    cases xs with
    | nil => exact history_entered [] (hfirst y rfl)
    | cons x xs => exact history_entered (xs ++ [y]) (hfirst x rfl)
  have hlen : 0 + xs.length < max 1 cfg.successThreshold := by omega
  obtain ⟨w', hw'⟩ := halfOpen_successes hok w 0 hlen
  have hend : (q.history cfg (xs ++ [y])).1 = ((halfOpen w' xs.length).call cfg y).1 := by
    rw [hsame, history_append, hw', Nat.zero_add]
    rfl
  rw [hend]
  exact halfOpen_decides w' xs.length y

end Automaton

/-! ## The breaker, call after call -/

@[simp] theorem abs_state (cb : CircuitBreaker) : (abs cb).state = cb.state := by
  unfold abs
  split <;> simp [Automaton.state, *]

@[simp] theorem abs_window (cb : CircuitBreaker) : (abs cb).window = cb.window := by
  unfold abs
  split <;> rfl

theorem abs_rejects {cfg : BreakerConfig} {cb : CircuitBreaker} {now : Int} :
    (abs cb).rejects cfg now = false ↔
      cb.state ≠ .opened ∨ now - cb.openTime > cfg.timeout := by
  unfold abs
  cases hs : cb.state with
  | closed => simp [Automaton.rejects]
  | halfOpen => simp [Automaton.rejects]
  | opened =>
    simp only [Automaton.rejects, decide_eq_false_iff_not, ne_eq, not_true, false_or]
    omega

/-- What the textbook says of a breaker between two calls. -/
structure Textbook (A : Type) (cfg : BreakerConfig) (cb : CircuitBreaker) : Prop where
  inFlight : cb.halfOpenInFlight = 0
  runs : ∀ now, runs cfg cb now ↔ cb.state ≠ .opened ∨ now - cb.openTime > cfg.timeout
  notTooMany : ∀ now, (beforeCall cfg cb now).2 ≠ some (.sentinel .errTooManyRequests)
  opens : cb.state = .closed → ∀ x : Execution A,
    (call cfg cb x).1.state =
      if x.out.2.isSome ∧ Trips cfg (cb.window.recordFailure x.recorded) then .opened else .closed
  /-- After `xs`, the successful probes so far, `y` decides. -/
  period : cb.state = .opened → ∀ (xs : List (Execution A)) (y : Execution A),
    (∀ x ∈ (xs ++ [y]).head?, x.before - cb.openTime > cfg.timeout) →
    (∀ x ∈ xs, x.out.2 = none) → xs.length < max 1 cfg.successThreshold →
    ((history cfg cb (xs ++ [y])).1.state =
      if y.out.2.isSome then .opened
      else if xs.length + 1 = max 1 cfg.successThreshold then .closed else .halfOpen) ∧
    ((history cfg cb (xs ++ [y])).1.state = .closed →
      (history cfg cb (xs ++ [y])).1.window.stats = .zero)

theorem textbook_of_quiet {cfg : BreakerConfig} {cb : CircuitBreaker} (hmax : 1 ≤ cfg.maxRequests)
    (h : Quiet cfg cb) : Textbook A cfg cb := by
  refine ⟨h.inFlight, fun now => ?_, fun now => ?_, fun hs x => ?_, ?_⟩
  · rw [← abs_rejects]
    cases hr : (abs cb).rejects cfg now <;> simp [runs, beforeCall_quiet hmax h, hr]
  · rw [beforeCall_quiet hmax h]
    split <;> nofun
  · have habs : abs cb = .closed cb.window := by simp [abs, hs]
    have hcall := congrArg Prod.fst (call_refines hmax h x).2
    rw [← abs_state, show abs (call cfg cb x).1 = _ from hcall, habs]
    cases hout : x.out.2 with
    | none => simp [Automaton.call, Automaton.rejects, Automaton.entered, Automaton.observe, hout,
        Automaton.state]
    | some err =>
      by_cases htrips : Trips cfg (cb.window.recordFailure x.recorded)
      · simp [Automaton.call, Automaton.rejects, Automaton.entered, Automaton.observe, hout,
          Automaton.state, htrips]
      · simp [Automaton.call, Automaton.rejects, Automaton.entered, Automaton.observe, hout,
          Automaton.state, htrips]
  · intro hs xs y hfirst hok hlen
    have hhist := congrArg Prod.fst (history_refines hmax h (xs ++ [y])).2
    have hhist : abs (history cfg cb (xs ++ [y])).1 = _ := hhist
    rw [← abs_state, ← abs_window, hhist]
    refine Automaton.period (by rw [abs_state, hs]) hok hlen fun x hx => ?_
    exact abs_rejects.mpr (.inr (hfirst x hx))

/-- Every sequential history is one of the textbook automaton, and leaves the
breaker as the textbook says. -/
theorem history_textbook {cfg : BreakerConfig} (hmax : 1 ≤ cfg.maxRequests) (now : Int)
    (xs : List (Execution A)) :
    (abs (history cfg (newCircuitBreaker cfg now) xs).1,
        (history cfg (newCircuitBreaker cfg now) xs).2) =
      Automaton.history cfg (.closed (newSlidingWindow 10 (bucketTime cfg) now)) xs ∧
    Textbook A cfg (history cfg (newCircuitBreaker cfg now) xs).1 := by
  obtain ⟨hquiet, habs⟩ := history_refines hmax (quiet_new cfg now) xs
  exact ⟨habs, textbook_of_quiet hmax hquiet⟩

/-- Five calls that fail, and a probe when the timeout has passed. -/
def failsAndProbes : List (Execution Unit) :=
  (List.range 5).map (fun k => ⟨2 * k, (none, some (.foreign "refused")), 2 * k + 1, 2 * k + 1⟩) ++
    [⟨61 * second, (some (), none), 61 * second + 1, 61 * second + 1⟩]

theorem history_textbook_defaultConfig :
    (history defaultConfig (newCircuitBreaker defaultConfig 0) (failsAndProbes.take 4)).1.state =
      .closed ∧
    (history defaultConfig (newCircuitBreaker defaultConfig 0) (failsAndProbes.take 5)).1.state =
      .opened ∧
    (history defaultConfig (newCircuitBreaker defaultConfig 0) failsAndProbes).1.state =
      .halfOpen ∧
    Textbook Unit defaultConfig (history defaultConfig (newCircuitBreaker defaultConfig 0)
      failsAndProbes).1 :=
  ⟨by decide +kernel, by decide +kernel, by decide +kernel, (history_textbook (by decide) 0 _).2⟩

end RpcInGo.Breaker.Sequential
