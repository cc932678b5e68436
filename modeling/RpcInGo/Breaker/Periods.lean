import RpcInGo.Breaker.Model

/-!
The open and the half-open periods of a breaker, under any interleaving of
calls and with late outcomes of calls admitted earlier.

* `opened_until_timeout`: an open period lasts as long as it should, and only a
  half-open one can follow it;
* `periodKept_iff`: a half-open period is decided by its own probes exactly when
  no earlier call finishes in it.
-/

namespace RpcInGo.Breaker.Periods
open Lib.Goroutine Protocol.Message Intercept.Retry Window Model

variable {A : Type}

/-! ## Open periods -/

/-- No `beforeCall` reads a clock past the end. -/
def upTo (last : Int) : Ev A → Bool
  | .before now => now ≤ last
  | _ => true

def UpTo (last : Int) (_ : Config Shared (Pc A)) (_ : Nat) (e : Ev A) : Prop := upTo last e

instance (last : Int) (s : Config Shared (Pc A)) (i : Nat) (e : Ev A) :
    Decidable (UpTo last s i e) :=
  inferInstanceAs (Decidable (upTo last e = true))

/-- From `s` to `t` no call has been admitted: nothing new is running, and each
call that was still to come is so or has been turned away with `err`. -/
structure TurnedAway (err : Sentinel) (s t : Config Shared (Pc A)) : Prop where
  running : ∀ (k : Nat) a, t.threads[k]? = some (.running a) → s.threads[k]? = some (.running a)
  called : ∀ k : Nat, s.threads[k]? = some .called → t.threads[k]? = some .called ∨
    t.threads[k]? = some (.returned (none, some (.sentinel err)))

theorem TurnedAway.refl {err : Sentinel} {s : Config Shared (Pc A)} : TurnedAway err s s :=
  ⟨fun _ _ hk => hk, fun _ hk => .inl hk⟩

/-- A step in which a call returns. -/
theorem TurnedAway.set {err : Sentinel} {s t u : Config Shared (Pc A)} {i : Nat} {pc : Pc A}
    {out : Outcome A} (h : TurnedAway err s t) (hi : t.threads[i]? = some pc)
    (hu : u.threads = t.threads.set i (.returned out))
    (hpc : (∃ a, pc = .running a) ∨ out = (none, some (.sentinel err))) :
    TurnedAway err s u := by
  have hlt : i < t.threads.length := (List.getElem?_eq_some_iff.mp hi).1
  constructor
  · intro k a hk
    rw [hu] at hk
    by_cases hik : i = k
    · subst hik
      simp [hlt] at hk
    · rw [List.getElem?_set_ne hik] at hk
      exact h.running k a hk
  · intro k hk
    rw [hu]
    by_cases hik : i = k
    · subst hik
      rcases hpc with ⟨a, rfl⟩ | rfl
      · rcases h.called i hk with hc | hr
        · rw [hi] at hc; cases hc
        · rw [hi] at hr; cases hr
      · exact .inr (by simp [hlt])
    · rw [List.getElem?_set_ne hik]
      exact h.called k hk

/-- The breaker stays open as of `now`. -/
structure HeldOpen (now : Int) (s t : Config Shared (Pc A)) : Prop
    extends TurnedAway .errCircuitOpen s t where
  state : t.shared.cb.state = .opened
  openTime : t.shared.cb.openTime = now

theorem HeldOpen.fire {cfg : BreakerConfig} {now : Int} {s t u : Config Shared (Pc A)} {i : Nat}
    {e : Ev A} (h : HeldOpen now s t) (hok : UpTo (now + cfg.timeout) t i e)
    (hfire : (calls cfg).fire t i e = some u) : HeldOpen now s u := by
  obtain ⟨pc, pc', hi, hstep, hu⟩ := fire_stepped hfire
  have hstate := h.state
  have htime := h.openTime
  obtain ⟨g, ts⟩ := u
  cases hstep with
  | rejected hclock hrej =>
    cases hrej with
    | circuitOpen => exact ⟨h.set hi hu (.inr rfl), hstate, htime⟩
    | tooManyRequests hhalf => rw [hstate] at hhalf; cases hhalf
  | closed hclock hclosed => rw [hstate] at hclosed; cases hclosed
  | opener hclock hopen hlate =>
    have hle := of_decide_eq_true hok
    omega
  | counted hclock hhalf => rw [hstate] at hhalf; cases hhalf
  | finished hrec hnow =>
    obtain ⟨hstate', htime'⟩ := afterCall_opened hstate
    exact ⟨h.set hi hu (.inl ⟨_, rfl⟩), hstate', htime'.trans htime⟩
  | panicked => exact ⟨h.set hi hu (.inl ⟨_, rfl⟩), hstate, htime⟩

/-- The breaker opens at the clock reading of the step that opens it. -/
theorem openTime_of_opens {cfg : BreakerConfig} {s t : Config Shared (Pc A)} {i : Nat} {e : Ev A}
    (hfire : (calls cfg).fire s i e = some t) (hs : s.shared.cb.state ≠ .opened)
    (ht : t.shared.cb.state = .opened) : t.shared.cb.openTime = t.shared.clock := by
  obtain ⟨pc, pc', hi, hstep, hu⟩ := fire_stepped hfire
  obtain ⟨g, ts⟩ := t
  cases hstep with
  | rejected => exact absurd ht hs
  | closed => exact absurd ht hs
  | opener hclock hopen => exact absurd hopen hs
  | counted => exact absurd ht hs
  | panicked => exact absurd ht hs
  | @finished a out recorded now hrec hnow =>
    cases hstate : s.shared.cb.state with
    | opened => exact absurd hstate hs
    | closed =>
      rcases afterCall_closed hstate with hc | ⟨-, htime⟩
      · exact absurd (hc.symm.trans ht) nofun
      · exact htime
    | halfOpen =>
      obtain ⟨v, err⟩ := out
      cases err with
      | some err => exact (afterCall_halfOpen_failure hstate err).2
      | none =>
        have hst := (@afterCall_halfOpen_success cfg _ recorded now hstate).2.symm.trans ht
        split at hst <;> cases hst

/-- From an open breaker, a step that changes its state starts a half-open
period, after the timeout. -/
theorem leaves_opened {cfg : BreakerConfig} {s t : Config Shared (Pc A)} {i : Nat} {e : Ev A}
    (hfire : (calls cfg).fire s i e = some t) (hs : s.shared.cb.state = .opened) :
    t.shared.cb.state = .opened ∨ t.shared.cb.state = .halfOpen ∧
      ∃ now, e = .before now ∧ s.shared.cb.openTime + cfg.timeout < now := by
  obtain ⟨pc, pc', hi, hstep, hu⟩ := fire_stepped hfire
  obtain ⟨g, ts⟩ := t
  cases hstep with
  | rejected => exact .inl hs
  | closed hclock hclosed => rw [hs] at hclosed; cases hclosed
  | opener hclock hopen hlate => exact .inr ⟨rfl, _, rfl, hlate⟩
  | counted hclock hhalf => rw [hs] at hhalf; cases hhalf
  | finished => exact .inl (afterCall_opened hs).1
  | panicked => exact .inl hs

/-- A run from an open breaker stays with it or passes through half-open. -/
theorem opened_or_through_halfOpen {cfg : BreakerConfig} {s u : Config Shared (Pc A)}
    {tr : List (Nat × Ev A)} (hrun : Run (calls cfg) Any s tr u)
    (hs : s.shared.cb.state = .opened) :
    u.shared.cb.state = .opened ∨ ∃ tr₁ tr₂ v, tr = tr₁ ++ tr₂ ∧
      Run (calls cfg) Any s tr₁ v ∧ v.shared.cb.state = .halfOpen ∧
      Run (calls cfg) Any v tr₂ u := by
  induction hrun with
  | refl => exact .inl hs
  | @step tr t i e u hrun hok hfire ih =>
    rcases ih with ht | ⟨tr₁, tr₂, v, rfl, h₁, hv, h₂⟩
    · rcases leaves_opened hfire ht with hu | ⟨hu, -⟩
      · exact .inl hu
      · exact .inr ⟨_, [], u, (List.append_nil _).symm, .step hrun hok hfire, hu, .refl⟩
    · exact .inr ⟨tr₁, tr₂ ++ [(i, e)], v, List.append_assoc _ _ _, h₁, hv, .step h₂ hok hfire⟩

/-- From the step that opens the breaker until the first `beforeCall` past the
timeout the breaker stays open as of that step; and it closes again only after a
half-open period. -/
theorem opened_until_timeout {cfg : BreakerConfig} {s t : Config Shared (Pc A)} {i : Nat}
    {e : Ev A} (hfire : (calls cfg).fire s i e = some t) (hs : s.shared.cb.state ≠ .opened)
    (ht : t.shared.cb.state = .opened) :
    (∀ tr u, Run (calls cfg) (UpTo (t.shared.clock + cfg.timeout)) t tr u →
      HeldOpen t.shared.clock t u) ∧
    (∀ tr u j e' v, Run (calls cfg) Any t tr u → u.shared.cb.state = .opened →
      (calls cfg).fire u j e' = some v → v.shared.cb.state ≠ .closed) ∧
    (∀ tr u, Run (calls cfg) Any t tr u → u.shared.cb.state = .closed →
      ∃ tr₁ tr₂ v, tr = tr₁ ++ tr₂ ∧ Run (calls cfg) Any t tr₁ v ∧
        v.shared.cb.state = .halfOpen ∧ Run (calls cfg) Any v tr₂ u) := by
  refine ⟨?_, ?_, ?_⟩
  · intro tr u hrun
    have h0 : HeldOpen t.shared.clock t t := ⟨.refl, ht, openTime_of_opens hfire hs ht⟩
    exact hrun.invariant h0 fun _ _ _ _ h hok hf => h.fire hok hf
  · intro tr u j e' v _ hu hf hv
    rcases leaves_opened hf hu with hv' | ⟨hv', -⟩
    · exact absurd (hv'.symm.trans hv) nofun
    · exact absurd (hv'.symm.trans hv) nofun
  · intro tr u hrun hu
    rcases opened_or_through_halfOpen hrun ht with hu' | h
    · exact absurd (hu'.symm.trans hu) nofun
    · exact h

/-- One request in the window is enough to open, and half-open lasts for two
successes. -/
def oneFailure : BreakerConfig := ⟨1, 1, 10 * second, 60 * second, 1 / 2, 2⟩

def failed : Outcome Unit := (none, some (.foreign "unavailable"))

def threeCalls : Config Shared (Pc Unit) :=
  ⟨⟨newCircuitBreaker oneFailure 0, 0, 0, false, 0⟩,
    [.running ⟨.closed, 0⟩, .running ⟨.closed, 0⟩, .called]⟩

theorem threeCalls_fires : ((calls oneFailure).fire threeCalls 0 (.finish failed 0 0)).isSome := by
  decide +kernel

theorem opened_until_timeout_threeCalls :
    ∃ t, (calls oneFailure).fire threeCalls 0 (.finish failed 0 0) = some t ∧
      ∀ tr u, Run (calls oneFailure) (UpTo (t.shared.clock + oneFailure.timeout)) t tr u →
        HeldOpen t.shared.clock t u := by
  have hfire := (Option.some_get threeCalls_fires).symm
  exact ⟨_, hfire, (opened_until_timeout hfire (by decide +kernel) (by decide +kernel)).1⟩

/-! ## Half-open periods -/

/-- The step is the outcome of a call admitted before the current period. -/
def stale (s : Config Shared (Pc A)) (i : Nat) : Ev A → Bool
  | .finish _ _ _ =>
    match s.threads[i]? with
    | some (.running a) => a.period < s.shared.period
    | _ => false
  | _ => false

/-- The step is the outcome of a probe of the current half-open period. -/
def ProbeOutcome (s : Config Shared (Pc A)) (i : Nat) (e : Ev A) : Prop :=
  ∃ a out recorded now, s.threads[i]? = some (.running a) ∧ e = .finish out recorded now ∧
    a.period = s.shared.period ∧ a.state ≠ .closed

/-- What a half-open period asks of a step: the outcome of an earlier call
changes nothing in it, and only the outcome of a probe ends it. -/
structure PeriodKept (s : Config Shared (Pc A)) (i : Nat) (e : Ev A)
    (t : Config Shared (Pc A)) : Prop where
  untouched : stale s i e → t.shared.cb.state = s.shared.cb.state ∧
    t.shared.cb.halfOpenSuccesses = s.shared.cb.halfOpenSuccesses ∧
    t.shared.cb.halfOpenInFlight = s.shared.cb.halfOpenInFlight
  ends : t.shared.cb.state ≠ .halfOpen → ProbeOutcome s i e

/-- Running calls were admitted in the current period or before it; in a
half-open one those admitted in it were not admitted by a closed breaker. -/
def Dated (s : Config Shared (Pc A)) : Prop :=
  ∀ pc ∈ s.threads, ∀ a, pc = .running a → a.period ≤ s.shared.period ∧
    (s.shared.cb.state = .halfOpen → a.period = s.shared.period → a.state ≠ .closed)

theorem Dated.fire {cfg : BreakerConfig} {s t : Config Shared (Pc A)} {i : Nat} {e : Ev A}
    (h : Dated s) (hfire : (calls cfg).fire s i e = some t) : Dated t := by
  obtain ⟨pc, pc', hi, hstep, hu⟩ := fire_stepped hfire
  obtain ⟨g, ts⟩ := t
  subst hu
  cases hstep with
  | rejected => exact forall_set nofun h fun _ hp => hp
  | closed hclock hclosed =>
    refine forall_set ?_ h fun _ hp => hp
    rintro a ⟨⟩
    refine ⟨le_refl _, fun hhalf => ?_⟩
    exact absurd (hclosed.symm.trans hhalf) nofun
  | opener hclock hopen =>
    refine forall_set ?_ h ?_
    · rintro a ⟨⟩
      exact ⟨le_refl _, fun _ _ => nofun⟩
    · intro p hp a ha
      have hle := (hp a ha).1
      exact ⟨by show a.period ≤ s.shared.period + 1; omega,
        fun _ heq => absurd heq (by show a.period ≠ s.shared.period + 1; omega)⟩
  | counted hclock hhalf =>
    refine forall_set ?_ h fun _ hp => hp
    rintro a ⟨⟩
    exact ⟨le_refl _, fun _ _ => nofun⟩
  | finished =>
    exact forall_set nofun h fun p hp a ha =>
      ⟨(hp a ha).1, fun hhalf => (hp a ha).2 (halfOpen_of_afterCall hhalf)⟩
  | panicked => exact forall_set nofun h fun _ hp => hp

theorem dated_start {cfg : BreakerConfig} {now : Int} {n : Nat} :
    Dated (start cfg now n : Config Shared (Pc A)) := by
  intro pc hpc a ha
  rw [List.eq_of_mem_replicate hpc] at ha
  cases ha

theorem dated_of_run {cfg : BreakerConfig} {now : Int} {n : Nat} {tr : List (Nat × Ev A)}
    {s : Config Shared (Pc A)} (h : Run (calls cfg) Any (start cfg now n) tr s) : Dated s :=
  h.invariant dated_start fun _ _ _ _ hI _ hf => hI.fire hf

/-- An outcome in a half-open period always changes the breaker. -/
theorem afterCall_halfOpen_changes {cfg : BreakerConfig} {cb : CircuitBreaker}
    {err : Option GoError} {recorded now : Int} (h : cb.state = .halfOpen) :
    ¬ ((afterCall cfg cb err recorded now).state = cb.state ∧
      (afterCall cfg cb err recorded now).halfOpenSuccesses = cb.halfOpenSuccesses) := by
  rintro ⟨hstate, hsucc⟩
  cases err with
  | some err =>
    rw [(afterCall_halfOpen_failure h err).1, h] at hstate
    cases hstate
  | none =>
    rw [(afterCall_halfOpen_success h).1] at hsucc
    omega

/-- Step by step, a half-open period of any run keeps its contract exactly when
no call admitted before it finishes in it. -/
theorem periodKept_iff {cfg : BreakerConfig} {now : Int} {n : Nat} {tr : List (Nat × Ev A)}
    {s t : Config Shared (Pc A)} {i : Nat} {e : Ev A}
    (hrun : Run (calls cfg) Any (start cfg now n) tr s) (hs : s.shared.cb.state = .halfOpen)
    (hfire : (calls cfg).fire s i e = some t) : PeriodKept s i e t ↔ stale s i e = false := by
  have hdated := dated_of_run hrun
  obtain ⟨pc, pc', hi, hstep, hu⟩ := fire_stepped hfire
  obtain ⟨g, ts⟩ := t
  cases hstep with
  | rejected => exact ⟨fun _ => rfl, fun _ => ⟨nofun, fun hne => absurd hs hne⟩⟩
  | closed hclock hclosed => rw [hs] at hclosed; cases hclosed
  | opener hclock hopen => rw [hs] at hopen; cases hopen
  | counted => exact ⟨fun _ => rfl, fun _ => ⟨nofun, fun hne => absurd hs hne⟩⟩
  | panicked => exact ⟨fun _ => rfl, fun _ => ⟨nofun, fun hne => absurd hs hne⟩⟩
  | @finished a out recorded now hrec hnow =>
    have hle := hdated _ (List.mem_of_getElem? hi) a rfl
    constructor
    · intro hkept
      by_contra hstale
      obtain ⟨hstate, hsucc, -⟩ := hkept.untouched (Bool.eq_true_of_not_eq_false hstale)
      exact afterCall_halfOpen_changes hs ⟨hstate, hsucc⟩
    · intro hstale
      have hge : ¬ a.period < s.shared.period := by simpa [stale, hi] using hstale
      refine ⟨fun h => ?_, fun _ => ⟨a, out, recorded, now, hi, rfl, by omega, ?_⟩⟩
      · rw [hstale] at h
        cases h
      · exact hle.2 hs (by omega)

/-- Two calls are admitted, the first one opens the breaker, and a third one
starts a half-open period while the second is still running. -/
def secondOutlives : List (Nat × Ev Unit) :=
  [(0, .before 0), (1, .before 0), (0, .finish failed 0 0), (2, .before (61 * second))]

theorem secondOutlives_runs :
    (exec (calls oneFailure) Any (start oneFailure 0 3) secondOutlives).isSome := by
  decide +kernel

def probing : Config Shared (Pc Unit) := Option.get _ secondOutlives_runs

def lateFailure : Ev Unit := .finish failed (62 * second) (62 * second)

theorem lateFailure_fires : ((calls oneFailure).fire probing 1 lateFailure).isSome ∧
    ((calls oneFailure).fire probing 2 lateFailure).isSome := by
  decide +kernel

/-- The late failure of the second call ends the half-open period before its
probe has answered. -/
theorem not_periodKept : ¬ ∀ (cfg : BreakerConfig) now n (tr : List (Nat × Ev Unit)) s i e t,
    Run (calls cfg) Any (start cfg now n) tr s → s.shared.cb.state = .halfOpen →
    (calls cfg).fire s i e = some t → PeriodKept s i e t := by
  intro h
  have hkept := h oneFailure 0 3 _ probing 1 lateFailure _ (run_exec secondOutlives_runs)
    (by decide +kernel) (Option.some_get lateFailure_fires.1).symm
  have hstate := (hkept.untouched (by decide +kernel)).1
  revert hstate
  decide +kernel

/-- The failure of the probe itself may end the period. -/
theorem periodKept_iff_probing : ∃ t, (calls oneFailure).fire probing 2 lateFailure = some t ∧
    (PeriodKept probing 2 lateFailure t ↔ stale probing 2 lateFailure = false) := by
  have hfire := (Option.some_get lateFailure_fires.2).symm
  exact ⟨_, hfire, periodKept_iff (run_exec secondOutlives_runs) (by decide +kernel) hfire⟩

end RpcInGo.Breaker.Periods
