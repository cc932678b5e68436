import RpcInGo.Intercept.Retry

/-!
The events of a call of `Retry`: attempts with their outcomes, and waits with the way they ended.
They are noted in a list beside the world, which changes nothing else.

* `FirstStop`: a run that goes on past every event before the last and stops there;
* `retryLoop_trails`: from any round on, the loop makes such a run;
* `retry_first_stop`: `Retry` as a whole, for any invoker and any waits.
-/

namespace RpcInGo.Intercept.Attempts
open Protocol.Message Retry

variable {Req A W O : Type}

inductive Event (A : Type)
  | attempt (out : Outcome A)
  | wait (ended : Option CtxErr)
  deriving DecidableEq, Repr

def Event.isAttempt : Event A → Bool
  | .attempt _ => true
  | .wait _ => false

def attempts (events : List (Event A)) : Nat := events.countP Event.isAttempt

/-- Attempts and waits take turns; `first` says whether an attempt comes first. -/
def Alternates : Bool → List (Event A) → Prop
  | _, [] => True
  | first, e :: events => e.isAttempt = first ∧ Alternates (!first) events

/-- An event at which `Retry` stops after the events `before`, and what it returns there. -/
inductive Stop (maxRetries : Int) (before : List (Event A)) : Event A → Outcome A → Prop
  | success (result : Option A) : Stop maxRetries before (.attempt (result, none)) (result, none)
  | nonRetryable {result : Option A} {err : GoError} : isRetryable (some err) = false →
      Stop maxRetries before (.attempt (result, some err)) (none, some err)
  | cancelled (e : CtxErr) : Stop maxRetries before (.wait (some e)) (none, some e.toGoError)
  | exhausted {result : Option A} {err : GoError} : (attempts before : Int) = maxRetries →
      Stop maxRetries before (.attempt (result, some err)) (none, some err)

/-- The events after `before`, up to the first at which `Retry` stops. -/
inductive FirstStop (maxRetries : Int) :
    List (Event A) → List (Event A) → Outcome A → Prop
  | stop {before : List (Event A)} {e : Event A} {out : Outcome A} :
      Stop maxRetries before e out → FirstStop maxRetries before [e] out
  | pass {before events : List (Event A)} {e : Event A} {out : Outcome A} :
      (∀ out', ¬ Stop maxRetries before e out') →
      FirstStop maxRetries (before ++ [e]) events out →
      FirstStop maxRetries before (e :: events) out

section Stops
variable {maxRetries : Int} {before events : List (Event A)} {out : Outcome A}

theorem attempts_append (l l' : List (Event A)) : attempts (l ++ l') = attempts l + attempts l' :=
  List.countP_append

/-- An attempt that is passed is not the last one allowed. -/
theorem FirstStop.attempts_le (h : FirstStop maxRetries before events out)
    (hle : (attempts before : Int) ≤ maxRetries) :
    (attempts (before ++ events) : Int) ≤ maxRetries + 1 := by
  induction h with
  | @stop before e out _ =>
    have hone : attempts [e] ≤ 1 := List.countP_le_length
    rw [attempts_append]
    omega
  | @pass before events e out hpass _ ih =>
    have hle' : (attempts (before ++ [e]) : Int) ≤ maxRetries := by
      rw [attempts_append]
      cases e with
      | wait ended => simpa [attempts, Event.isAttempt] using hle
      | attempt o =>
        obtain ⟨result, err⟩ := o
        cases err with
        | none => exact absurd (.success result) (hpass _)
        | some err =>
          have hlast : (attempts before : Int) ≠ maxRetries := fun heq => hpass _ (.exhausted heq)
          have hone : attempts [Event.attempt (result, some err)] = 1 := rfl
          omega
    simpa using ih hle'

theorem FirstStop.nil_error (h : FirstStop maxRetries before events out) (hnil : out.2 = none) :
    events.getLast? = some (.attempt (out.1, none)) := by
  induction h with
  | stop hstop =>
    cases hstop with
    | success result => rfl
    | nonRetryable _ => cases hnil
    | cancelled _ => cases hnil
    | exhausted _ => cases hnil
  | pass _ hrest ih =>
    rw [List.getLast?_cons, ih hnil]
    rfl

end Stops

/-! ## Noting the events -/

/-- The answer of the environment is noted behind the events so far. -/
def watch (note : O → Event A) (f : W → O × W) (w : W × List (Event A)) :
    O × (W × List (Event A)) :=
  ((f w.1).1, ((f w.1).2, w.2 ++ [note (f w.1).1]))

section Loop
variable {maxRetries : Int} {wait : W → Option CtxErr × W} {invoker : Invoker Req A W} {req : Req}

/-- `p'` does what `p` does, and notes a run that stops as `Retry` should. -/
def Trails (maxRetries : Int) (first : Bool) (log : List (Event A)) (p : W → Outcome A × W)
    (p' : W × List (Event A) → Outcome A × (W × List (Event A))) : Prop :=
  ∀ w, ∃ events, p' (w, log) = ((p w).1, ((p w).2, log ++ events)) ∧
    FirstStop maxRetries log events (p w).1 ∧ Alternates first events

/-- A round of the loop up to its attempt; `next` is what follows the wait. -/
def waitRound (wait : W → Option CtxErr × W) (attempt : Nat) (next : W → Outcome A × W) (w : W) :
    Outcome A × W :=
  match waitBefore wait attempt w with
  | (some e, w) => ((none, some e.toGoError), w)
  | (none, w) => next w

/-- The attempt of a round; `again` is the next round. -/
def attemptRound (invoker : Invoker Req A W) (req : Req) (again : GoError → W → Outcome A × W)
    (w : W) : Outcome A × W :=
  match invoker req w with
  | ((result, none), w) => ((result, none), w)
  | ((_, some err), w) => if isRetryable (some err) then again err w else ((none, some err), w)

theorem retryLoop_succ (left attempt : Nat) (lastErr : Option GoError) :
    retryLoop wait invoker req (left + 1) attempt lastErr =
      waitRound wait attempt (attemptRound invoker req fun err =>
        retryLoop wait invoker req left (attempt + 1) (some err)) := rfl

/-- A wait that is cancelled is the last event; one that is not leaves the attempts as they are. -/
theorem waitRound_trails {attempt : Nat} {log : List (Event A)} {next : W → Outcome A × W}
    {next' : W × List (Event A) → Outcome A × (W × List (Event A))}
    (hnext : ∀ log', attempts log' = attempts log → Trails maxRetries true log' next next') :
    Trails maxRetries (decide (attempt = 0)) log (waitRound wait attempt next)
      (waitRound (watch .wait wait) attempt next') := by
  intro w
  rcases Nat.eq_zero_or_pos attempt with rfl | hpos
  · exact hnext log rfl w
  have hfirst : decide (attempt = 0) = false := decide_eq_false (Nat.ne_of_gt hpos)
  rw [hfirst]
  rcases hw : wait w with ⟨_ | e, w₁⟩
  · have hsame : attempts (log ++ [.wait none]) = attempts log := by
      rw [attempts_append]
      rfl
    obtain ⟨events, hrun, hstop, halt⟩ := hnext (log ++ [.wait none]) hsame w₁
    refine ⟨.wait none :: events, ?_, ?_, rfl, halt⟩
    · simp [waitRound, waitBefore, watch, hpos, hw, hrun]
    · have hpass : ∀ out, ¬ Stop maxRetries log (.wait none) out := by
        rintro out ⟨⟩
      simpa [waitRound, waitBefore, hpos, hw] using FirstStop.pass hpass hstop
  · refine ⟨[.wait (some e)], ?_, ?_, rfl, trivial⟩
    · simp [waitRound, waitBefore, watch, hpos, hw]
    · simpa [waitRound, waitBefore, hpos, hw] using FirstStop.stop (.cancelled e)

/-- The round stops, or the next one does: which has to be there if an attempt is left. -/
theorem attemptRound_trails {log : List (Event A)} {again : GoError → W → Outcome A × W}
    {again' : GoError → W × List (Event A) → Outcome A × (W × List (Event A))}
    (hlast : (attempts log : Int) = maxRetries →
      (∀ err w, again err w = ((none, some err), w)) ∧
        ∀ err w, again' err w = ((none, some err), w))
    (hnext : (attempts log : Int) ≠ maxRetries → ∀ out err,
      Trails maxRetries false (log ++ [.attempt out]) (again err) (again' err)) :
    Trails maxRetries true log (attemptRound invoker req again)
      (attemptRound (fun req => watch .attempt (invoker req)) req again') := by
  intro w
  rcases hi : invoker req w with ⟨⟨result, _ | err⟩, w₁⟩
  · refine ⟨[.attempt (result, none)], ?_, ?_, rfl, trivial⟩
    · simp [attemptRound, watch, hi]
    · simpa [attemptRound, hi] using FirstStop.stop (.success result)
  by_cases hr : isRetryable (some err) = true
  · by_cases heq : (attempts log : Int) = maxRetries
    · obtain ⟨hagain, hagain'⟩ := hlast heq
      refine ⟨[.attempt (result, some err)], ?_, ?_, rfl, trivial⟩
      · simp [attemptRound, watch, hi, hr, hagain, hagain']
      · simpa [attemptRound, hi, hr, hagain] using FirstStop.stop (.exhausted heq)
    · obtain ⟨events, hrun, hstop, halt⟩ := hnext heq (result, some err) err w₁
      refine ⟨.attempt (result, some err) :: events, ?_, ?_, rfl, halt⟩
      · simp [attemptRound, watch, hi, hr, hrun]
      · have hpass : ∀ out, ¬ Stop maxRetries log (.attempt (result, some err)) out := by
          rintro out (_ | hnot | _ | hall)
          · rw [hr] at hnot
            cases hnot
          · exact heq hall
        simpa [attemptRound, hi, hr] using FirstStop.pass hpass hstop
  · refine ⟨[.attempt (result, some err)], ?_, ?_, rfl, trivial⟩
    · simp [attemptRound, watch, hi, hr]
    · have hnot : isRetryable (some err) = false := by simpa using hr
      simpa [attemptRound, hi, hnot] using FirstStop.stop (.nonRetryable hnot)

/-- The loop with `left + 1` rounds to go, after as many attempts as its counter says. -/
theorem retryLoop_trails {left attempt : Nat} {log : List (Event A)} (hlog : attempts log = attempt)
    (hmax : (attempt + left : Int) = maxRetries) (lastErr : Option GoError) :
    Trails maxRetries (decide (attempt = 0)) log
      (retryLoop wait invoker req (left + 1) attempt lastErr)
      (retryLoop (watch .wait wait) (fun req => watch .attempt (invoker req)) req (left + 1) attempt
        lastErr) := by
  induction left generalizing attempt log lastErr with
  | zero =>
    rw [retryLoop_succ, retryLoop_succ]
    refine waitRound_trails fun log' hlog' => attemptRound_trails (fun _ => ?_) fun hne => ?_
    · exact ⟨fun _ _ => rfl, fun _ _ => rfl⟩
    · exact absurd (by omega) hne
  | succ left ih =>
    rw [retryLoop_succ, retryLoop_succ]
    refine waitRound_trails fun log' hlog' => attemptRound_trails (fun heq => ?_)
      fun _ out err => ?_
    · exact absurd heq (by omega)
    · have hcount : attempts (log' ++ [.attempt out]) = attempt + 1 := by
        rw [attempts_append, hlog', hlog]
        rfl
      exact ih hcount (by push_cast at hmax ⊢; omega) (some err)

end Loop

/-- What a call of `Retry` returns and does to the world, and the events of the call. -/
def retryEvents (wait : Int → W → Option CtxErr × W) (maxRetries interval : Int) (req : Req)
    (invoker : Invoker Req A W) (w : W) : Outcome A × (W × List (Event A)) :=
  retry (fun interval => watch .wait (wait interval)) maxRetries interval req
    (fun req => watch .attempt (invoker req)) (w, [])

/-- `Retry` makes one attempt at least and `maxRetries + 1` at most, with one wait between two of
them. It stops at the first success, error that is not retryable, cancelled wait or last attempt,
and its error is nil only at a success. -/
theorem retry_first_stop (wait : Int → W → Option CtxErr × W) {maxRetries : Int}
    (hmax : 0 ≤ maxRetries) (interval : Int) (req : Req) (invoker : Invoker Req A W) (w : W) :
    ∃ events,
      retryEvents wait maxRetries interval req invoker w =
        ((retry wait maxRetries interval req invoker w).1,
          ((retry wait maxRetries interval req invoker w).2, events)) ∧
      FirstStop maxRetries [] events (retry wait maxRetries interval req invoker w).1 ∧
      Alternates true events ∧
      1 ≤ attempts events ∧ (attempts events : Int) ≤ maxRetries + 1 ∧
      ((retry wait maxRetries interval req invoker w).1.2 = none → events.getLast? =
        some (.attempt ((retry wait maxRetries interval req invoker w).1.1, none))) := by
  obtain ⟨n, rfl⟩ := Int.eq_ofNat_of_zero_le hmax
  have hrounds : ((n : Int) + 1).toNat = n + 1 := by omega
  have htrails : Trails (n : Int) true [] (retry wait n interval req invoker)
      (retry (fun interval => watch .wait (wait interval)) n interval req
        fun req => watch .attempt (invoker req)) := by
    have hnone : attempts ([] : List (Event A)) = 0 := rfl
    unfold retry
    rw [hrounds]
    exact retryLoop_trails hnone (by omega) none
  obtain ⟨events, hrun, hstop, halt⟩ := htrails w
  refine ⟨events, hrun, hstop, halt, ?_, hstop.attempts_le hmax, hstop.nil_error⟩
  cases hstop with
  | stop _ => exact List.countP_pos_iff.mpr ⟨_, List.mem_singleton_self _, halt.1⟩
  | pass _ _ => exact List.countP_pos_iff.mpr ⟨_, List.mem_cons_self, halt.1⟩

/-- The world counts the attempts, of which the third succeeds. -/
def thirdAnswers : Invoker Unit Nat Nat := fun _ w =>
  (if w = 2 then (some 42, none) else (none, some (.foreign "connection refused")), w + 1)

theorem retry_first_stop_third :
    ∃ events, retryEvents (fun _ w => (none, w)) 5 0 () thirdAnswers 0 =
        ((some 42, none), (3, events)) ∧
      FirstStop 5 [] events (some 42, none) ∧ (attempts events : Int) ≤ 6 := by
  obtain ⟨events, hrun, hstop, -, -, hle, -⟩ :=
    retry_first_stop (fun _ w => (none, w)) (by decide : (0 : Int) ≤ 5) 0 () thirdAnswers 0
  exact ⟨events, hrun, hstop, hle⟩

end RpcInGo.Intercept.Attempts
