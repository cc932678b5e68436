import RpcInGo.Tcp.Drain

/-!
What is still running when `Close` of the server returns. `Close` has two ways to return
before its wait: a `Close` was called before, or the listener is already closed, as it is
after the context given to `Serve` is done.

* `run_unclosed`: in a run in which `Close` is called once and the listener is not closed
  behind its back, `Close` finds the listener open;
* `close_waits`: in such a run, if moreover the wait ends only after the last deferred
  call of each `handleConnection`, every goroutine of every connection has returned when
  `Close` returns;
* `close_after_cancel`: after a cancelled context `Close` does not wait at all;
* `conditions_needed`: none of the three conditions can be dropped.
-/

namespace RpcInGo.Tcp.CloseReturn
open Lib.Channel Lib.Goroutine Protocol.Message ServerModel ConnLife Responses Tokens Drain

variable {Value : Type}

/-- `Close` before it has returned. -/
def inClose : Pc Value → Bool
  | .closeCall | .closeListener | .closeWait => true
  | _ => false

/-- With this step of goroutine `i` a call of `Close` returns. -/
def CloseReturns (s : Config (Server Value) (Pc Value)) (i : Nat)
    (t : Config (Server Value) (Pc Value)) : Prop :=
  s.threads[i]?.any inClose = true ∧ ∃ err, t.threads[i]? = some (.closeReturned err)

/-- After its `wg.Done()`, with the deferred `connCancel` still to run. -/
def cancelling : Pc Value → Bool
  | .cancelConn _ => true
  | _ => false

/-- What has to hold of a run: `Close` is called once; the goroutine of `Serve` that waits
for the context does not close the listener before `Close` does; the wait of `Close` ends
when the deferred calls of the connections are over. -/
inductive Condition where
  | calledOnce
  | listenerKept
  | deferredOver
  deriving DecidableEq

def asks (c : Condition) (s : Config (Server Value) (Pc Value)) (i : Nat) (_ : Ev Value) : Bool :=
  match c, s.threads[i]? with
  | .calledOnce, some .closeCall => !s.shared.closed
  | .listenerKept, some .watching => s.shared.listenerClosed
  | .deferredOver, some .closeWait => !s.threads.any cancelling
  | _, _ => true

/-- All three conditions. -/
abbrev Orderly : Config (Server Value) (Pc Value) → Nat → Ev Value → Prop :=
  Meets asks [.calledOnce, .listenerKept, .deferredOver]

/-! ## The listener -/

/-- `Close` on its way to the listener. -/
def approaching : Pc Value → Int
  | .closeListener => 1
  | _ => 0

theorem approaching_nonneg (pc : Pc Value) : 0 ≤ approaching pc := by
  cases pc <;> simp [approaching]

section Steps
variable {o : ServerOptions} {g g' : Server Value} {c : Conn Value} {k : Nat}
  {pc pc' : Pc Value} {e : Ev Value} {new : List (Pc Value)}

/-- What an orderly step of `Serve` or `Close` does to the two flags. -/
inductive Closes (g : Server Value) (pc : Pc Value) (g' : Server Value) (pc' : Pc Value) : Prop
  | same : approaching pc = 0 → approaching pc' = 0 → g'.closed = g.closed →
      g'.listenerClosed = g.listenerClosed → Closes g pc g' pc'
  | called : approaching pc = 0 → approaching pc' = 1 → g.closed = false → g'.closed = true →
      g'.listenerClosed = g.listenerClosed → Closes g pc g' pc'
  | listener : approaching pc = 1 → approaching pc' = 0 → g'.closed = g.closed →
      g'.listenerClosed = true → Closes g pc g' pc'

theorem freeStep_closes {s : Config (Server Value) (Pc Value)}
    (h : FreeStep s.shared pc e (g', pc', new)) {i : Nat} (hi : s.threads[i]? = some pc)
    (hok : Orderly s i e)
    (hopen : 1 ≤ approaching pc → s.shared.listenerClosed = false) :
    Closes s.shared pc g' pc' := by
  have hcall := hok .calledOnce (by decide)
  have hkept := hok .listenerKept (by decide)
  rcases h with h | h
  · revert h
    fun_cases serveStep s.shared pc e <;> intro h <;> try contradiction
    all_goals cases h
    all_goals first
      | exact .same rfl rfl rfl rfl
      | exact .same rfl rfl rfl (by simpa [asks, hi] using hkept.symm)
  · revert h
    fun_cases closeStep s.shared pc e <;> intro h <;> try contradiction
    all_goals cases h
    all_goals first
      | exact .same rfl rfl rfl rfl
      | exact .listener rfl rfl rfl rfl
      | exact .called rfl rfl (by simpa [asks, hi] using hcall) rfl rfl
      | skip
    rename_i hclosed
    have := hopen (by simp [approaching])
    rw [hclosed] at this
    cases this

end Steps

/-- Before `Close` is called the listener is open, and the one call of `Close` finds it open. -/
structure Unclosed (s : Config (Server Value) (Pc Value)) : Prop where
  before : s.shared.closed = false →
    s.shared.listenerClosed = false ∧ total approaching s.threads = 0
  one : total approaching s.threads ≤ 1
  finds : 1 ≤ total approaching s.threads → s.shared.listenerClosed = false

theorem approaching_of_conn {pc : Pc Value} {k : Nat} (hk : pc.conn = some k) :
    approaching pc = 0 := by
  cases pc <;> first | rfl | cases hk

theorem fire_unclosed {o : ServerOptions} {s t : Config (Server Value) (Pc Value)} {i : Nat}
    {e : Ev Value} (hu : Unclosed s) (hok : Orderly s i e)
    (h : (server o).fire s i e = some t) : Unclosed t := by
  obtain ⟨pc, g', pc', new, hi, rfl, ⟨-, hs⟩ | ⟨k, c, hk, hc, hs⟩⟩ := fire_server h
  · have hnew : total approaching new = 0 := by
      obtain ⟨-, ⟨-, rfl⟩ | ⟨-, rfl⟩⟩ := freeStep_conns hs <;> simp [approaching]
    have hsum : total approaching (s.threads.set i pc' ++ new) =
        total approaching s.threads - approaching pc + approaching pc' := by
      rw [total_append, hnew, total_set _ _ hi, add_zero]
    have hle : approaching pc ≤ total approaching s.threads :=
      le_total_of_mem approaching_nonneg (List.mem_of_getElem? hi)
    have hopen : 1 ≤ approaching pc → s.shared.listenerClosed = false :=
      fun h1 => hu.finds (le_trans h1 hle)
    have hone := hu.one
    cases freeStep_closes hs hi hok hopen with
    | same h1 h2 hc hl =>
      have hsame : total approaching (s.threads.set i pc' ++ new) =
          total approaching s.threads := by omega
      exact ⟨by simpa [hsame, hc, hl] using hu.before, by simpa [hsame] using hone,
        by simpa [hsame, hl] using hu.finds⟩
    | called h1 h2 hc hc' hl =>
      obtain ⟨hopen', hnone⟩ := hu.before hc
      refine ⟨fun hf => ?_, by simp only [hsum]; omega, fun _ => hl.trans hopen'⟩
      rw [hc'] at hf
      cases hf
    | listener h1 h2 hc hl =>
      refine ⟨fun hf => ?_, by simp only [hsum]; omega, fun hf => ?_⟩
      · have := (hu.before (hc.symm.trans hf)).2
        omega
      · simp only [hsum] at hf
        omega
  · obtain ⟨d, hstay⟩ := connStep_stays hc hs
    obtain ⟨hclosed, hlistener, -⟩ := connStep_apart hs
    have hnew : total approaching new = 0 :=
      total_eq_zero fun q hq => approaching_of_conn (hstay.spawned q hq)
    have hsame : total approaching (s.threads.set i pc' ++ new) = total approaching s.threads := by
      rw [total_append, hnew, total_set _ _ hi, approaching_of_conn hk,
        approaching_of_conn hstay.next]
      omega
    exact ⟨by simpa [hsame, hclosed, hlistener] using hu.before, by simpa [hsame] using hu.one,
      by simpa [hsame, hlistener] using hu.finds⟩

theorem start_unclosed (o : ServerOptions) (n : Nat) :
    Unclosed (start o n : Config (Server Value) (Pc Value)) := by
  have hnone : total approaching (start o n : Config (Server Value) (Pc Value)).threads = 0 := by
    apply total_eq_zero
    intro pc hpc
    simp only [start, List.mem_cons, List.mem_replicate] at hpc
    rcases hpc with rfl | rfl | rfl | ⟨-, rfl⟩ <;> rfl
  exact ⟨fun _ => ⟨rfl, hnone⟩, by omega, fun _ => rfl⟩

theorem run_unclosed {o : ServerOptions} {n : Nat} {tr : List (Nat × Ev Value)}
    {s : Config (Server Value) (Pc Value)} (hr : Run (server o) Orderly (start o n) tr s) :
    Unclosed s :=
  hr.invariant (start_unclosed o n) fun _ _ _ _ hu hok h => fire_unclosed hu hok h

/-! ## The wait -/

/-- Up to the deferred `connCancel`, `inWg` counts the readers that have not returned. -/
theorem active_split (k : Nat) (pc : Pc Value) (hc : cancelling pc = false) :
    localTo k active pc = localTo k inWg pc := by
  apply localTo_congr
  cases pc <;> first | rfl | cases hc

theorem looping_le_active (pc : Pc Value) : looping pc ≤ active pc := by
  cases pc <;> simp [looping, active]

theorem inWg_nonneg (pc : Pc Value) : 0 ≤ inWg pc := by
  cases pc <;> simp [inWg]

/-- With `wg` at zero and the deferred calls over, nothing of any connection runs. -/
theorem finished_of_wg {s : Config (Server Value) (Pc Value)} (ha : Alive s) (hn : Enrolled s)
    (hwg : s.shared.wg = 0) (hcancel : s.threads.any cancelling = false) (k : Nat) :
    Finished s k := by
  have hnone : ∀ pc ∈ s.threads, inWg pc = 0 := by
    intro pc hpc
    have hle := le_total_of_mem inWg_nonneg hpc
    have := inWg_nonneg pc
    rw [← hn.wg, hwg] at hle
    omega
  have hact : total (localTo k active) s.threads = 0 := by
    apply total_eq_zero
    intro pc hpc
    rw [active_split k pc (by simpa using List.any_eq_false.mp hcancel pc hpc)]
    exact localTo_eq_zero fun _ => hnone pc hpc
  cases hc : s.shared.conns[k]? with
  | none =>
    intro pc hpc hpk
    have := ha.placed pc hpc k hpk
    rw [List.getElem?_eq_none_iff] at hc
    omega
  | some c =>
    have hlife := ha.conns k c hc
    have hloop : total (localTo k looping) s.threads ≤ 0 :=
      hact ▸ total_le (localTo_le looping_le_active) s.threads
    refine finished_of_departed ha hc (hlife.served.resolve_right ?_) hact
    intro h1
    omega

/-- The three returns of `Close`. -/
theorem closeReturned_cases {g g' : Server Value} {pc : Pc Value} {e : Ev Value}
    {err : Option GoError} {new : List (Pc Value)} (hin : inClose pc = true)
    (h : FreeStep g pc e (g', .closeReturned err, new)) :
    (pc = .closeCall ∧ g.closed = true) ∨ (pc = .closeListener ∧ g.listenerClosed = true) ∨
      (pc = .closeWait ∧ g.wg = 0 ∧ g' = g ∧ err = none ∧ new = []) := by
  rcases h with h | h <;> revert h
  · fun_cases serveStep g pc e <;> intro h <;> cases h
  · fun_cases closeStep g pc e <;> intro h <;> cases h
    · rename_i hclosed
      exact Or.inl ⟨rfl, hclosed⟩
    · rename_i hclosed
      exact Or.inr (Or.inl ⟨rfl, hclosed⟩)
    · rename_i hwg
      exact Or.inr (Or.inr ⟨rfl, hwg, rfl, rfl, rfl⟩)

/-- In an orderly run `Close` returns only from its wait. -/
theorem closeReturns_wg {o : ServerOptions} {s t : Config (Server Value) (Pc Value)} {i : Nat}
    {e : Ev Value} (hu : Unclosed s) (hok : Orderly s i e)
    (h : (server o).fire s i e = some t) (hret : CloseReturns s i t) :
    s.threads[i]? = some .closeWait ∧ s.shared.wg = 0 ∧
      t = ⟨s.shared, s.threads.set i (.closeReturned none)⟩ := by
  obtain ⟨pc, g', pc', new, hi, rfl, hs⟩ := fire_server h
  obtain ⟨hin, err, hat⟩ := hret
  rw [hi, Option.any_some] at hin
  rw [getElem?_fired_self pc' hi, Option.some.injEq] at hat
  subst hat
  obtain ⟨-, hs⟩ | ⟨k, c, hk, -⟩ := hs
  · obtain ⟨rfl, hclosed⟩ | ⟨rfl, hclosed⟩ | ⟨rfl, hwg, rfl, rfl, rfl⟩ :=
      closeReturned_cases hin hs
    · -- a first `Close` goes on to the listener
      have hcall := hok .calledOnce (by decide)
      simp [asks, hi, hclosed] at hcall
    · -- the listener is open, so closing it does not fail
      have hle : approaching (.closeListener : Pc Value) ≤ total approaching s.threads :=
        le_total_of_mem approaching_nonneg (List.mem_of_getElem? hi)
      rw [hu.finds hle] at hclosed
      cases hclosed
    · exact ⟨hi, hwg, by rw [List.append_nil]⟩
  · cases pc <;> cases hin <;> cases hk

/-- If `Close` is called once, before the listener is closed for the sake of the context,
and if its wait outlasts the deferred calls, then nothing of `handleConnection` runs any
more when `Close` returns. -/
theorem close_waits {o : ServerOptions} {n : Nat} {tr : List (Nat × Ev Value)} {i : Nat}
    {e : Ev Value} {s t : Config (Server Value) (Pc Value)}
    (hr : Run (server o) Orderly (start o n) tr s) (hok : Orderly s i e)
    (h : (server o).fire s i e = some t) (hret : CloseReturns s i t) :
    ∀ k, Finished t k := by
  obtain ⟨hi, hwg, rfl⟩ := closeReturns_wg (run_unclosed hr) hok h hret
  have hover := hok .deferredOver (by decide)
  have hcancel : s.threads.any cancelling = false := by simpa [asks, hi] using hover
  intro k pc hpc hk
  rcases List.mem_or_eq_of_mem_set hpc with hpc | rfl
  · exact finished_of_wg (run_alive hr) (run_enrolled hr) hwg hcancel k pc hpc hk
  · cases hk

/-- A request is handled and answered, its connection ends, and `Close` waits for that. -/
def served : List (Nat × Ev Unit) :=
  [(2, .accepted), (2, .step), (2, .step), (4, .setupOk), (4, .step), (3, .step),
    (4, .frame (aHeader 7 3) aRequest), (4, .step), (4, .step), (3, .step), (6, .step),
    (6, .returned (anAnswer 7)), (6, .send 1), (6, .step), (6, .step), (4, .step),
    (4, .readFailed), (4, .step), (5, .step), (5, .writeOk), (5, .step), (4, .step), (4, .step),
    (4, .step), (4, .step), (4, .step)]

theorem served_runs : (exec (server limited) Orderly (start limited 1) served).isSome := by
  decide

theorem served_returns :
    ((server limited).fire
      ((exec (server limited) Orderly (start limited 1) served).get served_runs) 3
        .step).isSome := by
  decide

theorem close_waits_served :
    let s := (exec (server limited) Orderly (start limited 1) served).get served_runs
    let t := ((server limited).fire s 3 .step).get served_returns
    s.shared.conns.length = 1 ∧ t.threads[3]? = some (.closeReturned none) ∧
      ∀ k, Finished t k :=
  ⟨by decide, by decide, close_waits (run_exec served_runs) (by decide)
    (Option.some_get served_returns).symm ⟨by decide, none, by decide⟩⟩

/-! ## What each condition is for -/

/-- The context of `Serve` is cancelled, the listener is closed for it, and `Close`, which
comes then, finds the listener closed. -/
def cancelThenClose : List (Nat × Ev Unit) :=
  [(2, .accepted), (2, .step), (2, .step), (4, .setupOk), (4, .step),
    (4, .frame (aHeader 7 3) aRequest), (4, .step), (4, .step), (6, .step),
    (0, .cancel .canceled), (1, .step), (3, .step)]

def alreadyClosed : GoError := .foreign "use of closed network connection"

theorem cancelThenClose_runs :
    (exec (server limited) (Meets asks [.calledOnce, .deferredOver]) (start limited 1)
      cancelThenClose).isSome := by decide

theorem cancelThenClose_returns :
    ((server limited).fire ((exec (server limited) (Meets asks [.calledOnce, .deferredOver])
      (start limited 1) cancelThenClose).get cancelThenClose_runs) 3
      (.closeFailed alreadyClosed)).isSome := by decide

/-- `Close` fails on the listener and returns while a handler function runs. -/
theorem close_after_cancel :
    ¬ ∀ (o : ServerOptions) (n : Nat) (tr : List (Nat × Ev Unit)) (i : Nat) (e : Ev Unit)
      (s t : Config (Server Unit) (Pc Unit)), Run (server o) Any (start o n) tr s →
      (server o).fire s i e = some t → CloseReturns s i t → ∀ k, Finished t k := by
  intro h
  have hall := h limited 1 cancelThenClose 3 (.closeFailed alreadyClosed) _ _
    ((run_exec cancelThenClose_runs).mono fun _ _ _ _ => trivial)
    (Option.some_get cancelThenClose_returns).symm
    ⟨by decide, some (.wrapf "close listener failed: %w" [] alreadyClosed), by decide⟩ 0
  have hrunning := hall (.handlerRunning 0 ⟨0, aHeader 7 3, aRequest⟩) (by decide) rfl
  cases hrunning

/-- A `Close` waits for the handler, and another one is called. -/
def closeTwice : List (Nat × Ev Unit) :=
  [(2, .accepted), (2, .step), (2, .step), (5, .setupOk), (5, .step),
    (5, .frame (aHeader 7 3) aRequest), (5, .step), (5, .step), (7, .step), (3, .step)]

theorem closeTwice_runs :
    (exec (server limited) (Meets asks [.listenerKept, .deferredOver]) (start limited 2)
      closeTwice).isSome := by decide

theorem closeTwice_returns :
    ((server limited).fire ((exec (server limited) (Meets asks [.listenerKept, .deferredOver])
      (start limited 2) closeTwice).get closeTwice_runs) 4 .step).isSome := by decide

/-- `handleConnection` has called `wg.Done()` and not yet `connCancel()`. -/
def beforeCancel : List (Nat × Ev Unit) := served.dropLast

theorem beforeCancel_runs :
    (exec (server limited) (Meets asks [.calledOnce, .listenerKept]) (start limited 1)
      beforeCancel).isSome := by decide

theorem beforeCancel_returns :
    ((server limited).fire ((exec (server limited) (Meets asks [.calledOnce, .listenerKept])
      (start limited 1) beforeCancel).get beforeCancel_runs) 3 .step).isSome := by decide

/-- None of the three conditions follows from the others. -/
theorem conditions_needed (c : Condition) :
    ¬ ∀ (o : ServerOptions) (n : Nat) (tr : List (Nat × Ev Unit)) (i : Nat) (e : Ev Unit)
      (s t : Config (Server Unit) (Pc Unit)) (cs : List Condition),
      cs = [.calledOnce, .listenerKept, .deferredOver].erase c →
      Run (server o) (Meets asks cs) (start o n) tr s → Meets asks cs s i e →
      (server o).fire s i e = some t → CloseReturns s i t → ∀ k, Finished t k := by
  intro h
  cases c with
  | calledOnce =>
    have hall := h limited 2 closeTwice 4 .step _ _ _ rfl (run_exec closeTwice_runs) (by decide)
      (Option.some_get closeTwice_returns).symm ⟨by decide, none, by decide⟩ 0
    have hrunning := hall (.handlerRunning 0 ⟨0, aHeader 7 3, aRequest⟩) (by decide) rfl
    cases hrunning
  | listenerKept =>
    have hall := h limited 1 cancelThenClose 3 (.closeFailed alreadyClosed) _ _ _ rfl
      (run_exec cancelThenClose_runs) (by decide) (Option.some_get cancelThenClose_returns).symm
      ⟨by decide, some (.wrapf "close listener failed: %w" [] alreadyClosed), by decide⟩ 0
    have hrunning := hall (.handlerRunning 0 ⟨0, aHeader 7 3, aRequest⟩) (by decide) rfl
    cases hrunning
  | deferredOver =>
    have hall := h limited 1 beforeCancel 3 .step _ _ _ rfl (run_exec beforeCancel_runs)
      (by decide) (Option.some_get beforeCancel_returns).symm ⟨by decide, none, by decide⟩ 0
    have hcancel := hall (.cancelConn 0) (by decide) rfl
    cases hcancel

end RpcInGo.Tcp.CloseReturn
