import RpcInGo.Breaker.Periods

/-!
The calls that run in a half-open period, against `halfOpenInFlight` and
`MaxRequests`. The call that starts the period is admitted without being
counted, any call that finishes gives a slot back, and a call that panics
gives none back.

* `probes_le_maxRequests`: at most `MaxRequests` calls of the period run, in runs
  that leave room for the uncounted one;
* `admitted_when_idle`: when nothing runs the next call is admitted, in runs in
  which fewer than `MaxRequests` counted calls of a period panic;
* `rejected_forever`: otherwise the breaker turns every later call away.
-/

namespace RpcInGo.Breaker.Probes
open Lib.Goroutine Protocol.Message Intercept.Retry Window Model Periods

variable {A : Type}

/-! ## Calls in flight -/

def inPeriod (period : Nat) : Pc A → Bool
  | .running a => a.period = period
  | _ => false

/-- The calls admitted since the current half-open period was entered that have
not finished. -/
def probes (s : Config Shared (Pc A)) : Nat := s.threads.countP (inPeriod s.shared.period)

/-- The step takes the last free slot only after the uncounted call has been made
up for, and gives no slot back for a call that was admitted before the period. -/
def leavesRoom (cfg : BreakerConfig) (s : Config Shared (Pc A)) (i : Nat) : Ev A → Bool
  | .before _ =>
    !(s.shared.cb.state = .halfOpen && s.shared.cb.halfOpenInFlight + 1 = cfg.maxRequests) ||
      s.shared.settled
  | .finish out recorded now =>
    !(s.shared.cb.state = .halfOpen && stale s i (.finish out recorded now)) ||
      s.shared.cb.halfOpenInFlight = 0
  | .panic _ _ => true

def LeavesRoom (cfg : BreakerConfig) (s : Config Shared (Pc A)) (i : Nat) (e : Ev A) : Prop :=
  leavesRoom cfg s i e

instance (cfg : BreakerConfig) (s : Config Shared (Pc A)) (i : Nat) (e : Ev A) :
    Decidable (LeavesRoom cfg s i e) :=
  inferInstanceAs (Decidable (leavesRoom cfg s i e = true))

/-- With `n` calls of the half-open period running, the counter is short by at
most the call that started the period. -/
structure Room (cfg : BreakerConfig) (g : Shared) (n : Nat) : Prop where
  counter : g.cb.state = .halfOpen → n ≤ g.cb.halfOpenInFlight + (!g.settled).toNat
  bound : g.cb.state = .halfOpen → n ≤ cfg.maxRequests

section Room
variable {cfg : BreakerConfig} {g : Shared} {n : Nat}

theorem Room.counted (h : Room cfg g n) (hhalf : g.cb.state = .halfOpen)
    (hlt : g.cb.halfOpenInFlight < cfg.maxRequests)
    (hlast : g.cb.halfOpenInFlight + 1 = cfg.maxRequests → g.settled = true) (now : Int) :
    Room cfg { g with
      cb := { g.cb with halfOpenInFlight := g.cb.halfOpenInFlight + 1 }
      clock := now } (n + 1) := by
  have hctr := h.counter hhalf
  refine ⟨fun _ => ?_, fun _ => ?_⟩
  · show n + 1 ≤ g.cb.halfOpenInFlight + 1 + (!g.settled).toNat
    omega
  · cases hset : g.settled with
    | true =>
      rw [hset, Bool.not_true, Bool.toNat_false] at hctr
      omega
    | false =>
      have hne : g.cb.halfOpenInFlight + 1 ≠ cfg.maxRequests := fun heq => by
        rw [hlast heq] at hset
        cases hset
      rw [hset, Bool.not_false, Bool.toNat_true] at hctr
      omega

theorem Room.finished {a : Admission} {err : Option GoError} {recorded now : Int}
    (h : Room cfg g (n + (decide (a.period = g.period)).toNat))
    (hstale : g.cb.state = .halfOpen → a.period ≠ g.period → g.cb.halfOpenInFlight = 0) :
    Room cfg { g with
      cb := afterCall cfg g.cb err recorded now
      clock := now
      settled := g.settled || (g.cb.state = .halfOpen && a.period = g.period &&
        g.cb.halfOpenInFlight = 0) } n := by
  refine ⟨fun hafter => ?_, fun hafter => ?_⟩
  · have hs := halfOpen_of_afterCall hafter
    have hctr := h.counter hs
    simp only [afterCall_inFlight, hs, if_true, decide_true, Bool.true_and]
    -- the slot given back is the call's own, or there was none to give back
    by_cases hp : a.period = g.period
    · by_cases hz : g.cb.halfOpenInFlight = 0
      · simp only [hp, hz, decide_true, Bool.and_self, Bool.or_true, Bool.not_true,
          Bool.toNat_false, Bool.toNat_true] at hctr ⊢
        have hle : (!g.settled).toNat ≤ 1 := Bool.toNat_le _
        omega
      · simp only [hp, hz, decide_true, decide_false, Bool.and_false, Bool.or_false,
          Bool.toNat_true] at hctr ⊢
        omega
    · have hz := hstale hs hp
      simp only [hp, hz, decide_false, Bool.false_and, Bool.or_false, Bool.toNat_false] at hctr ⊢
      omega
  · have hb := h.bound (halfOpen_of_afterCall hafter)
    omega

theorem Room.less {m : Nat} (h : Room cfg g n) (hle : m ≤ n) : Room cfg g m :=
  ⟨fun hhalf => hle.trans (h.counter hhalf), fun hhalf => hle.trans (h.bound hhalf)⟩

end Room

theorem none_ahead_of_dated {s : Config Shared (Pc A)} (h : Dated s) :
    s.threads.countP (inPeriod (s.shared.period + 1)) = 0 := by
  rw [List.countP_eq_zero]
  intro pc hpc hin
  cases pc with
  | running a =>
    have hle := (h _ hpc a rfl).1
    have heq : a.period = s.shared.period + 1 := of_decide_eq_true hin
    omega
  | called => cases hin
  | returned out => cases hin

theorem room_fire {cfg : BreakerConfig} {s t : Config Shared (Pc A)} {i : Nat} {e : Ev A}
    (hmax : 1 ≤ cfg.maxRequests) (hdated : Dated s) (h : Room cfg s.shared (probes s))
    (hok : LeavesRoom cfg s i e) (hfire : (calls cfg).fire s i e = some t) :
    Room cfg t.shared (probes t) := by
  obtain ⟨pc, pc', hi, hstep, hu⟩ := fire_stepped hfire
  have hcount := countP_set (f := inPeriod t.shared.period) pc' hi
  rw [← hu] at hcount
  obtain ⟨g, ts⟩ := t
  cases hstep with
  | rejected =>
    have hle : probes _ ≤ probes s := Nat.le_of_eq hcount
    exact ⟨(h.less hle).counter, (h.less hle).bound⟩
  | closed hclock hclosed =>
    exact ⟨fun hhalf => absurd (hclosed.symm.trans hhalf) nofun,
      fun hhalf => absurd (hclosed.symm.trans hhalf) nofun⟩
  | opener hclock hopen =>
    have hone : ts.countP (inPeriod (s.shared.period + 1)) = 1 := by
      simpa [inPeriod, none_ahead_of_dated hdated] using hcount
    exact ⟨fun _ => Nat.le_of_eq hone, fun _ => hone.trans_le hmax⟩
  | counted hclock hhalf hlt =>
    have hnew : ts.countP (inPeriod s.shared.period) = probes s + 1 := by
      simpa [inPeriod, probes] using hcount
    show Room cfg _ (ts.countP (inPeriod s.shared.period))
    rw [hnew]
    refine h.counted hhalf hlt (fun hlast => ?_) _
    simpa [LeavesRoom, leavesRoom, hhalf, hlast] using hok
  | @finished a out recorded now =>
    rw [show probes s = _ from hcount.symm] at h
    refine Room.finished h fun hhalf hne => ?_
    have hlt : a.period < s.shared.period :=
      lt_of_le_of_ne (hdated _ (List.mem_of_getElem? hi) a rfl).1 hne
    simpa [LeavesRoom, leavesRoom, hhalf, stale, hi, hlt] using hok
  | panicked =>
    have hle : probes _ ≤ probes s := Nat.le.intro hcount
    exact ⟨(h.less hle).counter, (h.less hle).bound⟩

/-- In every run that leaves room for the uncounted call, a half-open breaker has
at most `MaxRequests` calls of the period in flight. -/
theorem probes_le_maxRequests {cfg : BreakerConfig} {now : Int} {n : Nat}
    {tr : List (Nat × Ev A)} {s : Config Shared (Pc A)} (hmax : 1 ≤ cfg.maxRequests)
    (hrun : Run (calls cfg) (LeavesRoom cfg) (start cfg now n) tr s)
    (hs : s.shared.cb.state = .halfOpen) : probes s ≤ cfg.maxRequests := by
  have h : Dated s ∧ Room cfg s.shared (probes s) := by
    refine Run.invariant (I := fun s => Dated s ∧ Room cfg s.shared (probes s)) hrun
      ⟨dated_start, nofun, nofun⟩ ?_
    rintro s i e t ⟨hdated, hroom⟩ hok hfire
    exact ⟨hdated.fire hfire, room_fire hmax hdated hroom hok hfire⟩
  exact h.2.bound hs

/-- The first call opens the breaker, and the second one probes it. -/
def opensAndProbes : List (Nat × Ev Unit) :=
  [(0, .before 0), (0, .finish failed 0 0), (1, .before (61 * second))]

theorem secondProbe_runs : (exec (calls oneFailure) Any (start oneFailure 0 3)
    (opensAndProbes ++ [(2, .before (61 * second))])).isSome := by
  decide +kernel

/-- With `MaxRequests = 1`, a second call is let in beside the probe. -/
theorem not_probes_le_maxRequests : ¬ ∀ (cfg : BreakerConfig) now n (tr : List (Nat × Ev Unit)) s,
    1 ≤ cfg.maxRequests → Run (calls cfg) Any (start cfg now n) tr s →
    s.shared.cb.state = .halfOpen → probes s ≤ cfg.maxRequests := by
  intro h
  have hle := h oneFailure 0 3 _ _ (by decide) (run_exec secondProbe_runs) (by decide +kernel)
  revert hle
  decide +kernel

/-- The probe succeeds before the second call is let in. -/
theorem oneByOne_runs : (exec (calls oneFailure) (LeavesRoom oneFailure) (start oneFailure 0 3)
    (opensAndProbes ++ [(1, .finish (some (), none) (61 * second) (61 * second)),
      (2, .before (61 * second))])).isSome := by
  decide +kernel

theorem probes_le_maxRequests_oneByOne :
    probes (Option.get _ oneByOne_runs) ≤ oneFailure.maxRequests :=
  probes_le_maxRequests (by decide) (run_exec oneByOne_runs) (by decide +kernel)

/-! ## Slots lost in panics -/

/-- The calls that took a slot of the half-open period. -/
def counted (period : Nat) : Pc A → Bool
  | .running a => a.state = .halfOpen && a.period = period
  | _ => false

/-- A counted call panics only if a slot of the period remains after it. -/
def leavesSlot (cfg : BreakerConfig) (s : Config Shared (Pc A)) (i : Nat) : Ev A → Bool
  | .panic _ _ =>
    !(s.shared.cb.state = .halfOpen && (s.threads[i]?).any (counted s.shared.period)) ||
      s.shared.leaked + 1 < cfg.maxRequests
  | _ => true

def LeavesSlot (cfg : BreakerConfig) (s : Config Shared (Pc A)) (i : Nat) (e : Ev A) : Prop :=
  leavesSlot cfg s i e

instance (cfg : BreakerConfig) (s : Config Shared (Pc A)) (i : Nat) (e : Ev A) :
    Decidable (LeavesSlot cfg s i e) :=
  inferInstanceAs (Decidable (leavesSlot cfg s i e = true))

/-- With `n` counted calls of the half-open period running, each slot is held by
one of them or was lost in a panic. -/
structure Slots (cfg : BreakerConfig) (g : Shared) (n : Nat) : Prop where
  held : g.cb.state = .halfOpen → g.cb.halfOpenInFlight ≤ n + g.leaked
  lost : g.cb.state = .halfOpen → g.leaked < cfg.maxRequests

section Slots
variable {cfg : BreakerConfig} {g : Shared} {n : Nat}

theorem Slots.counted (h : Slots cfg g n) (hhalf : g.cb.state = .halfOpen) (now : Int) :
    Slots cfg { g with
      cb := { g.cb with halfOpenInFlight := g.cb.halfOpenInFlight + 1 }
      clock := now } (n + 1) := by
  refine ⟨fun _ => ?_, h.lost⟩
  have hheld := h.held hhalf
  show g.cb.halfOpenInFlight + 1 ≤ n + 1 + g.leaked
  omega

/-- A call that finishes gives a slot back, whether it held one or not. -/
theorem Slots.finished {m : Nat} {err : Option GoError} {recorded now : Int} {settled : Bool}
    (h : Slots cfg g n) (hle : n ≤ m + 1) :
    Slots cfg { g with
      cb := afterCall cfg g.cb err recorded now, clock := now, settled := settled } m := by
  refine ⟨fun hafter => ?_, fun hafter => h.lost (halfOpen_of_afterCall hafter)⟩
  have hs := halfOpen_of_afterCall hafter
  have hheld := h.held hs
  simp only [afterCall_inFlight, hs, if_true]
  omega

/-- The slot of a call that panics is lost. -/
theorem Slots.panicked (h : Slots cfg g (n + 1))
    (hleft : g.cb.state = .halfOpen → g.leaked + 1 < cfg.maxRequests) :
    Slots cfg { g with leaked := g.leaked + 1 } n := by
  refine ⟨fun hs => ?_, hleft⟩
  have hheld := h.held hs
  show g.cb.halfOpenInFlight ≤ n + (g.leaked + 1)
  omega

end Slots

theorem counted_of_counts {g : Shared} {a : Admission} (h : g.counts a = true) :
    counted g.period (.running a : Pc A) = true := by
  simp only [Shared.counts, Bool.and_eq_true] at h
  simp only [counted, h, Bool.and_self]

theorem slots_fire {cfg : BreakerConfig} {s t : Config Shared (Pc A)} {i : Nat} {e : Ev A}
    (hmax : 1 ≤ cfg.maxRequests)
    (h : Slots cfg s.shared (s.threads.countP (counted s.shared.period)))
    (hok : LeavesSlot cfg s i e) (hfire : (calls cfg).fire s i e = some t) :
    Slots cfg t.shared (t.threads.countP (counted t.shared.period)) := by
  obtain ⟨pc, pc', hi, hstep, hu⟩ := fire_stepped hfire
  have hcount := countP_set (f := counted s.shared.period) pc' hi
  obtain ⟨g, ts⟩ := t
  subst hu
  cases hstep with
  | rejected =>
    simp only [counted, Bool.toNat_false, Nat.add_zero] at hcount
    rw [← hcount] at h
    exact ⟨h.held, h.lost⟩
  | closed hclock hclosed =>
    exact ⟨fun hs => absurd (hclosed.symm.trans hs) nofun,
      fun hs => absurd (hclosed.symm.trans hs) nofun⟩
  | opener => exact ⟨fun _ => Nat.zero_le _, fun _ => hmax⟩
  | counted hclock hhalf =>
    simp only [counted, decide_true, Bool.and_self, Bool.toNat_true, Bool.toNat_false,
      Nat.add_zero] at hcount
    have hnew := h.counted hhalf
    rw [← hcount] at hnew
    exact hnew _
  | @finished a out recorded now =>
    refine h.finished ?_
    have hle := Bool.toNat_le (counted s.shared.period (Pc.running a : Pc A))
    simp only [counted, Bool.toNat_false] at hcount hle
    show _ ≤ (s.threads.set i (.returned out)).countP (counted s.shared.period) + 1
    omega
  | @panicked a value stack =>
    have hcount : List.countP (counted s.shared.period)
        (s.threads.set i (.returned (none, some (recovered value stack)))) +
        (counted s.shared.period (.running a : Pc A)).toNat =
        List.countP (counted s.shared.period) s.threads := hcount
    rw [← hcount] at h
    by_cases hc : s.shared.counts a = true
    · have hslot : counted s.shared.period (.running a : Pc A) = true := counted_of_counts hc
      rw [hslot] at h
      simp only [hc, if_true]
      refine h.panicked fun hs => ?_
      simpa [LeavesSlot, leavesSlot, hs, hi, hslot] using hok
    · simp only [hc]
      refine ⟨fun hs => ?_, h.lost⟩
      have hs : s.shared.cb.state = .halfOpen := hs
      have hslot : counted s.shared.period (.running a : Pc A) = false := by
        simpa [Shared.counts, counted, hs] using hc
      rw [hslot] at h
      exact h.held hs

def isRunning : Pc A → Bool
  | .running _ => true
  | _ => false

def Idle (s : Config Shared (Pc A)) : Prop := ∀ pc ∈ s.threads, isRunning pc = false

instance (s : Config Shared (Pc A)) : Decidable (Idle s) :=
  inferInstanceAs (Decidable (∀ pc ∈ s.threads, isRunning pc = false))

theorem beforeCall_admits {cfg : BreakerConfig} {s : Config Shared (Pc A)} {i : Nat} {now : Int}
    (hs : s.shared.cb.state = .halfOpen)
    (hlt : s.shared.cb.halfOpenInFlight < cfg.maxRequests) (hi : s.threads[i]? = some .called)
    (hnow : s.shared.clock ≤ now) :
    ∃ t a, (calls cfg).fire s i (.before now) = some t ∧ t.threads[i]? = some (.running a) := by
  have hin : i < s.threads.length := (List.getElem?_eq_some_iff.mp hi).1
  have hstep : ∃ g, callStep (A := A) cfg s.shared .called (.before now) =
      some (g, .running ⟨.halfOpen, s.shared.period⟩) := by
    simp [callStep, beforeCall, hs, Shared.letIn, Int.not_lt.mpr hnow, Nat.not_le.mpr hlt]
  obtain ⟨g, hstep⟩ := hstep
  refine ⟨⟨g, s.threads.set i (.running ⟨.halfOpen, s.shared.period⟩)⟩,
    ⟨.halfOpen, s.shared.period⟩, ?_, ?_⟩
  · simp [Program.fire, calls, hi, hstep]
  · simp [hin]

/-- In every run in which fewer than `MaxRequests` counted calls of a half-open
period panic, a half-open breaker with no call running admits the next one. -/
theorem admitted_when_idle {cfg : BreakerConfig} {start₀ : Int} {n : Nat}
    {tr : List (Nat × Ev A)} {s : Config Shared (Pc A)} (hmax : 1 ≤ cfg.maxRequests)
    (hrun : Run (calls cfg) (LeavesSlot cfg) (start cfg start₀ n) tr s)
    (hs : s.shared.cb.state = .halfOpen) (hidle : Idle s) {i : Nat} {now : Int}
    (hi : s.threads[i]? = some .called) (hnow : s.shared.clock ≤ now) :
    ∃ t a, (calls cfg).fire s i (.before now) = some t ∧ t.threads[i]? = some (.running a) := by
  have hslots := Run.invariant
    (I := fun s => Slots cfg s.shared (s.threads.countP (counted s.shared.period))) hrun
    ⟨nofun, nofun⟩ fun _ _ _ _ h hok hf => slots_fire hmax h hok hf
  have hnone : s.threads.countP (counted s.shared.period) = 0 := by
    rw [List.countP_eq_zero]
    intro pc hpc hc
    cases pc with
    | running a => cases hidle _ hpc
    | called => cases hc
    | returned out => cases hc
  have hheld := hslots.held hs
  have hlost := hslots.lost hs
  exact beforeCall_admits hs (by omega) hi hnow

/-- The probe succeeds, and the next call panics. -/
def secondPanics : List (Nat × Ev Unit) :=
  opensAndProbes ++ [(1, .finish (some (), none) (61 * second) (61 * second)),
    (2, .before (61 * second)), (2, .panic "nil map" "goroutine 7")]

theorem secondPanics_runs :
    (exec (calls oneFailure) Any (start oneFailure 0 4) secondPanics).isSome := by
  decide +kernel

/-- With `MaxRequests = 1`, one panic of a counted call leaves no slot. -/
theorem not_admitted_when_idle : ¬ ∀ (cfg : BreakerConfig) now₀ n (tr : List (Nat × Ev Unit)) s,
    1 ≤ cfg.maxRequests → Run (calls cfg) Any (start cfg now₀ n) tr s →
    s.shared.cb.state = .halfOpen → Idle s →
    ∀ (i : Nat) now, s.threads[i]? = some .called → s.shared.clock ≤ now →
      ∃ t a, (calls cfg).fire s i (.before now) = some t ∧ t.threads[i]? = some (.running a) := by
  intro h
  obtain ⟨t, a, hfire, ht⟩ := h oneFailure 0 4 _ _ (by decide) (run_exec secondPanics_runs)
    (by decide +kernel) (by decide +kernel) 3 (61 * second) (by decide +kernel) (by decide +kernel)
  have hrej : ((calls oneFailure).fire (Option.get _ secondPanics_runs) 3
      (.before (61 * second))).map (fun t => t.threads[3]?) =
      some (some (.returned (none, some (.sentinel .errTooManyRequests)))) := by
    decide +kernel
  rw [hfire, Option.map_some, ht] at hrej
  cases hrej

def twoSlots : BreakerConfig := { oneFailure with maxRequests := 2 }

theorem secondPanics_twoSlots_runs :
    (exec (calls twoSlots) (LeavesSlot twoSlots) (start twoSlots 0 4) secondPanics).isSome := by
  decide +kernel

theorem admitted_when_idle_twoSlots :
    ∃ t a, (calls twoSlots).fire (Option.get _ secondPanics_twoSlots_runs) 3
      (.before (61 * second)) = some t ∧ t.threads[3]? = some (.running a) :=
  admitted_when_idle (by decide) (run_exec secondPanics_twoSlots_runs) (by decide +kernel)
    (by decide +kernel) (by decide +kernel) (by decide +kernel)

/-- The breaker is half-open, nothing runs and no slot is left. -/
structure Jammed (cfg : BreakerConfig) (s : Config Shared (Pc A)) : Prop where
  halfOpen : s.shared.cb.state = .halfOpen
  full : cfg.maxRequests ≤ s.shared.cb.halfOpenInFlight
  idle : Idle s

/-- A jammed breaker stays so, and turns every later call away. -/
theorem rejected_forever {cfg : BreakerConfig} {s t : Config Shared (Pc A)}
    {tr : List (Nat × Ev A)} (h : Jammed cfg s) (hrun : Run (calls cfg) Any s tr t) :
    Jammed cfg t ∧ TurnedAway .errTooManyRequests s t := by
  refine Run.invariant (I := fun t => Jammed cfg t ∧ TurnedAway .errTooManyRequests s t) hrun
    ⟨h, .refl⟩ ?_
  rintro t i e u ⟨hjam, haway⟩ - hfire
  obtain ⟨pc, pc', hi, hstep, hu⟩ := fire_stepped hfire
  have hhalf := hjam.halfOpen
  have hfull := hjam.full
  have hidle := hjam.idle _ (List.mem_of_getElem? hi)
  obtain ⟨g, ts⟩ := u
  cases hstep with
  | rejected hclock hrej =>
    cases hrej with
    | circuitOpen hopen => rw [hhalf] at hopen; cases hopen
    | tooManyRequests =>
      refine ⟨⟨hhalf, hfull, ?_⟩, haway.set hi hu (.inr rfl)⟩
      cases hu
      exact forall_set rfl hjam.idle fun _ hp => hp
  | closed hclock hclosed => rw [hhalf] at hclosed; cases hclosed
  | opener hclock hopen => rw [hhalf] at hopen; cases hopen
  | counted hclock _ hlt => exact absurd hlt (Nat.not_lt.mpr hfull)
  | finished => cases hidle
  | panicked => cases hidle

example : Jammed oneFailure (Option.get _ secondPanics_runs) :=
  ⟨by decide +kernel, by decide +kernel, by decide +kernel⟩

end RpcInGo.Breaker.Probes
