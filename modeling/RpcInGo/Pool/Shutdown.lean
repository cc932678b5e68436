import RpcInGo.Pool.Accounting

/-!
`Close` against operations in progress. Every operation tests the closed flag
at most once, in a critical section of its own, and touches the idle channel
later without testing again.

* `close_panics_operations`: a `Put` past its test sends on the closed channel,
  a `Get` past its test uses the nil connection it receives from it;
* `close_without_exposed`: in every run in which `Close` closes the channel
  only while no operation is exposed, neither ever happens.
-/

namespace RpcInGo.Pool.Shutdown
open Lib.Channel Lib.Goroutine Protocol.Message Options Model Closing Accounting

def After.exposed : After → Bool
  | .create | .cleanup _ => true
  | .put => false
  | .healthCheck rest => rest ≠ []

/-- Program points from which an operation may still send to the idle channel,
or receive from it and use what it gets, without testing the closed flag again.
The drain loops are not among them: on a closed channel they receive for ever. -/
def exposed : Pc → Bool
  | .getSelect | .getHealthy _ | .getExpired _ | .createSize | .createWait => true
  | .putHealthy _ | .putExpired _ | .putSend _ => true
  | .discardClose _ k | .discardStat k | .discardSize k => After.exposed k
  | .cleanupCheck _ | .cleanupSend _ _ => true
  | .refillSize | .refillDial _ | .refillSend _ _ | .refillGrow _ | .refillStat _ => true
  | .healthCheck toCheck => toCheck ≠ []
  | .healthSend _ _ => true
  | .panicked _ => true
  | _ => false

theorem exposed_after (k : After) : exposed k.pc = After.exposed k := by cases k <;> rfl

/-- `Close` takes the lock only while nobody is exposed. -/
def safeClose (s : Config ConnectionPool Pc) (i : Nat) : Bool :=
  match s.threads[i]? with
  | some .closeLock => s.threads.all fun pc => !exposed pc
  | _ => true

def SafeClose (s : Config ConnectionPool Pc) (i : Nat) (_ : Ev) : Prop := safeClose s i = true

instance (s : Config ConnectionPool Pc) (i : Nat) (e : Ev) : Decidable (SafeClose s i e) :=
  inferInstanceAs (Decidable (_ = true))

theorem SafeClose.all {s : Config ConnectionPool Pc} {i : Nat} {e : Ev} (h : SafeClose s i e)
    (hi : s.threads[i]? = some .closeLock) : ∀ pc ∈ s.threads, exposed pc = false := by
  simpa [SafeClose, safeClose, hi] using h

section Steps
variable {o : PoolOptions} {p p' : ConnectionPool} {pc pc' : Pc} {e : Ev}

/-- Receiving from the closed channel keeps a drain loop in its drain loop. -/
theorem recvStep_unexposed {k : Option ConnId → Pc} (hk : ∀ c, exposed (k c) = false)
    (h : recvStep p k = some (p', pc')) : exposed pc' = false := by
  obtain ⟨c, ch, -, -, -, -, rfl⟩ | ⟨-, -, rfl⟩ := recvStep_cases h
  · exact hk _
  · exact hk _

/-- In a closed pool nobody becomes exposed. -/
theorem poolStep_unexposed (h : poolStep o p pc e = some (p', pc')) (hc : p.closed = true)
    (hchan : p.pool.closed = true) (hx : exposed pc = false) : exposed pc' = false := by
  obtain ⟨r, op, rfl, rfl, hs⟩ | h | h | h | h | h | h := poolStep_cases h
  · revert hs
    fun_cases callStep p op <;> intro hs <;> cases hs <;> rfl
  · revert h
    fun_cases getStep o p pc e <;> intro h <;> try contradiction
    all_goals cases h; rfl
  · revert h
    fun_cases discardStep p pc e <;> intro h <;> cases h
    · exact hx
    · exact hx
    · rw [exposed_after]
      exact hx
  · revert h
    fun_cases putStep o p pc e <;> intro h <;> try contradiction
    all_goals cases h; rfl
  · revert h
    fun_cases cleanupStep o p pc e <;> intro h <;> try contradiction
    · exact recvStep_unexposed (fun _ => rfl) h
    · rw [(emptyStep_cases h).2.1] at hchan
      cases hchan
  · revert h
    fun_cases healthStep p pc e <;> intro h <;> try contradiction
    all_goals first
      | exact recvStep_unexposed (fun _ => rfl) h
      | rw [(emptyStep_cases h).2.1] at hchan; cases hchan
      | cases h; rfl
  · revert h
    fun_cases closeStep p pc e <;> intro h <;> try contradiction
    all_goals cases h; rfl

theorem recvStep_closed {k : Option ConnId → Pc} (h : recvStep p k = some (p', pc')) :
    p'.closed = p.closed := by
  obtain ⟨c, ch, -, -, -, rfl, -⟩ | ⟨-, rfl, -⟩ := recvStep_cases h <;> rfl

theorem sendStep_closed {c : ConnId} {k : Pc} (h : sendStep p c k = some (p', pc')) :
    p'.closed = p.closed := by
  obtain ⟨ch, -, -, -, -, rfl, -⟩ | ⟨-, rfl, -⟩ := sendStep_cases h <;> rfl

theorem emptyStep_closed {k : Pc} (h : emptyStep p k = some (p', pc')) :
    p'.closed = p.closed := by
  obtain ⟨-, -, rfl, -⟩ := emptyStep_cases h
  rfl

/-- Only the first step of `Close` closes a pool. -/
theorem poolStep_closed (h : poolStep o p pc e = some (p', pc')) :
    p'.closed = p.closed ∨ pc = .closeLock ∧ exposed pc' = false := by
  obtain ⟨r, op, rfl, rfl, hs⟩ | h | h | h | h | h | h := poolStep_cases h
  · revert hs
    fun_cases callStep p op <;> intro hs <;> cases hs <;> exact Or.inl rfl
  · revert h
    fun_cases getStep o p pc e <;> intro h <;> try contradiction
    all_goals first
      | exact Or.inl (recvStep_closed h)
      | exact Or.inl (emptyStep_closed h)
      | cases h; exact Or.inl rfl
  · revert h
    fun_cases discardStep p pc e <;> intro h <;> cases h <;> exact Or.inl rfl
  · revert h
    fun_cases putStep o p pc e <;> intro h <;> try contradiction
    all_goals cases h; exact Or.inl rfl
  · revert h
    fun_cases cleanupStep o p pc e <;> intro h <;> try contradiction
    all_goals first
      | exact Or.inl (recvStep_closed h)
      | exact Or.inl (emptyStep_closed h)
      | exact Or.inl (sendStep_closed h)
      | cases h; exact Or.inl rfl
  · revert h
    fun_cases healthStep p pc e <;> intro h <;> try contradiction
    all_goals first
      | exact Or.inl (recvStep_closed h)
      | exact Or.inl (emptyStep_closed h)
      | exact Or.inl (sendStep_closed h)
      | cases h; exact Or.inl rfl
  · revert h
    fun_cases closeStep p pc e <;> intro h <;> try contradiction
    all_goals cases h
    all_goals first
      | exact Or.inl rfl
      | exact Or.inr ⟨rfl, rfl⟩

end Steps

/-! ## Runs -/

structure Guarded (s : Config ConnectionPool Pc) : Prop where
  chan : s.shared.pool.closed = s.shared.closed
  after : ∀ pc ∈ s.threads, late pc = true → s.shared.closed = true
  safe : s.shared.closed = true → ∀ pc ∈ s.threads, exposed pc = false

theorem fire_guarded {o : PoolOptions} {s t : Config ConnectionPool Pc} {i : Nat} {e : Ev}
    (hg : Guarded s) (hok : SafeClose s i e) (h : (program o).fire s i e = some t) :
    Guarded t := by
  obtain ⟨pc, p', pc', hi, hs, rfl⟩ := fire_pool h
  have hmem : pc ∈ s.threads := List.mem_of_getElem? hi
  have hcl := poolStep_closes hs hg.chan (hg.after pc hmem)
  refine ⟨hcl.chan, ?_, ?_⟩
  · exact forall_set hcl.after hg.after (fun q hq hl => hcl.mono (hq hl))
  · intro hc
    cases hb : s.shared.closed with
    | true =>
      have hx := poolStep_unexposed hs hb (hg.chan.trans hb) (hg.safe hb pc hmem)
      exact forall_set hx (hg.safe hb) (fun _ hq => hq)
    | false =>
      -- the step that closes the pool is the one the condition is about
      rcases poolStep_closed hs with hsame | ⟨rfl, hx⟩
      · rw [show p'.closed = true from hc, hb] at hsame
        cases hsame
      · exact forall_set hx (hok.all hi) (fun _ hq => hq)

theorem Guarded.no_panic {s : Config ConnectionPool Pc} (hg : Guarded s) :
    ∀ pc ∈ s.threads, ∀ why, pc ≠ .panicked why := by
  rintro pc hpc why rfl
  have hc := hg.after _ hpc rfl
  have := hg.safe hc _ hpc
  cases this

theorem start_guarded {o : PoolOptions} {p : ConnectionPool} (hf : Fresh o p) (n : Nat) :
    Guarded (start p n) := by
  have hidle : ∀ pc ∈ (start p n).threads, pc = .returned .done :=
    fun _ hpc => List.eq_of_mem_replicate hpc
  refine ⟨hf.chan.trans hf.opened.symm, ?_, ?_⟩
  · intro pc hpc hl
    rw [hidle pc hpc] at hl
    cases hl
  · intro _ pc hpc
    rw [hidle pc hpc]
    rfl

/-- If the pool is closed only while no operation is exposed, no operation ever
sends on the closed channel or uses the nil connection received from it. -/
theorem close_without_exposed {o : PoolOptions} {factory : Nat → Option Int}
    {p : ConnectionPool} {n : Nat} {tr : List (Nat × Ev)} {s : Config ConnectionPool Pc}
    (h0 : newConnectionPool o factory = some p)
    (hr : Run (program o) SafeClose (start p n) tr s) :
    ∀ pc ∈ s.threads, pc ≠ .panicked .sendOnClosedChannel ∧ pc ≠ .panicked .nilConnection := by
  have hg : Guarded s := hr.invariant (start_guarded (newConnectionPool_fresh h0) n)
    (fun _ _ _ _ hg hok hf => fire_guarded hg hok hf)
  intro pc hpc
  exact ⟨hg.no_panic pc hpc _, hg.no_panic pc hpc _⟩

/-- A Get completes, the pool is closed, the connection is given back. -/
def closeBetween : List (Nat × Ev) :=
  [(0, .call .get), (0, .step), (0, .step), (0, .recv), (0, .connected true), (0, .now 1),
   (1, .call .close), (1, .step), (1, .step),
   (0, .call (.put (some 0))), (0, .step), (0, .step), (0, .step), (0, .step)]

theorem closeBetween_runs :
    (exec (program smallPool) SafeClose smallStart closeBetween).isSome := by decide

theorem close_without_exposed_closeBetween :
    let s := (exec (program smallPool) SafeClose smallStart closeBetween).get closeBetween_runs
    s.shared.closed = true ∧
    ∀ pc ∈ s.threads, pc ≠ .panicked .sendOnClosedChannel ∧ pc ≠ .panicked .nilConnection :=
  ⟨by decide, close_without_exposed (p := smallStart.shared)
    (show newConnectionPool smallPool (fun _ => some 0) = _ by rfl) (run_exec closeBetween_runs)⟩

/-- `Put` tests the flag, the pool is closed, `Put` sends. -/
def closeDuringPut : List (Nat × Ev) :=
  [(0, .call .get), (0, .step), (0, .step), (0, .recv), (0, .connected true), (0, .now 1),
   (0, .call (.put (some 0))), (0, .step), (0, .step),
   (1, .call .close), (1, .step),
   (0, .connected true), (0, .now 1), (0, .step)]

/-- `Get` tests the flag, the pool is closed and drained, `Get` receives nil. -/
def closeDuringGet : List (Nat × Ev) :=
  [(0, .call .get), (0, .step), (0, .step),
   (1, .call .close), (1, .step), (1, .recv), (1, .step), (1, .step), (1, .step),
   (0, .recv), (0, .step)]

theorem closeDuringPut_runs : (exec (program smallPool) Any smallStart closeDuringPut).isSome := by
  decide

theorem closeDuringGet_runs : (exec (program smallPool) Any smallStart closeDuringGet).isSome := by
  decide

theorem close_panics_operations :
    (¬ ∀ (o : PoolOptions) (factory : Nat → Option Int) (p : ConnectionPool) (n : Nat)
      (tr : List (Nat × Ev)) (s : Config ConnectionPool Pc), newConnectionPool o factory = some p →
      Run (program o) Any (start p n) tr s → .panicked .sendOnClosedChannel ∉ s.threads) ∧
    (¬ ∀ (o : PoolOptions) (factory : Nat → Option Int) (p : ConnectionPool) (n : Nat)
      (tr : List (Nat × Ev)) (s : Config ConnectionPool Pc), newConnectionPool o factory = some p →
      Run (program o) Any (start p n) tr s → .panicked .nilConnection ∉ s.threads) := by
  constructor
  · intro h
    have hno := h smallPool (fun _ => some 0) smallStart.shared 2 closeDuringPut _ rfl
      (run_exec closeDuringPut_runs)
    exact hno (by decide)
  · intro h
    have hno := h smallPool (fun _ => some 0) smallStart.shared 2 closeDuringGet _ rfl
      (run_exec closeDuringGet_runs)
    exact hno (by decide)

end RpcInGo.Pool.Shutdown
