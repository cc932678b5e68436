import RpcInGo.Pool.Accounting

/-!
The refill of `cleanup` creates connections and sends them to the idle channel while
it holds the mutex of the pool. A full channel would block it there, and with it every
`Get` and `Put`.

* `poolStep_refills`: while the refill holds the mutex nobody else changes
  `currentSize`, and the refill counts up to `MinSize`;
* `refill_has_room`: whenever the refill sends, the channel has room, and neither does
  `NewConnectionPool` block.
-/

namespace RpcInGo.Pool.Refill
open Lib.Channel Lib.Goroutine Protocol.Message Options Model Closing Accounting

/-- The program points at which `cleanup` holds the mutex. -/
def holding : Pc → Int
  | .refillDial _ | .refillSend _ _ | .refillGrow _ | .refillStat _ => 1
  | _ => 0

/-- The connections a refill has still to count. -/
def owed : Pc → Int
  | .refillDial n | .refillStat n => n
  | .refillSend _ n | .refillGrow n => n + 1
  | _ => 0

theorem holding_nonneg (pc : Pc) : 0 ≤ holding pc := by
  cases pc <;> simp only [holding] <;> decide

theorem owed_nonneg (pc : Pc) : 0 ≤ owed pc := by
  fun_cases owed pc <;> omega

theorem owed_of_not_holding {pc : Pc} (h : holding pc = 0) : owed pc = 0 := by
  cases pc <;> first | rfl | cases h

/-- What an operation in progress adds to `currentSize`, but for a refill between its
send and its count. -/
theorem carried_nonneg (pc : Pc) : 0 ≤ ((hand pc).length + drift pc) + holding pc := by
  cases pc <;> simp only [drift, holding, hand, List.length_cons, List.length_nil] <;> omega

/-! ## One step -/

/-- What a step of an open pool does to the mutex and to the size. -/
inductive Refills (o : PoolOptions) (p : ConnectionPool) (pc : Pc) (p' : ConnectionPool)
    (pc' : Pc) : Prop
  | outside : holding pc = 0 → holding pc' = 0 → p'.locked = p.locked →
      (p.locked = true → p'.currentSize = p.currentSize) → Refills o p pc p' pc'
  | start : holding pc = 0 → holding pc' = 1 → p.locked = false → p'.locked = true →
      p'.currentSize + owed pc' = o.minSize → Refills o p pc p' pc'
  | work : holding pc = 1 → holding pc' = 1 → p'.locked = p.locked →
      p'.currentSize + owed pc' = p.currentSize + owed pc → Refills o p pc p' pc'
  | done : holding pc = 1 → holding pc' = 0 → p'.locked = false → Refills o p pc p' pc'

section Steps
variable {o : PoolOptions} {p p' : ConnectionPool} {pc pc' : Pc} {e : Ev}

theorem Refills.same (hpc : holding pc = 0) (hpc' : holding pc' = 0) (hl : p'.locked = p.locked)
    (hs : p'.currentSize = p.currentSize) : Refills o p pc p' pc' :=
  .outside hpc hpc' hl fun _ => hs

theorem recvStep_refills {k : Option ConnId → Pc} (hpc : holding pc = 0)
    (hk : ∀ c, holding (k c) = 0) (h : recvStep p k = some (p', pc')) : Refills o p pc p' pc' := by
  obtain ⟨c, ch, -, -, -, rfl, rfl⟩ | ⟨-, rfl, rfl⟩ := recvStep_cases h
  · exact .same hpc (hk _) rfl rfl
  · exact .same hpc (hk _) rfl rfl

theorem sendStep_refills {c : ConnId} {k : Pc} (hpc : holding pc = 0) (hk : holding k = 0)
    (h : sendStep p c k = some (p', pc')) : Refills o p pc p' pc' := by
  obtain ⟨ch, -, -, -, -, rfl, rfl⟩ | ⟨-, rfl, rfl⟩ := sendStep_cases h
  · exact .same hpc hk rfl rfl
  · exact .same hpc rfl rfl rfl

theorem emptyStep_refills {k : Pc} (hpc : holding pc = 0) (hk : holding k = 0)
    (h : emptyStep p k = some (p', pc')) : Refills o p pc p' pc' := by
  obtain ⟨-, -, rfl, rfl⟩ := emptyStep_cases h
  exact .same hpc hk rfl rfl

theorem getStep_refills (h : getStep o p pc e = some (p', pc')) : Refills o p pc p' pc' := by
  revert h
  fun_cases getStep o p pc e <;> intro h <;> try contradiction
  all_goals first
    | exact recvStep_refills rfl (fun _ => rfl) h
    | exact emptyStep_refills rfl rfl h
    | cases h
      first
      | exact .same rfl rfl rfl rfl
      | exact .outside rfl rfl rfl (fun hl => absurd hl (by assumption))

theorem discardStep_refills (h : discardStep p pc e = some (p', pc')) : Refills o p pc p' pc' := by
  revert h
  fun_cases discardStep p pc e <;> intro h <;> cases h
  · exact .same rfl rfl rfl rfl
  · exact .same rfl rfl rfl rfl
  · rename_i k hfree
    exact .outside rfl (by cases k <;> rfl) rfl (fun hl => absurd hl hfree)

theorem putStep_refills (h : putStep o p pc e = some (p', pc')) : Refills o p pc p' pc' := by
  revert h
  fun_cases putStep o p pc e <;> intro h <;> try contradiction
  all_goals cases h; exact .same rfl rfl rfl rfl

theorem cleanupStep_refills (h : cleanupStep o p pc e = some (p', pc'))
    (hc : p.pool.closed = false) : Refills o p pc p' pc' := by
  revert h
  fun_cases cleanupStep o p pc e <;> intro h <;> try contradiction
  all_goals first
    | exact recvStep_refills rfl (fun _ => rfl) h
    | exact emptyStep_refills rfl rfl h
    | exact sendStep_refills rfl rfl h
    | cases h; exact .same rfl rfl rfl rfl
    | cases h; exact .done rfl rfl rfl
    | cases h; exact .work rfl rfl rfl rfl
    | cases h; exact .work rfl rfl rfl (by simp only [owed]; omega)
    | skip
  case case9 hfree hlow =>
    cases h
    exact .start rfl rfl (by simpa using hfree) rfl (by simp only [owed]; omega)
  -- the send of a refill
  obtain ⟨ch, -, -, -, -, rfl, rfl⟩ | ⟨hclosed, -, -⟩ := sendStep_cases h
  · exact .work rfl rfl rfl rfl
  · rw [hc] at hclosed
    cases hclosed

theorem healthStep_refills (h : healthStep p pc e = some (p', pc')) : Refills o p pc p' pc' := by
  revert h
  fun_cases healthStep p pc e <;> intro h <;> try contradiction
  all_goals first
    | exact recvStep_refills rfl (fun _ => rfl) h
    | exact emptyStep_refills rfl rfl h
    | exact sendStep_refills rfl rfl h
    | cases h; exact .same rfl rfl rfl rfl

/-- Of the steps of `Close`, none leaves the pool open that was open before, but for a
second `Close`. -/
theorem closeStep_refills (h : closeStep p pc e = some (p', pc')) (hl : late pc = false)
    (ho : p'.closed = false) : Refills o p pc p' pc' := by
  revert h
  fun_cases closeStep p pc e <;> intro h <;> try contradiction
  all_goals cases h
  · exact .same rfl rfl rfl rfl
  · cases ho

theorem poolStep_refills (h : poolStep o p pc e = some (p', pc')) (hc : p.pool.closed = false)
    (hl : late pc = false) (ho : p'.closed = false) : Refills o p pc p' pc' := by
  obtain ⟨r, op, rfl, rfl, hs⟩ | h | h | h | h | h | h := poolStep_cases h
  · revert hs
    fun_cases callStep p op <;> intro hs <;> cases hs <;> exact .same rfl rfl rfl rfl
  · exact getStep_refills h
  · exact discardStep_refills h
  · exact putStep_refills h
  · exact cleanupStep_refills h hc
  · exact healthStep_refills h
  · exact closeStep_refills h hl ho

end Steps

/-! ## All goroutines -/

/-- One refill at most holds the mutex of an open pool, and what it still owes is what
is missing to `MinSize`. -/
structure Refilling (o : PoolOptions) (s : Config ConnectionPool Pc) : Prop where
  mutex : total holding s.threads = if s.shared.locked then 1 else 0
  missing : s.shared.locked = true → s.shared.currentSize + total owed s.threads = o.minSize

theorem Refills.refilling {o : PoolOptions} {p' : ConnectionPool} {pc pc' : Pc}
    {s : Config ConnectionPool Pc} {i : Nat} (hr : Refilling o s) (hi : s.threads[i]? = some pc)
    (h : Refills o s.shared pc p' pc') : Refilling o ⟨p', s.threads.set i pc'⟩ := by
  have hmutex := hr.mutex
  have hmissing := hr.missing
  have hle : holding pc ≤ total holding s.threads :=
    le_total_of_mem holding_nonneg (List.mem_of_getElem? hi)
  cases h with
  | outside hpc hpc' hlocked hsize =>
    have h0 := owed_of_not_holding hpc
    have h0' := owed_of_not_holding hpc'
    refine ⟨?_, ?_⟩
    · simp only [total_set _ _ hi, hpc, hpc', hlocked]
      omega
    · intro hl
      simp only [hlocked] at hl
      have := hmissing hl
      simp only [total_set _ _ hi, h0, h0', hsize hl]
      omega
  | start hpc hpc' hfree hlocked hsize =>
    -- the mutex was free, so nobody owed anything
    simp only [hfree] at hmutex
    have hnobody : total owed s.threads = 0 := by
      apply total_eq_zero
      intro q hq
      have hge := le_total_of_mem holding_nonneg hq
      have := holding_nonneg q
      exact owed_of_not_holding (by simp at hmutex; omega)
    have h0 := owed_of_not_holding hpc
    refine ⟨?_, fun _ => ?_⟩
    · simp only [total_set _ _ hi, hpc, hpc', hlocked]
      simp at hmutex
      simp
      omega
    · simp only [total_set _ _ hi, h0, hnobody]
      omega
  | work hpc hpc' hlocked hsize =>
    refine ⟨?_, ?_⟩
    · simp only [total_set _ _ hi, hpc, hpc', hlocked]
      omega
    · intro hl
      simp only [hlocked] at hl
      have := hmissing hl
      simp only [total_set _ _ hi]
      omega
  | done hpc hpc' hlocked =>
    refine ⟨?_, ?_⟩
    · simp only [total_set _ _ hi, hpc, hpc', hlocked]
      split at hmutex <;> simp <;> omega
    · intro hl
      rw [hlocked] at hl
      cases hl

theorem start_refilling {o : PoolOptions} {p : ConnectionPool} (hf : Fresh o p) (n : Nat) :
    Refilling o (start p n) := by
  refine ⟨?_, fun hl => ?_⟩
  · rw [total_eq_zero (fun q hq => by rw [List.eq_of_mem_replicate hq]; rfl)]
    simp [start, hf.free]
  · rw [show (start p n).shared.locked = false from hf.free] at hl
    cases hl

theorem run_refilling {o : PoolOptions} {p : ConnectionPool} {n : Nat} {tr : List (Nat × Ev)}
    {s : Config ConnectionPool Pc} (hf : Fresh o p)
    (hr : Run (program o) PutOnce (start p n) tr s) :
    Balanced s ∧ s.shared.pool.cap = o.maxSize.toNat ∧
      (s.shared.closed = false → Refilling o s) := by
  refine hr.invariant (I := fun s => Balanced s ∧ s.shared.pool.cap = o.maxSize.toNat ∧
    (s.shared.closed = false → Refilling o s))
    ⟨start_balanced hf n, hf.cap, fun _ => start_refilling hf n⟩ ?_
  rintro s i e t ⟨hb, hcap, hopen⟩ hok hfire
  have hb' := fire_balanced hb hok hfire
  obtain ⟨pc, p', pc', hi, hs, rfl⟩ := fire_pool hfire
  have hmem : pc ∈ s.threads := List.mem_of_getElem? hi
  have hcl := poolStep_closes hs hb.chan (hb.after pc hmem)
  refine ⟨hb', hcl.cap.trans hcap, fun ho => ?_⟩
  have hopen' : s.shared.closed = false := by
    cases hc : s.shared.closed with
    | false => rfl
    | true => rw [hcl.mono hc] at ho; cases ho
  have hl : late pc = false := by
    cases hl : late pc with
    | false => rfl
    | true => rw [hb.after pc hmem hl] at hopen'; cases hopen'
  exact (poolStep_refills hs (hb.chan.trans hopen') hl ho).refilling (hopen hopen') hi

/-! ## The sends -/

theorem preCreate_isSome (factory : Nat → Option Int) {i n : Nat} {p : ConnectionPool}
    (hc : p.pool.closed = false) (hroom : p.pool.buf.length + n ≤ p.pool.cap) :
    (preCreate factory i n p).isSome := by
  induction n generalizing i p with
  | zero => rfl
  | succ n ih =>
    unfold preCreate
    cases factory i with
    | none => rfl
    | some now =>
      have hlt : p.pool.buf.length < p.pool.cap := by omega
      simp only [ConnectionPool.createConnection, send_of_room _ hc hlt]
      refine ih hc ?_
      simp only [Chan.push, List.length_append, List.length_cons, List.length_nil]
      omega

theorem refillSend_fires {o : PoolOptions} {s : Config ConnectionPool Pc} {i : Nat} {c : ConnId}
    {m : Nat} (hi : s.threads[i]? = some (.refillSend c m)) (hc : s.shared.pool.closed = false)
    (hroom : s.shared.pool.buf.length < s.shared.pool.cap) :
    ((program o).fire s i .step).isSome := by
  have hstep : (cleanupStep o s.shared (.refillSend c m) .step).isSome := by
    simp only [cleanupStep, sendStep, send_of_room c hc hroom, Option.isSome_some]
  refine fire_isSome hi ?_
  simp only [program, poolStep, Option.isSome_map, Option.isSome_or, hstep, Bool.true_or,
    Bool.or_true]

/-- In no interleaving does the refill of `cleanup`, which holds the mutex, find the
idle channel of an open pool full, however far `currentSize` has gone beyond `MaxSize`
before: the send can be made at once. `NewConnectionPool` does not block either. -/
theorem refill_has_room {o : PoolOptions} {factory : Nat → Option Int} (hv : validate o = none) :
    (newConnectionPool o factory).isSome ∧
    ∀ (p : ConnectionPool) (n : Nat) (tr : List (Nat × Ev)) (s : Config ConnectionPool Pc),
      newConnectionPool o factory = some p → Run (program o) PutOnce (start p n) tr s →
      s.shared.closed = false →
      ∀ (i : Nat) (c : ConnId) (m : Nat), s.threads[i]? = some (.refillSend c m) →
        s.shared.locked = true ∧ s.shared.pool.buf.length < s.shared.pool.cap ∧
        ((program o).fire s i .step).isSome := by
  obtain ⟨hmax, hmin, hle⟩ := validate_sizes hv
  refine ⟨preCreate_isSome factory rfl ?_, ?_⟩
  · simp only [emptyPool, Chan.make, List.length_nil]
    omega
  intro p n tr s h0 hr hopen i c m hi
  obtain ⟨hb, hcap, hrefill⟩ := run_refilling (newConnectionPool_fresh h0) hr
  obtain ⟨hmutex, hmissing⟩ := hrefill hopen
  have hmem : .refillSend c m ∈ s.threads := List.mem_of_getElem? hi
  have hhold : (1 : Int) ≤ total holding s.threads := le_total_of_mem holding_nonneg hmem
  have hlocked : s.shared.locked = true := by
    cases hl : s.shared.locked with
    | true => rfl
    | false => rw [hl] at hmutex; simp at hmutex; omega
  rw [hlocked] at hmutex
  -- the refill owes the connection it is about to send
  have howed : (m + 1 : Int) ≤ total owed s.threads :=
    le_total_of_mem owed_nonneg hmem
  have hsize := hb.size hopen
  -- nobody is between the send and the count of a refill: that is one more holder
  have hcarried : (1 : Int) ≤
      total (fun pc => ((hand pc).length + drift pc) + holding pc) s.threads :=
    le_total_of_mem carried_nonneg hmem
  rw [total_add] at hcarried
  have hroom : s.shared.pool.buf.length < s.shared.pool.cap := by
    have := hmissing hlocked
    simp only [if_true] at hmutex
    omega
  refine ⟨hlocked, hroom, ?_⟩
  exact refillSend_fires hi (hb.chan.trans hopen) hroom

/-- The factory has failed at construction, so a first `cleanup` has one connection to
create. A `Get` creates one while the refill dials, and has to wait with its count. -/
def lateRefill : List (Nat × Ev) :=
  [(1, .call .get), (1, .step), (1, .step), (1, .otherwise), (1, .step),
   (0, .call .cleanup), (0, .otherwise), (0, .step), (0, .step), (1, .created 5), (0, .created 6)]

def unfilled : Config ConnectionPool Pc := start (emptyPool smallPool) 2

theorem lateRefill_runs : (exec (program smallPool) PutOnce unfilled lateRefill).isSome := by decide

theorem refill_has_room_lateRefill :
    let s := (exec (program smallPool) PutOnce unfilled lateRefill).get lateRefill_runs
    s.shared.closed = false ∧ s.threads[0]? = some (.refillSend 1 0) ∧
    s.shared.locked = true ∧ s.shared.pool.buf.length < s.shared.pool.cap ∧
    ((program smallPool).fire s 0 .step).isSome :=
  ⟨by decide, by decide, (refill_has_room (by decide)).2 (emptyPool smallPool) 2 lateRefill _
    (show newConnectionPool smallPool (fun _ => none) = _ by rfl) (run_exec lateRefill_runs)
    (by decide) 0 1 0 (by decide)⟩

end RpcInGo.Pool.Refill
