import RpcInGo.Pool.Accounting

/-!
What the operations of the pool hand to their callers.

* `poolStep_handed`: a step gives away exactly the connection it returns, and
  the idle channel keeps its capacity;
* `poolStep_not_getting`: only `GetWithContext` returns connections;
* `run_unhindered`: a `Get` alone on a pool whose connections are all idle
  never has to wait for one.
-/

namespace RpcInGo.Pool.Handout
open Lib.Channel Lib.Goroutine Options Model Accounting

/-! ## One step -/

section PoolSteps
variable {o : PoolOptions} {p p' : ConnectionPool} {pc pc' : Pc} {e : Ev}

def given : Pc → List ConnId
  | .returned (.conn c) => [c]
  | _ => []

/-- Inside `GetWithContext`, or returning from it with a connection. -/
def getting : Pc → Bool
  | .getCount | .getClosed | .getSelect | .getHealthy _ | .getExpired _ => true
  | .createSize | .createWait | .createDial | .createGrow _ | .createStat _ => true
  | .discardClose _ k | .discardStat k | .discardSize k => k = .create
  | .returned (.conn _) => true
  | _ => false

theorem given_of_not_getting (h : getting pc = false) : given pc = [] := by
  cases pc with
  | returned r => cases r <;> simp_all [getting, given]
  | _ => rfl

theorem poolStep_inside (hpc : pc.idle = false) (h : poolStep o p pc e = some (p', pc')) :
    getStep o p pc e = some (p', pc') ∨ discardStep p pc e = some (p', pc') ∨
    putStep o p pc e = some (p', pc') ∨ cleanupStep o p pc e = some (p', pc') ∨
    healthStep p pc e = some (p', pc') ∨ closeStep p pc e = some (p', pc') := by
  obtain ⟨r, op, rfl, -, -⟩ | h := poolStep_cases h
  · cases hpc
  · exact h

/-- The operation hands out exactly what it returns, and the channel keeps its
capacity. -/
structure Handed (p p' : ConnectionPool) (pc' : Pc) : Prop where
  out : p'.checkedOut = given pc' ++ p.checkedOut
  cap : p'.pool.cap = p.pool.cap

theorem recvStep_handed {k : Option ConnId → Pc} (hk : ∀ c, given (k c) = [])
    (h : recvStep p k = some (p', pc')) : Handed p p' pc' := by
  obtain ⟨c, ch, -, hcap, -, rfl, rfl⟩ | ⟨-, rfl, rfl⟩ := recvStep_cases h
  · exact ⟨by simp [hk], hcap⟩
  · exact ⟨by simp [hk], rfl⟩

theorem sendStep_handed {c : ConnId} {k : Pc} (hk : given k = [])
    (h : sendStep p c k = some (p', pc')) : Handed p p' pc' := by
  obtain ⟨ch, -, -, hcap, -, rfl, rfl⟩ | ⟨-, rfl, rfl⟩ := sendStep_cases h
  · exact ⟨by simp [hk], hcap⟩
  · exact ⟨rfl, rfl⟩

theorem emptyStep_handed {k : Pc} (hk : given k = []) (h : emptyStep p k = some (p', pc')) :
    Handed p p' pc' := by
  obtain ⟨-, -, rfl, rfl⟩ := emptyStep_cases h
  exact ⟨by simp [hk], rfl⟩

theorem given_after (k : After) : given k.pc = [] := by cases k <;> rfl

theorem poolStep_handed (hpc : pc.idle = false) (h : poolStep o p pc e = some (p', pc')) :
    Handed p p' pc' := by
  obtain h | h | h | h | h | h := poolStep_inside hpc h
  · revert h
    fun_cases getStep o p pc e <;> intro h <;> try contradiction
    all_goals first
      | exact recvStep_handed (fun _ => rfl) h
      | exact emptyStep_handed (by rfl) h
      | cases h; exact ⟨rfl, rfl⟩
  · revert h
    fun_cases discardStep p pc e <;> intro h <;> cases h
    · exact ⟨rfl, rfl⟩
    · exact ⟨rfl, rfl⟩
    · exact ⟨by simp [given_after], rfl⟩
  · revert h
    fun_cases putStep o p pc e <;> intro h <;> try contradiction
    all_goals cases h
    all_goals first
      | exact ⟨rfl, rfl⟩
      | exact ⟨rfl, (send_ok (by assumption)).2.1⟩
  · revert h
    fun_cases cleanupStep o p pc e <;> intro h <;> try contradiction
    all_goals first
      | exact recvStep_handed (fun _ => rfl) h
      | exact emptyStep_handed (by rfl) h
      | exact sendStep_handed (by rfl) h
      | cases h; exact ⟨rfl, rfl⟩
  · revert h
    fun_cases healthStep p pc e <;> intro h <;> try contradiction
    all_goals first
      | exact recvStep_handed (fun _ => rfl) h
      | exact emptyStep_handed (by rfl) h
      | exact sendStep_handed (by rfl) h
      | cases h; exact ⟨rfl, rfl⟩
  · revert h
    fun_cases closeStep p pc e <;> intro h <;> try contradiction
    all_goals cases h
    all_goals first
      | exact ⟨rfl, rfl⟩
      | exact ⟨rfl, (recv_ok (by assumption)).2.1⟩

theorem recvStep_not_getting {k : Option ConnId → Pc} (hk : ∀ c, getting (k c) = false)
    (h : recvStep p k = some (p', pc')) : getting pc' = false := by
  obtain ⟨c, ch, -, -, -, -, rfl⟩ | ⟨-, -, rfl⟩ := recvStep_cases h
  · exact hk _
  · exact hk _

theorem sendStep_not_getting {c : ConnId} {k : Pc} (hk : getting k = false)
    (h : sendStep p c k = some (p', pc')) : getting pc' = false := by
  obtain ⟨ch, -, -, -, -, -, rfl⟩ | ⟨-, -, rfl⟩ := sendStep_cases h
  · exact hk
  · rfl

theorem emptyStep_not_getting {k : Pc} (hk : getting k = false)
    (h : emptyStep p k = some (p', pc')) : getting pc' = false := by
  obtain ⟨-, -, -, rfl⟩ := emptyStep_cases h
  exact hk

/-- `Put` and the background passes never turn into a `Get`. -/
theorem poolStep_not_getting (hpc : pc.idle = false) (hg : getting pc = false)
    (h : poolStep o p pc e = some (p', pc')) : getting pc' = false := by
  obtain h | h | h | h | h | h := poolStep_inside hpc h
  · revert h
    fun_cases getStep o p pc e <;> intro h <;> contradiction
  · revert h
    fun_cases discardStep p pc e <;> intro h <;> cases h
    · exact hg
    · exact hg
    · rename_i k _
      cases k <;> first | rfl | simp [getting] at hg
  · revert h
    fun_cases putStep o p pc e <;> intro h <;> try contradiction
    all_goals cases h
    all_goals rfl
  · revert h
    fun_cases cleanupStep o p pc e <;> intro h <;> try contradiction
    all_goals first
      | exact recvStep_not_getting (fun _ => rfl) h
      | exact emptyStep_not_getting (by rfl) h
      | exact sendStep_not_getting (by rfl) h
      | cases h; rfl
  · revert h
    fun_cases healthStep p pc e <;> intro h <;> try contradiction
    all_goals first
      | exact recvStep_not_getting (fun _ => rfl) h
      | exact emptyStep_not_getting (by rfl) h
      | exact sendStep_not_getting (by rfl) h
      | cases h; rfl
  · revert h
    fun_cases closeStep p pc e <;> intro h <;> try contradiction
    all_goals cases h
    all_goals rfl

/-- Outside the pool the only possible event is a call. -/
theorem poolStep_returned {r : Result} (h : poolStep o p (.returned r) e = some (p', pc')) :
    ∃ op, e = .call op ∧ callStep p op = (p', pc') := by
  obtain ⟨_, op, -, rfl, hc⟩ | h := poolStep_cases h
  · exact ⟨op, rfl, hc⟩
  · simp [getStep, discardStep, putStep, cleanupStep, healthStep, closeStep] at h

theorem poolStep_not_call (hpc : pc.idle = false) (h : poolStep o p pc e = some (p', pc'))
    (op : Op) : e ≠ .call op := by
  rintro rfl
  obtain h | h | h | h | h | h := poolStep_inside hpc h
  · cases pc <;> simp [getStep] at h
  · cases pc <;> simp [discardStep] at h
  · cases pc <;> simp [putStep] at h
  · cases pc <;> simp [cleanupStep] at h
  · cases pc <;> simp [healthStep] at h
  · cases pc <;> simp [closeStep] at h

end PoolSteps

/-! ## A `Get` when nobody holds a connection -/

/-- A `Get` alone on a pool whose connections are all idle: what it knows about
the size at each point. -/
def Unhindered (o : PoolOptions) (p : ConnectionPool) : Pc → Prop
  | .getCount | .getClosed | .getSelect => p.currentSize = p.pool.buf.length
  | .getHealthy (some _) | .getExpired _ => p.currentSize ≤ o.maxSize
  | .discardClose _ k | .discardStat k | .discardSize k =>
    k = .create ∧ p.currentSize ≤ o.maxSize
  | .createSize => p.currentSize < o.maxSize
  | .getHealthy none | .createDial | .createGrow _ | .createStat _ => True
  | .returned _ | .panicked _ => True
  | _ => False

def NoCall (_ : Config ConnectionPool Pc) (_ : Nat) (e : Ev) : Prop := ∀ op, e ≠ .call op

theorem getSelect_unhindered {o : PoolOptions} {p p' : ConnectionPool} {pc' : Pc}
    (hcap : p.pool.cap = o.maxSize.toNat) (hmax : 0 < o.maxSize)
    (hu : p.currentSize = p.pool.buf.length) (h : recvStep p .getHealthy = some (p', pc')) :
    Unhindered o p' pc' := by
  obtain ⟨c, ch, -, -, -, rfl, rfl⟩ | ⟨-, rfl, rfl⟩ := recvStep_cases h
  · have := p.pool.bounded
    show p.currentSize ≤ o.maxSize
    omega
  · trivial

theorem poolStep_unhindered {o : PoolOptions} {p p' : ConnectionPool} {pc pc' : Pc} {e : Ev}
    (hcap : p.pool.cap = o.maxSize.toNat) (hmax : 0 < o.maxSize) (hu : Unhindered o p pc)
    (he : ∀ op, e ≠ .call op) (h : poolStep o p pc e = some (p', pc')) :
    Unhindered o p' pc' := by
  obtain ⟨r, op, -, rfl, -⟩ | h | h | h | h | h | h := poolStep_cases h
  · exact absurd rfl (he op)
  · revert h
    fun_cases getStep o p pc e <;> intro h <;> try contradiction
    all_goals first
      | exact getSelect_unhindered hcap hmax hu h
      | exact hu.elim
      | obtain ⟨hb, -, rfl, rfl⟩ := emptyStep_cases h
        simp only [Unhindered, hb, List.length_nil] at hu ⊢
        omega
      | cases h
        first
        | exact hu
        | exact ⟨rfl, hu⟩
        | trivial
        | simp only [Unhindered] at hu ⊢
          omega
  · revert h
    fun_cases discardStep p pc e <;> intro h <;> cases h
    · exact hu
    · exact hu
    · obtain ⟨rfl, hsize⟩ := hu
      show p.currentSize - 1 < o.maxSize
      omega
  -- a `Get` is never at a point of the other operations
  · revert h
    fun_cases putStep o p pc e <;> intro h <;> contradiction
  · revert h
    fun_cases cleanupStep o p pc e <;> intro h <;> contradiction
  · revert h
    fun_cases healthStep p pc e <;> intro h <;> contradiction
  · revert h
    fun_cases closeStep p pc e <;> intro h <;> contradiction

/-- A `Get` on a pool of idle connections only never finds it full. -/
theorem run_unhindered {o : PoolOptions} {p : ConnectionPool} {tr : List (Nat × Ev)}
    {u : Config ConnectionPool Pc} (hcap : p.pool.cap = o.maxSize.toNat) (hmax : 0 < o.maxSize)
    (hidle : p.currentSize = p.pool.buf.length)
    (hr : Run (program o) NoCall ⟨p, [.getCount]⟩ tr u) : .createWait ∉ u.threads := by
  have hI : u.shared.pool.cap = o.maxSize.toNat ∧ ∀ pc ∈ u.threads, Unhindered o u.shared pc ∧
      u.threads = [pc] := by
    refine hr.invariant (I := fun u => u.shared.pool.cap = o.maxSize.toNat ∧
      ∀ pc ∈ u.threads, Unhindered o u.shared pc ∧ u.threads = [pc]) ?_ ?_
    · refine ⟨hcap, ?_⟩
      intro pc hpc
      rw [List.mem_singleton] at hpc
      subst hpc
      exact ⟨hidle, rfl⟩
    · rintro s i e t ⟨hc, hs⟩ hok hf
      obtain ⟨pc, p', pc', hi, hstep, rfl⟩ := fire_pool hf
      obtain ⟨hu, hone⟩ := hs pc (List.mem_of_getElem? hi)
      have hnext := poolStep_unhindered hc hmax hu hok hstep
      have hnot : pc.idle = false := by
        cases hq : pc.idle with
        | false => rfl
        | true =>
          cases pc with
          | returned r =>
            obtain ⟨op, rfl, -⟩ := poolStep_returned hstep
            exact absurd rfl (hok op)
          | _ => cases hq
      refine ⟨(poolStep_handed hnot hstep).cap.trans hc, ?_⟩
      have hset : s.threads.set i pc' = [pc'] := by
        rw [hone] at hi ⊢
        cases i with
        | zero => rfl
        | succ i => simp at hi
      intro q hq
      rw [hset, List.mem_singleton] at hq
      subst hq
      exact ⟨hnext, hset⟩
  intro hw
  exact (hI.2 _ hw).1

theorem run_cap {o : PoolOptions} {s t : Config ConnectionPool Pc} {tr : List (Nat × Ev)}
    (hr : Run (program o) PutOnce s tr t) : t.shared.pool.cap = s.shared.pool.cap := by
  refine hr.invariant (I := fun t => t.shared.pool.cap = s.shared.pool.cap) rfl ?_
  intro s i e t hs _ hf
  obtain ⟨pc, p', pc', -, hstep, rfl⟩ := fire_pool hf
  cases pc with
  | returned r =>
    obtain ⟨op, -, hc⟩ := poolStep_returned hstep
    revert hc
    fun_cases callStep s.shared op <;> intro hc <;> cases hc <;> exact hs
  | _ => exact (poolStep_handed (by rfl) hstep).cap.trans hs

end RpcInGo.Pool.Handout
