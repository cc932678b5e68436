import RpcInGo.Pool.Capacity

/-!
Gets that wait for a connection. A `GetWithContext` that finds the pool full
listens on the idle channel only, while the places of discarded connections are
given back by decrements of `currentSize` that nobody announces.

* `waiter_not_stranded`: in every run in which no place is given back while a Get
  waits, no Get is left waiting next to a free place;
* `discard_strands_waiter`: a Put that discards a broken connection leaves the
  waiting Get behind, with room in the pool and nobody else at work.
-/

namespace RpcInGo.Pool.Waiting
open Lib.Channel Lib.Goroutine Protocol.Message Options Model Accounting Capacity

def waiting : Pc → Bool
  | .createWait => true
  | _ => false

/-- A Get is blocked in the wait branch of `createNewConnectionWithContext`
although there is room, and no other operation is in progress. -/
def Stranded (o : PoolOptions) (s : Config ConnectionPool Pc) : Prop :=
  ∃ i < s.threads.length, s.threads[i]? = some .createWait ∧ s.shared.pool.buf = [] ∧
    s.shared.currentSize < o.maxSize ∧ ∀ pc ∈ s.threads.eraseIdx i, pc.idle = true

instance (o : PoolOptions) (s : Config ConnectionPool Pc) : Decidable (Stranded o s) :=
  inferInstanceAs (Decidable (∃ i < s.threads.length, _))

/-- `GetWithContext`, `Put`, `cleanup` and `healthCheck`; a connection is put
back by a caller that holds it. -/
def serving (s : Config ConnectionPool Pc) : Ev → Bool
  | .call (.put (some c)) => c ∈ s.shared.checkedOut
  | .call .close | .call (.closeConn _) => false
  | _ => true

def Serving (s : Config ConnectionPool Pc) (_ : Nat) (e : Ev) : Prop := serving s e = true

instance (s : Config ConnectionPool Pc) (i : Nat) (e : Ev) : Decidable (Serving s i e) :=
  inferInstanceAs (Decidable (serving s e = true))

/-- No place is given back while a Get waits. -/
def unheard (s : Config ConnectionPool Pc) (i : Nat) : Bool :=
  match s.threads[i]? with
  | some (.discardSize _) => s.threads.any waiting
  | _ => false

def Heard (s : Config ConnectionPool Pc) (i : Nat) (e : Ev) : Prop :=
  Serving s i e ∧ unheard s i = false

instance (s : Config ConnectionPool Pc) (i : Nat) (e : Ev) : Decidable (Heard s i e) :=
  inferInstanceAs (Decidable (_ ∧ _))

/-! ## One step -/

section Steps
variable {o : PoolOptions} {p p' : ConnectionPool} {pc pc' : Pc} {e : Ev}

/-- Only the last step of a discard makes the pool smaller, and only a Get that
finds it full starts to wait. -/
structure Fills (o : PoolOptions) (p : ConnectionPool) (pc : Pc) (p' : ConnectionPool) (pc' : Pc) :
    Prop where
  size_le : (∀ k, pc ≠ .discardSize k) → p.currentSize ≤ p'.currentSize
  waits : waiting pc' = true → o.maxSize ≤ p'.currentSize

theorem Fills.same (hsize : p'.currentSize = p.currentSize) (hw : waiting pc' = false) :
    Fills o p pc p' pc' :=
  ⟨fun _ => hsize.ge, fun h => by rw [hw] at h; cases h⟩

theorem recvStep_fills {k : Option ConnId → Pc} (hk : ∀ c, waiting (k c) = false)
    (h : recvStep p k = some (p', pc')) : Fills o p pc p' pc' := by
  obtain ⟨c, ch, -, -, -, rfl, rfl⟩ | ⟨-, rfl, rfl⟩ := recvStep_cases h
  · exact .same rfl (hk _)
  · exact .same rfl (hk _)

theorem sendStep_fills {c : ConnId} {k : Pc} (hk : waiting k = false)
    (h : sendStep p c k = some (p', pc')) : Fills o p pc p' pc' := by
  obtain ⟨ch, -, -, -, -, rfl, rfl⟩ | ⟨-, rfl, rfl⟩ := sendStep_cases h
  · exact .same rfl hk
  · exact .same rfl rfl

theorem emptyStep_fills {k : Pc} (hk : waiting k = false)
    (h : emptyStep p k = some (p', pc')) : Fills o p pc p' pc' := by
  obtain ⟨-, -, rfl, rfl⟩ := emptyStep_cases h
  exact .same rfl hk

theorem waiting_after (k : After) : waiting k.pc = false := by cases k <;> rfl

theorem getStep_fills (h : getStep o p pc e = some (p', pc')) : Fills o p pc p' pc' := by
  revert h
  fun_cases getStep o p pc e <;> intro h <;> try contradiction
  all_goals first
    | exact recvStep_fills (fun _ => rfl) h
    | exact emptyStep_fills rfl h
    | cases h
      first
      | exact .same rfl rfl
      -- the size test that makes a Get wait, and the increment after the factory call
      | exact ⟨fun _ => le_rfl, fun _ => by assumption⟩
      | exact ⟨fun _ => by simp only; omega, fun h => by cases h⟩

theorem discardStep_fills (h : discardStep p pc e = some (p', pc')) : Fills o p pc p' pc' := by
  revert h
  fun_cases discardStep p pc e <;> intro h <;> cases h
  · exact .same rfl rfl
  · exact .same rfl rfl
  · rename_i k _
    exact ⟨fun h => absurd rfl (h k), fun h => by rw [waiting_after] at h; cases h⟩

theorem putStep_fills (h : putStep o p pc e = some (p', pc')) : Fills o p pc p' pc' := by
  revert h
  fun_cases putStep o p pc e <;> intro h <;> try contradiction
  all_goals cases h; exact .same rfl rfl

theorem cleanupStep_fills (h : cleanupStep o p pc e = some (p', pc')) : Fills o p pc p' pc' := by
  revert h
  fun_cases cleanupStep o p pc e <;> intro h <;> try contradiction
  all_goals first
    | exact recvStep_fills (fun _ => rfl) h
    | exact emptyStep_fills rfl h
    | exact sendStep_fills rfl h
    | cases h
      first
      | exact .same rfl rfl
      | exact ⟨fun _ => by simp only; omega, fun h => by cases h⟩

theorem healthStep_fills (h : healthStep p pc e = some (p', pc')) : Fills o p pc p' pc' := by
  revert h
  fun_cases healthStep p pc e <;> intro h <;> try contradiction
  all_goals first
    | exact recvStep_fills (fun _ => rfl) h
    | exact emptyStep_fills rfl h
    | exact sendStep_fills rfl h
    | cases h; exact .same rfl rfl

theorem closeStep_fills (h : closeStep p pc e = some (p', pc')) : Fills o p pc p' pc' := by
  revert h
  fun_cases closeStep p pc e <;> intro h <;> try contradiction
  all_goals cases h; exact .same rfl rfl

theorem poolStep_fills (h : poolStep o p pc e = some (p', pc')) : Fills o p pc p' pc' := by
  obtain ⟨r, op, rfl, rfl, hs⟩ | h | h | h | h | h | h := poolStep_cases h
  · revert hs
    fun_cases callStep p op <;> intro hs <;> cases hs <;> exact .same rfl rfl
  · exact getStep_fills h
  · exact discardStep_fills h
  · exact putStep_fills h
  · exact cleanupStep_fills h
  · exact healthStep_fills h
  · exact closeStep_fills h

end Steps

/-! ## Whole runs -/

/-- While a Get waits, the pool is full. -/
theorem run_waiting_full {o : PoolOptions} {p : ConnectionPool} {n : Nat} {tr : List (Nat × Ev)}
    {s : Config ConnectionPool Pc} (h : Run (program o) Heard (start p n) tr s) :
    ∀ pc ∈ s.threads, waiting pc = true → o.maxSize ≤ s.shared.currentSize := by
  refine h.invariant (I := fun s => ∀ pc ∈ s.threads, waiting pc = true →
    o.maxSize ≤ s.shared.currentSize) ?_ ?_
  · intro pc hpc hw
    rw [List.eq_of_mem_replicate hpc] at hw
    cases hw
  · intro s i e t hI hok hf
    obtain ⟨pc, p', pc', hi, hstep, rfl⟩ := fire_pool hf
    have hfill := poolStep_fills hstep
    intro q hq hw
    rcases List.mem_or_eq_of_mem_set hq with hq | rfl
    · -- `q` was waiting before, so this step gives no place back
      refine (hI q hq hw).trans (hfill.size_le ?_)
      rintro k rfl
      have hnone : s.threads.any waiting = false := by simpa [unheard, hi] using hok.2
      exact absurd hw (by simpa using List.any_eq_false.mp hnone q hq)
    · exact hfill.waits hw

/-- In every run in which no place is given back while a Get waits, no state
leaves a Get blocked next to a free place. -/
theorem waiter_not_stranded {o : PoolOptions} {p : ConnectionPool} {n : Nat}
    {tr : List (Nat × Ev)} {s : Config ConnectionPool Pc}
    (h : Run (program o) Heard (start p n) tr s) : ¬ Stranded o s := by
  rintro ⟨i, -, hi, -, hroom, -⟩
  have hfull := run_waiting_full h _ (List.mem_of_getElem? hi) rfl
  omega

/-- The first Get takes the only connection, the second waits, and the first
caller puts the connection back in good health. -/
def putBack : List (Nat × Ev) :=
  [(0, .call .get), (0, .step), (0, .step), (0, .otherwise), (0, .step), (0, .created 0),
   (0, .step), (0, .step),
   (1, .call .get), (1, .step), (1, .step), (1, .otherwise), (1, .step),
   (0, .call (.put (some 0))), (0, .step), (0, .step), (0, .connected true), (0, .now 0),
   (0, .step)]

theorem putBack_runs :
    (exec (program onePool) Heard (start (emptyPool onePool) 2) putBack).isSome := by decide

theorem waiter_not_stranded_putBack :
    let s := (exec (program onePool) Heard (start (emptyPool onePool) 2) putBack).get putBack_runs
    s.threads = [.returned .done, .createWait] ∧ ¬ Stranded onePool s :=
  ⟨by decide, waiter_not_stranded (run_exec putBack_runs)⟩

/-- The same, but the connection is found broken and discarded. -/
def putDiscards : List (Nat × Ev) :=
  [(0, .call .get), (0, .step), (0, .step), (0, .otherwise), (0, .step), (0, .created 0),
   (0, .step), (0, .step),
   (1, .call .get), (1, .step), (1, .step), (1, .otherwise), (1, .step),
   (0, .call (.put (some 0))), (0, .step), (0, .step), (0, .connected false), (0, .step),
   (0, .step), (0, .step)]

theorem putDiscards_runs :
    (exec (program onePool) Serving (start (emptyPool onePool) 2) putDiscards).isSome := by decide

theorem discard_strands_waiter :
    ¬ ∀ (o : PoolOptions) (factory : Nat → Option Int) (p : ConnectionPool) (n : Nat)
      (tr : List (Nat × Ev)) (s : Config ConnectionPool Pc), validate o = none →
      newConnectionPool o factory = some p → Run (program o) Serving (start p n) tr s →
      ¬ Stranded o s := by
  intro h
  have hbad := h onePool (fun _ => none) (emptyPool onePool) 2 putDiscards _ (by decide) rfl
    (run_exec putDiscards_runs)
  exact absurd hbad (by decide)

end RpcInGo.Pool.Waiting
