import RpcInGo.Pool.GetAlone

/-!
The loops in which `cleanup` and `healthCheck` drain the idle channel, while anything else
goes on. They end through the `default` case of a `select` alone, and a closed channel is
never empty: it yields nil for ever.

* `run_drains`: what such a loop has received, in every interleaving;
* `drain_bounded`: while the pool is open, it receives at most what was idle and what others
  have sent meanwhile, and whenever it runs it receives a connection or leaves;
* `closed_never_leaves`, `closed_receives`: once the pool is closed it never leaves, and
  goes on receiving.
-/

namespace RpcInGo.Pool.DrainLoop
open Lib.Channel Lib.Goroutine Lib.Observe Protocol.Message Options Model Closing Accounting
  GetAlone

/-- The drain loop of either routine, with what it has received so far. -/
def drains : Pc → Option (List (Option ConnId))
  | .cleanupDrain l | .healthDrain l => some l
  | _ => none

/-- Goroutine `i` stays in its loop. -/
def InLoop (i : Nat) (_ : Config ConnectionPool Pc) (j : Nat) (e : Ev) : Prop := j = i → e = .recv

instance (i : Nat) (s : Config ConnectionPool Pc) (j : Nat) (e : Ev) : Decidable (InLoop i s j e) :=
  inferInstanceAs (Decidable (j = i → e = .recv))

/-- The receives of goroutine `i`, when it stays in its loop. -/
def receives (i : Nat) (tr : List (Nat × Ev)) : Nat := tr.countP (·.1 = i)

/-- The connection that a step sends to the idle channel. -/
def sentAt (p : ConnectionPool) : Pc → Ev → List ConnId
  | .putSend c, .step | .cleanupSend c _, .step | .refillSend c _, .step | .healthSend c _, .step =>
    match p.pool.send c with
    | .ok _ => [c]
    | _ => []
  | _, _ => []

def sends (s : Config ConnectionPool Pc) (j : Nat) (e : Ev) : List ConnId :=
  match s.threads[j]? with
  | none => []
  | some pc => sentAt s.shared pc e

section Steps
variable {o : PoolOptions} {p p' : ConnectionPool} {pc pc' : Pc} {e : Ev}
  {l : List (Option ConnId)}

/-! ## One step -/

theorem recvStep_idle {k : Option ConnId → Pc} (h : recvStep p k = some (p', pc')) :
    ∃ x : Option ConnId, pc' = k x ∧ p'.pool.buf.length + x.toList.length = p.pool.buf.length := by
  obtain ⟨c, ch, hb, -, -, rfl, rfl⟩ | ⟨-, rfl, rfl⟩ := recvStep_cases h
  · exact ⟨some c, rfl, by simp [hb]⟩
  · exact ⟨none, rfl, rfl⟩

theorem recvStep_le {k : Option ConnId → Pc} (h : recvStep p k = some (p', pc')) :
    p'.pool.buf.length ≤ p.pool.buf.length := by
  obtain ⟨x, -, hlen⟩ := recvStep_idle h
  omega

theorem emptyStep_le {k : Pc} (h : emptyStep p k = some (p', pc')) :
    p'.pool.buf.length ≤ p.pool.buf.length := by
  obtain ⟨-, -, rfl, -⟩ := emptyStep_cases h
  exact le_refl _

theorem sendStep_le {c : ConnId} {k : Pc} (h : sendStep p c k = some (p', pc'))
    (hsent : sentAt p pc e = match p.pool.send c with | .ok _ => [c] | _ => []) :
    p'.pool.buf.length ≤ p.pool.buf.length + (sentAt p pc e).length := by
  unfold sendStep at h
  split at h <;> rename_i hs <;> cases h
  · rw [hsent, hs, (send_ok hs).1]
    simp
  · exact Nat.le_add_right _ _

theorem poolStep_sent (h : poolStep o p pc e = some (p', pc')) :
    p'.pool.buf.length ≤ p.pool.buf.length + (sentAt p pc e).length := by
  obtain ⟨r, op, rfl, rfl, hs⟩ | h | h | h | h | h | h := poolStep_cases h
  · revert hs
    fun_cases callStep p op <;> intro hs <;> cases hs <;> exact Nat.le_add_right _ _
  · revert h
    fun_cases getStep o p pc e <;> intro h <;> try contradiction
    all_goals first
      | exact Nat.le_add_right_of_le (recvStep_le h)
      | exact Nat.le_add_right_of_le (emptyStep_le h)
      | (cases h; exact Nat.le_add_right _ _)
  · revert h
    fun_cases discardStep p pc e <;> intro h <;> cases h <;> exact Nat.le_add_right _ _
  · revert h
    fun_cases putStep o p pc e <;> intro h <;> try contradiction
    all_goals cases h
    all_goals first
      | exact Nat.le_add_right _ _
      | (rename_i hs
         simp only [sentAt, hs, (send_ok hs).1, List.length_append]
         exact le_refl _)
  · revert h
    fun_cases cleanupStep o p pc e <;> intro h <;> try contradiction
    all_goals first
      | exact Nat.le_add_right_of_le (recvStep_le h)
      | exact Nat.le_add_right_of_le (emptyStep_le h)
      | exact sendStep_le h rfl
      | (cases h; exact Nat.le_add_right _ _)
  · revert h
    fun_cases healthStep p pc e <;> intro h <;> try contradiction
    all_goals first
      | exact Nat.le_add_right_of_le (recvStep_le h)
      | exact Nat.le_add_right_of_le (emptyStep_le h)
      | exact sendStep_le h rfl
      | (cases h; exact Nat.le_add_right _ _)
  · revert h
    fun_cases closeStep p pc e <;> intro h <;> try contradiction
    all_goals cases h
    all_goals first
      | exact Nat.le_add_right _ _
      | (rename_i hr
         have hlen := congrArg List.length (recv_ok hr).1
         simp only [List.length_cons] at hlen
         simp only
         omega)

theorem poolStep_cleanupDrain :
    poolStep o p (.cleanupDrain l) e = cleanupStep o p (.cleanupDrain l) e := by
  simp [poolStep, getStep, discardStep, putStep, healthStep, closeStep]

theorem poolStep_healthDrain :
    poolStep o p (.healthDrain l) e = healthStep p (.healthDrain l) e := by
  simp [poolStep, getStep, discardStep, putStep, cleanupStep, closeStep]

/-- A receive of the loop takes an idle connection, or yields nil. -/
theorem poolStep_receives (hpc : drains pc = some l) (h : poolStep o p pc .recv = some (p', pc')) :
    ∃ x : Option ConnId, drains pc' = some (l ++ [x]) ∧
      p'.pool.buf.length + x.toList.length = p.pool.buf.length := by
  cases pc <;> cases hpc
  · rw [poolStep_cleanupDrain, cleanupStep] at h
    obtain ⟨x, rfl, hlen⟩ := recvStep_idle h
    exact ⟨x, rfl, hlen⟩
  · rw [poolStep_healthDrain, healthStep] at h
    obtain ⟨x, rfl, hlen⟩ := recvStep_idle h
    exact ⟨x, rfl, hlen⟩

/-- The loop receives, or leaves when the channel is open and empty. -/
theorem poolStep_drains (hpc : drains pc = some l) (h : poolStep o p pc e = some (p', pc')) :
    e = .recv ∨ (e = .otherwise ∧ p.pool.closed = false ∧ p.pool.buf = [] ∧ drains pc' = none) := by
  cases pc <;> cases hpc
  · rw [poolStep_cleanupDrain] at h
    cases e with
    | recv => exact Or.inl rfl
    | otherwise =>
      obtain ⟨hb, hcl, -, rfl⟩ := emptyStep_cases h
      exact Or.inr ⟨rfl, hcl, hb, rfl⟩
    | _ => cases h
  · rw [poolStep_healthDrain] at h
    cases e with
    | recv => exact Or.inl rfl
    | otherwise =>
      obtain ⟨hb, hcl, -, rfl⟩ := emptyStep_cases h
      exact Or.inr ⟨rfl, hcl, hb, rfl⟩
    | _ => cases h

/-- The two cases of the `select`, when the loop runs. -/
theorem drains_isSome (o : PoolOptions) (hpc : drains pc = some l) :
    ((∀ k, (recvStep p k).isSome) → (poolStep o p pc .recv).isSome) ∧
    ((∀ k, (emptyStep p k).isSome) → (poolStep o p pc .otherwise).isSome) := by
  cases pc <;> cases hpc
  · rw [poolStep_cleanupDrain, poolStep_cleanupDrain, cleanupStep, cleanupStep]
    exact ⟨fun h => h _, fun h => h _⟩
  · rw [poolStep_healthDrain, poolStep_healthDrain, healthStep, healthStep]
    exact ⟨fun h => h _, fun h => h _⟩

theorem open_goes_on (o : PoolOptions) (hpc : drains pc = some l) (hchan : p.pool.closed = false) :
    (p.pool.buf ≠ [] ∧ (poolStep o p pc .recv).isSome) ∨ (poolStep o p pc .otherwise).isSome := by
  obtain ⟨hrecv, hempty⟩ := drains_isSome (p := p) o hpc
  cases hr : p.pool.recv with
  | ok c ch =>
    refine Or.inl ⟨?_, hrecv fun k => by simp [recvStep, hr]⟩
    rw [(recv_ok hr).1]
    simp
  | zero =>
    rw [(recv_zero hr).2] at hchan
    cases hchan
  | empty => exact Or.inr (hempty fun k => by simp [emptyStep, hr])

/-- A closed channel is always ready. -/
theorem closed_goes_on (o : PoolOptions) (hpc : drains pc = some l)
    (hchan : p.pool.closed = true) : (poolStep o p pc .recv).isSome := by
  refine (drains_isSome o hpc).1 fun k => ?_
  cases hr : p.pool.recv with
  | ok c ch => simp [recvStep, hr]
  | zero => simp [recvStep, hr]
  | empty =>
    rw [(recv_empty hr).2] at hchan
    cases hchan

end Steps

/-! ## Runs -/

/-- The channel is closed with the pool, and nil was received only after that. -/
structure Sealed (s : Config ConnectionPool Pc) : Prop where
  chan : s.shared.pool.closed = s.shared.closed
  after : ∀ pc ∈ s.threads, late pc = true → s.shared.closed = true

section Runs
variable {o : PoolOptions} {s t : Config ConnectionPool Pc} {i j : Nat} {e : Ev} {pc : Pc}
  {l : List (Option ConnId)} {tr : List (Nat × Ev)}

theorem fire_sealed (hs : Sealed s) (h : (program o).fire s j e = some t) :
    Sealed t ∧ (s.shared.closed = true → t.shared.closed = true) := by
  obtain ⟨pc, p', pc', hj, hstep, rfl⟩ := fire_pool h
  have hcl := poolStep_closes hstep hs.chan (hs.after pc (List.mem_of_getElem? hj))
  exact ⟨⟨hcl.chan, forall_set hcl.after hs.after fun q hq hl => hcl.mono (hq hl)⟩, hcl.mono⟩

theorem run_sealed {p : ConnectionPool} {factory : Nat → Option Int} {n : Nat}
    (h0 : newConnectionPool o factory = some p) (h : Run (program o) Any (start p n) tr s) :
    Sealed s := by
  have hf := newConnectionPool_fresh h0
  have hstart : Sealed (start p n) := by
    refine ⟨hf.chan.trans hf.opened.symm, fun pc hpc hl => ?_⟩
    rw [List.eq_of_mem_replicate hpc] at hl
    cases hl
  exact h.invariant hstart fun _ _ _ _ hs _ hfire => (fire_sealed hs hfire).1

/-- A goroutine in its loop, after it has received `l`. -/
def At (i : Nat) (l : List (Option ConnId)) (s : Config ConnectionPool Pc) : Prop :=
  ∃ pc, s.threads[i]? = some pc ∧ drains pc = some l

/-- What was received is in the loop's slice, the idle connections among it were idle
before or were sent meanwhile, and nil came from a closed channel. -/
theorem run_drains (hs : Sealed s) (hi : At i [] s) (h : Run (program o) (InLoop i) s tr t) :
    Sealed t ∧ ∃ l, At i l t ∧ l.length = receives i tr ∧
      (l.filterMap id).length + t.shared.pool.buf.length ≤
        s.shared.pool.buf.length + (observe (program o) sends s tr).length := by
  induction h with
  | refl => exact ⟨hs, [], hi, rfl, by simp [observe]⟩
  | @step tr t j e u hr hok hf ih =>
    obtain ⟨ht, l, ⟨pc, hpc, hl⟩, hlen, hidle⟩ := ih
    refine ⟨(fire_sealed ht hf).1, ?_⟩
    rw [observe_append hr, observe_single hf, List.length_append, receives, List.countP_append,
      ← receives, ← hlen]
    obtain ⟨qc, p', qc', hj, hstep, rfl⟩ := fire_pool hf
    by_cases hji : j = i
    · subst hji
      obtain rfl := hok rfl
      rw [hpc] at hj
      cases hj
      obtain ⟨x, hx, hbuf⟩ := poolStep_receives hl hstep
      have hthere : (t.threads.set j qc')[j]? = some qc' := by
        obtain ⟨hlt, -⟩ := List.getElem?_eq_some_iff.mp hpc
        exact List.getElem?_set_self hlt
      refine ⟨l ++ [x], ⟨qc', hthere, hx⟩, by simp, ?_⟩
      have hcount : ([x].filterMap id).length = x.toList.length := by cases x <;> rfl
      rw [List.filterMap_append, List.length_append, hcount]
      simp only
      omega
    · have hbuf := poolStep_sent hstep
      have hsends : sends t j e = sentAt t.shared qc e := by simp [sends, hj]
      have hthere : (t.threads.set j qc')[i]? = some pc := by
        rw [List.getElem?_set_ne hji, hpc]
      refine ⟨l, ⟨pc, hthere, hl⟩, by simp [hji], ?_⟩
      rw [hsends]
      simp only
      omega

/-- A loop in an open pool has received connections only. -/
theorem Sealed.received (hs : Sealed s) (hopen : s.shared.closed = false) (hi : At i l s) :
    (l.filterMap id).length = l.length := by
  obtain ⟨pc, hpc, hl⟩ := hi
  have hlate : l.any Option.isNone = false := by
    cases hany : l.any Option.isNone with
    | false => rfl
    | true =>
      have hclosed := hs.after pc (List.mem_of_getElem? hpc) (by
        cases pc <;> cases hl <;> exact hany)
      rw [hopen] at hclosed
      cases hclosed
  rw [List.any_eq_false] at hlate
  refine List.filterMap_length_eq_length.mpr fun x hx => ?_
  simpa [Option.isSome_iff_ne_none] using hlate x hx

/-! ## An open pool -/

/-- From every state that a pool reaches, under every interleaving with whatever else is
called: as long as the pool is not closed, a drain loop has received at most as many
connections as were idle when it was entered and were sent by others since, and when its
goroutine runs next it receives one more or leaves. -/
theorem drain_bounded {p : ConnectionPool} {factory : Nat → Option Int} {n : Nat}
    {tr₀ : List (Nat × Ev)} (h0 : newConnectionPool o factory = some p)
    (hr : Run (program o) Any (start p n) tr₀ s) (hi : At i [] s)
    (h : Run (program o) (InLoop i) s tr t) (hopen : t.shared.closed = false) :
    receives i tr ≤ s.shared.pool.buf.length + (observe (program o) sends s tr).length ∧
    (((program o).fire t i .recv).isSome ∧ t.shared.pool.buf ≠ [] ∨
      ∃ u, (program o).fire t i .otherwise = some u ∧ ∀ l, ¬ At i l u) := by
  obtain ⟨ht, l, hl, hlen, hidle⟩ := run_drains (run_sealed h0 hr) hi h
  refine ⟨?_, ?_⟩
  · have hcount := ht.received hopen hl
    omega
  · obtain ⟨pc, hpc, hd⟩ := hl
    rcases open_goes_on o hd (ht.chan.trans hopen) with ⟨hne, hsome⟩ | hsome
    · exact Or.inl ⟨fire_isSome hpc (by simpa [program] using hsome), hne⟩
    · obtain ⟨⟨p', pc'⟩, hstep⟩ := Option.isSome_iff_exists.mp hsome
      refine Or.inr ⟨⟨p', t.threads.set i pc'⟩, ?_, ?_⟩
      · simp [Program.fire, hpc, program, hstep]
      · rintro l' ⟨qc, hqc, hq⟩
        obtain ⟨hlt, -⟩ := List.getElem?_eq_some_iff.mp hpc
        rw [List.getElem?_set_self hlt] at hqc
        cases hqc
        rcases poolStep_drains hd hstep with he | ⟨-, -, -, hnone⟩
        · cases he
        · rw [hnone] at hq
          cases hq

/-! ## A closed pool -/

/-- Once the pool is closed, a drain loop is never left, whatever is scheduled. -/
theorem closed_never_leaves (hs : Sealed s) (hi : At i l s) (hclosed : s.shared.closed = true)
    (h : Run (program o) Any s tr t) :
    Sealed t ∧ t.shared.closed = true ∧
      ∃ l', At i l' t ∧ l'.length = l.length + receives i tr := by
  induction h with
  | refl => exact ⟨hs, hclosed, l, hi, rfl⟩
  | @step tr t j e u hr _ hf ih =>
    obtain ⟨ht, htclosed, l', ⟨pc, hpc, hl⟩, hlen⟩ := ih
    obtain ⟨hu, hmono⟩ := fire_sealed ht hf
    refine ⟨hu, hmono htclosed, ?_⟩
    rw [receives, List.countP_append, ← receives, ← Nat.add_assoc, ← hlen]
    obtain ⟨qc, p', qc', hj, hstep, rfl⟩ := fire_pool hf
    by_cases hji : j = i
    · subst hji
      rw [hpc] at hj
      cases hj
      rcases poolStep_drains hl hstep with rfl | ⟨-, hopen, -⟩
      · obtain ⟨x, hx, -⟩ := poolStep_receives hl hstep
        obtain ⟨hlt, -⟩ := List.getElem?_eq_some_iff.mp hpc
        exact ⟨l' ++ [x], ⟨qc', List.getElem?_set_self hlt, hx⟩, by simp⟩
      · rw [ht.chan, htclosed] at hopen
        cases hopen
    · exact ⟨l', ⟨pc, (List.getElem?_set_ne hji).trans hpc, hl⟩, by simp [hji]⟩

/-- And it never waits: it receives as often as it runs. -/
theorem closed_receives (hs : Sealed s) (hi : At i l s) (hclosed : s.shared.closed = true)
    (n : Nat) : ∃ t, Run (program o) (InLoop i) s (List.replicate n (i, .recv)) t := by
  induction n with
  | zero => exact ⟨s, .refl⟩
  | succ n ih =>
    obtain ⟨t, ht⟩ := ih
    obtain ⟨hsealed, htclosed, l', ⟨pc, hpc, hl⟩, -⟩ :=
      closed_never_leaves hs hi hclosed (ht.mono fun _ _ _ _ => trivial)
    have hgo := closed_goes_on o hl (hsealed.chan.trans htclosed)
    have hfire : ((program o).fire t i .recv).isSome :=
      fire_isSome hpc (by simpa [program] using hgo)
    obtain ⟨u, hu⟩ := Option.isSome_iff_exists.mp hfire
    rw [List.replicate_succ']
    exact ⟨u, .step ht (fun _ => rfl) hu⟩

end Runs

/-! ## Two loops -/

/-- Goroutine 0 enters `cleanup`. -/
def entered : Config ConnectionPool Pc := ⟨smallStart.shared, [.cleanupDrain [], .returned .done]⟩

theorem entered_reached :
    exec (program smallPool) Any smallStart [(0, .call .cleanup)] = some entered := by
  decide

/-- It takes the idle connection. Goroutine 1 then creates one and gives it back. -/
def sentMeanwhile : List (Nat × Ev) :=
  [(0, .recv), (1, .call .get), (1, .step), (1, .step), (1, .otherwise), (1, .step),
   (1, .created 1), (1, .step), (1, .step), (1, .call (.put (some 1))), (1, .step), (1, .step),
   (1, .connected true), (1, .now 1), (1, .step), (0, .recv)]

theorem sentMeanwhile_runs :
    (exec (program smallPool) (InLoop 0) entered sentMeanwhile).isSome := by decide

theorem drain_bounded_sentMeanwhile :
    receives 0 sentMeanwhile ≤ entered.shared.pool.buf.length +
      (observe (program smallPool) sends entered sentMeanwhile).length :=
  (drain_bounded (p := smallStart.shared)
    (show newConnectionPool smallPool (fun _ => some 0) = _ by rfl)
    (run_of_exec entered_reached) ⟨_, rfl, rfl⟩ (run_exec sentMeanwhile_runs) (by decide)).1

/-- Goroutine 1 closes the pool instead. -/
def closedMeanwhile : List (Nat × Ev) :=
  [(0, .recv), (1, .call .close), (1, .step), (0, .recv)]

theorem closedMeanwhile_runs :
    (exec (program smallPool) (InLoop 0) entered closedMeanwhile).isSome := by decide

theorem closed_drain_exceeds :
    ¬ ∀ (o : PoolOptions) (factory : Nat → Option Int) (p : ConnectionPool) (n : Nat)
      (tr₀ tr : List (Nat × Ev)) (s t : Config ConnectionPool Pc) (i : Nat),
      validate o = none → newConnectionPool o factory = some p →
      Run (program o) Any (start p n) tr₀ s → At i [] s → Run (program o) (InLoop i) s tr t →
      receives i tr ≤ s.shared.pool.buf.length + (observe (program o) sends s tr).length := by
  intro hall
  have hle := hall smallPool (fun _ => some 0) smallStart.shared 2 _ closedMeanwhile entered _ 0
    (by decide) (by rfl) (run_of_exec entered_reached) ⟨_, rfl, rfl⟩
    (run_exec closedMeanwhile_runs)
  exact absurd hle (by decide)

end RpcInGo.Pool.DrainLoop
