import RpcInGo.Pool.Accounting

/-!
The bound `MaxSize`. The size test of `createNewConnectionWithContext` and the
increment after the factory call are separate critical sections, and the refill
of `cleanup` runs between them as well, so a test may pass on the strength of
room that another creation in flight has already been promised.

* `overlapping_gets_exceed_maxSize`: two overlapping Gets do exceed the bound;
* `reserved_capacity`: in every run in which each test that passes leaves room
  for the creations already in flight, neither `currentSize` nor the number of
  live connections ever exceeds `MaxSize`.
-/

namespace RpcInGo.Pool.Capacity
open Lib.Channel Lib.Goroutine Protocol.Message Options Model Closing Accounting

/-- Connections an operation has been promised and `currentSize` does not count yet. -/
def reserved : Pc → Int
  | .createDial | .createGrow _ => 1
  | .refillDial n | .refillStat n => n
  | .refillSend _ n | .refillGrow n => n + 1
  | _ => 0

/-- Creations that the size test at this program point would start. -/
def starting (o : PoolOptions) (p : ConnectionPool) : Pc → Int
  | .createSize => if p.currentSize < o.maxSize then 1 else 0
  | .refillSize => if p.currentSize < o.minSize then o.minSize - p.currentSize else 0
  | _ => 0

/-- Idle, checked out, or in the hands of an operation. -/
def live (s : Config ConnectionPool Pc) : Int :=
  s.shared.pool.buf.length + s.shared.checkedOut.length +
    total (fun pc => ((hand pc).length : Int)) s.threads

/-- A size test passes only when the creations in flight leave room. -/
def roomLeft (o : PoolOptions) (s : Config ConnectionPool Pc) (i : Nat) : Bool :=
  match s.threads[i]? with
  | none => true
  | some pc => starting o s.shared pc = 0 ∨
      s.shared.currentSize + total reserved s.threads + starting o s.shared pc ≤ o.maxSize

def RoomLeft (o : PoolOptions) (s : Config ConnectionPool Pc) (i : Nat) (e : Ev) : Prop :=
  PutOnce s i e ∧ roomLeft o s i = true

instance (o : PoolOptions) (s : Config ConnectionPool Pc) (i : Nat) (e : Ev) :
    Decidable (RoomLeft o s i e) := inferInstanceAs (Decidable (_ ∧ _))

theorem RoomLeft.le {o : PoolOptions} {s : Config ConnectionPool Pc} {i : Nat} {e : Ev}
    {pc : Pc} (h : RoomLeft o s i e) (hi : s.threads[i]? = some pc) :
    starting o s.shared pc = 0 ∨
      s.shared.currentSize + total reserved s.threads + starting o s.shared pc ≤ o.maxSize := by
  simpa [roomLeft, hi] using h.2

theorem reserved_nonneg (pc : Pc) : 0 ≤ reserved pc := by
  cases pc <;> simp only [reserved] <;> omega

/-- A live connection that `currentSize` misses has been promised. -/
theorem drift_add_reserved_nonneg (pc : Pc) : 0 ≤ drift pc + reserved pc := by
  cases pc <;> simp only [drift, reserved] <;> omega

section Steps
variable {o : PoolOptions} {p p' : ConnectionPool} {pc pc' : Pc} {e : Ev}

theorem reserved_after (k : After) : reserved k.pc = 0 := by cases k <;> rfl

theorem starting_nonneg (o : PoolOptions) (p : ConnectionPool) (pc : Pc) :
    0 ≤ starting o p pc := by
  cases pc <;> simp only [starting] <;> omega

/-- No step takes more than what was promised before or its own test promises. -/
def Promised (o : PoolOptions) (p : ConnectionPool) (pc : Pc) (p' : ConnectionPool) (pc' : Pc) :
    Prop :=
  p'.currentSize + reserved pc' ≤ p.currentSize + reserved pc + starting o p pc

theorem Promised.same (hsize : p'.currentSize = p.currentSize)
    (hres : reserved pc' ≤ reserved pc) : Promised o p pc p' pc' := by
  have := starting_nonneg o p pc
  unfold Promised
  omega

theorem recvStep_promised {k : Option ConnId → Pc} (hk : ∀ c, reserved (k c) = 0)
    (h : recvStep p k = some (p', pc')) : Promised o p pc p' pc' := by
  obtain ⟨c, ch, -, -, -, rfl, rfl⟩ | ⟨-, rfl, rfl⟩ := recvStep_cases h
  · exact .same rfl ((hk _).trans_le (reserved_nonneg pc))
  · exact .same rfl ((hk _).trans_le (reserved_nonneg pc))

theorem sendStep_promised {c : ConnId} {k : Pc} (hk : reserved k = reserved pc)
    (h : sendStep p c k = some (p', pc')) : Promised o p pc p' pc' := by
  obtain ⟨ch, -, -, -, -, rfl, rfl⟩ | ⟨-, rfl, rfl⟩ := sendStep_cases h
  · exact .same rfl hk.le
  · exact .same rfl (reserved_nonneg pc)

theorem emptyStep_promised {k : Pc} (hk : reserved k = 0)
    (h : emptyStep p k = some (p', pc')) : Promised o p pc p' pc' := by
  obtain ⟨-, -, rfl, rfl⟩ := emptyStep_cases h
  exact .same rfl (hk.trans_le (reserved_nonneg pc))

theorem getStep_promised (h : getStep o p pc e = some (p', pc')) : Promised o p pc p' pc' := by
  revert h
  fun_cases getStep o p pc e <;> intro h <;> try contradiction
  all_goals first
    | exact recvStep_promised (fun _ => rfl) h
    | exact emptyStep_promised rfl h
    | cases h
      first
      | exact .same rfl (reserved_nonneg _)
      | exact .same rfl (le_refl 1)
      | simp_all [Promised, reserved, starting]

theorem discardStep_promised (h : discardStep p pc e = some (p', pc')) :
    Promised o p pc p' pc' := by
  revert h
  fun_cases discardStep p pc e <;> intro h <;> cases h
  · exact .same rfl (le_refl _)
  · exact .same rfl (le_refl _)
  · rename_i k _
    unfold Promised
    rw [reserved_after]
    simp only [reserved, starting]
    omega

theorem putStep_promised (h : putStep o p pc e = some (p', pc')) : Promised o p pc p' pc' := by
  revert h
  fun_cases putStep o p pc e <;> intro h <;> try contradiction
  all_goals cases h; exact .same rfl (le_refl 0)

theorem cleanupStep_promised (h : cleanupStep o p pc e = some (p', pc')) :
    Promised o p pc p' pc' := by
  revert h
  fun_cases cleanupStep o p pc e <;> intro h <;> try contradiction
  all_goals first
    | exact recvStep_promised (fun _ => rfl) h
    | exact emptyStep_promised rfl h
    | exact sendStep_promised (by rfl) h
    | cases h
      first
      | exact .same rfl (reserved_nonneg _)
      | exact .same rfl (le_refl _)
      | simp_all [Promised, reserved, starting]
  all_goals omega

theorem healthStep_promised (h : healthStep p pc e = some (p', pc')) :
    Promised o p pc p' pc' := by
  revert h
  fun_cases healthStep p pc e <;> intro h <;> try contradiction
  all_goals first
    | exact recvStep_promised (fun _ => rfl) h
    | exact emptyStep_promised rfl h
    | exact sendStep_promised (by rfl) h
    | cases h; exact .same rfl (le_refl 0)

theorem closeStep_promised (h : closeStep p pc e = some (p', pc')) : Promised o p pc p' pc' := by
  revert h
  fun_cases closeStep p pc e <;> intro h <;> try contradiction
  all_goals cases h; exact .same rfl (le_refl 0)

theorem poolStep_promised (h : poolStep o p pc e = some (p', pc')) : Promised o p pc p' pc' := by
  obtain ⟨r, op, rfl, rfl, hs⟩ | h | h | h | h | h | h := poolStep_cases h
  · revert hs
    fun_cases callStep p op <;> intro hs <;> cases hs <;> exact .same rfl (le_refl 0)
  · exact getStep_promised h
  · exact discardStep_promised h
  · exact putStep_promised h
  · exact cleanupStep_promised h
  · exact healthStep_promised h
  · exact closeStep_promised h

end Steps

theorem run_reserved {o : PoolOptions} {s t : Config ConnectionPool Pc} {tr : List (Nat × Ev)}
    (h0 : s.shared.currentSize + total reserved s.threads ≤ o.maxSize)
    (hr : Run (program o) (RoomLeft o) s tr t) :
    t.shared.currentSize + total reserved t.threads ≤ o.maxSize := by
  refine hr.invariant (I := fun s => s.shared.currentSize + total reserved s.threads ≤ o.maxSize)
    h0 ?_
  intro s i e t hI hok hf
  obtain ⟨pc, p', pc', hi, hs, rfl⟩ := fire_pool hf
  have hprom : p'.currentSize + reserved pc' ≤
      s.shared.currentSize + reserved pc + starting o s.shared pc := poolStep_promised hs
  simp only [total_set _ _ hi]
  rcases hok.le hi with hz | hroom <;> omega

/-- In every run whose size tests pass only when the creations in flight leave
room, an open pool keeps to `MaxSize` in every state. -/
theorem reserved_capacity {o : PoolOptions} {factory : Nat → Option Int} {p : ConnectionPool}
    {n : Nat} {tr : List (Nat × Ev)} {s : Config ConnectionPool Pc} (hv : validate o = none)
    (h0 : newConnectionPool o factory = some p)
    (hr : Run (program o) (RoomLeft o) (start p n) tr s) (hopen : s.shared.closed = false) :
    s.shared.currentSize ≤ o.maxSize ∧ live s ≤ o.maxSize := by
  obtain ⟨hmax, -, -⟩ := validate_sizes hv
  have hfresh := newConnectionPool_fresh h0
  have hstart : total reserved (start p n).threads = 0 :=
    total_eq_zero (fun q hq => by rw [List.eq_of_mem_replicate hq]; rfl)
  have hinit : p.currentSize ≤ o.maxSize := by
    have := p.pool.bounded
    have := hfresh.cap
    have := hfresh.size
    omega
  have hres := run_reserved (by rw [hstart]; simpa [start] using hinit) hr
  have hnn : 0 ≤ total reserved s.threads := total_nonneg (fun pc _ => reserved_nonneg pc)
  have hsize := (run_balanced h0 (hr.mono fun _ _ _ h => h.1)).size hopen
  have hdrift : 0 ≤ total (fun pc => drift pc + reserved pc) s.threads :=
    total_nonneg (fun pc _ => drift_add_reserved_nonneg pc)
  rw [total_add] at hsize hdrift
  unfold live
  omega

theorem twoGets_leaves_room :
    (exec (program smallPool) (RoomLeft smallPool) smallStart twoGets).isSome := by decide

theorem reserved_capacity_twoGets :
    let s := (exec (program smallPool) (RoomLeft smallPool) smallStart twoGets).get
      twoGets_leaves_room
    validate smallPool = none ∧ s.shared.closed = false ∧
    s.shared.currentSize ≤ smallPool.maxSize ∧ live s ≤ smallPool.maxSize :=
  ⟨by decide, by decide, reserved_capacity (p := smallStart.shared) (by decide)
    (show newConnectionPool smallPool (fun _ => some 0) = _ by rfl)
    (run_exec twoGets_leaves_room) (by decide)⟩

/-- Both Gets pass the size test of an empty pool of one before either has
counted its connection. -/
def overlappingGets : List (Nat × Ev) :=
  [(0, .call .get), (0, .step), (0, .step), (0, .otherwise), (0, .step),
   (1, .call .get), (1, .step), (1, .step), (1, .otherwise), (1, .step),
   (0, .created 0), (0, .step), (0, .step), (1, .created 0), (1, .step), (1, .step)]

def onePool : PoolOptions := withPoolSize 1 0 defaultPoolOptions

theorem overlappingGets_runs :
    (exec (program onePool) PutOnce (start (emptyPool onePool) 2) overlappingGets).isSome := by
  decide

theorem overlapping_gets_exceed_maxSize :
    ¬ ∀ (o : PoolOptions) (factory : Nat → Option Int) (p : ConnectionPool) (n : Nat)
      (tr : List (Nat × Ev)) (s : Config ConnectionPool Pc), validate o = none →
      newConnectionPool o factory = some p → Run (program o) PutOnce (start p n) tr s →
      s.shared.closed = false → s.shared.currentSize ≤ o.maxSize ∧ live s ≤ o.maxSize := by
  intro h
  have hbad := h onePool (fun _ => none) (emptyPool onePool) 2 overlappingGets _ (by decide) rfl
    (run_exec overlappingGets_runs) (by decide)
  exact absurd hbad.1 (by decide)

end RpcInGo.Pool.Capacity
