import Mathlib.Data.List.Nodup
import RpcInGo.Pool.Closing

/-!
Where the connections of an open pool are, and how the counters follow them,
under every interleaving of `GetWithContext`, `Put`, `cleanup` and
`healthCheck`.

* `poolStep_effect`: what one step does to the sizes, the statistics and the
  place of every connection;
* `run_balanced`: the same, summed over all goroutines, along every run;
* `quiescent_accounting`: between operations `currentSize` is idle plus checked
  out, the statistics agree with it, and no connection is in two places.
-/

namespace RpcInGo.Pool.Accounting
open Lib.Channel Lib.Goroutine Protocol.Message Options Model Closing

/-! ## What an operation in progress holds -/

def After.hand : After → List ConnId
  | .create | .put => []
  | .cleanup rest | .healthCheck rest => rest.filterMap id

/-- Connections in the local variables of an operation. -/
def hand : Pc → List ConnId
  | .getHealthy (some c) | .getExpired c | .createGrow c | .createStat c => [c]
  | .putCount c | .putClosed c | .putClose c | .putHealthy c | .putExpired c | .putSend c => [c]
  | .discardClose c k => c :: After.hand k
  | .discardStat k | .discardSize k => After.hand k
  | .cleanupDrain l | .cleanupCheck l | .healthDrain l | .healthCheck l => l.filterMap id
  | .cleanupSend c l | .healthSend c l => c :: l.filterMap id
  | .refillSend c _ | .closeConn c => [c]
  | _ => []

/-- By how much `currentSize` is ahead of the connections an operation knows:
closed but still counted, or alive and not counted yet. -/
def drift : Pc → Int
  | .discardStat _ | .discardSize _ => 1
  | .createGrow _ | .refillSend _ _ | .refillGrow _ => -1
  | _ => 0

/-- By how much `currentSize` is ahead of `createCount - closeCount`. -/
def lag : Pc → Int
  | .discardSize _ | .createStat _ | .refillStat _ => 1
  | _ => 0

def located (p : ConnectionPool) (pc : Pc) (c : Nat) : Int :=
  p.pool.buf.count c + p.checkedOut.count c + (hand pc).count c

def known (p : ConnectionPool) (c : Nat) : Int := if c < p.conns.length then 1 else 0

/-! ## One step -/

structure Effect (p : ConnectionPool) (pc : Pc) (p' : ConnectionPool) (pc' : Pc) : Prop where
  size : p'.currentSize - p'.pool.buf.length - p'.checkedOut.length - (hand pc').length
      - drift pc' =
    p.currentSize - p.pool.buf.length - p.checkedOut.length - (hand pc).length - drift pc
  stat : p'.createCount - p'.closeCount - p'.currentSize + lag pc' =
    p.createCount - p.closeCount - p.currentSize + lag pc
  place : ∀ c : Nat, located p' pc' c - known p' c ≤ located p pc c - known p c

section Effects
variable {o : PoolOptions} {p p' : ConnectionPool} {pc pc' : Pc} {e : Ev}

@[simp] theorem closeConn_length (p : ConnectionPool) (c : ConnId) :
    (p.closeConn c).conns.length = p.conns.length := by
  simp [ConnectionPool.closeConn]

/-- A step that moves no connection: it may change counters, and forget a
connection it has closed. -/
theorem Effect.local (hpool : p'.pool.buf = p.pool.buf) (hout : p'.checkedOut = p.checkedOut)
    (hconns : p'.conns.length = p.conns.length) (hhand : (hand pc').Sublist (hand pc))
    (hsize : p'.currentSize - (hand pc').length - drift pc' =
      p.currentSize - (hand pc).length - drift pc)
    (hstat : p'.createCount - p'.closeCount - p'.currentSize + lag pc' =
      p.createCount - p.closeCount - p.currentSize + lag pc) :
    Effect p pc p' pc' := by
  refine ⟨?_, hstat, ?_⟩
  · rw [hpool, hout]
    omega
  · intro c
    have := hhand.count_le c
    simp only [located, known, hpool, hout, hconns]
    omega

theorem Effect.quiet (hhand : hand pc' = hand pc) (hdrift : drift pc' = drift pc)
    (hlag : lag pc' = lag pc) : Effect p pc p pc' := by
  refine .local rfl rfl rfl ?_ ?_ ?_
  · rw [hhand]
  · rw [hhand, hdrift]
  · rw [hlag]

/-- A receive from the idle channel moves its head into the hand. -/
theorem recvStep_effect {k : Option ConnId → Pc} (hc : p.pool.closed = false)
    (hk : ∀ c, hand (k (some c)) = hand pc ++ [c]) (hd : ∀ c, drift (k (some c)) = drift pc)
    (hl : ∀ c, lag (k (some c)) = lag pc) (h : recvStep p k = some (p', pc')) :
    Effect p pc p' pc' := by
  obtain ⟨c, ch, hb, -, -, rfl, rfl⟩ | ⟨hcl, -, -⟩ := recvStep_cases h
  · refine ⟨?_, ?_, ?_⟩
    · simp only [hk, hd, hb, List.length_append, List.length_cons, List.length_nil]
      omega
    · simp only [hl]
    · intro d
      simp only [located, known, hk, hb, List.count_append, List.count_cons]
      simp only [List.count_nil]
      omega
  · rw [hc] at hcl
    cases hcl

/-- A send gives the held connection `c` to the idle channel. -/
theorem send_effect {c : ConnId} {ch : Chan ConnId} (hs : p.pool.send c = .ok ch)
    (hk : hand pc = c :: hand pc') (hd : drift pc' = drift pc) (hl : lag pc' = lag pc) :
    Effect p pc { p with pool := ch } pc' := by
  obtain ⟨hb, -, -, -⟩ := send_ok hs
  refine ⟨?_, ?_, ?_⟩
  · simp only [hk, hd, hb, List.length_append, List.length_cons, List.length_nil]
    omega
  · simp only [hl]
  · intro d
    simp only [located, known, hk, hb, List.count_append, List.count_cons, List.count_nil]
    omega

theorem sendStep_effect {c : ConnId} {k : Pc} (hc : p.pool.closed = false)
    (hk : hand pc = c :: hand k) (hd : drift k = drift pc) (hl : lag k = lag pc)
    (h : sendStep p c k = some (p', pc')) : Effect p pc p' pc' := by
  unfold sendStep at h
  split at h <;> cases h
  · exact send_effect (by assumption) hk hd hl
  · rename_i hs
    rw [send_panic.mp hs] at hc
    cases hc

theorem emptyStep_effect {k : Pc} (hk : hand k = hand pc) (hd : drift k = drift pc)
    (hl : lag k = lag pc) (h : emptyStep p k = some (p', pc')) : Effect p pc p' pc' := by
  obtain ⟨-, -, rfl, rfl⟩ := emptyStep_cases h
  exact .quiet hk hd hl

/-- The factory's new object is known from now on and in the caller's hand. -/
theorem createConnection_effect {t : Int} (hk : hand pc' = p.conns.length :: hand pc)
    (hd : drift pc' = drift pc - 1) (hl : lag pc' = lag pc) :
    Effect p pc (p.createConnection t) pc' := by
  refine ⟨?_, ?_, ?_⟩
  · simp only [ConnectionPool.createConnection, hk, hd, List.length_cons]
    omega
  · simp only [ConnectionPool.createConnection, hl]
  · intro d
    simp only [located, known, ConnectionPool.createConnection, hk, List.count_cons,
      List.length_append, List.length_cons, List.length_nil, beq_iff_eq]
    split_ifs <;> omega

/-- `GetWithContext` hands the connection it holds to its caller. -/
theorem checkOut_effect {c : ConnId} {n : Int} (hk : hand pc = c :: hand pc')
    (hd : drift pc' = drift pc) (hl : lag pc' = lag pc - n) :
    Effect p pc { p with createCount := p.createCount + n, checkedOut := c :: p.checkedOut }
      pc' := by
  refine ⟨?_, ?_, ?_⟩
  · simp only [hk, hd, List.length_cons]
    omega
  · simp only [hl]
    omega
  · intro d
    simp only [located, known, hk, List.count_cons]
    omega

theorem checkOut_same {c : ConnId} (hk : hand pc = c :: hand pc') (hd : drift pc' = drift pc)
    (hl : lag pc' = lag pc) :
    Effect p pc { p with checkedOut := c :: p.checkedOut } pc' := by
  have h := checkOut_effect (p := p) (n := 0) hk hd (by omega)
  rwa [Int.add_zero] at h

theorem getStep_effect (h : getStep o p pc e = some (p', pc')) (hc : p.pool.closed = false) :
    Effect p pc p' pc' := by
  revert h
  fun_cases getStep o p pc e <;> intro h <;> try contradiction
  all_goals first
    | exact recvStep_effect hc (fun _ => rfl) (fun _ => rfl) (fun _ => rfl) h
    | exact emptyStep_effect (by rfl) (by rfl) (by rfl) h
    | cases h
      first
      | exact .quiet rfl rfl rfl
      | exact createConnection_effect rfl rfl rfl
      | exact checkOut_effect (n := 1) (by rfl) (by rfl) (by rfl)
      | exact checkOut_same (by rfl) (by rfl) (by rfl)
      | refine .local rfl rfl rfl (.refl _) ?_ ?_ <;> simp only [hand, drift, lag] <;> omega

theorem discardStep_effect (h : discardStep p pc e = some (p', pc')) : Effect p pc p' pc' := by
  revert h
  fun_cases discardStep p pc e <;> intro h <;> cases h
  · refine .local rfl rfl (by simp) (by simp [hand]) ?_ ?_ <;>
      simp [hand, drift, lag, ConnectionPool.closeConn]
    omega
  · refine .local rfl rfl rfl (.refl _) ?_ ?_ <;> simp only [hand, drift, lag]
    omega
  · rename_i k _
    refine .local rfl rfl rfl ?_ ?_ ?_ <;> cases k <;>
      simp [hand, drift, lag, After.pc, After.hand] <;> omega

theorem putStep_effect (h : putStep o p pc e = some (p', pc')) (hc : p.pool.closed = false)
    (hl : late pc = false) : Effect p pc p' pc' := by
  revert h
  fun_cases putStep o p pc e <;> intro h <;> try contradiction
  all_goals cases h
  all_goals first
    | exact .quiet rfl rfl rfl
    | exact .local rfl rfl rfl (.refl _) rfl rfl
    | exact send_effect (by assumption) rfl rfl rfl
    | exact absurd hl (by decide)
    | exact absurd hc (by simp [send_panic.mp (by assumption)])

theorem cleanupStep_effect (h : cleanupStep o p pc e = some (p', pc'))
    (hc : p.pool.closed = false) (hl : late pc = false) : Effect p pc p' pc' := by
  revert h
  fun_cases cleanupStep o p pc e <;> intro h <;> try contradiction
  all_goals first
    | exact recvStep_effect hc (by simp [hand]) (fun _ => rfl) (fun _ => rfl) h
    | exact emptyStep_effect (by rfl) (by rfl) (by rfl) h
    | exact sendStep_effect hc (by rfl) (by rfl) (by rfl) h
    | cases h
      first
      | exact .quiet rfl rfl rfl
      | exact .local rfl rfl rfl (.refl _) rfl rfl
      | exact createConnection_effect rfl rfl rfl
      | refine .local rfl rfl rfl (.refl _) ?_ ?_ <;> simp only [hand, drift, lag] <;> omega

theorem healthStep_effect (h : healthStep p pc e = some (p', pc'))
    (hc : p.pool.closed = false) (hl : late pc = false) : Effect p pc p' pc' := by
  revert h
  fun_cases healthStep p pc e <;> intro h <;> try contradiction
  all_goals first
    | exact recvStep_effect hc (by simp [hand]) (fun _ => rfl) (fun _ => rfl) h
    | exact emptyStep_effect (by rfl) (by rfl) (by rfl) h
    | exact sendStep_effect hc (by rfl) (by rfl) (by rfl) h
    | cases h
      exact .quiet rfl rfl rfl

/-- Of the steps of `Close`, only the first is possible while the pool is open. -/
theorem closeStep_effect (h : closeStep p pc e = some (p', pc')) (hl : late pc = false) :
    Effect p pc p' pc' := by
  revert h
  fun_cases closeStep p pc e <;> intro h <;> try contradiction
  all_goals cases h
  all_goals first
    | exact .quiet rfl rfl rfl
    | exact .local rfl rfl rfl (.refl _) rfl rfl

theorem callStep_effect {r : Result} {op : Op} (hp : ∀ c, op = .put (some c) → c ∈ p.checkedOut)
    (h : callStep p op = (p', pc')) : Effect p (.returned r) p' pc' := by
  revert h
  fun_cases callStep p op <;> intro h <;> cases h
  all_goals first
    | exact .quiet rfl rfl rfl
    | exact .local rfl rfl (by simp) (.refl _) rfl rfl
    | skip
  rename_i c
  have hm := hp c rfl
  have hpos := List.length_pos_of_mem hm
  refine ⟨?_, rfl, ?_⟩
  · simp only [hand, drift, List.length_erase_of_mem hm, List.length_cons, List.length_nil]
    omega
  · intro d
    have hcount : (p.checkedOut.erase c).count d + [c].count d = p.checkedOut.count d := by
      rw [List.count_erase, List.count_cons]
      by_cases hd : c = d
      · subst hd
        have := List.count_pos_iff.mpr hm
        simp
        omega
      · simp [hd]
    simp only [located, known, hand, List.count_nil]
    omega

theorem poolStep_effect (h : poolStep o p pc e = some (p', pc')) (hc : p.pool.closed = false)
    (hl : late pc = false) (hp : ∀ c, e = .call (.put (some c)) → c ∈ p.checkedOut) :
    Effect p pc p' pc' := by
  obtain ⟨r, op, rfl, rfl, hs⟩ | h | h | h | h | h | h := poolStep_cases h
  · exact callStep_effect (fun c hop => hp c (by rw [hop])) hs
  · exact getStep_effect h hc
  · exact discardStep_effect h
  · exact putStep_effect h hc hl
  · exact cleanupStep_effect h hc hl
  · exact healthStep_effect h hc hl
  · exact closeStep_effect h hl

end Effects

/-! ## All goroutines -/

/-- Callers give back only what they hold. -/
def putOnce (s : Config ConnectionPool Pc) : Ev → Bool
  | .call (.put (some c)) => c ∈ s.shared.checkedOut
  | _ => true

def PutOnce (s : Config ConnectionPool Pc) (_ : Nat) (e : Ev) : Prop := putOnce s e = true

instance (s : Config ConnectionPool Pc) (i : Nat) (e : Ev) : Decidable (PutOnce s i e) :=
  inferInstanceAs (Decidable (_ = true))

theorem PutOnce.mem {s : Config ConnectionPool Pc} {i : Nat} {e : Ev} (h : PutOnce s i e)
    (c : ConnId) (he : e = .call (.put (some c))) : c ∈ s.shared.checkedOut := by
  subst he
  simpa [PutOnce, putOnce] using h

structure Balanced (s : Config ConnectionPool Pc) : Prop where
  chan : s.shared.pool.closed = s.shared.closed
  after : ∀ pc ∈ s.threads, late pc = true → s.shared.closed = true
  size : s.shared.closed = false →
    s.shared.currentSize = s.shared.pool.buf.length + s.shared.checkedOut.length +
      total (fun pc => (hand pc).length + drift pc) s.threads
  stat : s.shared.closed = false →
    s.shared.createCount - s.shared.closeCount = s.shared.currentSize - total lag s.threads
  place : s.shared.closed = false → ∀ c : Nat,
    s.shared.pool.buf.count c + s.shared.checkedOut.count c +
      total (fun pc => ((hand pc).count c : Int)) s.threads ≤ known s.shared c

theorem fire_balanced {o : PoolOptions} {s t : Config ConnectionPool Pc} {i : Nat} {e : Ev}
    (hb : Balanced s) (hok : PutOnce s i e) (h : (program o).fire s i e = some t) :
    Balanced t := by
  obtain ⟨pc, p', pc', hi, hs, rfl⟩ := fire_pool h
  have hmem : pc ∈ s.threads := List.mem_of_getElem? hi
  have hcl := poolStep_closes hs hb.chan (hb.after pc hmem)
  -- an open pool was open before the step, so the step is one of an open pool
  have heff : p'.closed = false → s.shared.closed = false ∧ Effect s.shared pc p' pc' := by
    intro ho
    have hopen : s.shared.closed = false := by
      cases hc : s.shared.closed with
      | false => rfl
      | true => rw [hcl.mono hc] at ho; cases ho
    have hnl : late pc = false := by
      cases hl : late pc with
      | false => rfl
      | true => rw [hb.after pc hmem hl] at hopen; cases hopen
    exact ⟨hopen, poolStep_effect hs (hb.chan.trans hopen) hnl hok.mem⟩
  refine ⟨hcl.chan, ?_, ?_, ?_, ?_⟩
  · exact forall_set hcl.after hb.after (fun q hq hl => hcl.mono (hq hl))
  · intro ho
    obtain ⟨hopen, heff⟩ := heff ho
    have hsize := hb.size hopen
    have := heff.size
    simp only [total_set _ _ hi]
    omega
  · intro ho
    obtain ⟨hopen, heff⟩ := heff ho
    have hstat := hb.stat hopen
    have := heff.stat
    simp only [total_set _ _ hi]
    omega
  · intro ho c
    obtain ⟨hopen, heff⟩ := heff ho
    have hplace := hb.place hopen c
    have := heff.place c
    simp only [located] at this
    simp only [total_set _ _ hi]
    omega

/-! ## Construction -/

/-- The pool `NewConnectionPool` is building: everything created is idle. -/
structure Fresh (o : PoolOptions) (p : ConnectionPool) : Prop where
  chan : p.pool.closed = false
  opened : p.closed = false
  free : p.locked = false
  cap : p.pool.cap = o.maxSize.toNat
  size : p.currentSize = p.pool.buf.length
  stat : p.createCount - p.closeCount = p.currentSize
  out : p.checkedOut = []
  place : ∀ c : Nat, (p.pool.buf.count c : Int) ≤ known p c

theorem preCreate_fresh {o : PoolOptions} {factory : Nat → Option Int} {n i : Nat}
    {p p' : ConnectionPool} (h : preCreate factory i n p = some p') (hf : Fresh o p) :
    Fresh o p' := by
  induction n generalizing i p with
  | zero =>
    cases h
    exact hf
  | succ n ih =>
    unfold preCreate at h
    split at h
    · cases h
      exact hf
    · simp only at h
      split at h
      · rename_i t _ ch hs
        obtain ⟨hb, hcap, hcl, -⟩ := send_ok hs
        refine ih h ⟨hcl.trans hf.chan, hf.opened, hf.free, hcap.trans hf.cap, ?_, ?_, hf.out, ?_⟩
        · have := hf.size
          simp only [hb, ConnectionPool.createConnection, List.length_append, List.length_cons,
            List.length_nil]
          omega
        · have := hf.stat
          simp only [ConnectionPool.createConnection]
          omega
        · intro c
          have := hf.place c
          simp only [known, hb, ConnectionPool.createConnection, List.count_append,
            List.count_cons, List.count_nil, List.length_append, List.length_cons,
            List.length_nil, beq_iff_eq] at this ⊢
          split_ifs at this ⊢ <;> omega
      · cases h

theorem newConnectionPool_fresh {o : PoolOptions} {factory : Nat → Option Int}
    {p : ConnectionPool} (h : newConnectionPool o factory = some p) : Fresh o p :=
  preCreate_fresh h ⟨rfl, rfl, rfl, rfl, rfl, rfl, rfl, by simp [emptyPool, Chan.make, known]⟩

theorem start_balanced {o : PoolOptions} {p : ConnectionPool} (hf : Fresh o p) (n : Nat) :
    Balanced (start p n) := by
  have hw (w : Pc → Int) (h0 : w (.returned .done) = 0) : total w (start p n).threads = 0 := by
    apply total_eq_zero
    intro q hq
    rw [List.eq_of_mem_replicate hq, h0]
  refine ⟨hf.chan.trans hf.opened.symm, ?_, ?_, ?_, ?_⟩
  · intro pc hpc hl
    rw [List.eq_of_mem_replicate hpc] at hl
    cases hl
  · intro _
    rw [hw _ rfl]
    simp [start, hf.size, hf.out]
  · intro _
    rw [hw _ rfl]
    simp [start, hf.stat]
  · intro _ c
    rw [hw _ rfl]
    simpa [start, hf.out] using hf.place c

theorem run_balanced {o : PoolOptions} {factory : Nat → Option Int} {p : ConnectionPool}
    {n : Nat} {tr : List (Nat × Ev)} {s : Config ConnectionPool Pc}
    (h0 : newConnectionPool o factory = some p)
    (hr : Run (program o) PutOnce (start p n) tr s) : Balanced s :=
  hr.invariant (start_balanced (newConnectionPool_fresh h0) n)
    (fun _ _ _ _ hb hok hf => fire_balanced hb hok hf)

/-! ## Between operations -/

theorem count_le_one {s : Config ConnectionPool Pc} (hb : Balanced s)
    (hopen : s.shared.closed = false) (c : Nat) :
    s.shared.pool.buf.count c + s.shared.checkedOut.count c ≤ 1 := by
  have hplace := hb.place hopen c
  have hnn : 0 ≤ total (fun pc => ((hand pc).count c : Int)) s.threads :=
    total_nonneg (fun _ _ => Int.natCast_nonneg _)
  have hknown : known s.shared c ≤ 1 := by
    unfold known
    split <;> decide
  omega

/-- Nothing a goroutine carries counts between operations. -/
theorem total_quiescent {s : Config ConnectionPool Pc} (hq : Quiescent s) {w : Pc → Int}
    (hw : ∀ r, w (.returned r) = 0) : total w s.threads = 0 := by
  apply total_eq_zero
  intro pc hpc
  have := hq pc hpc
  cases pc <;> simp_all [Pc.idle]

theorem Balanced.quiescent_size {s : Config ConnectionPool Pc} (hb : Balanced s)
    (hopen : s.shared.closed = false) (hq : Quiescent s) :
    s.shared.currentSize = s.shared.pool.buf.length + s.shared.checkedOut.length := by
  have hsize := hb.size hopen
  rw [total_quiescent hq (fun _ => rfl)] at hsize
  omega

/-- In every state an open pool reaches between operations, `currentSize` is the
idle plus the checked-out connections and also `createCount - closeCount`, and
no connection is idle twice or both idle and checked out. -/
theorem quiescent_accounting {o : PoolOptions} {factory : Nat → Option Int} {p : ConnectionPool}
    {n : Nat} {tr : List (Nat × Ev)} {s : Config ConnectionPool Pc}
    (h0 : newConnectionPool o factory = some p)
    (hr : Run (program o) PutOnce (start p n) tr s)
    (hopen : s.shared.closed = false) (hq : Quiescent s) :
    s.shared.currentSize = s.shared.pool.buf.length + s.shared.checkedOut.length ∧
    s.shared.currentSize = s.shared.createCount - s.shared.closeCount ∧
    s.shared.pool.buf.Nodup ∧ s.shared.checkedOut.Nodup ∧
    ∀ c ∈ s.shared.pool.buf, c ∉ s.shared.checkedOut := by
  have hb := run_balanced h0 hr
  have hstat := hb.stat hopen
  rw [total_quiescent hq (fun _ => rfl)] at hstat
  refine ⟨hb.quiescent_size hopen hq, by omega, ?_, ?_, ?_⟩
  · rw [List.nodup_iff_count_le_one]
    intro c
    have := count_le_one hb hopen c
    omega
  · rw [List.nodup_iff_count_le_one]
    intro c
    have := count_le_one hb hopen c
    omega
  · intro c hc hout
    have := count_le_one hb hopen c
    have := List.count_pos_iff.mpr hc
    have := List.count_pos_iff.mpr hout
    omega

/-- Two goroutines: one takes the pre-created connection and returns it, the
other finds the channel empty and creates a second one. -/
def twoGets : List (Nat × Ev) :=
  [(0, .call .get), (0, .step), (0, .step), (0, .recv), (0, .connected true), (0, .now 7),
   (1, .call .get), (1, .step), (1, .step), (1, .otherwise), (1, .step), (1, .created 8),
   (0, .call (.put (some 0))), (0, .step), (1, .step), (0, .step), (1, .step),
   (0, .connected true), (0, .now 9), (0, .step)]

def smallPool : PoolOptions := withPoolSize 2 1 defaultPoolOptions

def smallStart : Config ConnectionPool Pc :=
  start ((newConnectionPool smallPool fun _ => some 0).getD (emptyPool smallPool)) 2

theorem twoGets_runs : (exec (program smallPool) PutOnce smallStart twoGets).isSome := by decide

theorem quiescent_accounting_twoGets :
    let s := (exec (program smallPool) PutOnce smallStart twoGets).get twoGets_runs
    s.shared.closed = false ∧ Quiescent s ∧
    s.shared.currentSize = s.shared.pool.buf.length + s.shared.checkedOut.length ∧
    s.shared.currentSize = s.shared.createCount - s.shared.closeCount ∧
    s.shared.pool.buf.Nodup ∧ s.shared.checkedOut.Nodup ∧
    ∀ c ∈ s.shared.pool.buf, c ∉ s.shared.checkedOut :=
  ⟨by decide, by decide, quiescent_accounting (p := smallStart.shared)
    (show newConnectionPool smallPool (fun _ => some 0) = _ by rfl) (run_exec twoGets_runs)
    (by decide) (by decide)⟩

end RpcInGo.Pool.Accounting
