import RpcInGo.Lib.Solo
import RpcInGo.Pool.Handout
import RpcInGo.Pool.Refill

/-!
`GetWithContext` on an open pool that nobody else uses meanwhile, with a context that
stays alive: what `IsConnected`, the clock and the factory answer is fixed for the
duration of the call, as a `World`.

* `settled_of_run`: a pool that is open and between operations is `Settled`;
* `getting_step`: what holds at every program point of the call;
* `get_alone`: the call returns after at most one round of its loop more than there are
  idle connections, and what it has done with each of them.
-/

namespace RpcInGo.Pool.GetAlone
open Lib.Channel Lib.Goroutine Lib.Observe Lib.Solo Protocol.Message Options Model Closing
  Accounting Handout Refill

/-! ## The pool between operations -/

structure Settled (o : PoolOptions) (p : ConnectionPool) : Prop where
  opened : p.closed = false
  chan : p.pool.closed = false
  free : p.locked = false
  cap : p.pool.cap = o.maxSize.toNat
  size : p.currentSize = p.pool.buf.length + p.checkedOut.length
  bound : p.currentSize ≤ o.maxSize
  known : ∀ c ∈ p.pool.buf, c < p.conns.length

theorem settled_of_run {o : PoolOptions} {factory : Nat → Option Int} {p : ConnectionPool}
    {n : Nat} {tr : List (Nat × Ev)} {s : Config ConnectionPool Pc}
    (h0 : newConnectionPool o factory = some p) (hr : Run (program o) PutOnce (start p n) tr s)
    (hopen : s.shared.closed = false) (hq : Quiescent s) (hle : s.shared.currentSize ≤ o.maxSize) :
    Settled o s.shared := by
  obtain ⟨hb, hcap, hrefill⟩ := run_refilling (newConnectionPool_fresh h0) hr
  have hmutex := (hrefill hopen).mutex
  rw [total_quiescent hq (fun _ => rfl)] at hmutex
  refine ⟨hopen, hb.chan.trans hopen, ?_, hcap, hb.quiescent_size hopen hq, hle, fun c hc => ?_⟩
  · cases hl : s.shared.locked with
    | false => rfl
    | true => simp [hl] at hmutex
  · have hplace := hb.place hopen c
    rw [total_quiescent hq (fun _ => rfl), known] at hplace
    have hpos := List.count_pos_iff.mpr hc
    split at hplace <;> omega

/-! ## The call -/

/-- `factory` is the error of the factory, if it fails. -/
structure World where
  connected : ConnId → Bool
  now : Int
  factory : Option GoError

/-- The answers a call of `GetWithContext` can have. Its context is never done, so of the
two contexts only the one with the wait timeout ends, by its deadline. -/
def World.allows (w : World) : Pc → Ev → Bool
  | .getHealthy (some c), .connected b => b = w.connected c
  | .getExpired _, .now t => t = w.now
  | .createDial, .created t => w.factory = none ∧ t = w.now
  | .createDial, .createFailed e => w.factory = some e
  | .createWait, .ctxDone e => e = .deadlineExceeded
  | .getSelect, .ctxDone _ => false
  | .returned _, .call _ => false
  | _, _ => true

/-- The calls of `PooledConnection.Close`. -/
def closesAt : Pc → Ev → List ConnId
  | .discardClose c _, .step => [c]
  | _, _ => []

/-- The rounds of the loop of `createNewConnectionWithContext`. -/
def roundsAt : Pc → Ev → List Unit
  | .createSize, .step => [()]
  | _, _ => []

def timedOut (o : PoolOptions) : GoError :=
  .wrapf "wait for connection timeout after %v: %w" [.duration (waitTimeout o)]
    (CtxErr.toGoError .deadlineExceeded)

/-- How the call ends: with `p₀` the pool before it, `p` the pool after it and `closes` the
connections it has closed. They are the first of the idle connections, and what is still
idle is the rest. -/
inductive Outcome (w : World) (o : PoolOptions) (p₀ p : ConnectionPool) (closes : List ConnId) :
    Result → Prop
  | idle (c : ConnId) (hidle : p₀.pool.buf = closes ++ c :: p.pool.buf)
      (hhealthy : (p.conn c).isHealthy (w.connected c) = true)
      (hfresh : (p.conn c).isExpired o.maxIdleTime o.maxLifetime w.now = false)
      (hout : p.checkedOut = c :: p₀.checkedOut)
      (hsize : p.currentSize = p₀.currentSize - closes.length) : Outcome w o p₀ p closes (.conn c)
  | created (hidle : p₀.pool.buf = closes ++ p.pool.buf) (hfactory : w.factory = none)
      (hroom : p₀.currentSize - closes.length < o.maxSize)
      (hnew : p.conn p₀.conns.length = newPooledConnection w.now)
      (hout : p.checkedOut = p₀.conns.length :: p₀.checkedOut)
      (hsize : p.currentSize = p₀.currentSize - closes.length + 1) :
      Outcome w o p₀ p closes (.conn p₀.conns.length)
  | failed (e : GoError) (hidle : p₀.pool.buf = closes ++ p.pool.buf)
      (hfactory : w.factory = some e) (hroom : p₀.currentSize - closes.length < o.maxSize)
      (hout : p.checkedOut = p₀.checkedOut)
      (hsize : p.currentSize = p₀.currentSize - closes.length) :
      Outcome w o p₀ p closes (.error (.wrapf "factory create failed: %w" [] e))
  | timeout (hempty : p₀.pool.buf = []) (hfull : p₀.currentSize = o.maxSize)
      (hidle : p.pool.buf = []) (hcloses : closes = []) (hout : p.checkedOut = p₀.checkedOut)
      (hsize : p.currentSize = p₀.currentSize) : Outcome w o p₀ p closes (.error (timedOut o))

/-! ## The connection objects -/

/-- The connections in `closes` are closed, and no other object that there was has changed. -/
structure Shut (p₀ p : ConnectionPool) (closes : List ConnId) : Prop where
  closed : ∀ c ∈ closes, (p.conn c).closed = true
  others : ∀ c < p₀.conns.length, c ∉ closes → p.conn c = p₀.conn c

/-- The objects that there were: `Close` was called on those in `closes`, which may have been
closed before. -/
structure Objects (p₀ p : ConnectionPool) (closes : List ConnId) : Prop where
  grown : p₀.conns.length ≤ p.conns.length
  conn : ∀ c < p₀.conns.length,
    p.conn c = { p₀.conn c with closed := (p₀.conn c).closed || closes.contains c }

/-- What a step that closes the connections in `closed` does to the objects. -/
inductive Handles (p : ConnectionPool) (closed : List ConnId) (p' : ConnectionPool) : Prop
  | same (hconns : p'.conns = p.conns) (hnone : closed = [])
  | closes (c : ConnId) (hconns : p'.conns = (p.closeConn c).conns) (hone : closed = [c])
  | creates (t : Int) (hconns : p'.conns = (p.createConnection t).conns) (hnone : closed = [])

section Objects
variable {p₀ p p' : ConnectionPool} {closes closed : List ConnId}

theorem conn_congr (h : p'.conns = p.conns) (c : ConnId) : p'.conn c = p.conn c := by
  rw [ConnectionPool.conn, h, ConnectionPool.conn]

theorem conn_closeConn (p : ConnectionPool) (c d : ConnId) :
    (p.closeConn c).conn d =
      { p.conn d with closed := (p.conn d).closed || decide (d = c) } := by
  simp only [ConnectionPool.conn, ConnectionPool.closeConn, List.getD_eq_getElem?_getD,
    List.getElem?_modify]
  by_cases hd : d = c
  · subst hd
    cases p.conns[d]? <;> simp
  · cases p.conns[d]? <;> simp [hd, Ne.symm hd]

theorem conn_createConnection (t : Int) {c : ConnId} (h : c < p.conns.length) :
    (p.createConnection t).conn c = p.conn c := by
  simp only [ConnectionPool.conn, ConnectionPool.createConnection, List.getD_eq_getElem?_getD,
    List.getElem?_append_left h]

theorem Objects.refl (p : ConnectionPool) : Objects p p [] := ⟨le_refl _, fun c _ => by simp⟩

theorem Objects.step (h : Objects p₀ p closes) (hs : Handles p closed p') :
    Objects p₀ p' (closes ++ closed) := by
  cases hs with
  | same hconns hnone =>
    subst hnone
    refine ⟨hconns ▸ h.grown, fun c hc => ?_⟩
    rw [conn_congr hconns, h.conn c hc, List.append_nil]
  | closes c hconns hone =>
    subst hone
    refine ⟨by rw [hconns, closeConn_length]; exact h.grown, fun d hd => ?_⟩
    rw [conn_congr hconns, conn_closeConn, h.conn d hd]
    simp [Bool.or_assoc]
  | creates t hconns hnone =>
    subst hnone
    refine ⟨?_, fun c hc => ?_⟩
    · rw [hconns, ConnectionPool.createConnection, List.length_append]
      exact Nat.le_add_right_of_le h.grown
    · rw [conn_congr hconns, conn_createConnection t (hc.trans_le h.grown), h.conn c hc,
        List.append_nil]

theorem Objects.shut (h : Objects p₀ p closes) (hknown : ∀ c ∈ closes, c < p₀.conns.length) :
    Shut p₀ p closes := by
  refine ⟨fun c hc => ?_, fun c hlt hc => ?_⟩
  · rw [h.conn c (hknown c hc)]
    simp [hc]
  · rw [h.conn c hlt]
    simp [hc]

end Objects

/-! ## At every program point -/

/-- What holds at a program point of the call. -/
def Stage (w : World) (o : PoolOptions) (p₀ p : ConnectionPool) (closes : List ConnId) :
    Pc → Prop
  | .getCount | .getClosed | .getSelect => p₀.pool.buf = p.pool.buf ∧ closes = []
  | .getHealthy (some c) | .discardClose c .create => p₀.pool.buf = closes ++ c :: p.pool.buf
  | .getExpired c =>
    p₀.pool.buf = closes ++ c :: p.pool.buf ∧ (p.conn c).isHealthy (w.connected c) = true
  -- the loop is entered because nothing was idle or after a connection was closed
  | .discardStat .create | .discardSize .create | .createSize =>
    p₀.pool.buf = closes ++ p.pool.buf ∧ (closes = [] → p₀.pool.buf = [])
  | .createWait =>
    p.pool.buf = [] ∧ p₀.pool.buf = [] ∧ p₀.currentSize = o.maxSize ∧ closes = []
  | .createDial => p₀.pool.buf = closes ++ p.pool.buf ∧ p₀.currentSize - closes.length < o.maxSize
  | .createGrow c | .createStat c => c = p₀.conns.length ∧ p₀.pool.buf = closes ++ p.pool.buf ∧
      p₀.currentSize - closes.length < o.maxSize ∧ w.factory = none ∧
      p.conn c = newPooledConnection w.now
  | .returned r => Outcome w o p₀ p closes r
  | _ => False

/-- The connections made so far by a call that has not returned. -/
def made : Pc → Nat
  | .createGrow _ | .createStat _ => 1
  | _ => 0

structure Getting (w : World) (o : PoolOptions) (p₀ p : ConnectionPool) (pc : Pc)
    (closes : List ConnId) : Prop where
  opened : p.closed = false
  chan : p.pool.closed = false
  free : p.locked = false
  known : pc.idle = false → p.conns.length = p₀.conns.length + made pc
  out : pc.idle = false → p.checkedOut = p₀.checkedOut
  size : p.currentSize = p.pool.buf.length + p.checkedOut.length + (hand pc).length + drift pc
  objects : Objects p₀ p closes
  stage : Stage w o p₀ p closes pc

section Steps
variable {w : World} {o : PoolOptions} {p₀ p p' : ConnectionPool} {pc pc' : Pc} {e : Ev}
  {closes : List ConnId}

/-- What no step of the call changes before it returns, and what it does to the objects. -/
structure Frame (p : ConnectionPool) (pc : Pc) (e : Ev) (p' : ConnectionPool) (pc' : Pc) :
    Prop where
  closed : p'.closed = p.closed
  chan : p'.pool.closed = p.pool.closed
  locked : p'.locked = p.locked
  known : pc'.idle = false → p'.conns.length + made pc = p.conns.length + made pc'
  out : pc'.idle = false → p'.checkedOut = p.checkedOut
  handles : Handles p (closesAt pc e) p'

theorem recvStep_frame {k : Option ConnId → Pc} (h : recvStep p k = some (p', pc'))
    (hk : ∀ c, made (k c) = made pc) (he : closesAt pc e = []) : Frame p pc e p' pc' := by
  obtain ⟨c, ch, -, -, hcl, rfl, rfl⟩ | ⟨-, rfl, rfl⟩ := recvStep_cases h
  · exact ⟨rfl, hcl, rfl, fun _ => by rw [hk], fun _ => rfl, .same rfl he⟩
  · exact ⟨rfl, rfl, rfl, fun _ => by rw [hk], fun _ => rfl, .same rfl he⟩

theorem getStep_frame (h : getStep o p pc e = some (p', pc')) : Frame p pc e p' pc' := by
  revert h
  fun_cases getStep o p pc e <;> intro h <;> try contradiction
  all_goals first
    | exact recvStep_frame h (fun _ => rfl) rfl
    | (obtain ⟨-, -, rfl, rfl⟩ := emptyStep_cases h
       exact ⟨rfl, rfl, rfl, fun _ => rfl, fun _ => rfl, .same rfl rfl⟩)
    | (cases h
       first
       | exact ⟨rfl, rfl, rfl, fun _ => rfl, fun _ => rfl, .same rfl rfl⟩
       | exact ⟨rfl, rfl, rfl, fun _ => by simp [ConnectionPool.createConnection, made],
           fun _ => rfl, .creates _ rfl rfl⟩
       | exact ⟨rfl, rfl, rfl, by simp [Pc.idle], by simp [Pc.idle], .same rfl rfl⟩)

theorem discardStep_frame (h : discardStep p pc e = some (p', pc')) : Frame p pc e p' pc' := by
  revert h
  fun_cases discardStep p pc e <;> intro h <;> cases h
  · exact ⟨rfl, rfl, rfl, fun _ => by simp [made], fun _ => rfl, .closes _ rfl rfl⟩
  · exact ⟨rfl, rfl, rfl, fun _ => rfl, fun _ => rfl, .same rfl rfl⟩
  · rename_i k _
    exact ⟨rfl, rfl, rfl, fun _ => by cases k <;> rfl, fun _ => rfl, .same rfl rfl⟩

theorem Stage.not_late (hs : Stage w o p₀ p closes pc) : late pc = false := by
  unfold Stage at hs
  split at hs <;> first | rfl | exact hs.elim

/-- A call at a stage takes a step of `GetWithContext` or drops a connection. -/
theorem Stage.step_cases (hs : Stage w o p₀ p closes pc) (hpc : pc.idle = false)
    (h : poolStep o p pc e = some (p', pc')) :
    getStep o p pc e = some (p', pc') ∨ discardStep p pc e = some (p', pc') := by
  obtain ⟨r, op, rfl, rfl, -⟩ | h | h | h | h | h | h := poolStep_cases h
  · cases hpc
  · exact Or.inl h
  · exact Or.inr h
  · revert h hs
    fun_cases putStep o p pc e <;> intro h hs <;> contradiction
  · revert h hs
    fun_cases cleanupStep o p pc e <;> intro h hs <;> contradiction
  · revert h hs
    fun_cases healthStep p pc e <;> intro h hs <;> contradiction
  · revert h hs
    fun_cases closeStep p pc e <;> intro h hs <;> contradiction

theorem allows_not_idle (hok : w.allows pc e = true) (h : poolStep o p pc e = some (p', pc')) :
    pc.idle = false := by
  cases pc with
  | returned r =>
    obtain ⟨op, rfl, -⟩ := poolStep_returned h
    cases hok
  | _ => rfl

/-- What the size has lost is what was closed. -/
theorem Getting.deducted (hset : Settled o p₀) (hg : Getting w o p₀ p pc closes)
    (hpc : pc.idle = false) (taken : List ConnId)
    (hidle : p₀.pool.buf = closes ++ taken ++ p.pool.buf)
    (hcarried : (hand pc).length + drift pc = taken.length + made pc) :
    p.currentSize = p₀.currentSize - closes.length + made pc := by
  have hsize := hg.size
  have hsize₀ := hset.size
  have hlen := congrArg List.length hidle
  rw [List.length_append, List.length_append] at hlen
  rw [hg.out hpc] at hsize
  omega

/-- The same with no connection in hand. -/
theorem Getting.shrunk (hset : Settled o p₀) (hg : Getting w o p₀ p pc closes)
    (hpc : pc.idle = false) (hidle : p₀.pool.buf = closes ++ p.pool.buf) (hmade : made pc = 0)
    (hcarried : (hand pc).length + drift pc = 0) :
    p.currentSize = p₀.currentSize - closes.length := by
  have hsize := hg.deducted hset hpc [] (by rw [List.append_nil, hidle]) (by simp [hcarried, hmade])
  simpa [hmade] using hsize

/-- The next stage of `GetWithContext`. -/
theorem getStep_stage (hset : Settled o p₀) (hg : Getting w o p₀ p pc closes)
    (hok : w.allows pc e = true) (h : getStep o p pc e = some (p', pc')) :
    Stage w o p₀ p' closes pc' := by
  revert hg hok h
  fun_cases getStep o p pc e <;> intro hg hok h <;> try contradiction
  case case1 | case4 =>
    cases h
    exact hg.stage
  case case3 hclosed =>
    rw [hg.opened] at hclosed
    cases hclosed
  case case5 =>
    obtain ⟨hidle, rfl⟩ := hg.stage
    obtain ⟨c, ch, hb, -, -, rfl, rfl⟩ | ⟨hcl, -, -⟩ := recvStep_cases h
    · exact hidle.trans hb
    · rw [hg.chan] at hcl
      cases hcl
  case case7 =>
    obtain ⟨hidle, rfl⟩ := hg.stage
    obtain ⟨hb, -, rfl, rfl⟩ := emptyStep_cases h
    exact ⟨hidle, fun _ => hidle.trans hb⟩
  case case8 => exact hg.stage.elim
  case case9 c b hhealthy =>
    cases h
    simp only [World.allows, decide_eq_true_eq] at hok
    rw [hok] at hhealthy
    exact ⟨hg.stage, hhealthy⟩
  case case10 c b hill =>
    cases h
    exact hg.stage
  case case11 c t hexpired =>
    cases h
    exact hg.stage.1
  case case12 c t hfresh =>
    cases h
    obtain ⟨hidle, hhealthy⟩ := hg.stage
    simp only [World.allows, decide_eq_true_eq] at hok
    rw [hok, Bool.not_eq_true] at hfresh
    have hsize := hg.deducted hset rfl [c] (by simpa using hidle) rfl
    exact .idle c hidle hhealthy hfresh (by rw [hg.out rfl]) (by simpa [made] using hsize)
  case case14 hfree hfull =>
    cases h
    obtain ⟨hidle, hwhy⟩ := hg.stage
    have hsize := hg.shrunk hset rfl hidle rfl rfl
    have hbound := hset.bound
    have hnone : closes = [] := List.eq_nil_of_length_eq_zero (by omega)
    subst hnone
    have hempty := hwhy rfl
    simp only [List.length_nil] at hsize
    exact ⟨by simpa [hempty] using hidle.symm, hempty, by omega, rfl⟩
  case case15 hfree hroom =>
    cases h
    obtain ⟨hidle, -⟩ := hg.stage
    have hsize := hg.shrunk hset rfl hidle rfl rfl
    exact ⟨hidle, by omega⟩
  case case16 =>
    -- a pool that is full because of others has nothing idle
    obtain ⟨hidle, -⟩ := hg.stage
    obtain ⟨c, ch, hb, -⟩ | ⟨hcl, -, -⟩ := recvStep_cases h
    · rw [hidle] at hb
      cases hb
    · rw [hg.chan] at hcl
      cases hcl
  case case17 err =>
    cases h
    obtain ⟨hidle, hempty, hfull, rfl⟩ := hg.stage
    simp only [World.allows, decide_eq_true_eq] at hok
    subst hok
    have hsize := hg.shrunk hset rfl (by rw [hidle, hempty]; rfl) rfl rfl
    exact .timeout hempty hfull hidle rfl (hg.out rfl) (by simpa using hsize)
  case case18 t =>
    cases h
    obtain ⟨hidle, hroom⟩ := hg.stage
    simp only [World.allows, decide_eq_true_eq] at hok
    have hknown := hg.known rfl
    refine ⟨hknown, hidle, hroom, hok.1, ?_⟩
    rw [hok.2]
    simp [ConnectionPool.conn, ConnectionPool.createConnection]
  case case19 err =>
    cases h
    obtain ⟨hidle, hroom⟩ := hg.stage
    simp only [World.allows, decide_eq_true_eq] at hok
    exact .failed err hidle hok hroom (hg.out rfl) (hg.shrunk hset rfl hidle rfl rfl)
  case case21 c hfree =>
    cases h
    exact hg.stage
  case case22 c =>
    cases h
    obtain ⟨rfl, hidle, hroom, hfactory, hnew⟩ := hg.stage
    have hsize := hg.deducted hset rfl [] (by simpa using hidle) rfl
    exact .created hidle hfactory hroom hnew (by rw [hg.out rfl]) (by simpa [made] using hsize)

theorem discardStep_stage (hg : Getting w o p₀ p pc closes)
    (h : discardStep p pc e = some (p', pc')) :
    Stage w o p₀ p' (closes ++ closesAt pc e) pc' := by
  revert hg h
  fun_cases discardStep p pc e <;> intro hg h <;> try contradiction
  case case1 c k =>
    cases h
    cases k with
    | create =>
      have hidle : p₀.pool.buf = closes ++ c :: p.pool.buf := hg.stage
      exact ⟨by simpa [closesAt, ConnectionPool.closeConn] using hidle, by simp [closesAt]⟩
    | _ => exact hg.stage.elim
  case case2 k =>
    cases h
    show Stage w o p₀ _ (closes ++ []) _
    rw [List.append_nil]
    cases k with
    | create => exact hg.stage
    | _ => exact hg.stage.elim
  case case4 k hfree =>
    cases h
    show Stage w o p₀ _ (closes ++ []) _
    rw [List.append_nil]
    cases k with
    | create => exact hg.stage
    | _ => exact hg.stage.elim

theorem closesAt_getStep (h : getStep o p pc e = some (p', pc')) : closesAt pc e = [] := by
  revert h
  fun_cases getStep o p pc e <;> intro h <;> first | rfl | cases h

theorem getting_step (hset : Settled o p₀) (hg : Getting w o p₀ p pc closes)
    (hok : w.allows pc e = true) (h : poolStep o p pc e = some (p', pc')) :
    Getting w o p₀ p' pc' (closes ++ closesAt pc e) := by
  have hpc := allows_not_idle hok h
  have heff := poolStep_effect h hg.chan hg.stage.not_late
    (fun c he => absurd he (poolStep_not_call hpc h _))
  have hsize : p'.currentSize =
      p'.pool.buf.length + p'.checkedOut.length + (hand pc').length + drift pc' := by
    have := heff.size
    have := hg.size
    omega
  have hboth : Frame p pc e p' pc' ∧ Stage w o p₀ p' (closes ++ closesAt pc e) pc' := by
    rcases hg.stage.step_cases hpc h with h | h
    · refine ⟨getStep_frame h, ?_⟩
      rw [closesAt_getStep h, List.append_nil]
      exact getStep_stage hset hg hok h
    · exact ⟨discardStep_frame h, discardStep_stage hg h⟩
  obtain ⟨hf, hst⟩ := hboth
  refine ⟨hf.closed.trans hg.opened, hf.chan.trans hg.chan, hf.locked.trans hg.free, fun hi => ?_,
    fun hi => (hf.out hi).trans (hg.out hpc), hsize, hg.objects.step hf.handles, hst⟩
  have := hf.known hi
  have := hg.known hpc
  omega

/-! ## Rounds and steps -/

/-- How many steps are left at most, when no idle connection is received any more. -/
def toGo : Pc → Nat
  | .getHealthy _ => 10
  | .getExpired _ => 9
  | .getCount | .discardClose _ _ => 8
  | .getClosed | .discardStat _ => 7
  | .getSelect | .discardSize _ => 6
  | .createSize => 5
  | .createWait => 4
  | .createDial => 3
  | .createGrow _ => 2
  | .createStat _ => 1
  | _ => 0

/-- Each idle connection can cost one more round of seven steps. -/
def rank (p : ConnectionPool) (pc : Pc) : Nat := 7 * p.pool.buf.length + toGo pc

/-- The rounds of the loop that can still come. -/
def roundsLeft (p : ConnectionPool) (pc : Pc) : Nat :=
  p.pool.buf.length + if toGo pc ≤ 4 then 0 else 1

theorem recvStep_rank {k : Option ConnId → Pc} (h : recvStep p k = some (p', pc'))
    (hchan : p.pool.closed = false) (hk : ∀ c, toGo (k c) = 10) (hpc : 4 ≤ toGo pc) :
    rank p' pc' < rank p pc ∧ roundsLeft p' pc' ≤ roundsLeft p pc := by
  obtain ⟨c, ch, hb, -, -, rfl, rfl⟩ | ⟨hcl, -, -⟩ := recvStep_cases h
  · simp only [rank, roundsLeft, hb, List.length_cons, hk]
    constructor
    · omega
    · split_ifs <;> omega
  · rw [hchan] at hcl
    cases hcl

theorem getStep_rank (hchan : p.pool.closed = false) (h : getStep o p pc e = some (p', pc')) :
    rank p' pc' < rank p pc ∧ roundsLeft p' pc' + (roundsAt pc e).length ≤ roundsLeft p pc := by
  revert h
  fun_cases getStep o p pc e <;> intro h <;> try contradiction
  all_goals first
    | exact recvStep_rank h hchan (fun _ => rfl) (by decide)
    | (obtain ⟨-, -, rfl, rfl⟩ := emptyStep_cases h
       simp [rank, roundsLeft, toGo, roundsAt])
    | (cases h
       simp [rank, roundsLeft, toGo, roundsAt, ConnectionPool.createConnection])

theorem discardStep_rank (h : discardStep p pc e = some (p', pc')) :
    rank p' pc' < rank p pc ∧ roundsLeft p' pc' + (roundsAt pc e).length ≤ roundsLeft p pc := by
  revert h
  fun_cases discardStep p pc e <;> intro h <;> cases h
  · simp [rank, roundsLeft, toGo, roundsAt, ConnectionPool.closeConn]
  · simp [rank, roundsLeft, toGo, roundsAt]
  · rename_i k _
    cases k <;> simp [rank, roundsLeft, toGo, roundsAt, After.pc]

theorem getting_rank (hg : Getting w o p₀ p pc closes) (hok : w.allows pc e = true)
    (h : poolStep o p pc e = some (p', pc')) :
    rank p' pc' < rank p pc ∧ roundsLeft p' pc' + (roundsAt pc e).length ≤ roundsLeft p pc := by
  rcases hg.stage.step_cases (allows_not_idle hok h) h with h | h
  · exact getStep_rank hg.chan h
  · exact discardStep_rank h

theorem poolStep_isSome (hpc : pc.idle = false)
    (h : (getStep o p pc e).isSome ∨ (discardStep p pc e).isSome ∨
      (cleanupStep o p pc e).isSome ∨ (healthStep p pc e).isSome) :
    (poolStep o p pc e).isSome := by
  cases pc with
  | returned r => cases hpc
  | _ =>
    simp only [poolStep, Option.isSome_or, Bool.or_eq_true]
    tauto

/-- A `select` with a receive and a `default` always goes on. -/
theorem recvStep_or_emptyStep (p : ConnectionPool) (k : Option ConnId → Pc) (k' : Pc) :
    (recvStep p k).isSome ∨ (emptyStep p k').isSome := by
  unfold recvStep emptyStep
  cases p.pool.recv with
  | ok c ch => exact Or.inl rfl
  | zero => exact Or.inl rfl
  | empty => exact Or.inr rfl

/-- The call is never stuck. -/
theorem getting_go (hg : Getting w o p₀ p pc closes) :
    pc.idle = true ∨ ∃ e p' pc', w.allows pc e = true ∧ poolStep o p pc e = some (p', pc') := by
  have hgo (e : Ev) (hok : w.allows pc e = true) (hsome : (poolStep o p pc e).isSome) :
      pc.idle = true ∨ ∃ e p' pc', w.allows pc e = true ∧ poolStep o p pc e = some (p', pc') := by
    obtain ⟨⟨p', pc'⟩, hs⟩ := Option.isSome_iff_exists.mp hsome
    exact Or.inr ⟨e, p', pc', hok, hs⟩
  have hst := hg.stage
  have hfree := hg.free
  unfold Stage at hst
  split at hst
  case h_1 | h_13 => exact hgo .step rfl (poolStep_isSome rfl (.inl rfl))
  case h_2 => exact hgo .step rfl (poolStep_isSome rfl (.inl (by simp [getStep, hfree, hg.opened])))
  case h_3 =>
    rcases recvStep_or_emptyStep p .getHealthy .createSize with h | h
    · exact hgo .recv rfl (poolStep_isSome rfl (.inl h))
    · exact hgo .otherwise rfl (poolStep_isSome rfl (.inl h))
  case h_4 c =>
    refine hgo (.connected (w.connected c)) (by simp [World.allows])
      (poolStep_isSome rfl (.inl ?_))
    rw [getStep]
    split <;> rfl
  case h_5 c => exact hgo .step rfl (poolStep_isSome rfl (.inr (.inl rfl)))
  case h_6 c =>
    refine hgo (.now w.now) (by simp [World.allows]) (poolStep_isSome rfl (.inl ?_))
    rw [getStep]
    split <;> rfl
  case h_7 => exact hgo .step rfl (poolStep_isSome rfl (.inr (.inl rfl)))
  case h_8 => exact hgo .step rfl (poolStep_isSome rfl (.inr (.inl (by simp [discardStep, hfree]))))
  case h_9 =>
    refine hgo .step rfl (poolStep_isSome rfl (.inl ?_))
    rw [getStep, hfree]
    simp only [Bool.false_eq_true, ↓reduceIte]
    split <;> rfl
  case h_10 => exact hgo (.ctxDone .deadlineExceeded) rfl (poolStep_isSome rfl (.inl rfl))
  case h_11 =>
    cases hf : w.factory with
    | none =>
      exact hgo (.created w.now) (by simp [World.allows, hf]) (poolStep_isSome rfl (.inl rfl))
    | some err =>
      exact hgo (.createFailed err) (by simp [World.allows, hf]) (poolStep_isSome rfl (.inl rfl))
  case h_12 => exact hgo .step rfl (poolStep_isSome rfl (.inl (by simp [getStep, hfree])))
  case h_14 => exact Or.inl rfl
  case h_15 => exact hst.elim

end Steps

/-! ## The whole call -/

theorem program_steps (o : PoolOptions) : Steps (program o) (poolStep o) := fun _ _ _ => rfl

theorem settled_getting {w : World} {o : PoolOptions} {p : ConnectionPool} (hset : Settled o p) :
    Getting w o p p .getCount [] :=
  ⟨hset.opened, hset.chan, hset.free, fun _ => rfl, fun _ => rfl,
    by simpa [hand, drift] using hset.size, .refl p, rfl, rfl⟩

theorem Outcome.closes_idle {w : World} {o : PoolOptions} {p₀ p : ConnectionPool}
    {closes : List ConnId} {r : Result} (h : Outcome w o p₀ p closes r) :
    ∀ c ∈ closes, c ∈ p₀.pool.buf := by
  intro c hc
  cases h with
  | idle _ hidle | created hidle | failed _ hidle =>
    rw [hidle]
    exact List.mem_append_left _ hc
  | timeout _ _ _ hcloses =>
    rw [hcloses] at hc
    cases hc

/-- The call times out exactly when nothing was idle and the pool was full. -/
theorem Outcome.timeout_iff {w : World} {o : PoolOptions} {p₀ p : ConnectionPool}
    {closes : List ConnId} {r : Result} (h : Outcome w o p₀ p closes r) :
    r = .error (timedOut o) ↔ p₀.pool.buf = [] ∧ p₀.currentSize = o.maxSize := by
  cases h with
  | idle c hidle => simp [hidle]
  | created hidle _ hroom =>
    simp only [reduceCtorEq, false_iff, not_and]
    intro hempty
    rw [hempty, List.nil_eq, List.append_eq_nil_iff] at hidle
    simp only [hidle.1, List.length_nil] at hroom
    omega
  | failed e hidle _ hroom =>
    refine ⟨fun hr => ?_, fun ⟨hempty, hfull⟩ => ?_⟩
    · simp [timedOut] at hr
    · rw [hempty, List.nil_eq, List.append_eq_nil_iff] at hidle
      simp only [hidle.1, List.length_nil] at hroom
      omega
  | timeout hempty hfull => exact ⟨fun _ => ⟨hempty, hfull⟩, fun _ => rfl⟩

/-- On an open pool that nobody else uses, whatever is idle, whatever the factory answers
and whatever holds of clock and connections: `GetWithContext` takes at most one round of
its loop more than there are idle connections and can always go on until it returns. When
it has returned, it was as `Outcome` says, with a timeout exactly if nothing was idle and the
pool full; the connections it has dropped are closed and no other one has changed; and
`currentSize` is again idle plus checked out. -/
theorem get_alone (w : World) {o : PoolOptions} {s t : Config ConnectionPool Pc} {i : Nat}
    {tr : List (Nat × Ev)} (hset : Settled o s.shared) (hi : s.threads[i]? = some .getCount)
    (h : Run (program o) (Only i w.allows) s tr t) :
    (observe (program o) (seen roundsAt) s tr).length ≤ s.shared.pool.buf.length + 1 ∧
    tr.length ≤ 7 * s.shared.pool.buf.length + 8 ∧
    (∃ tr' u r, Run (program o) (Only i w.allows) t tr' u ∧ u.threads[i]? = some (.returned r)) ∧
    ∀ r, t.threads[i]? = some (.returned r) →
      Outcome w o s.shared t.shared (observe (program o) (seen closesAt) s tr) r ∧
      (r = .error (timedOut o) ↔
        s.shared.pool.buf = [] ∧ s.shared.currentSize = o.maxSize) ∧
      Shut s.shared t.shared (observe (program o) (seen closesAt) s tr) ∧
      t.shared.currentSize = t.shared.pool.buf.length + t.shared.checkedOut.length := by
  have hsteps := program_steps o
  have hstep : ∀ p pc e p' pc', (∃ closes, Getting w o s.shared p pc closes) →
      w.allows pc e = true → poolStep o p pc e = some (p', pc') →
      (∃ closes, Getting w o s.shared p' pc' closes) ∧ rank p' pc' < rank p pc := by
    rintro p pc e p' pc' ⟨closes, hg⟩ hok hs
    exact ⟨⟨_, getting_step hset hg hok hs⟩, (getting_rank hg hok hs).1⟩
  obtain ⟨q, hq, hg⟩ := run_only closesAt
    (I := fun p pc _ closes => Getting w o s.shared p pc closes) hsteps h hi
    (settled_getting hset) (fun _ _ _ _ _ _ _ hg hok hs => getting_step hset hg hok hs)
  have hti : t.threads[i]? = some q := by
    rw [hq]
    exact getElem?_set_of_some hi q
  refine ⟨?_, ?_, ?_, ?_⟩
  · obtain ⟨_, _, _, hrounds⟩ := run_only roundsAt
      (I := fun p pc _ l => (∃ closes, Getting w o s.shared p pc closes) ∧
        roundsLeft p pc + l.length ≤ roundsLeft s.shared .getCount) hsteps h hi
      ⟨⟨[], settled_getting hset⟩, le_refl _⟩ (by
        rintro p pc es l e p' pc' ⟨⟨closes, hg⟩, hle⟩ hok hs
        have hround := (getting_rank hg hok hs).2
        refine ⟨⟨_, getting_step hset hg hok hs⟩, ?_⟩
        rw [List.length_append]
        omega)
    exact le_trans (Nat.le_add_left _ _) hrounds
  · obtain ⟨_, _, hle⟩ := length_add_rank_le hsteps h hi ⟨[], settled_getting hset⟩ hstep
    exact le_trans (Nat.le_add_right _ _) hle
  · obtain ⟨tr', u, q', hrun, hq', hdone⟩ : ∃ tr' u q',
        Run (program o) (Only i w.allows) t tr' u ∧ u.threads[i]? = some q' ∧ q'.idle = true :=
      finishes hsteps hstep (fun _ _ ⟨_, hg⟩ => getting_go hg) hti ⟨_, hg⟩
    cases q' with
    | returned r => exact ⟨tr', u, r, hrun, hq'⟩
    | _ => cases hdone
  · intro r hr
    rw [hti] at hr
    cases hr
    have hsize := hg.size
    simp only [hand, drift, List.length_nil] at hsize
    have hout : Outcome w o s.shared t.shared _ r := hg.stage
    exact ⟨hout, hout.timeout_iff,
      hg.objects.shut fun c hc => hset.known c (hout.closes_idle c hc), by omega⟩

/-- The idle connection has lost its peer: it is closed, and the call dials. -/
def peersGone : World := ⟨fun _ => false, 7, none⟩

def lonelyGet : Config ConnectionPool Pc := ⟨smallStart.shared, [.getCount]⟩

def replaces : List (Nat × Ev) :=
  [(0, .step), (0, .step), (0, .recv), (0, .connected false), (0, .step), (0, .step), (0, .step),
   (0, .step), (0, .created 7), (0, .step), (0, .step)]

theorem replaces_runs :
    (exec (program smallPool) (Only 0 peersGone.allows) lonelyGet replaces).isSome := by decide

theorem get_alone_replaces :
    let t := (exec (program smallPool) (Only 0 peersGone.allows) lonelyGet replaces).get
      replaces_runs
    Outcome peersGone smallPool lonelyGet.shared t.shared [0] (.conn 1) ∧
    (Result.conn 1 = .error (timedOut smallPool) ↔
      lonelyGet.shared.pool.buf = [] ∧ lonelyGet.shared.currentSize = smallPool.maxSize) ∧
    Shut lonelyGet.shared t.shared [0] ∧
    t.shared.currentSize = t.shared.pool.buf.length + t.shared.checkedOut.length :=
  (get_alone peersGone ⟨rfl, rfl, rfl, rfl, rfl, by decide, by decide⟩ rfl
    (run_exec replaces_runs)).2.2.2 (.conn 1) (by decide)

end RpcInGo.Pool.GetAlone
