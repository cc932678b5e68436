import RpcInGo.Lib.Channel
import RpcInGo.Lib.Goroutine
import RpcInGo.Pool.Options

/-! `ConnectionPool` of `pkg/pool/pool.go` at the granularity of its
lock-protected sections, atomic counter updates, channel operations and factory
calls. Connection objects live in `conns` and are named by their position. The
mutex is only ever held across several steps by the refill of `cleanup` and by
`Close`; `locked` says so, and every other lock-protected section is one step
that needs it free. -/

namespace RpcInGo.Pool.Model
open Lib.Channel Lib.Goroutine Protocol.Message Options

abbrev ConnId := Nat

structure PooledConnection where
  createdAt : Int
  lastUsed : Int
  closed : Bool
  deriving DecidableEq, Repr

def newPooledConnection (now : Int) : PooledConnection := ⟨now, now, false⟩

/-- `connected` is what `pc.Client.IsConnected()` answers at this moment. -/
def PooledConnection.isHealthy (pc : PooledConnection) (connected : Bool) : Bool :=
  if pc.closed then false else connected

def PooledConnection.isExpired (pc : PooledConnection) (maxIdleTime maxLifetime now : Int) :
    Bool :=
  if now - pc.lastUsed > maxIdleTime then true
  else maxLifetime > 0 ∧ now - pc.createdAt > maxLifetime

/-- `checkedOut` is bookkeeping of the model: the connections handed to a
caller by `GetWithContext` and not yet passed back to `Put`. -/
structure ConnectionPool where
  conns : List PooledConnection
  pool : Chan ConnId
  currentSize : Int
  closed : Bool
  locked : Bool
  getCount : Int
  putCount : Int
  createCount : Int
  closeCount : Int
  checkedOut : List ConnId
  deriving DecidableEq

namespace ConnectionPool

def conn (p : ConnectionPool) (c : ConnId) : PooledConnection := p.conns.getD c ⟨0, 0, true⟩

/-- `PooledConnection.Close` on `c`. -/
def closeConn (p : ConnectionPool) (c : ConnId) : ConnectionPool :=
  { p with conns := p.conns.modify c fun pc => { pc with closed := true } }

/-- `createConnection` when the factory succeeds; the new object is the last of `conns`. -/
def createConnection (p : ConnectionPool) (now : Int) : ConnectionPool :=
  { p with conns := p.conns ++ [newPooledConnection now] }

end ConnectionPool

/-! ## Construction -/

/-- The pre-creation loop of `NewConnectionPool` from iteration `i` on, `n`
iterations left; `factory i` is the time at which call `i` of the factory
succeeds. `none`: the send on the idle channel blocks for ever. -/
def preCreate (factory : Nat → Option Int) (i : Nat) :
    Nat → ConnectionPool → Option ConnectionPool
  | 0, p => some p
  | n + 1, p =>
    match factory i with
    | none => some p
    | some now =>
      let p := p.createConnection now
      match p.pool.send (p.conns.length - 1) with
      | .ok ch => preCreate factory (i + 1) n
          { p with pool := ch, currentSize := p.currentSize + 1,
                   createCount := p.createCount + 1 }
      | _ => none

def emptyPool (o : PoolOptions) : ConnectionPool :=
  ⟨[], .make o.maxSize.toNat, 0, false, false, 0, 0, 0, 0, []⟩

/-- `NewConnectionPool` after the options and the factory have been validated. -/
def newConnectionPool (o : PoolOptions) (factory : Nat → Option Int) : Option ConnectionPool :=
  preCreate factory 0 o.minSize.toNat (emptyPool o)

/-! ## Program points -/

/-- Where an operation goes on after it has discarded a connection. -/
inductive After where
  | create
  | put
  | cleanup (rest : List (Option ConnId))
  | healthCheck (rest : List (Option ConnId))
  deriving DecidableEq, Repr

inductive Result where
  | conn (c : ConnId)
  | error (e : GoError)
  | done
  deriving DecidableEq, Repr

inductive Panic where
  | sendOnClosedChannel
  | nilConnection
  deriving DecidableEq, Repr

/-- Program points of a goroutine. At `returned` it is outside the pool. A
received `none` is the nil pointer a closed and drained channel yields. -/
inductive Pc where
  | returned (r : Result)
  | getCount
  | getClosed
  | getSelect
  | getHealthy (c : Option ConnId)
  | getExpired (c : ConnId)
  | createSize
  | createWait
  | createDial
  | createGrow (c : ConnId)
  | createStat (c : ConnId)
  | discardClose (c : ConnId) (k : After)
  | discardStat (k : After)
  | discardSize (k : After)
  | putCount (c : ConnId)
  | putClosed (c : ConnId)
  | putClose (c : ConnId)
  | putStat
  | putHealthy (c : ConnId)
  | putExpired (c : ConnId)
  | putSend (c : ConnId)
  | cleanupDrain (toCheck : List (Option ConnId))
  | cleanupCheck (toCheck : List (Option ConnId))
  | cleanupSend (c : ConnId) (rest : List (Option ConnId))
  | refillSize
  | refillDial (toCreate : Nat)
  | refillSend (c : ConnId) (toCreate : Nat)
  | refillGrow (toCreate : Nat)
  | refillStat (toCreate : Nat)
  | healthDrain (toCheck : List (Option ConnId))
  | healthCheck (toCheck : List (Option ConnId))
  | healthSend (c : ConnId) (rest : List (Option ConnId))
  | closeLock
  | closeDrain
  | closeConn (c : ConnId)
  | closeStat
  | panicked (why : Panic)
  deriving DecidableEq, Repr

inductive Op where
  | get
  | put (c : Option ConnId)
  | cleanup
  | healthCheck
  | close
  /-- `conn.Close()` called by whoever holds the connection. -/
  | closeConn (c : ConnId)
  deriving DecidableEq, Repr

/-- What the environment contributes to a step: the operation called next, the
`select` case taken, or the answer of a call that leaves the package. -/
inductive Ev where
  | call (op : Op)
  | step
  | recv
  | ctxDone (e : CtxErr)
  | otherwise
  | connected (b : Bool)
  | now (t : Int)
  | created (now : Int)
  | createFailed (e : GoError)
  deriving DecidableEq, Repr

def After.pc : After → Pc
  | .create => .createSize
  | .put => .returned .done
  | .cleanup rest => .cleanupCheck rest
  | .healthCheck rest => .healthCheck rest

/-- `WaitTimeout`, with the default the wait loop falls back to. -/
def waitTimeout (o : PoolOptions) : Int :=
  if o.waitTimeout ≤ 0 then 5 * second else o.waitTimeout

/-! ## Steps -/

def callStep (p : ConnectionPool) : Op → ConnectionPool × Pc
  | .get => (p, .getCount)
  | .put none => (p, .returned .done)
  | .put (some c) => ({ p with checkedOut := p.checkedOut.erase c }, .putCount c)
  | .cleanup => (p, .cleanupDrain [])
  | .healthCheck => (p, .healthDrain [])
  | .close => (p, .closeLock)
  | .closeConn c => (p.closeConn c, .returned .done)

/-- A receive on the idle channel inside a `select`. -/
def recvStep (p : ConnectionPool) (k : Option ConnId → Pc) : Option (ConnectionPool × Pc) :=
  match p.pool.recv with
  | .ok c ch => some ({ p with pool := ch }, k (some c))
  | .zero => some (p, k none)
  | .empty => none

/-- The blocking send `p.pool <- conn`. -/
def sendStep (p : ConnectionPool) (c : ConnId) (k : Pc) : Option (ConnectionPool × Pc) :=
  match p.pool.send c with
  | .ok ch => some ({ p with pool := ch }, k)
  | .full => none
  | .panic => some (p, .panicked .sendOnClosedChannel)

/-- `default` is taken only when the channel operation would block. -/
def emptyStep (p : ConnectionPool) (k : Pc) : Option (ConnectionPool × Pc) :=
  match p.pool.recv with
  | .empty => some (p, k)
  | _ => none

theorem recvStep_cases {p p' : ConnectionPool} {pc' : Pc} {k : Option ConnId → Pc}
    (h : recvStep p k = some (p', pc')) :
    (∃ c ch, p.pool.buf = c :: ch.buf ∧ ch.cap = p.pool.cap ∧ ch.closed = p.pool.closed ∧
      p' = { p with pool := ch } ∧ pc' = k (some c)) ∨
    (p.pool.closed = true ∧ p' = p ∧ pc' = k none) := by
  unfold recvStep at h
  split at h
  · rename_i c ch hr
    obtain ⟨hb, hcap, hcl⟩ := recv_ok hr
    simp only [Option.some.injEq, Prod.mk.injEq] at h
    exact Or.inl ⟨c, ch, hb, hcap, hcl, h.1.symm, h.2.symm⟩
  · rename_i hr
    simp only [Option.some.injEq, Prod.mk.injEq] at h
    exact Or.inr ⟨(recv_zero hr).2, h.1.symm, h.2.symm⟩
  · cases h

theorem sendStep_cases {p p' : ConnectionPool} {c : ConnId} {k pc' : Pc}
    (h : sendStep p c k = some (p', pc')) :
    (∃ ch, p.pool.closed = false ∧ ch.buf = p.pool.buf ++ [c] ∧ ch.cap = p.pool.cap ∧
      ch.closed = p.pool.closed ∧ p' = { p with pool := ch } ∧ pc' = k) ∨
    (p.pool.closed = true ∧ p' = p ∧ pc' = .panicked .sendOnClosedChannel) := by
  unfold sendStep at h
  split at h
  · rename_i ch hs
    obtain ⟨hb, hcap, hcl, ho⟩ := send_ok hs
    simp only [Option.some.injEq, Prod.mk.injEq] at h
    exact Or.inl ⟨ch, ho, hb, hcap, hcl, h.1.symm, h.2.symm⟩
  · cases h
  · rename_i hs
    simp only [Option.some.injEq, Prod.mk.injEq] at h
    exact Or.inr ⟨send_panic.mp hs, h.1.symm, h.2.symm⟩

theorem emptyStep_cases {p p' : ConnectionPool} {k pc' : Pc}
    (h : emptyStep p k = some (p', pc')) :
    p.pool.buf = [] ∧ p.pool.closed = false ∧ p' = p ∧ pc' = k := by
  unfold emptyStep at h
  split at h
  · rename_i hr
    obtain ⟨hb, hcl⟩ := recv_empty hr
    simp only [Option.some.injEq, Prod.mk.injEq] at h
    exact ⟨hb, hcl, h.1.symm, h.2.symm⟩
  · cases h

/-- `GetWithContext` and `createNewConnectionWithContext`. -/
def getStep (o : PoolOptions) (p : ConnectionPool) : Pc → Ev → Option (ConnectionPool × Pc)
  | .getCount, .step => some ({ p with getCount := p.getCount + 1 }, .getClosed)
  | .getClosed, .step =>
    if p.locked then none
    else if p.closed then some (p, .returned (.error (.errorf "connection pool is closed" [])))
    else some (p, .getSelect)
  | .getSelect, .recv => recvStep p .getHealthy
  | .getSelect, .ctxDone e => some (p, .returned (.error e.toGoError))
  | .getSelect, .otherwise => emptyStep p .createSize
  | .getHealthy none, .step => some (p, .panicked .nilConnection)
  | .getHealthy (some c), .connected b =>
    if (p.conn c).isHealthy b then some (p, .getExpired c)
    else some (p, .discardClose c .create)
  | .getExpired c, .now t =>
    if (p.conn c).isExpired o.maxIdleTime o.maxLifetime t then some (p, .discardClose c .create)
    else some ({ p with checkedOut := c :: p.checkedOut }, .returned (.conn c))
  | .createSize, .step =>
    if p.locked then none
    else if p.currentSize ≥ o.maxSize then some (p, .createWait)
    else some (p, .createDial)
  | .createWait, .recv => recvStep p .getHealthy
  | .createWait, .ctxDone e =>
    some (p, .returned (.error (.wrapf "wait for connection timeout after %v: %w"
      [.duration (waitTimeout o)] e.toGoError)))
  | .createDial, .created t => some (p.createConnection t, .createGrow p.conns.length)
  | .createDial, .createFailed e =>
    some (p, .returned (.error (.wrapf "factory create failed: %w" [] e)))
  | .createGrow c, .step =>
    if p.locked then none
    else some ({ p with currentSize := p.currentSize + 1 }, .createStat c)
  | .createStat c, .step =>
    some ({ p with createCount := p.createCount + 1, checkedOut := c :: p.checkedOut },
      .returned (.conn c))
  | _, _ => none

/-- `conn.Close()`, `closeCount++`, `currentSize--`: the way every operation
drops a connection of an open pool. -/
def discardStep (p : ConnectionPool) : Pc → Ev → Option (ConnectionPool × Pc)
  | .discardClose c k, .step => some (p.closeConn c, .discardStat k)
  | .discardStat k, .step => some ({ p with closeCount := p.closeCount + 1 }, .discardSize k)
  | .discardSize k, .step =>
    if p.locked then none
    else some ({ p with currentSize := p.currentSize - 1 }, k.pc)
  | _, _ => none

def putStep (o : PoolOptions) (p : ConnectionPool) : Pc → Ev → Option (ConnectionPool × Pc)
  | .putCount c, .step => some ({ p with putCount := p.putCount + 1 }, .putClosed c)
  | .putClosed c, .step =>
    if p.locked then none
    else if p.closed then some (p, .putClose c)
    else some (p, .putHealthy c)
  | .putClose c, .step => some (p.closeConn c, .putStat)
  | .putStat, .step => some ({ p with closeCount := p.closeCount + 1 }, .returned .done)
  | .putHealthy c, .connected b =>
    if (p.conn c).isHealthy b then some (p, .putExpired c)
    else some (p, .discardClose c .put)
  | .putExpired c, .now t =>
    if (p.conn c).isExpired o.maxIdleTime o.maxLifetime t then some (p, .discardClose c .put)
    else some (p, .putSend c)
  | .putSend c, .step =>
    match p.pool.send c with
    | .ok ch => some ({ p with pool := ch }, .returned .done)
    | .full => some (p, .discardClose c .put)
    | .panic => some (p, .panicked .sendOnClosedChannel)
  | _, _ => none

def cleanupStep (o : PoolOptions) (p : ConnectionPool) : Pc → Ev → Option (ConnectionPool × Pc)
  | .cleanupDrain toCheck, .recv => recvStep p fun c => .cleanupDrain (toCheck ++ [c])
  | .cleanupDrain toCheck, .otherwise => emptyStep p (.cleanupCheck toCheck)
  | .cleanupCheck [], .step => some (p, .refillSize)
  | .cleanupCheck (none :: _), .step => some (p, .panicked .nilConnection)
  | .cleanupCheck (some c :: rest), .now t =>
    if (p.conn c).isExpired o.maxIdleTime o.maxLifetime t then
      some (p, .discardClose c (.cleanup rest))
    else some (p, .cleanupSend c rest)
  | .cleanupSend c rest, .step => sendStep p c (.cleanupCheck rest)
  | .refillSize, .step =>
    if p.locked then none
    else if p.currentSize < o.minSize then
      some ({ p with locked := true }, .refillDial (o.minSize - p.currentSize).toNat)
    else some (p, .returned .done)
  | .refillDial 0, .step => some ({ p with locked := false }, .returned .done)
  | .refillDial (n + 1), .created t => some (p.createConnection t, .refillSend p.conns.length n)
  | .refillDial (_ + 1), .createFailed _ => some ({ p with locked := false }, .returned .done)
  | .refillSend c n, .step => sendStep p c (.refillGrow n)
  | .refillGrow n, .step => some ({ p with currentSize := p.currentSize + 1 }, .refillStat n)
  | .refillStat n, .step => some ({ p with createCount := p.createCount + 1 }, .refillDial n)
  | _, _ => none

def healthStep (p : ConnectionPool) : Pc → Ev → Option (ConnectionPool × Pc)
  | .healthDrain toCheck, .recv => recvStep p fun c => .healthDrain (toCheck ++ [c])
  | .healthDrain toCheck, .otherwise => emptyStep p (.healthCheck toCheck)
  | .healthCheck [], .step => some (p, .returned .done)
  | .healthCheck (none :: _), .step => some (p, .panicked .nilConnection)
  | .healthCheck (some c :: rest), .connected b =>
    if (p.conn c).isHealthy b then some (p, .healthSend c rest)
    else some (p, .discardClose c (.healthCheck rest))
  | .healthSend c rest, .step => sendStep p c (.healthCheck rest)
  | _, _ => none

/-- `Close`. Nobody can tell `p.closed = true` from the `close(p.pool)` that
follows it under the same lock, so the two are one step. -/
def closeStep (p : ConnectionPool) : Pc → Ev → Option (ConnectionPool × Pc)
  | .closeLock, .step =>
    if p.locked then none
    else if p.closed then some (p, .returned .done)
    else some ({ p with closed := true, locked := true, pool := p.pool.close }, .closeDrain)
  | .closeDrain, .recv =>
    match p.pool.recv with
    | .ok c ch => some ({ p with pool := ch }, .closeConn c)
    | _ => none
  | .closeDrain, .step =>
    match p.pool.recv with
    | .zero => some ({ p with locked := false }, .returned .done)
    | _ => none
  | .closeConn c, .step => some (p.closeConn c, .closeStat)
  | .closeStat, .step => some ({ p with closeCount := p.closeCount + 1 }, .closeDrain)
  | _, _ => none

def poolStep (o : PoolOptions) (p : ConnectionPool) (pc : Pc) (e : Ev) :
    Option (ConnectionPool × Pc) :=
  match pc, e with
  | .returned _, .call op => some (callStep p op)
  | pc, e =>
    (getStep o p pc e).or <| (discardStep p pc e).or <| (putStep o p pc e).or <|
      (cleanupStep o p pc e).or <| (healthStep p pc e).or (closeStep p pc e)

theorem poolStep_cases {o : PoolOptions} {p p' : ConnectionPool} {pc pc' : Pc} {e : Ev}
    (h : poolStep o p pc e = some (p', pc')) :
    (∃ r op, pc = .returned r ∧ e = .call op ∧ callStep p op = (p', pc')) ∨
    getStep o p pc e = some (p', pc') ∨ discardStep p pc e = some (p', pc') ∨
    putStep o p pc e = some (p', pc') ∨ cleanupStep o p pc e = some (p', pc') ∨
    healthStep p pc e = some (p', pc') ∨ closeStep p pc e = some (p', pc') := by
  unfold poolStep at h
  split at h
  · rename_i r op
    exact Or.inl ⟨r, op, rfl, rfl, by simpa using h⟩
  · simp only [Option.or_eq_some_iff] at h
    tauto

def program (o : PoolOptions) : Program ConnectionPool Pc Ev where
  step p pc e := (poolStep o p pc e).map fun (p, pc) => (p, pc, [])

theorem fire_pool {o : PoolOptions} {s t : Config ConnectionPool Pc} {i : Nat} {e : Ev}
    (h : (program o).fire s i e = some t) :
    ∃ pc p' pc', s.threads[i]? = some pc ∧ poolStep o s.shared pc e = some (p', pc') ∧
      t = ⟨p', s.threads.set i pc'⟩ :=
  fire_alone (fun _ _ _ => rfl) h

/-- `n` goroutines that may call the operations of `p`. -/
def start (p : ConnectionPool) (n : Nat) : Config ConnectionPool Pc :=
  ⟨p, List.replicate n (.returned .done)⟩

def Pc.idle : Pc → Bool
  | .returned _ => true
  | _ => false

/-- No operation is in progress. -/
def Quiescent (s : Config ConnectionPool Pc) : Prop := ∀ pc ∈ s.threads, pc.idle

instance (s : Config ConnectionPool Pc) : Decidable (Quiescent s) :=
  inferInstanceAs (Decidable (∀ pc ∈ s.threads, pc.idle = true))

end RpcInGo.Pool.Model
