import RpcInGo.Lib.Channel
import RpcInGo.Lib.Goroutine
import RpcInGo.Protocol.Message

/-! `tcp.Server` of `pkg/transport/tcp/server.go`: the accept loop of `Serve`,
`Close`, and for each connection the reader loop, the writer and the handler
goroutines of `handleConnection`, all sharing the two semaphores. A request
frame is named by its position in the sequence of frames of its connection.
Deadlines only decide when a read or a write fails, so they are part of the
environment. -/

namespace RpcInGo.Tcp.ServerModel
open Lib.Channel Lib.Goroutine Protocol.Message

variable {Value : Type}

/-- The fields of `transport.ServerOptions` that steer the server's logic. -/
structure ServerOptions where
  maxConcurrentRequests : Int
  maxRequestBodySize : Int
  maxConnections : Int
  deriving DecidableEq, Repr

def defaultServerOptions : ServerOptions := ⟨0, 10 * 1024 * 1024, 10000⟩

structure Frame (Value : Type) where
  index : Nat
  header : Header
  req : Request Value
  deriving DecidableEq

/-- One accepted connection. `enqueued`, `rejected`, `spawned` and `started` are
bookkeeping of the model: the frames for which a response was put on `writeCh`,
for which that response was a rejection, for which a handler goroutine was
started, and whose handler function was called. `framesRead` counts the frames. -/
structure Conn (Value : Type) where
  writeCh : Chan (Nat × Response Value)
  cancelled : Bool
  handlersWg : Int
  writerWg : Int
  framesRead : Nat
  enqueued : List Nat
  rejected : List Nat
  spawned : List Nat
  started : List Nat
  deriving DecidableEq

def newConn : Conn Value := ⟨.make 64, false, 0, 0, 0, [], [], [], []⟩

structure Server (Value : Type) where
  reqSemaphore : Option (Chan Unit)
  connSemaphore : Option (Chan Unit)
  activeConnections : Int
  totalConnections : Int
  wg : Int
  closed : Bool
  listenerClosed : Bool
  /-- The channel `done` of `Serve` is closed. -/
  acceptStopped : Bool
  ctxDone : Option CtxErr
  conns : List (Conn Value)
  deriving DecidableEq

def semaphore (limit : Int) : Option (Chan Unit) :=
  if limit > 0 then some (.make limit.toNat) else none

def newServer (o : ServerOptions) : Server Value :=
  ⟨semaphore o.maxConcurrentRequests, semaphore o.maxConnections, 0, 0, 0, false, false, false,
    none, []⟩

/-- Program points. `k` is the connection a goroutine works for. -/
inductive Pc (Value : Type) where
  -- the context given to `Serve`, and the goroutine that waits for it
  | context
  | cancelled
  | watching
  | watched
  -- `Serve`
  | accepting
  | admitting
  | refusing
  | registering
  | served (err : Option GoError)
  -- `Close`
  | closeCall
  | closeListener
  | closeWait
  | closeReturned (err : Option GoError)
  -- the reader loop of `handleConnection`, and its deferred calls
  | setup (k : Nat)
  | top (k : Nat)
  | reading (k : Nat)
  | rejectBody (k : Nat) (f : Frame Value)
  | acquire (k : Nat) (f : Frame Value)
  | rejectBusy (k : Nat) (f : Frame Value)
  | spawn (k : Nat) (f : Frame Value)
  | waitHandlers (k : Nat)
  | waitWriter (k : Nat)
  | closeConn (k : Nat)
  | releaseConn (k : Nat)
  | doneConn (k : Nat)
  | cancelConn (k : Nat)
  | left (k : Nat)
  -- the writer
  | receiving (k : Nat)
  | writing (k : Nat) (resp : Response Value)
  | writerLeft (k : Nat)
  -- a handler
  | handlerStart (k : Nat) (f : Frame Value)
  | handlerRunning (k : Nat) (f : Frame Value)
  | handlerSend (k : Nat) (f : Frame Value) (resp : Response Value)
  | handlerRelease (k : Nat) (f : Frame Value)
  | handlerDone (k : Nat) (f : Frame Value)
  | handlerLeft (k : Nat) (f : Frame Value)
  | sendOnClosedChannel (k : Nat)
  deriving DecidableEq

/-- What the environment contributes: the outcome of network calls and of the
handler function, the clock, and the `select` case taken. -/
inductive Ev (Value : Type) where
  | step
  | cancel (e : CtxErr)
  | accepted
  | acceptFailed (temporary : Bool) (e : GoError)
  | closeFailed (e : GoError)
  | setupOk
  | setupFailed
  | frame (header : Header) (req : Request Value)
  | readFailed
  | send (now : Int)
  | ctxDone
  | returned (resp : Response Value)
  | failed (errText : String) (now : Int)
  | writeOk
  | writeFailed
  deriving DecidableEq

abbrev Next (Value : Type) := Option (Server Value × Pc Value × List (Pc Value))

def Server.setConn (g : Server Value) (k : Nat) (c : Conn Value) : Server Value :=
  { g with conns := g.conns.set k c }

/-- `connCtx.Done()` is closed. -/
def Server.connDone (g : Server Value) (c : Conn Value) : Bool := c.cancelled || g.ctxDone.isSome

/-! ## `Serve` and `Close` -/

/-- `Serve` once its accept loop runs, with the goroutine that closes the
listener when the context is done. -/
def serveStep (g : Server Value) : Pc Value → Ev Value → Next Value
  | .context, .cancel e => some ({ g with ctxDone := some e }, .cancelled, [])
  | .watching, .step =>
    if g.ctxDone.isSome then
      some ({ g with listenerClosed := true, acceptStopped := true }, .watched, [])
    else none
  | .accepting, .accepted => if g.listenerClosed then none else some (g, .admitting, [])
  | .accepting, .acceptFailed temporary e =>
    if g.acceptStopped then some (g, .served (g.ctxDone.map CtxErr.toGoError), [])
    else if g.closed then some (g, .served none, [])
    else if temporary then some (g, .accepting, [])
    else some (g, .served (some (.wrapf "accept connection failed: %w" [] e)), [])
  | .admitting, .step =>
    match g.connSemaphore with
    | none => some (g, .registering, [])
    | some sem =>
      match sem.send () with
      | .ok sem => some ({ g with connSemaphore := some sem }, .registering, [])
      | _ => some (g, .refusing, [])
  | .refusing, .step => some (g, .accepting, [])
  | .refusing, .closeFailed e =>
    some (g, .served (some (.wrapf "close connection failed: %w" [] e)), [])
  | .registering, .step =>
    some ({ g with activeConnections := g.activeConnections + 1,
                   totalConnections := g.totalConnections + 1,
                   wg := g.wg + 1, conns := g.conns ++ [newConn] },
      .accepting, [.setup g.conns.length])
  | _, _ => none

/-- A listener that is already closed answers `Close` with an error. -/
def closeStep (g : Server Value) : Pc Value → Ev Value → Next Value
  | .closeCall, .step =>
    if g.closed then some (g, .closeReturned none, [])
    else some ({ g with closed := true }, .closeListener, [])
  | .closeListener, .step =>
    if g.listenerClosed then none else some ({ g with listenerClosed := true }, .closeWait, [])
  | .closeListener, .closeFailed e =>
    if g.listenerClosed then
      some (g, .closeReturned (some (.wrapf "close listener failed: %w" [] e)), [])
    else none
  | .closeWait, .step => if g.wg = 0 then some (g, .closeReturned none, []) else none
  | _, _ => none

/-! ## `handleConnection` -/

/-- The `select` case `writeCh <- resp` of a goroutine answering frame `f`. -/
def enqueue (g : Server Value) (k : Nat) (c : Conn Value) (f : Frame Value)
    (resp : Response Value) (next : Pc Value) : Next Value :=
  match c.writeCh.send (f.index, resp) with
  | .ok ch => some (g.setConn k { c with writeCh := ch, enqueued := f.index :: c.enqueued },
      next, [])
  | .full => none
  | .panic => some (g, .sendOnClosedChannel k, [])

/-- The same `select` in a rejection branch. -/
def reject (g : Server Value) (k : Nat) (c : Conn Value) (f : Frame Value) (err : Error)
    (now : Int) (next : Pc Value) : Next Value :=
  enqueue g k { c with rejected := f.index :: c.rejected } f
    (newErrorResponse f.header.requestID err now) next

def tooLarge (o : ServerOptions) (h : Header) : Bool :=
  o.maxRequestBodySize > 0 ∧ (h.bodyLength.toNat : Int) > o.maxRequestBodySize

/-- Neither rejection branch has a `continue`: both go on to start the handler. -/
def readerStep (o : ServerOptions) (g : Server Value) (c : Conn Value) (k : Nat) :
    Pc Value → Ev Value → Next Value
  | .setup _, .setupOk =>
    some (g.setConn k { c with writerWg := c.writerWg + 1 }, .top k, [.receiving k])
  | .setup _, .setupFailed => some (g, .closeConn k, [])
  | .top _, .step =>
    if g.ctxDone.isSome then some (g, .waitHandlers k, []) else some (g, .reading k, [])
  | .reading _, .frame header req =>
    if tooLarge o header then
      some (g.setConn k { c with framesRead := c.framesRead + 1 },
        .rejectBody k ⟨c.framesRead, header, req⟩, [])
    else
      some (g.setConn k { c with framesRead := c.framesRead + 1 },
        .acquire k ⟨c.framesRead, header, req⟩, [])
  | .reading _, .readFailed => some (g, .waitHandlers k, [])
  | .rejectBody _ f, .send now =>
    reject g k c f (newError errorRequestEntityTooLarge "request body too large") now
      (.acquire k f)
  | .rejectBody _ _, .ctxDone => if g.connDone c then some (g, .waitHandlers k, []) else none
  | .acquire _ f, .step =>
    match g.reqSemaphore with
    | none => some (g, .spawn k f, [])
    | some sem =>
      match sem.send () with
      | .ok sem => some ({ g with reqSemaphore := some sem }, .spawn k f, [])
      | _ => some (g, .rejectBusy k f, [])
  | .rejectBusy _ f, .send now =>
    reject g k c f (newError errorCodeUnavailable "too many concurrent requests") now
      (.spawn k f)
  | .rejectBusy _ _, .ctxDone => if g.connDone c then some (g, .waitHandlers k, []) else none
  | .spawn _ f, .step =>
    some (g.setConn k { c with handlersWg := c.handlersWg + 1, spawned := f.index :: c.spawned },
      .top k, [.handlerStart k f])
  | .waitHandlers _, .step =>
    if c.handlersWg = 0 then
      some (g.setConn k { c with writeCh := c.writeCh.close }, .waitWriter k, [])
    else none
  | .waitWriter _, .step => if c.writerWg = 0 then some (g, .closeConn k, []) else none
  -- the deferred `CloseConnection`, then the deferred `connCancel`
  | .closeConn _, .step =>
    some ({ g with activeConnections := g.activeConnections - 1 }, .releaseConn k, [])
  | .releaseConn _, .step =>
    match g.connSemaphore with
    | none => some (g, .doneConn k, [])
    | some sem =>
      match sem.recv with
      | .ok _ sem => some ({ g with connSemaphore := some sem }, .doneConn k, [])
      | _ => none
  | .doneConn _, .step => some ({ g with wg := g.wg - 1 }, .cancelConn k, [])
  | .cancelConn _, .step => some (g.setConn k { c with cancelled := true }, .left k, [])
  | _, _ => none

def writerStep (g : Server Value) (c : Conn Value) (k : Nat) : Pc Value → Ev Value → Next Value
  | .receiving _, .step =>
    match c.writeCh.recv with
    | .ok (_, resp) ch => some (g.setConn k { c with writeCh := ch }, .writing k resp, [])
    | .zero => some (g.setConn k { c with writerWg := c.writerWg - 1 }, .writerLeft k, [])
    | .empty => none
  | .writing _ _, .writeOk => some (g, .receiving k, [])
  -- `conn.Close()`, `connCancel()` and the deferred `writerWg.Done()`
  | .writing _ _, .writeFailed =>
    some (g.setConn k { c with cancelled := true, writerWg := c.writerWg - 1 }, .writerLeft k, [])
  | _, _ => none

def handlerStep (g : Server Value) (c : Conn Value) (k : Nat) : Pc Value → Ev Value → Next Value
  | .handlerStart _ f, .step =>
    some (g.setConn k { c with started := f.index :: c.started }, .handlerRunning k f, [])
  | .handlerRunning _ f, .returned resp => some (g, .handlerSend k f resp, [])
  | .handlerRunning _ f, .failed errText now =>
    some (g, .handlerSend k f
      (newErrorResponse f.header.requestID (newError errorCodeInternal errText) now), [])
  | .handlerSend _ f resp, .send _ => enqueue g k c f resp (.handlerRelease k f)
  | .handlerSend _ f _, .ctxDone =>
    if g.connDone c then some (g, .handlerRelease k f, []) else none
  | .handlerRelease _ f, .step =>
    match g.reqSemaphore with
    | none => some (g, .handlerDone k f, [])
    | some sem =>
      match sem.recv with
      | .ok _ sem => some ({ g with reqSemaphore := some sem }, .handlerDone k f, [])
      | _ => none
  | .handlerDone _ f, .step =>
    some (g.setConn k { c with handlersWg := c.handlersWg - 1 }, .handlerLeft k f, [])
  | _, _ => none

/-- The connection a goroutine works for. -/
def Pc.conn : Pc Value → Option Nat
  | .setup k | .top k | .reading k | .rejectBody k _ | .acquire k _ | .rejectBusy k _ => some k
  | .spawn k _ | .waitHandlers k | .waitWriter k | .closeConn k | .releaseConn k => some k
  | .doneConn k | .cancelConn k | .left k | .receiving k | .writing k _ | .writerLeft k => some k
  | .handlerStart k _ | .handlerRunning k _ | .handlerSend k _ _ | .handlerRelease k _ => some k
  | .handlerDone k _ | .handlerLeft k _ | .sendOnClosedChannel k => some k
  | _ => none

def serverStep (o : ServerOptions) (g : Server Value) (pc : Pc Value) (e : Ev Value) :
    Next Value :=
  match pc.conn with
  | none => (serveStep g pc e).or (closeStep g pc e)
  | some k =>
    match g.conns[k]? with
    | none => none
    | some c => (readerStep o g c k pc e).or <| (writerStep g c k pc e).or (handlerStep g c k pc e)

def server (o : ServerOptions) : Program (Server Value) (Pc Value) (Ev Value) where
  step g pc e := serverStep o g pc e

/-- `Serve` has been called, and `n` goroutines may call `Close`. -/
def start (o : ServerOptions) (n : Nat) : Config (Server Value) (Pc Value) :=
  ⟨newServer o, .context :: .watching :: .accepting :: List.replicate n .closeCall⟩

/-- A step of a goroutine of connection `k`, in state `c`. -/
def ConnStep (o : ServerOptions) (g : Server Value) (c : Conn Value) (k : Nat) (pc : Pc Value)
    (e : Ev Value) (next : Server Value × Pc Value × List (Pc Value)) : Prop :=
  readerStep o g c k pc e = some next ∨ writerStep g c k pc e = some next ∨
    handlerStep g c k pc e = some next

/-- A step of `Serve` or `Close`. -/
def FreeStep (g : Server Value) (pc : Pc Value) (e : Ev Value)
    (next : Server Value × Pc Value × List (Pc Value)) : Prop :=
  serveStep g pc e = some next ∨ closeStep g pc e = some next

theorem serverStep_cases {o : ServerOptions} {g g' : Server Value} {pc pc' : Pc Value}
    {e : Ev Value} {new : List (Pc Value)} (h : serverStep o g pc e = some (g', pc', new)) :
    (pc.conn = none ∧ FreeStep g pc e (g', pc', new)) ∨
    (∃ k c, pc.conn = some k ∧ g.conns[k]? = some c ∧ ConnStep o g c k pc e (g', pc', new)) := by
  unfold serverStep at h
  split at h
  · rename_i hk
    simp only [Option.or_eq_some_iff] at h
    exact Or.inl ⟨hk, by unfold FreeStep; tauto⟩
  · rename_i k hk
    split at h
    · cases h
    · rename_i c hc
      simp only [Option.or_eq_some_iff] at h
      exact Or.inr ⟨k, c, hk, hc, by unfold ConnStep; tauto⟩

/-! ## Quantities of one connection -/

/-- The weight `w`, counted for goroutines of connection `k` only. -/
def localTo (k : Nat) (w : Pc Value → Int) (pc : Pc Value) : Int :=
  if pc.conn = some k then w pc else 0

theorem localTo_le {k : Nat} {v w : Pc Value → Int} (h : ∀ pc, v pc ≤ w pc) (pc : Pc Value) :
    localTo k v pc ≤ localTo k w pc := by
  unfold localTo
  split
  · exact h pc
  · exact le_refl 0

theorem localTo_nonneg {k : Nat} {w : Pc Value → Int} (hw : ∀ pc, 0 ≤ w pc) (pc : Pc Value) :
    0 ≤ localTo k w pc := by
  unfold localTo
  split
  · exact hw pc
  · exact le_refl 0

theorem localTo_congr {k : Nat} {v w : Pc Value → Int} {pc : Pc Value} (h : v pc = w pc) :
    localTo k v pc = localTo k w pc := by
  rw [localTo, localTo, h]

theorem localTo_eq_zero {k : Nat} {w : Pc Value → Int} {pc : Pc Value}
    (h : pc.conn = some k → w pc = 0) : localTo k w pc = 0 :=
  ite_eq_right_iff.mpr h

theorem localTo_add {k : Nat} (v w : Pc Value → Int) (pc : Pc Value) :
    localTo k (fun pc => v pc + w pc) pc = localTo k v pc + localTo k w pc := by
  unfold localTo
  split
  · rfl
  · rfl

/-- A step of a goroutine of connection `k` stays within that connection. -/
structure Stays (k : Nat) (g g' : Server Value) (c' : Conn Value) (pc' : Pc Value)
    (new : List (Pc Value)) : Prop where
  conns : g'.conns = g.conns.set k c'
  next : pc'.conn = some k
  spawned : ∀ q ∈ new, q.conn = some k

theorem total_localTo_same {k : Nat} {w : Pc Value → Int} {ts : List (Pc Value)} {i : Nat}
    {pc pc' : Pc Value} {new : List (Pc Value)} (hi : ts[i]? = some pc) (hpc : pc.conn = some k)
    (hpc' : pc'.conn = some k) (hnew : ∀ q ∈ new, q.conn = some k) :
    total (localTo k w) (ts.set i pc' ++ new) =
      total (localTo k w) ts - w pc + (w pc' + total w new) := by
  have hn : total (localTo k w) new = total w new := by
    induction new with
    | nil => rfl
    | cons q new ih =>
      rw [total_cons, total_cons, ih (fun r hr => hnew r (by simp [hr]))]
      simp [localTo, hnew q (by simp)]
  rw [total_append, total_set _ _ hi, hn]
  simp only [localTo, hpc, hpc', ↓reduceIte]
  omega

theorem total_localTo_other {j k : Nat} (hjk : j ≠ k) {w : Pc Value → Int} {ts : List (Pc Value)}
    {i : Nat} {pc pc' : Pc Value} {new : List (Pc Value)} (hi : ts[i]? = some pc)
    (hpc : pc.conn = some k) (hpc' : pc'.conn = some k) (hnew : ∀ q ∈ new, q.conn = some k) :
    total (localTo j w) (ts.set i pc' ++ new) = total (localTo j w) ts := by
  have hn : total (localTo j w) new = 0 := by
    apply total_eq_zero
    intro q hq
    simp [localTo, hnew q hq, hjk.symm]
  rw [total_append, total_set _ _ hi, hn]
  simp [localTo, hpc, hpc', hjk.symm]

section Steps
variable {g g' : Server Value} {c : Conn Value} {k : Nat} {pc' : Pc Value}
  {new : List (Pc Value)}

theorem stays_same (hc : g.conns[k]? = some c) (hg : g'.conns = g.conns)
    (hnext : pc'.conn = some k) (hnew : ∀ q ∈ new, q.conn = some k) :
    Stays k g g' c pc' new :=
  ⟨hg.trans (set_same hc).symm, hnext, hnew⟩

theorem set_conn_inj {c₁ c₂ : Conn Value} (hc : g.conns[k]? = some c)
    (h : g.conns.set k c₁ = g.conns.set k c₂) : c₁ = c₂ := by
  obtain ⟨hlt, -⟩ := List.getElem?_eq_some_iff.mp hc
  have := congrArg (fun l => l[k]?) h
  simpa [hlt] using this

theorem enqueue_cases {f : Frame Value} {resp : Response Value} {next : Pc Value}
    (h : enqueue g k c f resp next = some (g', pc', new)) :
    (∃ ch, c.writeCh.send (f.index, resp) = .ok ch ∧
      g' = g.setConn k { c with writeCh := ch, enqueued := f.index :: c.enqueued } ∧
      pc' = next ∧ new = []) ∨
    (c.writeCh.closed = true ∧ g' = g ∧ pc' = .sendOnClosedChannel k ∧ new = []) := by
  unfold enqueue at h
  split at h
  · rename_i ch hs
    cases h
    exact Or.inl ⟨ch, hs, rfl, rfl, rfl⟩
  · cases h
  · rename_i hs
    cases h
    exact Or.inr ⟨send_panic.mp hs, rfl, rfl, rfl⟩

end Steps

/-! ## Invariants of every connection -/

/-- Goroutines work for connections that exist. -/
def Placed (s : Config (Server Value) (Pc Value)) : Prop :=
  ∀ pc ∈ s.threads, ∀ k, pc.conn = some k → k < s.shared.conns.length

/-- `Serve` and `Close` touch no connection; `Serve` may add one. -/
theorem freeStep_conns {g g' : Server Value} {pc pc' : Pc Value} {e : Ev Value}
    {new : List (Pc Value)}
    (h : FreeStep g pc e (g', pc', new)) :
    pc'.conn = none ∧ ((g'.conns = g.conns ∧ new = []) ∨
      (g'.conns = g.conns ++ [newConn] ∧ new = [.setup g.conns.length])) := by
  rcases h with h | h
  · revert h
    fun_cases serveStep g pc e <;> intro h <;> try contradiction
    all_goals cases h
    all_goals first
      | exact ⟨rfl, Or.inl ⟨rfl, rfl⟩⟩
      | exact ⟨rfl, Or.inr ⟨rfl, rfl⟩⟩
  · revert h
    fun_cases closeStep g pc e <;> intro h <;> try contradiction
    all_goals cases h
    all_goals exact ⟨rfl, Or.inl ⟨rfl, rfl⟩⟩

section Stay
variable {o : ServerOptions} {g g' : Server Value} {c : Conn Value} {k : Nat}
  {pc pc' : Pc Value} {e : Ev Value} {new : List (Pc Value)}

theorem enqueue_stays {f : Frame Value} {resp : Response Value} {next : Pc Value} {d : Conn Value}
    (h : enqueue g k d f resp next = some (g', pc', new)) (hc : g.conns[k]? = some c)
    (hnext : next.conn = some k) : ∃ c', Stays k g g' c' pc' new := by
  obtain ⟨ch, -, rfl, rfl, rfl⟩ | ⟨-, rfl, rfl, rfl⟩ := enqueue_cases h
  · exact ⟨_, rfl, hnext, by simp⟩
  · exact ⟨c, stays_same hc rfl rfl (by simp)⟩

theorem connStep_stays (hc : g.conns[k]? = some c) (h : ConnStep o g c k pc e (g', pc', new)) :
    ∃ c', Stays k g g' c' pc' new := by
  rcases h with h | h | h
  · revert h
    fun_cases readerStep o g c k pc e <;> intro h <;> try contradiction
    all_goals first
      | exact enqueue_stays h hc rfl
      | cases h
        first
        | exact ⟨c, stays_same hc rfl rfl (List.forall_mem_nil _)⟩
        | exact ⟨_, rfl, rfl, List.forall_mem_nil _⟩
        | exact ⟨_, rfl, rfl, by simp [Pc.conn]⟩
  · revert h
    fun_cases writerStep g c k pc e <;> intro h <;> try contradiction
    all_goals
      cases h
      first
      | exact ⟨c, stays_same hc rfl rfl (List.forall_mem_nil _)⟩
      | exact ⟨_, rfl, rfl, List.forall_mem_nil _⟩
  · revert h
    fun_cases handlerStep g c k pc e <;> intro h <;> try contradiction
    all_goals first
      | exact enqueue_stays h hc rfl
      | cases h
        first
        | exact ⟨c, stays_same hc rfl rfl (List.forall_mem_nil _)⟩
        | exact ⟨_, rfl, rfl, List.forall_mem_nil _⟩

/-- What `Serve` and `Close` alone write. -/
structure Apart (g g' : Server Value) : Prop where
  closed : g'.closed = g.closed
  listenerClosed : g'.listenerClosed = g.listenerClosed
  ctxDone : g'.ctxDone = g.ctxDone

theorem enqueue_apart {f : Frame Value} {resp : Response Value} {next : Pc Value} {d : Conn Value}
    (h : enqueue g k d f resp next = some (g', pc', new)) : Apart g g' := by
  obtain ⟨ch, -, rfl, -, -⟩ | ⟨-, rfl, -, -⟩ := enqueue_cases h
  · exact ⟨rfl, rfl, rfl⟩
  · exact ⟨rfl, rfl, rfl⟩

theorem connStep_apart (h : ConnStep o g c k pc e (g', pc', new)) : Apart g g' := by
  rcases h with h | h | h
  · revert h
    fun_cases readerStep o g c k pc e <;> intro h <;> try contradiction
    all_goals first
      | exact enqueue_apart h
      | cases h; exact ⟨rfl, rfl, rfl⟩
  · revert h
    fun_cases writerStep g c k pc e <;> intro h <;> try contradiction
    all_goals cases h; exact ⟨rfl, rfl, rfl⟩
  · revert h
    fun_cases handlerStep g c k pc e <;> intro h <;> try contradiction
    all_goals first
      | exact enqueue_apart h
      | cases h; exact ⟨rfl, rfl, rfl⟩

end Stay

section Fire
variable {o : ServerOptions} {s t : Config (Server Value) (Pc Value)} {i : Nat} {e : Ev Value}

/-- A step is one of `Serve` or `Close`, or one of a goroutine of a connection. -/
theorem fire_server (h : (server o).fire s i e = some t) :
    ∃ pc g' pc' new, s.threads[i]? = some pc ∧ t = ⟨g', s.threads.set i pc' ++ new⟩ ∧
      ((pc.conn = none ∧ FreeStep s.shared pc e (g', pc', new)) ∨
      (∃ k c, pc.conn = some k ∧ s.shared.conns[k]? = some c ∧
        ConnStep o s.shared c k pc e (g', pc', new))) := by
  obtain ⟨pc, g', pc', new, hi, hs, rfl⟩ := fire_cases h
  exact ⟨pc, g', pc', new, hi, rfl, serverStep_cases hs⟩

/-- A step that is possible and starts no goroutine. -/
theorem fire_serverStep {pc : Pc Value} (g' : Server Value) (pc' : Pc Value)
    (hi : s.threads[i]? = some pc) (hs : serverStep o s.shared pc e = some (g', pc', [])) :
    (server o).fire s i e = some ⟨g', s.threads.set i pc'⟩ := by
  simp [Program.fire, hi, server, hs]

theorem total_localTo_free {k : Nat} {w : Pc Value → Int} {ts : List (Pc Value)}
    {pc pc' : Pc Value} (hi : ts[i]? = some pc) (hpc : pc.conn = none) (hpc' : pc'.conn = none) :
    total (localTo k w) (ts.set i pc') = total (localTo k w) ts := by
  rw [total_set _ _ hi]
  simp [localTo, hpc, hpc']

/-- Nothing is counted for a connection that does not exist yet. -/
theorem Placed.total_new (hp : Placed s) (w : Pc Value → Int) :
    total (localTo s.shared.conns.length w) s.threads = 0 := by
  apply total_eq_zero
  intro pc hpc
  exact localTo_eq_zero fun hk => absurd (hp pc hpc _ hk) (lt_irrefl _)

/-- What is counted is some goroutine's. -/
theorem exists_thread {k : Nat} {w : Pc Value → Int} (h : total (localTo k w) s.threads ≠ 0) :
    ∃ (i : Nat) (pc : Pc Value), s.threads[i]? = some pc ∧ pc.conn = some k ∧ w pc ≠ 0 := by
  by_contra hnone
  push Not at hnone
  apply h
  apply total_eq_zero
  intro pc hpc
  obtain ⟨i, hi⟩ := List.mem_iff_getElem?.mp hpc
  exact localTo_eq_zero (hnone i pc hi)

theorem fire_conns_length (h : (server o).fire s i e = some t) :
    s.shared.conns.length ≤ t.shared.conns.length := by
  obtain ⟨pc, g', pc', new, -, rfl, ⟨-, hs⟩ | ⟨j, c, -, hc, hs⟩⟩ := fire_server h
  · obtain ⟨-, ⟨hconns, -⟩ | ⟨hconns, -⟩⟩ := freeStep_conns hs <;> simp [hconns]
  · obtain ⟨d, hstay⟩ := connStep_stays hc hs
    simp [hstay.conns]

/-- What a step means for one connection and the sums over its goroutines. -/
inductive Moved (o : ServerOptions) (s : Config (Server Value) (Pc Value)) (i : Nat)
    (e : Ev Value) (t : Config (Server Value) (Pc Value)) (k : Nat) (c' : Conn Value) : Prop
  | untouched (hc : s.shared.conns[k]? = some c')
      (hsum : ∀ w, total (localTo k w) t.threads = total (localTo k w) s.threads)
  | fresh (hk : k = s.shared.conns.length) (hc : c' = newConn)
      (hsum : ∀ w, total (localTo k w) t.threads = w (.setup k))
  | stepped (pc pc' : Pc Value) (new : List (Pc Value)) (c : Conn Value)
      (hi : s.threads[i]? = some pc) (hk : pc.conn = some k) (hc : s.shared.conns[k]? = some c)
      (hstep : ConnStep o s.shared c k pc e (t.shared, pc', new))
      (hconns : t.shared.conns = s.shared.conns.set k c')
      (hsum : ∀ w, total (localTo k w) t.threads =
        total (localTo k w) s.threads - w pc + (w pc' + total w new))

theorem fire_conn (hp : Placed s) (h : (server o).fire s i e = some t) {k : Nat} {c' : Conn Value}
    (hk : t.shared.conns[k]? = some c') : Moved o s i e t k c' := by
  obtain ⟨pc, g', pc', new, hi, rfl, ⟨hpc, hs⟩ | ⟨j, c, hj, hc, hs⟩⟩ := fire_server h
  · obtain ⟨hpc', ⟨hconns, rfl⟩ | ⟨hconns, rfl⟩⟩ := freeStep_conns hs
    · simp only [hconns] at hk
      refine .untouched hk (fun w => ?_)
      rw [List.append_nil, total_localTo_free hi hpc hpc']
    · simp only [hconns] at hk
      rcases Nat.lt_trichotomy k s.shared.conns.length with hlt | rfl | hgt
      · rw [List.getElem?_append_left hlt] at hk
        refine .untouched hk (fun w => ?_)
        rw [total_append, total_localTo_free hi hpc hpc']
        simp [localTo, Pc.conn, Nat.ne_of_gt hlt]
      · simp at hk
        refine .fresh rfl hk.symm (fun w => ?_)
        rw [total_append, total_localTo_free hi hpc hpc', hp.total_new]
        simp [localTo, Pc.conn]
      · rw [List.getElem?_eq_none (by simp; omega)] at hk
        cases hk
  · obtain ⟨d, hstay⟩ := connStep_stays hc hs
    simp only [hstay.conns] at hk
    by_cases hkj : k = j
    · subst hkj
      obtain ⟨hlt, -⟩ := List.getElem?_eq_some_iff.mp hc
      rw [List.getElem?_set_self hlt] at hk
      cases hk
      exact .stepped pc pc' new c hi hj hc hs hstay.conns
        (fun w => total_localTo_same hi hj hstay.next hstay.spawned)
    · rw [List.getElem?_set_ne (Ne.symm hkj)] at hk
      exact .untouched hk (fun w => total_localTo_other hkj hi hj hstay.next hstay.spawned)

/-- The invariant rule for connections: `I` relates the state of a connection
to the sums of weights over its goroutines. -/
theorem fire_each {I : Conn Value → ((Pc Value → Int) → Int) → Prop} (hp : Placed s)
    (hI : ∀ k c, s.shared.conns[k]? = some c → I c (fun w => total (localTo k w) s.threads))
    (h : (server o).fire s i e = some t) (hnew : ∀ k, I newConn (fun w => w (.setup k)))
    (hstep : ∀ {g' pc pc' new k c c' T}, s.threads[i]? = some pc → pc.conn = some k →
      s.shared.conns[k]? = some c → ConnStep o s.shared c k pc e (g', pc', new) →
      g'.conns = s.shared.conns.set k c' → (∀ w, (∀ q, 0 ≤ w q) → w pc ≤ T w) → I c T →
      I c' (fun w => T w - w pc + (w pc' + total w new))) :
    ∀ k c, t.shared.conns[k]? = some c → I c (fun w => total (localTo k w) t.threads) := by
  intro k c' hk
  cases fire_conn hp h hk with
  | untouched hc hsum =>
    simp only [hsum]
    exact hI k c' hc
  | fresh _ hc hsum =>
    simp only [hsum, hc]
    exact hnew k
  | stepped pc pc' new c hi hpc hc hs hconns hsum =>
    simp only [hsum]
    refine hstep hi hpc hc hs hconns ?_ (hI k c hc)
    intro w hw
    have := le_total_of_mem (localTo_nonneg (k := k) hw) (List.mem_of_getElem? hi)
    simpa [localTo, hpc] using this

end Fire

theorem fire_placed {o : ServerOptions} {s t : Config (Server Value) (Pc Value)} {i : Nat}
    {e : Ev Value} (hp : Placed s) (h : (server o).fire s i e = some t) : Placed t := by
  obtain ⟨pc, g', pc', new, hi, rfl, ⟨hk, hs⟩ | ⟨k, c, hk, hc, hs⟩⟩ := fire_server h
  · obtain ⟨hk', hnew⟩ := freeStep_conns hs
    intro q hq j hj
    have hlen : s.shared.conns.length ≤ g'.conns.length := by
      rcases hnew with ⟨hconns, -⟩ | ⟨hconns, -⟩ <;> simp [hconns]
    rcases List.mem_append.mp hq with hq | hq
    · rcases List.mem_or_eq_of_mem_set hq with hq | rfl
      · exact lt_of_lt_of_le (hp q hq j hj) hlen
      · rw [hk'] at hj
        cases hj
    · rcases hnew with ⟨-, rfl⟩ | ⟨hconns, rfl⟩
      · simp at hq
      · rw [List.mem_singleton] at hq
        subst hq
        cases hj
        simp [hconns]
  · obtain ⟨c', hstay⟩ := connStep_stays hc hs
    obtain ⟨hlt, -⟩ := List.getElem?_eq_some_iff.mp hc
    intro q hq j hj
    simp only [hstay.conns, List.length_set]
    rcases List.mem_append.mp hq with hq | hq
    · rcases List.mem_or_eq_of_mem_set hq with hq | rfl
      · exact hp q hq j hj
      · rw [hstay.next] at hj
        cases hj
        exact hlt
    · rw [hstay.spawned q hq] at hj
      cases hj
      exact hlt

theorem start_placed (o : ServerOptions) (n : Nat) :
    Placed (start o n : Config (Server Value) (Pc Value)) := by
  intro pc hpc k hk
  simp only [start, List.mem_cons, List.mem_replicate] at hpc
  rcases hpc with rfl | rfl | rfl | ⟨-, rfl⟩ <;> cases hk

theorem start_conns (o : ServerOptions) (n : Nat) (k : Nat) :
    (start o n : Config (Server Value) (Pc Value)).shared.conns[k]? = none := by
  simp [start, newServer]

end RpcInGo.Tcp.ServerModel
