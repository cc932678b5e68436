import RpcInGo.Lib.Goroutine
import RpcInGo.Protocol.Message

/-! `tcp.Client` of `pkg/transport/tcp/client.go`: any number of goroutines call
`Dial`, `SendRequest` and `Close` while a `readLoop` runs for each connection
that was dialled. Steps are the lock-protected sections, the channel operations
and the network calls. `pendingCall` objects live in `calls` and are named by
their position, like the connections and the `closeCh` channels. -/

namespace RpcInGo.Tcp.ClientModel
open Lib.Goroutine Protocol.Message

variable {Value : Type}

/-- A frame as `DecodeFromReader` returns it: header and decompressed body. -/
structure Frame where
  header : Header
  body : List UInt8
  deriving DecidableEq

/-- `closes` counts the `close(call.done)`; a second one is a panic in Go.
`completedBy` is bookkeeping of the model: the frame that completed the call. -/
structure PendingCall where
  id : UInt64
  closes : Nat
  respBody : List UInt8
  respCodec : CodecType
  err : Option GoError
  completedBy : Option Nat
  deriving DecidableEq

def newPendingCall (id : UInt64) : PendingCall := ⟨id, 0, [], 0, none, none⟩

/-- `sync.Once`: while it runs, other callers of `Do` wait. -/
inductive Once where
  | fresh
  | running
  | done
  deriving DecidableEq, Repr

/-- `frames` is bookkeeping of the model: the frames read so far. `conns` says
of every connection dialled whether it was closed, `closeChs` the same of every
`closeCh`. -/
structure Client where
  conn : Option Nat
  connected : Bool
  nextID : UInt64
  pending : Option (List (UInt64 × Nat))
  closeCh : Option Nat
  closeOnce : Once
  conns : List Bool
  closeChs : List Bool
  calls : List PendingCall
  frames : List Frame
  deriving DecidableEq

def newClient : Client := ⟨none, false, 0, none, none, .fresh, [], [], [], []⟩

/-- What an operation returns to its caller. -/
inductive Outcome (Value : Type) where
  | nothing
  | failed (e : GoError)
  /-- The answer to the call at this position. -/
  | answered (x : Nat) (resp : Response Value)

inductive Panic where
  | nilMap
  | nilConn
  | nilCloseCh
  | closedCloseCh
  deriving DecidableEq, Repr

/-- Who runs `closeWithError`, and what it does afterwards. -/
inductive Closing where
  | readLoop
  | close (closeErr : Option GoError)
  deriving DecidableEq

inductive Pc (Value : Type) where
  | returned (r : Outcome Value)
  -- `SendRequest`, for the call at position `x`
  | insert (x : Nat)
  | write (x : Nat)
  | dropWrite (x : Nat) (e : GoError)
  | select (x : Nat)
  | wait (x : Nat) (closeCh : Option Nat)
  | dropWait (x : Nat) (e : CtxErr)
  -- `Close`
  | close (conn : Option Nat)
  -- `readLoop`
  | reading (conn : Nat)
  | lookup (conn : Nat) (n : Nat)
  | deliver (conn : Nat) (n : Nat) (x : Nat)
  | readLoopLeft
  -- `closeWithError`
  | once (k : Closing)
  | onceCloseCh (k : Closing)
  | onceConnected (k : Closing)
  | onceFail (k : Closing)
  | panicked (why : Panic)

/-- What the environment contributes: the operation called next, the outcome of
network calls, and the `select` case taken. -/
inductive Ev where
  | sendRequest
  /-- The address is what `RemoteAddr()` shows of the current connection. -/
  | dial (remote : String)
  | dialFailed (e : GoError)
  | callClose
  | step
  | written
  | writeFailed (e : GoError)
  | done
  | ctxDone (e : CtxErr)
  | closed
  | closeOk
  | closeFailed (e : GoError)
  | frame (f : Frame)
  | readFailed

abbrev Next (Value : Type) := Option (Client × Pc Value × List (Pc Value))

def errClosed : GoError := .errorf "connection closed" []

def Client.callID (g : Client) (x : Nat) : UInt64 :=
  match g.calls[x]? with
  | none => 0
  | some c => c.id

/-- `delete(c.pending, id)`, which is a no-op on a nil map. -/
def Client.deleteID (g : Client) (id : UInt64) : Client :=
  { g with pending := g.pending.map fun m => m.filter fun p => p.1 ≠ id }

/-- What `closeWithError` does to one entry of `pending`. -/
def PendingCall.fail (err : GoError) (c : PendingCall) : PendingCall :=
  { c with err := some err, closes := c.closes + 1 }

def failAll (err : GoError) (m : List (UInt64 × Nat)) (calls : List PendingCall) :
    List PendingCall :=
  m.foldl (fun calls p => calls.modify p.2 (PendingCall.fail err)) calls

def Closing.after : Closing → Pc Value
  | .readLoop => .readLoopLeft
  | .close none => .returned .nothing
  | .close (some e) => .returned (.failed (.wrapf "close connection failed: %w" [] e))

/-! ## Steps -/

/-- `Dial` holds `c.mu` throughout and changes the client only at its end. -/
def dialStep (g : Client) : Pc Value → Ev → Next Value
  | .returned _, .dial remote =>
    if g.connected then
      some (g, .returned (.failed (.errorf "already connected to: %s" [.str remote])), [])
    else
      some ({ g with conn := some g.conns.length, connected := true, pending := some [],
                     closeCh := some g.closeChs.length, conns := g.conns ++ [false],
                     closeChs := g.closeChs ++ [false] },
        .returned .nothing, [.reading g.conns.length])
  | .returned _, .dialFailed e =>
    if g.connected then none else some (g, .returned (.failed e), [])
  | _, _ => none

/-- `decode` is `DecodeResponseWith`. -/
def sendStep (decode : CodecType → List UInt8 → Except GoError (Response Value)) (g : Client) :
    Pc Value → Ev → Next Value
  | .returned _, .sendRequest =>
    some ({ g with nextID := g.nextID + 1, calls := g.calls ++ [newPendingCall (g.nextID + 1)] },
      .insert g.calls.length, [])
  | .insert x, .step =>
    match g.pending with
    | none => some (g, .panicked .nilMap, [])
    | some m =>
      some ({ g with pending := some ((g.callID x, x) :: m.filter fun p => p.1 ≠ g.callID x) },
        .write x, [])
  | .write x, .written =>
    match g.conn with
    | none => some (g, .panicked .nilConn, [])
    | some _ => some (g, .select x, [])
  | .write x, .writeFailed e => some (g, .dropWrite x e, [])
  | .dropWrite x e, .step =>
    some (g.deleteID (g.callID x), .returned (.failed (.wrapf "write request failed: %w" [] e)), [])
  -- the operand `c.closeCh` is read when the `select` is entered
  | .select x, .step => some (g, .wait x g.closeCh, [])
  | .wait x _, .done =>
    match g.calls[x]? with
    | none => none
    | some c =>
      if c.closes = 0 then none
      else
        match c.err with
        | some e => some (g, .returned (.failed e), [])
        | none =>
          match decode c.respCodec c.respBody with
          | .error e => some (g, .returned (.failed e), [])
          | .ok resp => some (g, .returned (.answered x resp), [])
  | .wait x _, .ctxDone e => some (g, .dropWait x e, [])
  | .dropWait x e, .step => some (g.deleteID (g.callID x), .returned (.failed e.toGoError), [])
  | .wait _ (some ch), .closed =>
    if g.closeChs[ch]? = some true then some (g, .returned (.failed errClosed), []) else none
  | _, _ => none

def closeStep (g : Client) : Pc Value → Ev → Next Value
  | .returned _, .callClose =>
    if g.connected then some ({ g with conn := none, connected := false }, .close g.conn, [])
    else some (g, .returned .nothing, [])
  | .close none, .step => some (g, .once (.close none), [])
  | .close (some m), .closeOk =>
    some ({ g with conns := g.conns.set m true }, .once (.close none), [])
  | .close (some m), .closeFailed e =>
    some ({ g with conns := g.conns.set m true }, .once (.close (some e)), [])
  | _, _ => none

def readStep (g : Client) : Pc Value → Ev → Next Value
  | .reading m, .frame f =>
    some ({ g with frames := g.frames ++ [f] }, .lookup m g.frames.length, [])
  | .reading _, .readFailed => some (g, .once .readLoop, [])
  | .lookup m n, .step =>
    match g.frames[n]? with
    | none => none
    | some f =>
      match (g.pending.getD []).find? fun p => p.1 = f.header.requestID with
      | none => some (g, .reading m, [])
      | some p => some (g.deleteID f.header.requestID, .deliver m n p.2, [])
  | .deliver m n x, .step =>
    match g.frames[n]? with
    | none => none
    | some f =>
      some ({ g with calls := g.calls.modify x fun c =>
                { c with respBody := f.body, respCodec := f.header.codec, closes := c.closes + 1,
                         completedBy := some n } },
        .reading m, [])
  | _, _ => none

def onceStep (g : Client) : Pc Value → Ev → Next Value
  | .once k, .step =>
    match g.closeOnce with
    | .fresh => some ({ g with closeOnce := .running }, .onceCloseCh k, [])
    | .running => none
    | .done => some (g, k.after, [])
  | .onceCloseCh k, .step =>
    match g.closeCh with
    | none => some (g, .panicked .nilCloseCh, [])
    | some ch =>
      if g.closeChs[ch]? = some true then some (g, .panicked .closedCloseCh, [])
      else some ({ g with closeChs := g.closeChs.set ch true }, .onceConnected k, [])
  | .onceConnected k, .step => some ({ g with connected := false }, .onceFail k, [])
  | .onceFail k, .step =>
    some ({ g with calls := failAll errClosed (g.pending.getD []) g.calls,
                   pending := g.pending.map fun _ => [], closeOnce := .done }, k.after, [])
  | _, _ => none

def clientStep (decode : CodecType → List UInt8 → Except GoError (Response Value)) (g : Client)
    (pc : Pc Value) (e : Ev) : Next Value :=
  (dialStep g pc e).or <| (sendStep decode g pc e).or <| (closeStep g pc e).or <|
    (readStep g pc e).or (onceStep g pc e)

def client (decode : CodecType → List UInt8 → Except GoError (Response Value)) :
    Program Client (Pc Value) Ev where
  step g pc e := clientStep decode g pc e

/-- An undialled client and `n` goroutines that may use it. -/
def start (n : Nat) : Config Client (Pc Value) :=
  ⟨newClient, List.replicate n (.returned .nothing)⟩

theorem clientStep_cases {decode : CodecType → List UInt8 → Except GoError (Response Value)}
    {g : Client} {pc : Pc Value} {e : Ev} {r : Client × Pc Value × List (Pc Value)}
    (h : clientStep decode g pc e = some r) :
    dialStep g pc e = some r ∨ sendStep decode g pc e = some r ∨ closeStep g pc e = some r ∨
      readStep g pc e = some r ∨ onceStep g pc e = some r := by
  simp only [clientStep, Option.or_eq_some_iff] at h
  tauto

theorem fire_client {decode : CodecType → List UInt8 → Except GoError (Response Value)}
    {s t : Config Client (Pc Value)} {i : Nat} {e : Ev} (h : (client decode).fire s i e = some t) :
    ∃ pc g' pc' new, s.threads[i]? = some pc ∧ t = ⟨g', s.threads.set i pc' ++ new⟩ ∧
      (dialStep s.shared pc e = some (g', pc', new) ∨
        sendStep decode s.shared pc e = some (g', pc', new) ∨
        closeStep s.shared pc e = some (g', pc', new) ∨
        readStep s.shared pc e = some (g', pc', new) ∨
        onceStep s.shared pc e = some (g', pc', new)) := by
  obtain ⟨pc, g', pc', new, hi, hs, rfl⟩ := fire_cases h
  exact ⟨pc, g', pc', new, hi, rfl, clientStep_cases hs⟩

end RpcInGo.Tcp.ClientModel
