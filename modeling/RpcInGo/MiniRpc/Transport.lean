import RpcInGo.Lib.LengthPrefix
import RpcInGo.Protocol.Message

/-!
The TCP transport of `mini-rpc`: both ends put four bytes of length before a message. The server
reads them with `io.ReadFull`, the client with a single `Read`. Calls of `Send` hold the mutex of
the transport from the first write to the last read, so they follow one another on a connection.

* `handleConnection_answers`: the server answers a stream of requests in order, however it is cut;
* `exchange_inStep_iff`: on a connection where nothing fails, one `Send` returns its response and
  leaves nothing of it behind exactly if the first `Read` fills the four bytes;
* `sends_answered`: any number of calls, with failures;
* `short_length_read`: a `Read` of one byte makes `Send` return an empty response.
-/

namespace RpcInGo.MiniRpc.Transport
open Lib.ByteStream Lib.LengthPrefix Protocol.Message

/-- 10 MiB. -/
def maxMessageSize : Nat := 10 * 1024 * 1024

/-- Every length up to the limit fits into the four bytes. -/
theorem maxMessageSize_lt : maxMessageSize < 256 ^ 4 := by decide

/-! ## Writing -/

/-- A `Write` that fails after `sent` bytes. -/
structure WriteFault where
  sent : Nat
  err : GoError

/-- `conn.Write`: what goes out, and the error. -/
def write (fault : Option WriteFault) (bs : Bytes) : Bytes × Option GoError :=
  match fault with
  | none => (bs, none)
  | some f => (bs.take f.sent, some f.err)

/-- What happens to the two writes of a message. -/
structure MessageFaults where
  length : Option WriteFault
  data : Option WriteFault

inductive WriteErr
  | length (e : GoError)
  | data (e : GoError)

/-- Length and data, as both ends write them; the second write is not tried after a failed one. -/
def writeMessage (faults : MessageFaults) (msg : Bytes) : Bytes × Option WriteErr :=
  match write faults.length (putBE 4 msg.length) with
  | (out, some e) => (out, some (.length e))
  | (out, none) =>
    match write faults.data msg with
    | (out', some e) => (out ++ out', some (.data e))
    | (out', none) => (out ++ out', none)

/-! ## The client -/

/-- The connection during one `Send`: what arrives once these bytes have been written. -/
structure Conn where
  faults : MessageFaults
  arrives : Bytes → Reader UInt8

def receiveError : FrameErr → GoError
  | .readLength e => .wrapf "failed to read response length: %w" [] (.foreign e.text)
  | .tooLarge length => .errorf "response too large: %d bytes" [.int length]
  | .readData e => .wrapf "failed to read response data: %w" [] (.foreign e.text)

/-- `TCPClientTransport.Send`, and what it leaves unread. -/
def send (conn : Option Conn) (data : Bytes) : Except GoError Bytes × Reader UInt8 :=
  match conn with
  | none => (.error (.errorf "not connected to server, call Connect() first" []), [])
  | some conn =>
    match writeMessage conn.faults data with
    | (out, some (.length e)) =>
      (.error (.wrapf "failed to send data length: %w" [] e), conn.arrives out)
    | (out, some (.data e)) => (.error (.wrapf "failed to send data: %w" [] e), conn.arrives out)
    | (out, none) =>
      ((readFrameOnce 4 maxMessageSize (conn.arrives out)).1.mapError receiveError,
        (readFrameOnce 4 maxMessageSize (conn.arrives out)).2)

/-! ## The server -/

/-- A handler with a state of its own. -/
abbrev RequestHandler (S : Type) := S → Bytes → Bytes × S

/-- Where a round of `handleConnection` ends; `serving` says that another one follows. -/
structure Served (S : Type) where
  state : S
  serving : Bool
  unread : Reader UInt8
  written : Bytes

section Server
variable {S : Type} (handler : RequestHandler S)

/-- The body of the loop of `handleConnection`, which closes the connection at every error. -/
def handleRound (faults : MessageFaults) (s : S) (r : Reader UInt8) : Served S :=
  match readFrame 4 maxMessageSize r with
  | (.error _, r) => ⟨s, false, r, []⟩
  | (.ok data, r) =>
    ⟨(handler s data).2, (writeMessage faults (handler s data).1).2.isNone, r,
      (writeMessage faults (handler s data).1).1⟩

/-- All that `handleConnection` writes; `faults` has an entry for each round there is time for. -/
def handleConnection (s : S) (r : Reader UInt8) : List MessageFaults → Bytes
  | [] => []
  | f :: faults =>
    let served := handleRound handler f s r
    served.written ++
      if served.serving then handleConnection served.state served.unread faults else []

/-! ## Calls on one connection -/

/-- Both ends between two calls, with the bytes that are written and not yet read. -/
structure Link (S : Type) where
  state : S
  serving : Bool
  requests : Bytes
  responses : Bytes

def Link.fresh (s : S) : Link S := ⟨s, true, [], []⟩

/-- What the network does during one call. -/
structure Network where
  request : MessageFaults
  atServer : Splitter UInt8
  response : MessageFaults
  atClient : Splitter UInt8

def Network.Faultless (net : Network) : Prop :=
  net.request = ⟨none, none⟩ ∧ net.response = ⟨none, none⟩

/-- The server after `out` has been written to it. -/
def serve (net : Network) (link : Link S) (out : Bytes) : Served S :=
  if link.serving then
    handleRound handler net.response link.state (net.atServer.pieces (link.requests ++ out))
  else ⟨link.state, false, [link.requests ++ out], []⟩

/-- One call of `Send`: the pieces it reads from, its result, and what is left unread. -/
structure Exchange where
  arrived : Reader UInt8
  result : Except GoError Bytes
  unread : Bytes

/-- The four bytes of the length come with the first `Read`. -/
def Exchange.Whole (x : Exchange) : Prop := ready 4 x.arrived = 4

/-- The call returned this response, and the next call will not find a part of it. -/
def Exchange.InStep (x : Exchange) (response : Bytes) : Prop :=
  x.result = .ok response ∧ x.unread = []

/-- The connection that a call of `Send` sees. -/
def connOf (net : Network) (link : Link S) : Conn where
  faults := net.request
  arrives out := net.atClient.pieces (link.responses ++ (serve handler net link out).written)

def exchange (net : Network) (link : Link S) (data : Bytes) : Exchange × Link S :=
  let out := (writeMessage net.request data).1
  let served := serve handler net link out
  let (result, rest) := send (some (connOf handler net link)) data
  (⟨(connOf handler net link).arrives out, result, rest.flatten⟩,
    ⟨served.state, served.serving, served.unread.flatten, rest.flatten⟩)

def session (link : Link S) : List (Network × Bytes) → List Exchange
  | [] => []
  | (net, data) :: calls =>
    (exchange handler net link data).1 :: session (exchange handler net link data).2 calls

/-- What the handler returns for these requests, one after the other. -/
def answers (s : S) : List Bytes → List Bytes
  | [] => []
  | data :: requests => (handler s data).1 :: answers (handler s data).2 requests

end Server

section Steps
variable {S : Type} {handler : RequestHandler S} {net : Network} {s : S} {data msg : Bytes}
  {faults : MessageFaults}

theorem writeMessage_none (h : (writeMessage faults msg).2 = none) :
    (writeMessage faults msg).1 = frame 4 msg := by
  obtain ⟨lf, df⟩ := faults
  cases lf with
  | some f => cases h
  | none =>
    cases df with
    | some f => cases h
    | none => rfl

theorem writeMessage_isPrefix (faults : MessageFaults) (msg : Bytes) :
    (writeMessage faults msg).1 <+: frame 4 msg := by
  obtain ⟨lf, df⟩ := faults
  cases lf with
  | some f => exact (List.take_prefix _ _).trans (List.prefix_append _ _)
  | none =>
    cases df with
    | some f => exact List.prefix_append_right_inj _ |>.mpr (List.take_prefix _ _)
    | none => exact List.prefix_refl _

/-- The server reads a request up to the limit, whatever the pieces are. -/
theorem handleRound_frame (handler : RequestHandler S) (faults : MessageFaults) (s : S)
    (hdata : data.length ≤ maxMessageSize) {r : Reader UInt8} {rest : Bytes}
    (hr : r.flatten = frame 4 data ++ rest) :
    ∃ r', handleRound handler faults s r =
        ⟨(handler s data).2, (writeMessage faults (handler s data).1).2.isNone, r',
          (writeMessage faults (handler s data).1).1⟩ ∧ r'.flatten = rest := by
  obtain ⟨r', hread, hrest⟩ := readFrame_frame maxMessageSize_lt hdata hr
  exact ⟨r', by rw [handleRound, hread], hrest⟩

/-- A stream of requests is answered in order, and the loop ends with the stream. -/
theorem handleConnection_answers (handler : RequestHandler S) {requests : List Bytes}
    (hreq : ∀ data ∈ requests, data.length ≤ maxMessageSize) (s : S) {r : Reader UInt8}
    (hr : r.flatten = (requests.map (frame 4)).flatten) (spare : Nat) :
    handleConnection handler s r (List.replicate (requests.length + spare) ⟨none, none⟩) =
      ((answers handler s requests).map (frame 4)).flatten := by
  induction requests generalizing s r with
  | nil =>
    cases spare with
    | zero => rfl
    | succ spare =>
      obtain ⟨e, hread⟩ := readFull_short (n := 4) (r := r) (by simp [hr])
      simp [List.replicate_succ, handleConnection, handleRound, readFrame, hread, answers]
  | cons data requests ih =>
    obtain ⟨hdata, hrest⟩ := List.forall_mem_cons.mp hreq
    rw [List.map_cons, List.flatten_cons] at hr
    obtain ⟨r', hround, hr'⟩ := handleRound_frame handler ⟨none, none⟩ s hdata hr
    have hlen : (data :: requests).length + spare = requests.length + spare + 1 := by
      rw [List.length_cons]
      omega
    rw [hlen, List.replicate_succ, handleConnection, hround]
    simp only [answers, List.map_cons, List.flatten_cons]
    rw [← ih hrest (handler s data).2 hr']
    rfl

theorem serve_request (handler : RequestHandler S) (net : Network) (s : S)
    (hdata : data.length ≤ maxMessageSize) (responses : Bytes) :
    ∃ r, serve handler net ⟨s, true, [], responses⟩ (frame 4 data) =
        ⟨(handler s data).2, (writeMessage net.response (handler s data).1).2.isNone, r,
          (writeMessage net.response (handler s data).1).1⟩ ∧ r.flatten = [] := by
  have hflat : (net.atServer.pieces ([] ++ frame 4 data)).flatten = frame 4 data ++ [] := by
    rw [net.atServer.flatten_pieces, List.nil_append, List.append_nil]
  obtain ⟨r, hround, hrest⟩ := handleRound_frame handler net.response s hdata hflat
  exact ⟨r, by rw [serve, if_pos rfl, hround], hrest⟩

/-- A call whose writes succeed, on a connection without anything unread. -/
theorem exchange_fresh (handler : RequestHandler S) (s : S) (hdata : data.length ≤ maxMessageSize)
    (hwrite : (writeMessage net.request data).2 = none) :
    let r := net.atClient.pieces (writeMessage net.response (handler s data).1).1
    exchange handler net (.fresh s) data =
      (⟨r, (readFrameOnce 4 maxMessageSize r).1.mapError receiveError,
          (readFrameOnce 4 maxMessageSize r).2.flatten⟩,
        ⟨(handler s data).2, (writeMessage net.response (handler s data).1).2.isNone, [],
          (readFrameOnce 4 maxMessageSize r).2.flatten⟩) := by
  have hout := writeMessage_none hwrite
  have hpair : writeMessage net.request data = (frame 4 data, none) := Prod.ext hout hwrite
  obtain ⟨r, hserve, hrest⟩ := serve_request handler net s hdata []
  simp only [exchange, send, connOf, Link.fresh, hpair, hserve, hrest, List.nil_append]

theorem mapError_eq_ok {e : Except FrameErr Bytes} {out : Bytes} :
    e.mapError receiveError = .ok out ↔ e = .ok out := by
  cases e <;> simp [Except.mapError]

theorem faultless_request (hnet : net.Faultless) : (writeMessage net.request data).2 = none := by
  rw [hnet.1]
  rfl

theorem faultless_response (hnet : net.Faultless) (msg : Bytes) :
    writeMessage net.response msg = (frame 4 msg, none) := by
  rw [hnet.2]
  rfl

/-- A call on a connection where nothing fails. -/
theorem exchange_inStep_iff (hnet : net.Faultless) (hdata : data.length ≤ maxMessageSize)
    (hresp : (handler s data).1.length ≤ maxMessageSize) :
    (exchange handler net (.fresh s) data).1.InStep (handler s data).1 ↔
      (exchange handler net (.fresh s) data).1.Whole := by
  rw [exchange_fresh handler s hdata (faultless_request hnet), faultless_response hnet]
  simp only [Exchange.InStep, Exchange.Whole, mapError_eq_ok]
  exact readFrameOnce_iff (Nat.succ_pos 3) maxMessageSize_lt hresp (net.atClient.flatten_pieces _)

/-- If it was in step, the next call finds the connection as this one did. -/
theorem exchange_link (hnet : net.Faultless) (hdata : data.length ≤ maxMessageSize)
    (h : (exchange handler net (.fresh s) data).1.unread = []) :
    (exchange handler net (.fresh s) data).2 = .fresh (handler s data).2 := by
  rw [exchange_fresh handler s hdata (faultless_request hnet), faultless_response hnet] at h ⊢
  simp only at h
  simp only [h, Link.fresh, Option.isNone_none]

/-! ## Calls that succeed although something may have failed -/

theorem exchange_ok {link : Link S} {out : Bytes}
    (h : (exchange handler net link data).1.result = .ok out) :
    (writeMessage net.request data).2 = none := by
  rcases hw : writeMessage net.request data with ⟨bs, _ | e | e⟩
  · rfl
  · simp [exchange, send, connOf, hw] at h
  · simp [exchange, send, connOf, hw] at h

/-- A server that has closed the connection sends no length. -/
theorem exchange_closed (net : Network) (s : S) (data : Bytes) :
    ¬ (exchange handler net ⟨s, false, [], []⟩ data).1.Whole := by
  intro h
  have hnil : ((exchange handler net ⟨s, false, [], []⟩ data).1.arrived).flatten = [] := by
    simp [exchange, connOf, serve, net.atClient.flatten_pieces]
  have hle := ready_le_length 4 (exchange handler net ⟨s, false, [], []⟩ data).1.arrived
  rw [h, hnil] at hle
  cases hle

/-- A successful call after a whole length was read: the server may have closed since. -/
theorem exchange_successful {serving : Bool} (hdata : data.length ≤ maxMessageSize)
    (hresp : (handler s data).1.length ≤ maxMessageSize)
    (hwhole : (exchange handler net ⟨s, serving, [], []⟩ data).1.Whole) {out : Bytes}
    (hok : (exchange handler net ⟨s, serving, [], []⟩ data).1.result = .ok out) :
    (exchange handler net ⟨s, serving, [], []⟩ data).1.InStep (handler s data).1 ∧
      ∃ serving', (exchange handler net ⟨s, serving, [], []⟩ data).2 =
        ⟨(handler s data).2, serving', [], []⟩ := by
  cases serving with
  | false => exact absurd hwhole (exchange_closed net s data)
  | true =>
    have heq := exchange_fresh handler s hdata (exchange_ok hok)
    simp only [Link.fresh] at heq
    rw [heq] at hwhole hok ⊢
    simp only [mapError_eq_ok] at hok
    have hpart : (net.atClient.pieces (writeMessage net.response (handler s data).1).1).flatten <+:
        frame 4 (handler s data).1 := by
      rw [net.atClient.flatten_pieces]
      exact writeMessage_isPrefix _ _
    obtain ⟨rfl, hnil⟩ :=
      readFrameOnce_whole (Nat.succ_pos 3) maxMessageSize_lt hresp hpart hwhole hok
    exact ⟨⟨mapError_eq_ok.mpr hok, hnil⟩, _, by rw [hnil]⟩

end Steps

section Sessions
variable {S : Type} {handler : RequestHandler S} {s : S} {calls : List (Network × Bytes)}

theorem session_successful {serving : Bool} (hreq : ∀ c ∈ calls, c.2.length ≤ maxMessageSize)
    (hresp : ∀ r ∈ answers handler s (calls.map Prod.snd), r.length ≤ maxMessageSize)
    (h : ∀ x ∈ session handler ⟨s, serving, [], []⟩ calls,
      x.Whole ∧ ∃ out, x.result = .ok out) :
    List.Forall₂ Exchange.InStep (session handler ⟨s, serving, [], []⟩ calls)
      (answers handler s (calls.map Prod.snd)) := by
  induction calls generalizing s serving with
  | nil => exact .nil
  | cons c calls ih =>
    obtain ⟨net, data⟩ := c
    simp only [List.map_cons, answers, session, List.forall_mem_cons] at hreq hresp h ⊢
    obtain ⟨⟨hwhole, out, hok⟩, hrest⟩ := h
    obtain ⟨hstep, serving', hlink⟩ := exchange_successful hreq.1 hresp.1 hwhole hok
    rw [hlink] at hrest ⊢
    exact .cons hstep (ih hreq.2 hresp.2 hrest)

theorem session_inStep_iff (hnet : ∀ c ∈ calls, c.1.Faultless)
    (hreq : ∀ c ∈ calls, c.2.length ≤ maxMessageSize)
    (hresp : ∀ r ∈ answers handler s (calls.map Prod.snd), r.length ≤ maxMessageSize) :
    List.Forall₂ Exchange.InStep (session handler (.fresh s) calls)
        (answers handler s (calls.map Prod.snd)) ↔
      ∀ x ∈ session handler (.fresh s) calls, x.Whole := by
  induction calls generalizing s with
  | nil => simp [session, answers]
  | cons c calls ih =>
    obtain ⟨net, data⟩ := c
    simp only [List.map_cons, answers, session, List.forall_mem_cons, List.forall₂_cons]
      at hnet hreq hresp ⊢
    have hstep := exchange_inStep_iff hnet.1 hreq.1 hresp.1
    constructor
    · rintro ⟨hfirst, hrest⟩
      rw [exchange_link hnet.1 hreq.1 hfirst.2] at hrest ⊢
      exact ⟨hstep.mp hfirst, (ih hnet.2 hreq.2 hresp.2).mp hrest⟩
    · rintro ⟨hfirst, hrest⟩
      have hin := hstep.mpr hfirst
      rw [exchange_link hnet.1 hreq.1 hin.2] at hrest ⊢
      exact ⟨hin, (ih hnet.2 hreq.2 hresp.2).mpr hrest⟩

end Sessions

/-- Successive calls of `Send` on one connection, for requests and responses up to the limit. Calls
that succeed return the responses of their own requests, if each reads the length of its response
whole. Where nothing fails this is also necessary for all of them to stay in step. -/
theorem sends_answered {S : Type} (handler : RequestHandler S) (s : S)
    {calls : List (Network × Bytes)} (hreq : ∀ c ∈ calls, c.2.length ≤ maxMessageSize)
    (hresp : ∀ r ∈ answers handler s (calls.map Prod.snd), r.length ≤ maxMessageSize) :
    ((∀ x ∈ session handler (.fresh s) calls, x.Whole ∧ ∃ out, x.result = .ok out) →
      List.Forall₂ Exchange.InStep (session handler (.fresh s) calls)
        (answers handler s (calls.map Prod.snd))) ∧
    ((∀ c ∈ calls, c.1.Faultless) →
      (List.Forall₂ Exchange.InStep (session handler (.fresh s) calls)
          (answers handler s (calls.map Prod.snd)) ↔
        ∀ x ∈ session handler (.fresh s) calls, x.Whole)) :=
  ⟨fun h => session_successful hreq hresp h, fun hnet => session_inStep_iff hnet hreq hresp⟩

def echo : RequestHandler Unit := fun _ data => (data, ())

/-- A network without failures that delivers in these pieces. -/
def quiet (split : Splitter UInt8) : Network := ⟨⟨none, none⟩, split, ⟨none, none⟩, split⟩

theorem sends_answered_echo :
    List.Forall₂ Exchange.InStep
      (session echo (.fresh ()) [(quiet .whole, [1, 2, 3]), (quiet .whole, [4])])
      [[1, 2, 3], [4]] := by
  have hreq : ∀ c ∈ [(quiet .whole, ([1, 2, 3] : Bytes)), (quiet .whole, [4])],
      c.2.length ≤ maxMessageSize := by
    simp [maxMessageSize]
  have hresp : ∀ r ∈ answers echo () [[1, 2, 3], [4]], r.length ≤ maxMessageSize := by decide
  have hnet : ∀ c ∈ [(quiet .whole, ([1, 2, 3] : Bytes)), (quiet .whole, [4])],
      c.1.Faultless := by
    simp [quiet, Network.Faultless]
  have hwhole : ∀ x ∈ session echo (.fresh ()) [(quiet .whole, [1, 2, 3]), (quiet .whole, [4])],
      x.Whole := by
    simp only [session, List.forall_mem_cons, Exchange.Whole]
    exact ⟨by decide, by decide, by simp⟩
  exact ((sends_answered echo () hreq hresp).2 hnet).mpr hwhole

/-- The response comes byte by byte, and the call returns an empty one. -/
theorem short_length_read :
    ¬ ∀ (handler : RequestHandler Unit) (net : Network) (data : Bytes), net.Faultless →
      data.length ≤ maxMessageSize → (handler () data).1.length ≤ maxMessageSize →
      (exchange handler net (.fresh ()) data).1.result = .ok (handler () data).1 := by
  intro h
  have hsend := h echo (quiet .single) [1, 2, 3] ⟨rfl, rfl⟩ (by decide) (by decide)
  have hempty : (exchange echo (quiet .single) (.fresh ()) [1, 2, 3]).1.result = .ok [] := rfl
  rw [hempty] at hsend
  cases hsend

end RpcInGo.MiniRpc.Transport
