import Mathlib.Algebra.BigOperators.Group.Finset.Basic
import RpcInGo.System.Caller
import RpcInGo.System.Peer

/-!
Calls end to end: a `tcp.Client` with any number of concurrent calls and connections, and at
the other end of each connection a `tcp.Server` that runs `HandleRequest`. The two ends run by
schedules of their own; of the network it is assumed that what arrives at one end is a prefix
of what the other has given to the connection, in whatever pieces.

* `answered_call`: a call is answered with what `HandleRequest` has returned for the request
  of that call, or with the transport's refusal of that request;
* `executed_once`: whatever happens to a call, its request is handled at most once, over all
  connections.
-/

namespace RpcInGo.System.EndToEnd
open Lib.ByteStream Lib.Goroutine Protocol.Message Protocol.Header Codec.Registry Codec.Payloads
  Codec.Bodies Tcp.Framing Tcp.Multiplex Server.HandleRequest Wire Caller
open Tcp.ClientModel (PendingCall)
open Tcp.ServerModel (ServerOptions)
open Tcp.BodyLimit (Wired readRequest_ok)
open Tcp.ResponseIDs (Exchange ServeEv serving history handled)
open Tcp.Completion (run_client run_decoded run_followed)
open Peer (Returns Refusal handles run_answering run_located handled_le_one)

variable {M V X : Type}

/-- A run of a server, and one of its connections. -/
structure Remote (M V X : Type) (t : Tables (Payload M V)) where
  codecType : CodecType
  compressType : CompressType
  options : ServerOptions
  server : RpcServer M V X
  closers : Nat
  streams : Nat → Reader UInt8
  schedule : List (Nat × ServeEv M V X)
  final : Config (Wired (Payload M V)) (Tcp.ServerModel.Pc (Payload M V))
  conn : Nat
  run : Run (serving t (newProtocolCodec t codecType compressType) options server) Any
    (Tcp.BodyLimit.wiredStart options closers streams) schedule final

section Remotes
variable {t : Tables (Payload M V)}

def Remote.codec (p : Remote M V X t) : ProtocolCodec (Payload M V) :=
  newProtocolCodec t p.codecType p.compressType

/-- What was asked and answered at the server. -/
def Remote.log (p : Remote M V X t) : List (Exchange (Payload M V)) :=
  history t p.codec p.options p.server p.closers p.streams p.schedule

/-- What the writer gives to the connection for an exchange. -/
def Remote.writes (p : Remote M V X t) : Exchange (Payload M V) → Option (Sent (Payload M V))
  | .response k _ resp => if k = p.conn then send p.codec (.response resp) else none
  | _ => none

def Remote.sent (p : Remote M V X t) : List (Sent (Payload M V)) := p.log.filterMap p.writes

/-- What each end reads is a prefix of what the other end has given to the connection, and
the lengths of the bodies fit their headers. -/
structure Connected (w : Calling (Payload M V)) (incoming : Nat → Reader UInt8)
    (remote : Nat → Remote M V X t) : Prop where
  requests : ∀ m, ((remote m).streams (remote m).conn).flatten <+: stream (w.sentOn m)
  responses : ∀ m, (incoming m).flatten <+: stream (remote m).sent
  short : ∀ m, ∀ s ∈ w.sentOn m ++ (remote m).sent, s.frame.length < headerLength + 2 ^ 32

theorem Remote.sent_cases {p : Remote M V X t} {s : Sent (Payload M V)} (h : s ∈ p.sent) :
    ∃ n resp, .response p.conn n resp ∈ p.log ∧ send p.codec (.response resp) = some s := by
  obtain ⟨ex, hex, hwrites⟩ := List.mem_filterMap.mp h
  cases ex with
  | response k n resp =>
    simp only [Remote.writes] at hwrites
    split at hwrites
    · rename_i hk
      exact ⟨n, resp, hk ▸ hex, hwrites⟩
    · cases hwrites
  | _ => cases hwrites

end Remotes

section Calls
variable {f : Formats} {mar : Marshal M V} {gzip : Compressor} {codecType : CodecType}
  {compressType : CompressType} {n : Nat} {incoming : Nat → Reader UInt8}
  {tr : List (Nat × CallEv (Payload M V))}
  {s : Config (Calling (Payload M V)) (Tcp.ClientModel.Pc (Payload M V))}
  {remote : Nat → Remote M V X (tables f mar gzip)}

/-- Request `fr` at the server is the request of call `wr.call`, as it was given to the
connection. -/
structure Carried (mar : Marshal M V) (w : Calling (Payload M V)) (wr : Write (Payload M V))
    (fr : Tcp.ServerModel.Frame (Payload M V)) (req : Request (Payload M V)) : Prop where
  request : w.requests[wr.call]? = some req
  header : fr.header.requestID = req.id
  arrived : Arrives mar (.request req) (.request fr.req)

theorem framed_requests
    (hW : Written (newProtocolCodec (tables f mar gzip) codecType compressType) s)
    (hconn : Connected s.shared incoming remote) (m : Nat) :
    ∀ sent ∈ s.shared.sentOn m, sent.Framed (tables f mar gzip) := by
  intro sent hsent
  obtain ⟨wr, hwr, rfl⟩ := List.mem_map.mp hsent
  obtain ⟨req, -, hsend⟩ := Option.bind_eq_some_iff.mp (hW.frames wr (List.mem_filter.mp hwr).1)
  exact ⟨(send_some hsend).2, hconn.short m _ (List.mem_append_left _ hsent)⟩

theorem framed_responses (hconn : Connected s.shared incoming remote) (m : Nat) :
    ∀ sent ∈ (remote m).sent, sent.Framed (tables f mar gzip) := by
  intro sent hsent
  obtain ⟨-, resp, -, hsend⟩ := Remote.sent_cases hsent
  exact ⟨(send_some hsend).2, hconn.short m _ (List.mem_append_right _ hsent)⟩

/-- Every request that a server reads of a connection was given to it at that place. -/
theorem request_carried (hgzip : gzip.Lossless)
    (hW : Written (newProtocolCodec (tables f mar gzip) codecType compressType) s)
    (hconn : Connected s.shared incoming remote) {m taken : Nat} {place : Nat → Nat}
    (hL : Peer.Located (tables f mar gzip) (remote m).codec (remote m).streams (remote m).final
      (remote m).log (remote m).conn taken place)
    {fr : Tcp.ServerModel.Frame (Payload M V)}
    (hreq : .request (remote m).conn fr ∈ (remote m).log) :
    ∃ wr req, (s.shared.wrote.filter (·.conn = m))[place fr.index]? = some wr ∧
      Carried mar s.shared wr fr req := by
  obtain ⟨-, hat⟩ := hL.placed fr hreq
  obtain ⟨data, hdec, -, hreqdec⟩ := readRequest_ok (Prod.ext hat rfl)
  obtain ⟨sent, hsent, hdel⟩ := delivered_at hgzip (framed_requests hW hconn m) (hconn.requests m)
    (congrArg Prod.fst hdec)
  rw [Calling.sentOn, List.getElem?_map, Option.map_eq_some_iff] at hsent
  obtain ⟨wr, hwr, rfl⟩ := hsent
  have hmem := (List.mem_filter.mp (List.mem_of_getElem? hwr)).1
  obtain ⟨req, hget, hsend⟩ := Option.bind_eq_some_iff.mp (hW.frames wr hmem)
  obtain ⟨hid, harr⟩ := delivered_request (send_some hsend).1 hdel hreqdec
  exact ⟨wr, req, hwr, hget, hid, harr⟩

/-- A response carries the ID of the request it answers. -/
theorem answer_id {srv : RpcServer M V X} (hkeep : srv.KeepsIDs) {o : ServerOptions}
    {w : Calling (Payload M V)} {wr : Write (Payload M V)}
    {fr : Tcp.ServerModel.Frame (Payload M V)} {req : Request (Payload M V)}
    {resp : Response (Payload M V)} (hc : Carried mar w wr fr req)
    (h : Returns srv fr resp ∨ Refusal o fr resp) : resp.id = req.id := by
  rcases h with ⟨addr, now, mem, rfl⟩ | hrefused
  · rw [handled, handleRequest_id, handleRequest_keeps hkeep, Memory.store_self]
    exact hc.arrived.request_id
  · cases hrefused <;> exact hc.header

/-- In every run of a client and of the servers its connections lead to: a call that returns
a response has sent its request on one of the connections, the server there has read that
request, with its payload serialized, and the response is, with its payload serialized, what
`HandleRequest` has returned for it or the transport's refusal of it. -/
theorem answered_call (hgzip : gzip.Lossless)
    (hrun : Run (calling (tables f mar gzip)
      (newProtocolCodec (tables f mar gzip) codecType compressType)) Any
      (callingStart n incoming) tr s)
    (hconn : Connected s.shared incoming remote) (hkeep : ∀ m, (remote m).server.KeepsIDs)
    (hwrap : s.shared.wired.client.calls.length < 2 ^ 64) {x : Nat}
    {resp : Response (Payload M V)} (hans : .returned (.answered x resp) ∈ s.threads) :
    ∃ wr ∈ s.shared.wrote, wr.call = x ∧ ∃ fr req resp₀,
      .request (remote wr.conn).conn fr ∈ (remote wr.conn).log ∧ Carried mar s.shared wr fr req ∧
      (Returns (remote wr.conn).server fr resp₀ ∨ Refusal (remote wr.conn).options fr resp₀) ∧
      Arrives mar (.response resp₀) (.response resp) := by
  obtain ⟨tr', hwired⟩ := run_wiredClient hrun
  obtain ⟨tr'', hclient⟩ := run_client hwired
  have hm := run_multiplexed hclient
  have hW := run_written hrun
  -- the frame that has answered the call, and the connection it was read from
  obtain ⟨k, fc, hfc, ⟨c, hcx, hid⟩, hdecode⟩ := hm.points _ hans
  obtain ⟨r, hr, hdecoded⟩ := forall₂_get (run_decoded hwired) hfc
  obtain ⟨m, hleft⟩ := (run_followed hwired).arrived r (List.mem_of_getElem? hr)
  obtain ⟨j, rfl⟩ := hleft.decodes
  -- it is a response of the server at the other end
  obtain ⟨sent, hsent, hdel⟩ := delivered_at hgzip (framed_responses hconn m) (hconn.responses m)
    hdecoded
  obtain ⟨k', resp₀, hresp, hsend⟩ := Remote.sent_cases (List.mem_of_getElem? hsent)
  obtain ⟨hrid, harr⟩ := delivered_response (send_some hsend).1 hdel hdecode
  obtain ⟨fr, -, hreq, hanswer⟩ := (run_answering (remote m).run).responses _ _ _ hresp
  -- which answers a request of the client
  obtain ⟨taken, place, hL⟩ := run_located (remote m).run (remote m).conn
  obtain ⟨wr, req, hwr, hcar⟩ := request_carried hgzip hW hconn hL hreq
  obtain ⟨hmem, hm'⟩ := List.mem_filter.mp (List.mem_of_getElem? hwr)
  obtain rfl : wr.conn = m := by simpa using hm'
  -- the one with the ID of the call
  obtain ⟨d, hd, hdid⟩ := hW.request_id hcar.request
  have hcall : wr.call = x := by
    refine hm.ok.id_inj hwrap hd hcx ?_
    rw [hdid, hid, hrid, answer_id (hkeep _) hcar hanswer]
  exact ⟨wr, hmem, hcall, fr, req, resp₀, hreq, hcar, hanswer, harr⟩

/-! ## At most once -/

/-- `HandleRequest` has returned a response for a request with this ID. -/
def executes (k : Nat) (id : UInt64) : Exchange (Payload M V) → Bool
  | .handled j fr _ _ => j = k ∧ fr.header.requestID = id
  | _ => false

/-- Requests with the ID of a call are one request, wherever they were read. -/
theorem request_unique (hgzip : gzip.Lossless)
    (hW : Written (newProtocolCodec (tables f mar gzip) codecType compressType) s)
    (hok : ClientOk s.shared.wired.client) (hconn : Connected s.shared incoming remote)
    (hwrap : s.shared.wired.client.calls.length < 2 ^ 64) {x : Nat} {c : PendingCall}
    (hx : s.shared.wired.client.calls[x]? = some c) {m m' : Nat}
    {fr fr' : Tcp.ServerModel.Frame (Payload M V)}
    (hreq : .request (remote m).conn fr ∈ (remote m).log) (hid : fr.header.requestID = c.id)
    (hreq' : .request (remote m').conn fr' ∈ (remote m').log)
    (hid' : fr'.header.requestID = c.id) : m = m' ∧ fr.index = fr'.index := by
  have hcall : ∀ {wr : Write (Payload M V)} {fr req}, Carried mar s.shared wr fr req →
      fr.header.requestID = c.id → wr.call = x := by
    intro wr fr req hcar hid
    obtain ⟨d, hd, hdid⟩ := hW.request_id hcar.request
    refine hok.id_inj hwrap hd hx ?_
    rw [hdid, ← hcar.header, hid]
  have hnodup := hW.calls_nodup
  obtain ⟨taken, place, hL⟩ := run_located (remote m).run (remote m).conn
  obtain ⟨taken', place', hL'⟩ := run_located (remote m').run (remote m').conn
  obtain ⟨wr, req, hwr, hcar⟩ := request_carried hgzip hW hconn hL hreq
  obtain ⟨wr', req', hwr', hcar'⟩ := request_carried hgzip hW hconn hL' hreq'
  obtain ⟨hmem, hm⟩ := List.mem_filter.mp (List.mem_of_getElem? hwr)
  obtain ⟨hmem', hm'⟩ := List.mem_filter.mp (List.mem_of_getElem? hwr')
  have hsame : wr = wr' := List.inj_on_of_nodup_map hnodup hmem hmem' (by
    rw [hcall hcar hid, hcall hcar' hid'])
  have hmm : m = m' := by
    simp only [decide_eq_true_eq] at hm hm'
    rw [← hm, ← hm', hsame]
  subst hmm
  refine ⟨rfl, ?_⟩
  -- the frame stands once in the stream
  obtain ⟨wr₁, req₁, hwr₁, hcar₁⟩ := request_carried hgzip hW hconn hL hreq'
  have hmem₁ := (List.mem_filter.mp (List.mem_of_getElem? hwr₁)).1
  have hsame₁ : wr = wr₁ := List.inj_on_of_nodup_map hnodup hmem hmem₁ (by
    rw [hcall hcar hid, hcall hcar₁ hid'])
  have hplaces : (s.shared.wrote.filter (·.conn = m)).Nodup := hnodup.of_map.filter _
  refine hL.apart fr fr' hreq hreq' ?_
  refine (List.getElem?_inj (List.getElem?_eq_some_iff.mp hwr).1 hplaces).mp ?_
  rw [hwr, hwr₁, hsame₁]

/-- In every run of a client and of the servers its connections lead to, whatever becomes of
the call: over all connections `HandleRequest` returns at most once for a request with the ID
of the call. -/
theorem executed_once (hgzip : gzip.Lossless)
    (hrun : Run (calling (tables f mar gzip)
      (newProtocolCodec (tables f mar gzip) codecType compressType)) Any
      (callingStart n incoming) tr s)
    (hconn : Connected s.shared incoming remote)
    (hwrap : s.shared.wired.client.calls.length < 2 ^ 64) {x : Nat} {c : PendingCall}
    (hx : s.shared.wired.client.calls[x]? = some c) (conns : Finset Nat) :
    ∑ m ∈ conns, (remote m).log.countP (executes (remote m).conn c.id) ≤ 1 := by
  obtain ⟨tr', hwired⟩ := run_wiredClient hrun
  obtain ⟨tr'', hclient⟩ := run_client hwired
  have hok := (run_multiplexed hclient).ok
  have hW := run_written hrun
  -- what is executed was read
  have hread : ∀ {m ex}, ex ∈ (remote m).log → executes (remote m).conn c.id ex = true →
      ∃ fr id resp, ex = .handled (remote m).conn fr id resp ∧
        .request (remote m).conn fr ∈ (remote m).log ∧ fr.header.requestID = c.id := by
    intro m ex hex hexec
    cases ex with
    | handled k fr id resp =>
      obtain ⟨rfl, hid⟩ : k = (remote m).conn ∧ fr.header.requestID = c.id := by
        simpa [executes] using hexec
      have hT := (run_answering (remote m).run).traced
      exact ⟨fr, id, resp, rfl, (hT.handled _ fr id resp hex).1, hid⟩
    | _ => cases hexec
  by_cases hnone : ∀ m ∈ conns, (remote m).log.countP (executes (remote m).conn c.id) = 0
  · rw [Finset.sum_eq_zero hnone]
    exact Nat.zero_le 1
  push Not at hnone
  obtain ⟨m, hm, hpos⟩ := hnone
  obtain ⟨ex, hex, hexec⟩ := List.countP_pos_iff.mp (Nat.pos_of_ne_zero hpos)
  obtain ⟨fr, -, -, -, hreq, hid⟩ := hread hex hexec
  have honly : ∀ m' ∈ conns, m' ≠ m →
      (remote m').log.countP (executes (remote m').conn c.id) = 0 := by
    intro m' _ hne
    rw [List.countP_eq_zero]
    intro ex' hex' hexec'
    obtain ⟨fr', -, -, -, hreq', hid'⟩ := hread hex' hexec'
    exact hne (request_unique hgzip hW hok hconn hwrap hx hreq' hid' hreq hid).1
  rw [Finset.sum_eq_single_of_mem m hm honly]
  refine le_trans (List.countP_mono_left ?_)
    (handled_le_one (remote m).run (remote m).conn fr.index)
  intro ex' hex' hexec'
  obtain ⟨fr', id', resp', rfl, hreq', hid'⟩ := hread hex' hexec'
  have hindex := (request_unique hgzip hW hok hconn hwrap hx hreq' hid' hreq hid).2
  simp [handles, hindex]

end Calls

/-! ## One call -/

/-- The first request of a client, without further contents, and what JSON makes of it. -/
def firstRequest : WireRequest := ⟨1, "", "", "", [], 0, false, none, 0, 0⟩

def requestText : Bytes :=
  "\x7b\"id\":1,\"service\":\"\",\"method\":\"\"\x7d".toUTF8.data.toList

/-- The answer of a server without services. -/
def firstResponse : WireResponse Error :=
  ⟨1, [], some (newError errorCodeNotFound "service  not found in registry"), none, 0, 0⟩

def responseText : Bytes :=
  ("\x7b\"id\":1,\"error\":\x7b\"code\":5," ++
    "\"message\":\"service  not found in registry\"\x7d\x7d").toUTF8.data.toList

def formats : Formats :=
  { (default : Formats) with
    jsonRequest := sampleFormat _ requestText firstRequest (by decide)
    jsonResponse := sampleFormat _ responseText firstResponse (by decide) }

def callTables : Tables (Payload Unit Unit) := tables formats Tcp.BodyLimit.noMarshal noneCompressor

def callCodec : ProtocolCodec (Payload Unit Unit) :=
  newProtocolCodec callTables codecTypeJSON compressTypeNone

/-- The frames of the request and of its answer. -/
def requestFrame : Bytes :=
  encodeHeader (newHeader msgTypeRequest codecTypeJSON 1 33) ++ requestText
def responseFrame : Bytes :=
  encodeHeader (newHeader msgTypeResponse codecTypeJSON 1 70) ++ responseText

/-- The first connection brings the frame. -/
def oneFrame (frame : Bytes) : Nat → Reader UInt8
  | 0 => [frame]
  | _ => []

/-- A call is made, written and answered. -/
def oneCall : List (Nat × CallEv (Payload Unit Unit)) :=
  [(0, .env (.dial "")), (0, .sendRequest (newRequest "" "" none 0)), (0, .env .step),
   (0, .env .written), (0, .env .step), (1, .env .step), (1, .env .step), (1, .env .step),
   (0, .env .done)]

theorem oneCall_runs : (exec (calling callTables callCodec) Any
    (callingStart 1 (oneFrame responseFrame)) oneCall).isSome := by decide

def oneCallEnd : Config (Calling (Payload Unit Unit)) (Tcp.ClientModel.Pc (Payload Unit Unit)) :=
  (exec (calling callTables callCodec) Any (callingStart 1 (oneFrame responseFrame)) oneCall).get
    oneCall_runs

theorem oneAnswer_runs : (exec (serving callTables callCodec (Tcp.BodyLimit.limitedTo 33)
    Tcp.ResponseIDs.noServices) Any (Tcp.BodyLimit.wiredStart (Tcp.BodyLimit.limitedTo 33) 0
      (oneFrame requestFrame)) Tcp.ResponseIDs.oneAnswer).isSome := by decide

/-- A server without services reads the request, handles it and writes the response; there is
nobody at the end of the other connections. -/
def remotes : Nat → Remote Unit Unit Unit callTables
  | 0 => ⟨codecTypeJSON, compressTypeNone, (Tcp.BodyLimit.limitedTo 33), Tcp.ResponseIDs.noServices,
      0, oneFrame requestFrame, Tcp.ResponseIDs.oneAnswer, _, 0, run_exec oneAnswer_runs⟩
  | _ => ⟨codecTypeJSON, compressTypeNone, (Tcp.BodyLimit.limitedTo 33), Tcp.ResponseIDs.noServices,
      0, fun _ => [], [], _, 0, .refl⟩

def notFound : Response (Payload Unit Unit) :=
  newErrorResponse 1 (newError errorCodeNotFound "service  not found in registry") 0

def requestSent : Sent (Payload Unit Unit) :=
  ⟨codecTypeJSON, compressTypeNone, .request { newRequest "" "" none 0 with id := 1 }, requestFrame⟩

theorem oneCall_wrote : oneCallEnd.shared.wrote = [⟨0, 0, requestSent⟩] := rfl

theorem remotes_sent : (remotes 0).sent =
    [⟨codecTypeJSON, compressTypeNone, .response notFound, responseFrame⟩] := rfl

theorem oneCall_connected :
    Connected oneCallEnd.shared (oneFrame responseFrame) remotes := by
  have hother : ∀ m, oneCallEnd.shared.sentOn (m + 1) = [] := by
    intro m
    simp [Calling.sentOn, oneCall_wrote]
  have hfirst : oneCallEnd.shared.sentOn 0 = [requestSent] := by
    simp [Calling.sentOn, oneCall_wrote]
  refine ⟨fun m => ?_, fun m => ?_, fun m => ?_⟩
  · cases m with
    | zero =>
      rw [hfirst]
      exact List.prefix_refl _
    | succ m => exact List.nil_prefix
  · cases m with
    | zero =>
      rw [remotes_sent]
      exact List.prefix_refl _
    | succ m => exact List.nil_prefix
  · cases m with
    | zero =>
      rw [hfirst, remotes_sent]
      intro s hs
      simp only [List.cons_append, List.nil_append, List.mem_cons, List.not_mem_nil, or_false] at hs
      rcases hs with rfl | rfl <;> decide
    | succ m =>
      rw [hother]
      intro s hs
      cases hs

theorem noServices_keepsIDs : Tcp.ResponseIDs.noServices.KeepsIDs :=
  ⟨by simp [Tcp.ResponseIDs.noServices], fun _ _ _ h => by cases h⟩

theorem answered_call_notFound :
    .returned (.answered 0 notFound) ∈ oneCallEnd.threads ∧
    ∃ wr ∈ oneCallEnd.shared.wrote, wr.call = 0 ∧ ∃ fr req resp₀,
      .request (remotes wr.conn).conn fr ∈ (remotes wr.conn).log ∧
      Carried Tcp.BodyLimit.noMarshal oneCallEnd.shared wr fr req ∧
      (Returns (remotes wr.conn).server fr resp₀ ∨ Refusal (remotes wr.conn).options fr resp₀) ∧
      Arrives Tcp.BodyLimit.noMarshal (.response resp₀) (.response notFound) := by
  have hans : .returned (.answered 0 notFound) ∈ oneCallEnd.threads := List.mem_cons_self
  refine ⟨hans, ?_⟩
  exact answered_call noneCompressor_lossless (run_exec oneCall_runs) oneCall_connected
    (fun m => by cases m <;> exact noServices_keepsIDs) (by decide) hans

theorem executed_once_notFound :
    ∑ m ∈ Finset.range 2, (remotes m).log.countP (executes (remotes m).conn 1) = 1 ∧
    ∑ m ∈ Finset.range 2, (remotes m).log.countP (executes (remotes m).conn 1) ≤ 1 := by
  refine ⟨rfl, ?_⟩
  have hcall : oneCallEnd.shared.wired.client.calls[0]? =
      some ⟨1, 1, responseText, codecTypeJSON, none, some 0⟩ := rfl
  exact executed_once noneCompressor_lossless (run_exec oneCall_runs) oneCall_connected
    (by decide) hcall (Finset.range 2)

end RpcInGo.System.EndToEnd
