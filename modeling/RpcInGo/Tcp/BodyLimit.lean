import RpcInGo.Codec.Bodies
import RpcInGo.Lib.Observe
import RpcInGo.Tcp.Framing
import RpcInGo.Tcp.ServerModel

/-!
The size limit on request bodies, over the bytes that the peers of a server send.
`ReadRequest` of `pkg/transport/tcp/codec.go` knows no limit: it allocates, reads,
decompresses and decodes what the header announces, and the reader loop of
`handleConnection` looks at `MaxRequestBodySize` afterwards.

* `run_server`: a server that reads from byte streams takes only steps of the server of
  `ServerModel`;
* `obeys_iff`: in every run the limit is kept exactly when no header that was read
  announces more;
* `large_body_handled`: a larger body is allocated, decoded, refused and handed to the
  handler all the same.
-/

namespace RpcInGo.Tcp.BodyLimit
open Lib.ByteStream Lib.Goroutine Lib.Observe Protocol.Message Protocol.Header Codec.Registry
  Framing ServerModel

variable {P : Type}

/-! ## `ReadRequest` -/

/-- `MessageType.String`. -/
def messageTypeString (typ : MessageType) : String :=
  if typ = msgTypeRequest then "request"
  else if typ = msgTypeResponse then "response"
  else "unknown(" ++ toString typ.toNat ++ ")"

def decodeRequestWith (t : Tables P) (codecType : CodecType) (data : Bytes) :
    Except GoError (Request P) :=
  match (t.getOrDefault codecType).decodeRequest data with
  | .error err => .error (.wrapf "decode request error: %w" [] err)
  | .ok req => .ok req

def readRequest (t : Tables P) (pc : ProtocolCodec P) (r : Reader UInt8) :
    Except GoError (Header × Request P) × Reader UInt8 :=
  match decodeFromReader t pc r with
  | (.error err, r) => (.error (.wrapf "decode request error: %w" [] err), r)
  | (.ok (header, bodyData), r) =>
    if header.msgType ≠ msgTypeRequest then
      (.error (.errorf "message type error, expected %s, got %s"
        [.str (messageTypeString msgTypeRequest), .str (messageTypeString header.msgType)]), r)
    else
      match decodeRequestWith t header.codec bodyData with
      | .error err => (.error (.wrapf "decode request error: %w" [] err), r)
      | .ok req => (.ok (header, req), r)

/-- What is done for a frame with header `h`: its header was accepted, its body was
allocated, decompressed and decoded, a response was put on `writeCh` by the reader loop,
or the goroutine that calls the handler was started. -/
inductive Action (P : Type)
  | announced (h : Header)
  | alloc (h : Header)
  | decompress (h : Header) (bodyBytes : Bytes)
  | decode (h : Header) (data : Bytes)
  | respond (h : Header) (resp : Response P)
  | handle (h : Header)

def Action.header : Action P → Header
  | .announced h | .alloc h | .decompress h _ | .decode h _ | .respond h _ | .handle h => h

/-- What `DecodeFromReader` does, in order. -/
def decodeActions (r : Reader UInt8) : List (Action P) :=
  match readFull headerLength r with
  | (.error _, _) => []
  | (.ok headerBytes, r) =>
    match decodeHeader headerBytes with
    | .error _ => []
    | .ok header =>
      [.announced header, .alloc header] ++
        match readFull header.bodyLength.toNat r with
        | (.error _, _) => []
        | (.ok bodyBytes, _) => [.decompress header bodyBytes]

/-- What `ReadRequest` does, in order. -/
def readActions (t : Tables P) (pc : ProtocolCodec P) (r : Reader UInt8) : List (Action P) :=
  decodeActions r ++
    match decodeFromReader t pc r with
    | (.error _, _) => []
    | (.ok (header, bodyData), _) =>
      if header.msgType ≠ msgTypeRequest then [] else [.decode header bodyData]

section Reads
variable {t : Tables P} {pc : ProtocolCodec P} {r : Reader UInt8} {h : Header}

/-- The three ways a read can begin. -/
theorem decodeActions_cases (r : Reader UInt8) :
    (decodeActions r : List (Action P)) = [] ∨
    (∃ h : Header, (decodeActions r : List (Action P)) = [.announced h, .alloc h]) ∨
    (∃ (h : Header) (bodyBytes : Bytes),
      (decodeActions r : List (Action P)) = [.announced h, .alloc h, .decompress h bodyBytes]) := by
  unfold decodeActions
  split
  · exact Or.inl rfl
  · split
    · exact Or.inl rfl
    · rename_i header _
      split
      · exact Or.inr (Or.inl ⟨header, rfl⟩)
      · rename_i bodyBytes _ _
        exact Or.inr (Or.inr ⟨header, bodyBytes, rfl⟩)

/-- A frame is returned only after its body was allocated, read and decompressed. -/
theorem decodeFromReader_actions {data : Bytes} {r' : Reader UInt8}
    (hd : decodeFromReader t pc r = (.ok (h, data), r')) :
    ∃ bodyBytes, (decodeActions r : List (Action P)) =
        [.announced h, .alloc h, .decompress h bodyBytes] ∧
      (getCompressorByType t h.compress).decompress bodyBytes = .ok data := by
  unfold decodeFromReader at hd
  split at hd
  · cases hd
  · rename_i headerBytes r₁ hread
    split at hd
    · cases hd
    · rename_i header hdec
      split at hd
      · cases hd
      · rename_i bodyBytes r₂ hbody
        split at hd
        · cases hd
        · rename_i data hunpack
          cases hd
          exact ⟨bodyBytes, by simp [decodeActions, hread, hdec, hbody], hunpack⟩

theorem readRequest_ok {req : Request P} {r' : Reader UInt8}
    (hr : readRequest t pc r = (.ok (h, req), r')) :
    ∃ data, decodeFromReader t pc r = (.ok (h, data), r') ∧ h.msgType = msgTypeRequest ∧
      decodeRequestWith t h.codec data = .ok req := by
  unfold readRequest at hr
  split at hr
  · cases hr
  · rename_i header data r₁ hdec
    split at hr
    · cases hr
    · rename_i htyp
      split at hr
      · cases hr
      · rename_i req hreq
        cases hr
        exact ⟨data, hdec, not_not.mp htyp, hreq⟩

/-- Every action of a read belongs to the header that the read accepted. -/
theorem readActions_header {a : Action P} (ha : a ∈ readActions t pc r) :
    .announced a.header ∈ (readActions t pc r : List (Action P)) := by
  unfold readActions at ha ⊢
  rw [List.mem_append] at ha ⊢
  left
  rcases ha with ha | ha
  · rcases decodeActions_cases (P := P) r with hc | ⟨h, hc⟩ | ⟨h, bodyBytes, hc⟩
    · simp [hc] at ha
    · rw [hc] at ha ⊢
      simp only [List.mem_cons, List.not_mem_nil, or_false] at ha
      rcases ha with rfl | rfl <;> simp [Action.header]
    · rw [hc] at ha ⊢
      simp only [List.mem_cons, List.not_mem_nil, or_false] at ha
      rcases ha with rfl | rfl | rfl <;> simp [Action.header]
  · split at ha
    · simp at ha
    · rename_i header data r' hdec
      obtain ⟨bodyBytes, hacts, -⟩ := decodeFromReader_actions hdec
      split at ha
      · simp at ha
      · rw [List.mem_singleton] at ha
        subst ha
        simp [hacts, Action.header]

/-- The frame that is returned was announced in the same read. -/
theorem readRequest_announced {req : Request P} {r' : Reader UInt8}
    (hr : readRequest t pc r = (.ok (h, req), r')) :
    .announced h ∈ (readActions t pc r : List (Action P)) := by
  obtain ⟨data, hdec, -, -⟩ := readRequest_ok hr
  obtain ⟨bodyBytes, hacts, -⟩ := decodeFromReader_actions hdec
  simp [readActions, hacts]

/-- Whatever a header announces is allocated at once. -/
theorem announced_alloc (ha : .announced h ∈ (readActions t pc r : List (Action P))) :
    .alloc h ∈ (readActions t pc r : List (Action P)) := by
  unfold readActions at ha ⊢
  rw [List.mem_append] at ha ⊢
  left
  rcases ha with ha | ha
  · rcases decodeActions_cases (P := P) r with hc | ⟨h', hc⟩ | ⟨h', bodyBytes, hc⟩
    · simp [hc] at ha
    · simp only [hc, List.mem_cons, Action.announced.injEq, reduceCtorEq, List.not_mem_nil,
        or_false] at ha
      simp [hc, ha]
    · simp only [hc, List.mem_cons, Action.announced.injEq, reduceCtorEq, List.not_mem_nil,
        or_false] at ha
      simp [hc, ha]
  · split at ha
    · simp at ha
    · split at ha <;> simp at ha

end Reads

/-! ## The server on byte streams -/

/-- The server, and what is yet to arrive on each connection. A read that the deadline or
a `Close` interrupts is the end of the stream. -/
structure Wired (P : Type) where
  server : Server P
  streams : Nat → Reader UInt8

/-- A read is answered by the stream, everything else by the environment. -/
def heard (t : Tables P) (codec : ProtocolCodec P) (w : Wired P) : Pc P → Ev P → Ev P
  | .reading k, _ =>
    match (readRequest t codec (w.streams k)).1 with
    | .ok (header, req) => .frame header req
    | .error _ => .readFailed
  | _, e => e

def unread (t : Tables P) (codec : ProtocolCodec P) (w : Wired P) : Pc P → Nat → Reader UInt8
  | .reading k => Function.update w.streams k (readRequest t codec (w.streams k)).2
  | _ => w.streams

def wired (t : Tables P) (codec : ProtocolCodec P) (o : ServerOptions) :
    Program (Wired P) (Pc P) (Ev P) where
  step w pc e := (serverStep o w.server pc (heard t codec w pc e)).map fun next =>
    (⟨next.1, unread t codec w pc⟩, next.2)

def wiredStart (o : ServerOptions) (n : Nat) (streams : Nat → Reader UInt8) :
    Config (Wired P) (Pc P) :=
  ⟨⟨newServer o, streams⟩, (start o n).threads⟩

def Wired.forget (s : Config (Wired P) (Pc P)) : Config (Server P) (Pc P) :=
  ⟨s.shared.server, s.threads⟩

def actionsAt (t : Tables P) (codec : ProtocolCodec P) (w : Wired P) :
    Pc P → Ev P → List (Action P)
  | .reading k, _ => readActions t codec (w.streams k)
  | .rejectBody _ f, .send now =>
    [.respond f.header (newErrorResponse f.header.requestID
      (newError errorRequestEntityTooLarge "request body too large") now)]
  | .rejectBusy _ f, .send now =>
    [.respond f.header (newErrorResponse f.header.requestID
      (newError errorCodeUnavailable "too many concurrent requests") now)]
  | .spawn _ f, .step => [.handle f.header]
  | _, _ => []

def actions (t : Tables P) (codec : ProtocolCodec P) (s : Config (Wired P) (Pc P)) (i : Nat)
    (e : Ev P) : List (Action P) :=
  match s.threads[i]? with
  | none => []
  | some pc => actionsAt t codec s.shared pc e

/-- What the reader loops have done along a schedule. -/
def log (t : Tables P) (codec : ProtocolCodec P) (o : ServerOptions) (n : Nat)
    (streams : Nat → Reader UInt8) (tr : List (Nat × Ev P)) : List (Action P) :=
  observe (wired t codec o) (actions t codec) (wiredStart o n streams) tr

/-- The frame that the reader loop has read and not yet handed to a handler. -/
def pending : Pc P → Option (Frame P)
  | .rejectBody _ f | .acquire _ f | .rejectBusy _ f | .spawn _ f => some f
  | _ => none

section Steps
variable {t : Tables P} {codec : ProtocolCodec P} {o : ServerOptions}
  {s u : Config (Wired P) (Pc P)} {i : Nat} {e : Ev P}

theorem fire_wired (h : (wired t codec o).fire s i e = some u) :
    ∃ pc g' pc' new, s.threads[i]? = some pc ∧
      serverStep o s.shared.server pc (heard t codec s.shared pc e) = some (g', pc', new) ∧
      u = ⟨⟨g', unread t codec s.shared pc⟩, s.threads.set i pc' ++ new⟩ := by
  obtain ⟨pc, w', pc', new, hi, hs, rfl⟩ := fire_cases h
  obtain ⟨⟨g', q, new'⟩, hstep, heq⟩ := Option.map_eq_some_iff.mp hs
  cases heq
  exact ⟨pc, g', pc', new, hi, hstep, rfl⟩

theorem fire_forget (h : (wired t codec o).fire s i e = some u) :
    ∃ e', (server o).fire (Wired.forget s) i e' = some (Wired.forget u) := by
  obtain ⟨pc, g', pc', new, hi, hs, rfl⟩ := fire_wired h
  refine ⟨heard t codec s.shared pc e, ?_⟩
  simp [Program.fire, Wired.forget, hi, server, hs]

theorem run_server {n : Nat} {streams : Nat → Reader UInt8} {tr : List (Nat × Ev P)}
    (h : Run (wired t codec o) Any (wiredStart o n streams) tr s) :
    ∃ tr', Run (server o) Any (start o n) tr' (Wired.forget s) := by
  refine h.view Wired.forget fun s i e u hf => ?_
  obtain ⟨e', hf'⟩ := fire_forget hf
  exact ⟨[(i, e')], .step .refl trivial hf'⟩

end Steps

theorem enqueue_pending {g g' : Server P} {k : Nat} {c : Conn P} {f : Frame P}
    {resp : Response P} {next pc' : Pc P} {new : List (Pc P)}
    (h : enqueue g k c f resp next = some (g', pc', new)) :
    (pc' = next ∨ pending pc' = none) ∧ new = [] := by
  obtain ⟨ch, -, -, rfl, rfl⟩ | ⟨-, -, rfl, rfl⟩ := enqueue_cases h
  · exact ⟨Or.inl rfl, rfl⟩
  · exact ⟨Or.inr rfl, rfl⟩

/-- A frame is pending because it was, or because it was just read. -/
theorem serverStep_pending {o : ServerOptions} {g g' : Server P} {pc pc' : Pc P} {e : Ev P}
    {new : List (Pc P)} (h : serverStep o g pc e = some (g', pc', new)) :
    (∀ q ∈ new, pending q = none) ∧
      ∀ f, pending pc' = some f → pending pc = some f ∨
        ∃ k, pc = .reading k ∧ e = .frame f.header f.req := by
  rcases serverStep_cases h with ⟨-, hs⟩ | ⟨k, c, -, hc, hs⟩
  · obtain ⟨hconn, hnew⟩ := freeStep_conns hs
    have hnone : pending pc' = none := by cases pc' <;> simp [pending, Pc.conn] at hconn ⊢
    refine ⟨?_, fun f hf => absurd (hnone.symm.trans hf) (by simp)⟩
    rcases hnew with ⟨-, rfl⟩ | ⟨-, rfl⟩ <;> simp [pending]
  · rcases hs with hs | hs | hs
    · revert hs
      fun_cases readerStep o g c k pc e <;> intro hs <;> try contradiction
      all_goals first
        | (obtain ⟨rfl | hnone, rfl⟩ := enqueue_pending hs
           · exact ⟨by simp, fun f hf => Or.inl hf⟩
           · exact ⟨by simp, fun f hf => absurd (hnone.symm.trans hf) (by simp)⟩)
        | (cases hs
           refine ⟨by simp [pending], fun f hf => ?_⟩
           cases hf <;> first
             | exact Or.inl rfl
             | exact Or.inr ⟨_, rfl, rfl⟩)
    · revert hs
      fun_cases writerStep g c k pc e <;> intro hs <;> try contradiction
      all_goals
        cases hs
        exact ⟨by simp, fun f hf => by cases hf⟩
    · revert hs
      fun_cases handlerStep g c k pc e <;> intro hs <;> try contradiction
      all_goals first
        | (obtain ⟨rfl | hnone, rfl⟩ := enqueue_pending hs
           · exact ⟨by simp, fun f hf => by cases hf⟩
           · exact ⟨by simp, fun f hf => absurd (hnone.symm.trans hf) (by simp)⟩)
        | (cases hs
           exact ⟨by simp, fun f hf => by cases hf⟩)

/-! ## The limit -/

/-- What may be done for a frame whose body is too large: its header is accepted, and the
request of that ID is refused. -/
def Permitted : Action P → Prop
  | .announced _ => True
  | .respond h resp => resp.id = h.requestID ∧
      ∃ err, resp.error = some err ∧ err.code = errorRequestEntityTooLarge
  | _ => False

def Obeys (m : Int) (acts : List (Action P)) : Prop :=
  ∀ a ∈ acts, m < a.header.bodyLength.toNat → Permitted a

/-- Whatever was done, and whatever is pending, belongs to a header that was accepted;
and the body of every header that was accepted was allocated. -/
structure Traced (s : Config (Wired P) (Pc P)) (acts : List (Action P)) : Prop where
  done : ∀ a ∈ acts, .announced a.header ∈ acts
  pending : ∀ pc ∈ s.threads, ∀ f, pending pc = some f → .announced f.header ∈ acts
  allocated : ∀ h, .announced h ∈ acts → .alloc h ∈ acts

section Runs
variable {t : Tables P} {codec : ProtocolCodec P} {o : ServerOptions}

/-- The actions of a step belong to the frame that is pending, or to the one being read. -/
theorem actionsAt_cases (t : Tables P) (codec : ProtocolCodec P) (w : Wired P) (pc : Pc P)
    (e : Ev P) :
    (∃ k, pc = .reading k ∧ actionsAt t codec w pc e = readActions t codec (w.streams k)) ∨
    ∀ a ∈ actionsAt t codec w pc e, (∃ f, pending pc = some f ∧ a.header = f.header) ∧
      ∀ h, a ≠ .announced h := by
  fun_cases actionsAt t codec w pc e
  · exact Or.inl ⟨_, rfl, rfl⟩
  all_goals
    refine Or.inr fun a ha => ?_
    simp only [List.mem_singleton, List.not_mem_nil] at ha
  all_goals
    subst ha
    exact ⟨⟨_, rfl, rfl⟩, by simp⟩

theorem heard_frame {w : Wired P} {k : Nat} {e : Ev P} {header : Header} {req : Request P}
    (h : heard t codec w (.reading k) e = .frame header req) :
    .announced header ∈ readActions t codec (w.streams k) := by
  simp only [heard] at h
  split at h
  · rename_i header' req' hres
    cases h
    exact readRequest_announced (Prod.ext hres rfl)
  · cases h

theorem Traced.fire {s u : Config (Wired P) (Pc P)} {i : Nat} {e : Ev P} {acts : List (Action P)}
    (hT : Traced s acts) (h : (wired t codec o).fire s i e = some u) :
    Traced u (acts ++ actions t codec s i e) := by
  obtain ⟨pc, g', pc', new, hi, hs, rfl⟩ := fire_wired h
  obtain ⟨hnew, hpend⟩ := serverStep_pending hs
  have hacts : actions t codec s i e = actionsAt t codec s.shared pc e := by simp [actions, hi]
  have hmem := List.mem_of_getElem? hi
  rw [hacts]
  -- a read brings a header of its own; every other step acts on the pending frame
  have hframe : ∀ f, BodyLimit.pending pc' = some f →
      .announced f.header ∈ acts ++ actionsAt t codec s.shared pc e := by
    intro f hf
    rw [List.mem_append]
    rcases hpend f hf with hf | ⟨k, rfl, hframe⟩
    · exact Or.inl (hT.pending pc hmem f hf)
    · exact Or.inr (heard_frame hframe)
  refine ⟨fun a ha => ?_, fun q hq f hf => ?_, fun h hh => ?_⟩
  · rw [List.mem_append] at ha ⊢
    rcases ha with ha | ha
    · exact Or.inl (hT.done a ha)
    · rcases actionsAt_cases t codec s.shared pc e with
        ⟨k, -, hread⟩ | hothers
      · rw [hread] at ha ⊢
        exact Or.inr (readActions_header ha)
      · obtain ⟨⟨f, hf, hh⟩, -⟩ := hothers a ha
        rw [hh]
        exact Or.inl (hT.pending pc hmem f hf)
  · rcases List.mem_append.mp hq with hq | hq
    · rcases List.mem_or_eq_of_mem_set hq with hq | rfl
      · exact List.mem_append_left _ (hT.pending q hq f hf)
      · exact hframe f hf
    · rw [hnew q hq] at hf
      cases hf
  · rw [List.mem_append] at hh ⊢
    rcases hh with hh | hh
    · exact Or.inl (hT.allocated h hh)
    · rcases actionsAt_cases t codec s.shared pc e with
        ⟨k, -, hread⟩ | hothers
      · rw [hread] at hh ⊢
        exact Or.inr (announced_alloc hh)
      · exact absurd rfl ((hothers _ hh).2 h)

theorem wiredStart_traced (o : ServerOptions) (n : Nat) (streams : Nat → Reader UInt8) :
    Traced (wiredStart o n streams : Config (Wired P) (Pc P)) [] := by
  refine ⟨by simp, fun pc hpc f hf => ?_, by simp⟩
  simp only [wiredStart, start, List.mem_cons, List.mem_replicate] at hpc
  rcases hpc with rfl | rfl | rfl | ⟨-, rfl⟩ <;> cases hf

theorem run_traced {n : Nat} {streams : Nat → Reader UInt8} {tr : List (Nat × Ev P)}
    {s : Config (Wired P) (Pc P)}
    (h : Run (wired t codec o) Any (wiredStart o n streams) tr s) :
    Traced s (log t codec o n streams tr) :=
  run_observed h (wiredStart_traced o n streams) fun _ _ _ _ _ hT _ hf => hT.fire hf

/-- Whatever the peers send and however the goroutines are scheduled: nothing is done for
a body above the limit exactly when no header that was read announces one. -/
theorem obeys_iff {n : Nat} {streams : Nat → Reader UInt8} {tr : List (Nat × Ev P)}
    {s : Config (Wired P) (Pc P)}
    (h : Run (wired t codec o) Any (wiredStart o n streams) tr s) :
    Obeys o.maxRequestBodySize (log t codec o n streams tr) ↔
      ∀ header, .announced header ∈ log t codec o n streams tr →
        (header.bodyLength.toNat : Int) ≤ o.maxRequestBodySize := by
  have hT := run_traced h
  constructor
  · intro hobeys header hann
    by_contra hlarge
    exact hobeys (.alloc header) (hT.allocated header hann) (not_le.mp hlarge)
  · intro hsmall a ha hlarge
    exact absurd (hsmall a.header (hT.done a ha)) (not_le.mpr hlarge)

end Runs

/-! ## A body above the limit -/

open Codec.Payloads (Payload Marshal)
open Codec.Bodies (jsonCodec protobufCodec zeroText)

/-- No payloads are marshalled below. -/
def noMarshal : Marshal Unit Unit where
  json _ := .error (.foreign "json: unsupported type")
  proto _ := .error (.foreign "proto: invalid message")
  typeName _ := "struct"

def zeroTables : Tables (Payload Unit Unit) :=
  ⟨jsonCodec default noMarshal, protobufCodec default noMarshal, noneCompressor⟩

def zeroCodec : ProtocolCodec (Payload Unit Unit) :=
  newProtocolCodec zeroTables codecTypeJSON compressTypeNone

/-- The header of a request without contents. -/
def zeroHeader (requestID : UInt64) : Header :=
  newHeader msgTypeRequest codecTypeJSON requestID (UInt32.ofNat zeroText.length)

/-- The first connection carries that request. -/
def oneFrame (requestID : UInt64) : Nat → Reader UInt8
  | 0 => [encodeHeader (zeroHeader requestID), zeroText]
  | _ => []

def limitedTo (bytes : Int) : ServerOptions := ⟨0, bytes, 0⟩

/-- The server accepts a connection and its reader loop comes to the first frame. -/
def toFirstFrame : List (Nat × Ev (Payload Unit Unit)) :=
  [(2, .accepted), (2, .step), (2, .step), (3, .setupOk), (3, .step), (3, .step)]

/-- The body just fits. -/
theorem obeys_iff_fits : Obeys (limitedTo 33).maxRequestBodySize
    (log zeroTables zeroCodec (limitedTo 33) 0 (oneFrame 7)
      (toFirstFrame ++ [(3, .step), (3, .step)])) := by
  rw [obeys_iff (run_exec (by decide))]
  have hlog : log zeroTables zeroCodec (limitedTo 33) 0 (oneFrame 7)
      (toFirstFrame ++ [(3, .step), (3, .step)]) =
      [.announced (zeroHeader 7), .alloc (zeroHeader 7),
        .decompress (zeroHeader 7) zeroText, .decode (zeroHeader 7) zeroText,
        .handle (zeroHeader 7)] := rfl
  intro header hann
  simp only [hlog, List.mem_cons, Action.announced.injEq, reduceCtorEq, List.not_mem_nil,
    or_false] at hann
  subst hann
  decide

/-- The body is allocated, decompressed and decoded before the limit is looked at, and the
refused request reaches the handler. -/
theorem tooLarge_log : log zeroTables zeroCodec (limitedTo 32) 0 (oneFrame 7)
    (toFirstFrame ++ [(3, .send 0), (3, .step), (3, .step)]) =
    [.announced (zeroHeader 7), .alloc (zeroHeader 7),
      .decompress (zeroHeader 7) zeroText, .decode (zeroHeader 7) zeroText,
      .respond (zeroHeader 7) (newErrorResponse 7
        (newError errorRequestEntityTooLarge "request body too large") 0),
      .handle (zeroHeader 7)] := rfl

theorem large_body_handled :
    ¬ ∀ (P : Type) (t : Tables P) (codec : ProtocolCodec P) (o : ServerOptions) (n : Nat)
      (streams : Nat → Reader UInt8) (tr : List (Nat × Ev P)) (s : Config (Wired P) (Pc P)),
      0 < o.maxRequestBodySize → Run (wired t codec o) Any (wiredStart o n streams) tr s →
      Obeys o.maxRequestBodySize (log t codec o n streams tr) := by
  intro hall
  have hobeys := hall _ zeroTables zeroCodec (limitedTo 32) 0 (oneFrame 7)
    (toFirstFrame ++ [(3, .send 0), (3, .step), (3, .step)]) _ (by decide)
    (run_exec (by decide))
  rw [tooLarge_log] at hobeys
  exact hobeys (.handle (zeroHeader 7)) (by simp) (by decide)

end RpcInGo.Tcp.BodyLimit
