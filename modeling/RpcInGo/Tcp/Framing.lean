import RpcInGo.Codec.Registry

/-!
Frames of `pkg/transport/tcp/codec.go`: what `ProtocolCodec` writes for a request
or a response, and what `DecodeFromReader` reads back from a stream that arrives
in pieces.

* `writeFull_wrote`: what `writeFull` leaves on a connection that takes frames in pieces;
* `decodeFromReader_frame`: one frame;
* `stream_delivered`: any number of frames, from a stream that may be cut.
-/

namespace RpcInGo.Tcp.Framing
open Lib.ByteStream Protocol.Message Protocol.Header Codec.Registry

variable {P : Type}

structure ProtocolCodec (P : Type) where
  codec : BodyCodec P
  compressor : Compressor
  codecType : CodecType
  compressType : CompressType

def newProtocolCodec (t : Tables P) (codecType : CodecType) (compressType : CompressType) :
    ProtocolCodec P :=
  ⟨t.getOrDefault codecType, t.getCompressorOrNone compressType, codecType, compressType⟩

/-- The header of a frame with a body of the given length. -/
def frameHeader (pc : ProtocolCodec P) (body : Body P) (length : Nat) : Header :=
  { newHeader body.msgType pc.codecType body.id (UInt32.ofNat length) with
    compress := pc.compressType }

/-- `EncodeRequest` and `EncodeResponse`, which differ in the name `kind` that
their errors give the message. -/
def encodeFrame (pc : ProtocolCodec P) (kind : String) (body : Body P) : Except GoError Bytes :=
  match pc.codec.encode body with
  | .error err => .error (.wrapf ("encode " ++ kind ++ " error: %w") [] err)
  | .ok data =>
    match pc.compressor.compress data with
    | .error err => .error (.wrapf ("compress " ++ kind ++ " error: %w") [] err)
    | .ok packed => .ok (encodeHeader (frameHeader pc body packed.length) ++ packed)

def encodeRequest (pc : ProtocolCodec P) (req : Request P) : Except GoError Bytes :=
  encodeFrame pc "request" (.request req)

def encodeResponse (pc : ProtocolCodec P) (resp : Response P) : Except GoError Bytes :=
  encodeFrame pc "response" (.response resp)

def encode (pc : ProtocolCodec P) : Body P → Except GoError Bytes
  | .request req => encodeRequest pc req
  | .response resp => encodeResponse pc resp

/-! ## Writing -/

/-- What `Write` answers: how many of the bytes it took, and its error. -/
structure Wrote where
  n : Nat
  err : Option GoError
  deriving DecidableEq, Repr

/-- `writeFull`, with the answers of the calls of `Write`: the bytes that were taken and the
error. Without an answer the call is not over. -/
def writeFull : Bytes → List Wrote → Option (Bytes × Option GoError)
  | [], _ => some ([], none)
  | _ :: _, [] => none
  | b :: bs, a :: answers =>
    match a.err with
    | some err => some ((b :: bs).take a.n, some err)
    | none => (writeFull ((b :: bs).drop a.n) answers).map fun r => ((b :: bs).take a.n ++ r.1, r.2)

def writeResponse (pc : ProtocolCodec P) (resp : Response P) (answers : List Wrote) :
    Option (Bytes × Option GoError) :=
  match encodeResponse pc resp with
  | .error err => some ([], some (.wrapf "encode response error: %w" [] err))
  | .ok data =>
    (writeFull data answers).map fun r => (r.1, r.2.map (.wrapf "write response error: %w" []))

/-- The frame of a response, if it has one. -/
def frameOf (pc : ProtocolCodec P) (resp : Response P) : Bytes :=
  (encodeResponse pc resp).toOption.getD []

def readError : ReadError → GoError
  | .eof => .foreign "EOF"
  | .unexpectedEOF => .foreign "unexpected EOF"

/-- `getCompressorByType`. -/
def getCompressorByType (t : Tables P) (compressType : CompressType) : Compressor :=
  match t.getCompressor compressType with
  | some compressor => compressor
  | none => noneCompressor

/-- `DecodeFromReader` uses nothing of the receiving `ProtocolCodec`. -/
def decodeFromReader (t : Tables P) (_ : ProtocolCodec P) (r : Reader UInt8) :
    Except GoError (Header × Bytes) × Reader UInt8 :=
  match readFull headerLength r with
  | (.error e, r) => (.error (.wrapf "read header error: %w" [] (readError e)), r)
  | (.ok headerBytes, r) =>
    match decodeHeader headerBytes with
    | .error err => (.error (.wrapf "decode header error: %w" [] err), r)
    | .ok header =>
      match readFull header.bodyLength.toNat r with
      | (.error e, r) => (.error (.wrapf "read body error: %w" [] (readError e)), r)
      | (.ok bodyBytes, r) =>
        match (getCompressorByType t header.compress).decompress bodyBytes with
        | .error err => (.error (.wrapf "decompress body error: %w" [] err), r)
        | .ok data => (.ok (header, data), r)

/-- What `n` successive calls return, and the reader after them. -/
def decodes (t : Tables P) (pc : ProtocolCodec P) :
    Nat → Reader UInt8 → List (Except GoError (Header × Bytes)) × Reader UInt8
  | 0, r => ([], r)
  | n + 1, r =>
    ((decodeFromReader t pc r).1 :: (decodes t pc n (decodeFromReader t pc r).2).1,
      (decodes t pc n (decodeFromReader t pc r).2).2)

/-! ## One frame -/

theorem encode_ok {pc : ProtocolCodec P} {body : Body P} {frame : Bytes}
    (h : encode pc body = .ok frame) : ∃ data packed, pc.codec.encode body = .ok data ∧
      pc.compressor.compress data = .ok packed ∧
      frame = encodeHeader (frameHeader pc body packed.length) ++ packed := by
  have hframe : ∃ kind, encodeFrame pc kind body = .ok frame := by
    cases body with
    | request req => exact ⟨"request", h⟩
    | response resp => exact ⟨"response", h⟩
  obtain ⟨kind, hframe⟩ := hframe
  unfold encodeFrame at hframe
  split at hframe
  · cases hframe
  · rename_i data hdata
    split at hframe
    · cases hframe
    · rename_i packed hpacked
      cases hframe
      exact ⟨data, packed, hdata, hpacked, rfl⟩

/-- A message with the bytes that some `ProtocolCodec` has made of it. -/
structure Sent (P : Type) where
  codecType : CodecType
  compressType : CompressType
  body : Body P
  frame : Bytes

def Sent.pc (t : Tables P) (s : Sent P) : ProtocolCodec P :=
  newProtocolCodec t s.codecType s.compressType

/-- The frame is what the codec writes, and its body length fits the header. -/
structure Sent.Framed (t : Tables P) (s : Sent P) : Prop where
  encoded : encode (s.pc t) s.body = .ok s.frame
  short : s.frame.length < headerLength + 2 ^ 32

/-- The call has returned the message that was sent. -/
def Delivers (t : Tables P) (s : Sent P) (result : Except GoError (Header × Bytes)) : Prop :=
  ∃ header data, result = .ok (header, data) ∧ header.msgType = s.body.msgType ∧
    header.codec = s.codecType ∧ header.compress = s.compressType ∧
    header.requestID = s.body.id ∧ (s.pc t).codec.encode s.body = .ok data

section Frame
variable {t : Tables P} {s : Sent P} {r : Reader UInt8}

/-- How a frame is laid out. -/
theorem Sent.Framed.layout (hgzip : t.gzip.Lossless) (h : s.Framed t) :
    ∃ header packed data, s.frame = encodeHeader header ++ packed ∧
      decodeHeader (encodeHeader header) = .ok header ∧ header.bodyLength.toNat = packed.length ∧
      (getCompressorByType t header.compress).decompress packed = .ok data ∧
      Delivers t s (.ok (header, data)) := by
  obtain ⟨data, packed, hdata, hpacked, hframe⟩ := encode_ok h.encoded
  have hshort : packed.length < 2 ^ 32 := by
    have hlen := h.short
    rw [hframe, List.length_append, encodeHeader_length] at hlen
    omega
  refine ⟨_, packed, data, hframe, ?_, ?_, ?_, _, data, rfl, rfl, rfl, rfl, rfl, hdata⟩
  · have hdec := decodeHeader_encodeHeader (h := frameHeader (s.pc t) s.body packed.length)
      rfl rfl []
    rwa [List.append_nil] at hdec
  · show (UInt32.ofNat packed.length).toNat = packed.length
    exact UInt32.toNat_ofNat_of_lt hshort
  · exact getCompressorOrNone_lossless hgzip s.compressType data packed hpacked

theorem decodeFromReader_frame (hgzip : t.gzip.Lossless) (h : s.Framed t) (pc : ProtocolCodec P)
    {rest : Bytes} (hr : r.flatten = s.frame ++ rest) :
    Delivers t s (decodeFromReader t pc r).1 ∧ (decodeFromReader t pc r).2.flatten = rest := by
  obtain ⟨header, packed, data, hframe, hdec, hlen, hdecomp, hdel⟩ := h.layout hgzip
  have hheader := encodeHeader_length header
  rw [hframe, List.append_assoc] at hr
  obtain ⟨r₁, hread₁, hr₁⟩ := readFull_ok (n := headerLength) (r := r) (by
    rw [hr, List.length_append]
    omega)
  rw [hr, List.take_left' hheader] at hread₁
  rw [hr, List.drop_left' hheader] at hr₁
  obtain ⟨r₂, hread₂, hr₂⟩ := readFull_ok (n := header.bodyLength.toNat) (r := r₁) (by
    rw [hr₁, List.length_append]
    omega)
  rw [hr₁, List.take_left' hlen.symm] at hread₂
  rw [hr₁, List.drop_left' hlen.symm] at hr₂
  have hres : decodeFromReader t pc r = (.ok (header, data), r₂) := by
    simp only [decodeFromReader, hread₁, hdec, hread₂, hdecomp]
  rw [hres]
  exact ⟨hdel, hr₂⟩

/-- A frame that is cut short yields an error, and nothing is left. -/
theorem decodeFromReader_cut (hgzip : t.gzip.Lossless) (h : s.Framed t) (pc : ProtocolCodec P)
    {k : Nat} (hk : k < s.frame.length) (hr : r.flatten = s.frame.take k) :
    ∃ err, decodeFromReader t pc r = (.error err, []) := by
  obtain ⟨header, packed, data, hframe, hdec, hlen, -, -⟩ := h.layout hgzip
  have hheader := encodeHeader_length header
  have hrlen : r.flatten.length = k := by
    rw [hr, List.length_take]
    omega
  by_cases hshort : k < headerLength
  · obtain ⟨e, hread⟩ := readFull_short (n := headerLength) (r := r) (by omega)
    exact ⟨.wrapf "read header error: %w" [] (readError e), by simp only [decodeFromReader, hread]⟩
  · obtain ⟨r₁, hread₁, hr₁⟩ := readFull_ok (n := headerLength) (r := r) (by omega)
    have htake : r.flatten.take headerLength = encodeHeader header := by
      rw [hr, List.take_take, Nat.min_eq_left (Nat.not_lt.mp hshort), hframe,
        List.take_left' hheader]
    rw [htake] at hread₁
    have hleft : r₁.flatten.length < header.bodyLength.toNat := by
      rw [hframe, List.length_append, hheader] at hk
      rw [hr₁, List.length_drop, hrlen]
      omega
    obtain ⟨e, hread₂⟩ := readFull_short hleft
    exact ⟨.wrapf "read body error: %w" [] (readError e),
      by simp only [decodeFromReader, hread₁, hdec, hread₂]⟩

theorem decodeFromReader_empty (t : Tables P) (pc : ProtocolCodec P) (hr : r.flatten = []) :
    ∃ err, decodeFromReader t pc r = (.error err, []) := by
  obtain ⟨e, hread⟩ := readFull_short (n := headerLength) (r := r) (by rw [hr]; decide)
  exact ⟨.wrapf "read header error: %w" [] (readError e), by simp only [decodeFromReader, hread]⟩

end Frame

/-! ## Streams of frames -/

/-- How many frames lie wholly within the first `k` bytes. -/
def contained : List (Sent P) → Nat → Nat
  | [], _ => 0
  | s :: rest, k => if s.frame.length ≤ k then contained rest (k - s.frame.length) + 1 else 0

def stream (sent : List (Sent P)) : Bytes := (sent.map (·.frame)).flatten

theorem stream_cons (s : Sent P) (rest : List (Sent P)) :
    stream (s :: rest) = s.frame ++ stream rest := rfl

theorem stream_take {s : Sent P} (rest : List (Sent P)) {k : Nat} (hk : s.frame.length ≤ k) :
    (stream (s :: rest)).take k = s.frame ++ (stream rest).take (k - s.frame.length) := by
  rw [stream_cons, List.take_append, List.take_of_length_le hk]

theorem contained_all (sent : List (Sent P)) {k : Nat} (hk : (stream sent).length ≤ k) :
    contained sent k = sent.length := by
  induction sent generalizing k with
  | nil => rfl
  | cons s rest ih =>
    rw [stream_cons, List.length_append] at hk
    rw [contained, if_pos (by omega), ih (by omega), List.length_cons]

def IsError (result : Except GoError (Header × Bytes)) : Prop := ∃ err, result = .error err

/-- An exhausted reader yields errors only. -/
theorem decodes_empty (t : Tables P) (pc : ProtocolCodec P) (n : Nat) {r : Reader UInt8}
    (hr : r.flatten = []) : ∀ x ∈ (decodes t pc n r).1, IsError x := by
  induction n generalizing r with
  | zero => nofun
  | succ n ih =>
    obtain ⟨err, hdec⟩ := decodeFromReader_empty t pc hr
    simp only [decodes, hdec, List.forall_mem_cons]
    exact ⟨⟨err, rfl⟩, ih rfl⟩

section Streams
variable {t : Tables P} (hgzip : t.gzip.Lossless) (pc : ProtocolCodec P)
include hgzip

/-- The frames that lie wholly within what arrives are delivered one by one, each
call taking exactly its frame. -/
theorem decodes_contained {sent : List (Sent P)} (hsent : ∀ s ∈ sent, s.Framed t) {k : Nat}
    {r : Reader UInt8} (hr : r.flatten = (stream sent).take k) {n : Nat}
    (hn : n ≤ contained sent k) :
    List.Forall₂ (Delivers t) (sent.take n) (decodes t pc n r).1 ∧
      (decodes t pc n r).2.flatten = r.flatten.drop (stream (sent.take n)).length := by
  induction sent generalizing k r n with
  | nil =>
    have hz : n = 0 := Nat.le_zero.mp hn
    subst hz
    exact ⟨.nil, rfl⟩
  | cons s rest ih =>
    cases n with
    | zero => exact ⟨.nil, rfl⟩
    | succ n =>
      obtain ⟨hs, hrest⟩ := List.forall_mem_cons.mp hsent
      unfold contained at hn
      split at hn
      · rename_i hle
        rw [stream_take rest hle] at hr
        obtain ⟨hdel, hleft⟩ := decodeFromReader_frame hgzip hs pc hr
        obtain ⟨hall, hend⟩ := ih hrest hleft (Nat.le_of_succ_le_succ hn)
        refine ⟨.cons hdel hall, ?_⟩
        show (decodes t pc n (decodeFromReader t pc r).2).2.flatten = _
        rw [hend, hleft, hr, List.take_succ_cons, stream_cons, List.length_append,
          ← List.drop_drop, List.drop_left]
      · exact absurd hn (Nat.not_succ_le_zero n)

/-- After them every call returns an error. -/
theorem decodes_beyond {sent : List (Sent P)} (hsent : ∀ s ∈ sent, s.Framed t) {k : Nat}
    {r : Reader UInt8} (hr : r.flatten = (stream sent).take k) (n : Nat) :
    ∀ x ∈ (decodes t pc n r).1.drop (contained sent k), IsError x := by
  induction sent generalizing k r n with
  | nil =>
    have hnil : r.flatten = [] := by simpa [stream] using hr
    exact decodes_empty t pc n hnil
  | cons s rest ih =>
    obtain ⟨hs, hrest⟩ := List.forall_mem_cons.mp hsent
    cases n with
    | zero => simp [decodes]
    | succ n =>
      by_cases hle : s.frame.length ≤ k
      · rw [stream_take rest hle] at hr
        obtain ⟨-, hleft⟩ := decodeFromReader_frame hgzip hs pc hr
        rw [contained, if_pos hle]
        exact ih hrest hleft n
      · rw [stream_cons, List.take_append_of_le_length (Nat.le_of_not_le hle)] at hr
        obtain ⟨err, hdec⟩ := decodeFromReader_cut hgzip hs pc (Nat.not_le.mp hle) hr
        rw [contained, if_neg hle, List.drop_zero]
        simp only [decodes, hdec, List.forall_mem_cons]
        exact ⟨⟨err, rfl⟩, decodes_empty t pc n rfl⟩

/-- However the bytes are split into reads and wherever they are cut: as many calls
as there are whole frames return their messages in order, each call taking its frame
and no more, and every later call fails. An uncut stream holds all of them. -/
theorem stream_delivered {sent : List (Sent P)} (hsent : ∀ s ∈ sent, s.Framed t) {k : Nat}
    {r : Reader UInt8} (hr : r.flatten = (stream sent).take k) :
    (∀ n ≤ contained sent k, List.Forall₂ (Delivers t) (sent.take n) (decodes t pc n r).1 ∧
      (decodes t pc n r).2.flatten = r.flatten.drop (stream (sent.take n)).length) ∧
    (∀ n, ∀ x ∈ (decodes t pc n r).1.drop (contained sent k), IsError x) ∧
    ((stream sent).length ≤ k → contained sent k = sent.length) :=
  ⟨fun _ hn => decodes_contained hgzip pc hsent hr hn,
    fun n => decodes_beyond hgzip pc hsent hr n, contained_all sent⟩

end Streams

/-- Encodes the id of a message in one byte. -/
def idCodec : BodyCodec Unit where
  encode body := .ok [body.id.toUInt8]
  decodeRequest _ := .error (.foreign "EOF")
  decodeResponse _ := .error (.foreign "EOF")

def idTables : Tables Unit := ⟨idCodec, idCodec, noneCompressor⟩

def sentBy (codecType : CodecType) (compressType : CompressType) (body : Body Unit) : Sent Unit :=
  ⟨codecType, compressType, body,
    encodeHeader (frameHeader (newProtocolCodec idTables codecType compressType) body 1) ++
      [body.id.toUInt8]⟩

/-- A request with gzip and a response with two unregistered bytes. -/
def pingPong : List (Sent Unit) :=
  [sentBy codecTypeJSON compressTypeGzip
      (.request { newRequest "echo" "Ping" none 0 with id := 7 }),
    sentBy codecTypeMsgPack compressTypeSnappy (.response (newErrorResponse 7 (newError 5 "") 0))]

theorem stream_delivered_pingPong : contained pingPong 30 = 1 ∧
    (∀ n ≤ contained pingPong 30, List.Forall₂ (Delivers idTables) (pingPong.take n)
        (decodes idTables (newProtocolCodec idTables 0 0) n
          (((stream pingPong).take 30).map ([·]))).1 ∧
      (decodes idTables (newProtocolCodec idTables 0 0) n
        (((stream pingPong).take 30).map ([·]))).2.flatten =
          (((stream pingPong).take 30).map ([·])).flatten.drop (stream (pingPong.take n)).length) ∧
    (∀ n, ∀ x ∈ (decodes idTables (newProtocolCodec idTables 0 0) n
      (((stream pingPong).take 30).map ([·]))).1.drop (contained pingPong 30), IsError x) ∧
    ((stream pingPong).length ≤ 30 → contained pingPong 30 = pingPong.length) := by
  have hsent : ∀ s ∈ pingPong, s.Framed idTables := by
    simp only [pingPong, List.forall_mem_cons]
    exact ⟨⟨rfl, by decide⟩, ⟨rfl, by decide⟩, List.forall_mem_nil _⟩
  exact ⟨by decide, stream_delivered noneCompressor_lossless _ hsent (by decide)⟩

end RpcInGo.Tcp.Framing
