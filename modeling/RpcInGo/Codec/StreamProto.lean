import RpcInGo.Client.CallTyped
import RpcInGo.Lib.LengthPrefix

/-!
The streaming side of `ProtobufCodec`: `EncodeToWriter` puts four bytes of length in front of what
`Encode` returns, for any length, and `DecodeFromReader` refuses lengths above 100 MiB.

* `decodeAll_frames`: messages up to that size are read back one after the other, however the
  stream is cut, and nothing is left of it;
* `stream_roundtrips_iff`: the messages of a set are read back in all streams of them exactly if
  none of them is larger;
* `largest_refused`: the encoder accepts a byte more.
-/

namespace RpcInGo.Codec.StreamProto
open Lib.ByteStream Lib.LengthPrefix Protocol.Message Registry Payloads Bodies Client.CallTyped

variable {M V : Type}

/-- A value to encode, by its dynamic type. -/
inductive Value (M V : Type)
  | message (m : M)
  | body (b : Body (Payload M V))
  | unsupported (typeName : String)

/-- A value to decode into, with what it holds. -/
inductive Target (M V : Type)
  | message (m : M)
  | request (req : Request (Payload M V))
  | response (resp : Response (Payload M V))
  | unsupported (typeName : String)

/-- 100 MiB. -/
def maxMessageSize : Nat := 100 * 1024 * 1024

/-- The text of an error of `io.ReadFull`. -/
def readError : ReadError → GoError
  | .eof => .foreign "EOF"
  | .unexpectedEOF => .foreign "unexpected EOF"

section Codec
variable (f : Formats) (mar : Marshal M V) (um : Unmarshal M)

/-- `ProtobufCodec.Encode`. -/
def encode : Value M V → Except GoError Bytes
  | .message m => mar.proto m
  | .body b => protobufEncode f mar b
  | .unsupported typeName =>
    .error (.errorf "protobuf codec: unsupported type %T" [.str typeName])

/-- `ProtobufCodec.Decode`: the error, and the target afterwards. -/
def decode (data : Bytes) : Target M V → Option GoError × Target M V
  | .message m => ((um.proto data m).1, .message (um.proto data m).2)
  | .request req =>
    match protobufDecodeRequest f data req with
    | .error err => (some err, .request req)
    | .ok req => (none, .request req)
  | .response resp =>
    match protobufDecodeResponse f data resp with
    | .error err => (some err, .response resp)
    | .ok resp => (none, .response resp)
  | .unsupported typeName =>
    (some (.errorf "protobuf codec: undupported type %T" [.str typeName]), .unsupported typeName)

/-- What is on the stream afterwards, and the error. `lengthErr` and `dataErr` are what the two
calls of `Write` return, of which a failed one leaves the stream as it was. -/
def encodeToWriter (lengthErr dataErr : Option GoError) (written : Bytes) (v : Value M V) :
    Bytes × Option GoError :=
  match encode f mar v with
  | .error err => (written, some (.wrapf "encode failed: %w" [] err))
  | .ok data =>
    match lengthErr with
    | some err => (written, some (.wrapf "write length failed: %w" [] err))
    | none =>
      match dataErr with
      | some err => (written ++ putBE 4 data.length, some (.wrapf "write data failed: %w" [] err))
      | none => (written ++ putBE 4 data.length ++ data, none)

def decodeFromReader (r : Reader UInt8) (t : Target M V) :
    (Option GoError × Target M V) × Reader UInt8 :=
  match readFrame 4 maxMessageSize r with
  | (.error (.readLength e), r) =>
    ((some (.wrapf "read length failed: %w" [] (readError e)), t), r)
  | (.error (.tooLarge length), r) =>
    ((some (.errorf "message too large: %d bytes" [.int length]), t), r)
  | (.error (.readData e), r) => ((some (.wrapf "read data failed: %w" [] (readError e)), t), r)
  | (.ok data, r) => (decode f um data t, r)

/-- `EncodeToWriter` for one message after the other, as long as there is no error. -/
def encodeAll (written : Bytes) : List (Value M V) → Bytes × Option GoError
  | [] => (written, none)
  | v :: vs =>
    match encodeToWriter f mar none none written v with
    | (written, none) => encodeAll written vs
    | (written, some err) => (written, some err)

/-- `DecodeFromReader` for one target after the other. -/
def decodeAll (r : Reader UInt8) : List (Target M V) →
    List (Option GoError × Target M V) × Reader UInt8
  | [] => ([], r)
  | t :: ts =>
    let decoded := decodeFromReader f um r t
    let rest := decodeAll decoded.2 ts
    (decoded.1 :: rest.1, rest.2)

/-- What `Decode` makes of the messages' own bytes. -/
def decoded : List (Value M V) → List (Target M V) → List (Option GoError × Target M V)
  | v :: vs, t :: ts =>
    match encode f mar v with
    | .ok data => decode f um data t :: decoded vs ts
    | .error _ => []
  | _, _ => []

/-- Messages of the set, written without error, are read back in order, whatever is decoded into
and however the stream is cut, and nothing more is read. -/
def RoundTrips (s : Set (Value M V)) : Prop :=
  ∀ (vs : List (Value M V)) (ts : List (Target M V)) (stream rest : Bytes) (r : Reader UInt8),
    (∀ v ∈ vs, v ∈ s) → vs.length = ts.length → encodeAll f mar [] vs = (stream, none) →
    r.flatten = stream ++ rest →
    (decodeAll f um r ts).1 = decoded f mar um vs ts ∧ (decodeAll f um r ts).2.flatten = rest

end Codec

section Streams
variable {f : Formats} {mar : Marshal M V} {um : Unmarshal M}

theorem encodeToWriter_ok {written stream : Bytes} {v : Value M V}
    (h : encodeToWriter f mar none none written v = (stream, none)) :
    ∃ data, encode f mar v = .ok data ∧ stream = written ++ frame 4 data := by
  unfold encodeToWriter at h
  split at h
  · cases h
  · rename_i data henc
    cases h
    exact ⟨data, henc, by rw [frame, List.append_assoc]⟩

/-- A stream that was written without error holds the bytes of every message in its frame. -/
theorem encodeAll_ok {written stream : Bytes} {vs : List (Value M V)}
    (h : encodeAll f mar written vs = (stream, none)) :
    ∃ datas, List.Forall₂ (fun v data => encode f mar v = .ok data) vs datas ∧
      stream = written ++ (datas.map (frame 4)).flatten := by
  induction vs generalizing written with
  | nil =>
    cases h
    exact ⟨[], .nil, by simp⟩
  | cons v vs ih =>
    rw [encodeAll] at h
    split at h
    · rename_i written' hv
      obtain ⟨data, henc, rfl⟩ := encodeToWriter_ok hv
      obtain ⟨datas, hdatas, rfl⟩ := ih h
      exact ⟨data :: datas, .cons henc hdatas, by simp⟩
    · cases h

theorem decodeFromReader_frame {data rest : Bytes} {r : Reader UInt8} (t : Target M V)
    (hsize : data.length ≤ maxMessageSize) (hr : r.flatten = frame 4 data ++ rest) :
    ∃ r', decodeFromReader f um r t = (decode f um data t, r') ∧ r'.flatten = rest := by
  obtain ⟨r', hread, hleft⟩ := readFrame_frame (by decide) hsize hr
  exact ⟨r', by rw [decodeFromReader, hread], hleft⟩

/-- Messages up to the size that the decoder accepts are read back. -/
theorem decodeAll_frames {vs : List (Value M V)} {datas : List Bytes} {ts : List (Target M V)}
    {rest : Bytes} {r : Reader UInt8}
    (hvs : List.Forall₂ (fun v data => encode f mar v = .ok data) vs datas)
    (hsize : ∀ data ∈ datas, data.length ≤ maxMessageSize) (hlen : vs.length = ts.length)
    (hr : r.flatten = (datas.map (frame 4)).flatten ++ rest) :
    (decodeAll f um r ts).1 = decoded f mar um vs ts ∧
      (decodeAll f um r ts).2.flatten = rest := by
  induction hvs generalizing ts r with
  | nil =>
    obtain rfl : ts = [] := List.length_eq_zero_iff.mp hlen.symm
    exact ⟨rfl, hr⟩
  | @cons v data vs datas henc _ ih =>
    cases ts with
    | nil => cases hlen
    | cons t ts =>
      rw [List.map_cons, List.flatten_cons, List.append_assoc] at hr
      obtain ⟨r', hdec, hleft⟩ : ∃ r', decodeFromReader f um r t = (decode f um data t, r') ∧ _ :=
        decodeFromReader_frame t (hsize data List.mem_cons_self) hr
      obtain ⟨hres, hrest⟩ := ih (fun d hd => hsize d (List.mem_cons_of_mem data hd))
        (Nat.succ.inj hlen) hleft
      rw [decodeAll, hdec, decoded, henc]
      exact ⟨congrArg _ hres, hrest⟩

/-- Behind a message that is too large something stays on the stream. -/
theorem decodeFromReader_overlong {data : Bytes} {r : Reader UInt8} (t : Target M V)
    (hsize : maxMessageSize < data.length) (hr : r.flatten = frame 4 data) :
    (decodeFromReader f um r t).2.flatten ≠ [] := by
  have hover := readFrame_overlong hsize hr
  unfold decodeFromReader
  generalize readFrame 4 maxMessageSize r = result at hover ⊢
  obtain ⟨(_ | _ | _) | data, r'⟩ := result <;> exact hover

theorem RoundTrips.size_le {s : Set (Value M V)} (h : RoundTrips f mar um s) {v : Value M V}
    (hv : v ∈ s) {data : Bytes} (henc : encode f mar v = .ok data) :
    data.length ≤ maxMessageSize := by
  by_contra hsize
  have hwritten : encodeAll f mar [] [v] = (frame 4 data, none) := by
    rw [encodeAll, encodeToWriter, henc]
    rfl
  have hleft := (h [v] [.unsupported ""] (frame 4 data) [] [frame 4 data] (by simpa using hv) rfl
    hwritten (by simp)).2
  have hr : List.flatten [frame 4 data] = frame 4 data := by simp
  exact decodeFromReader_overlong (.unsupported "") (Nat.lt_of_not_le hsize) hr hleft

/-- The decoder reads back what the encoder wrote exactly for messages of up to 100 MiB. -/
theorem stream_roundtrips_iff (f : Formats) (mar : Marshal M V) (um : Unmarshal M)
    (s : Set (Value M V)) :
    RoundTrips f mar um s ↔
      ∀ v ∈ s, ∀ data, encode f mar v = .ok data → data.length ≤ maxMessageSize := by
  constructor
  · exact fun h v hv data henc => h.size_le hv henc
  · intro hsize vs ts stream rest r hvs hlen hwritten hr
    obtain ⟨datas, hdatas, rfl⟩ := encodeAll_ok hwritten
    refine decodeAll_frames hdatas (fun data hdata => ?_) hlen (by simpa using hr)
    obtain ⟨i, hi, rfl⟩ := List.getElem_of_mem hdata
    have hi' : i < vs.length := hdatas.length_eq ▸ hi
    exact hsize vs[i] (hvs _ (List.getElem_mem hi')) _ (hdatas.get hi' hi)

end Streams

/-- Messages that are their own encoding. -/
def bytesMarshal : Marshal Bytes Empty where
  json _ := .error (.foreign "unsupported")
  proto := .ok
  typeName _ := ""

def bytesUnmarshal : Unmarshal Bytes where
  proto data _ := (none, data)
  json _ m := (some (.foreign "unsupported"), m)

/-- A message of 100 MiB and a byte is written but not read. -/
theorem largest_refused : ¬ RoundTrips default bytesMarshal bytesUnmarshal Set.univ := by
  intro h
  have hle : (List.replicate (maxMessageSize + 1) (0 : UInt8)).length ≤ maxMessageSize :=
    h.size_le (v := .message (List.replicate (maxMessageSize + 1) 0)) (Set.mem_univ _) rfl
  rw [List.length_replicate] at hle
  omega

end RpcInGo.Codec.StreamProto
