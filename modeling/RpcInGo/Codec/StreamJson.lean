import RpcInGo.Codec.Bodies
import RpcInGo.Lib.Base64

/-!
The streaming side of `JSONCodec`. `Encode` writes a struct with the serialized payload and its
codec; `EncodeToWriter` has `encoding/json` write the message itself, with the payload as a JSON
value and the codec as the caller left it. `Decode` expects the former.

* `decode_writeBody`: what `Decode` makes of the stream's bytes;
* `stream_interchangeable_iff`: they are as good as those of `Encode` exactly for no payload and
  no codec, for bytes with a codec, and for other values whose JSON happens to be read as the bytes
  that their codec makes of them;
* `object_refused`: an object is written but not read.
-/

namespace RpcInGo.Codec.StreamJson
open Lib Lib.ByteStream Protocol.Message Registry Payloads Bodies

/-! ## JSON values -/

/-- Numbers are kept as they are written, strings without their escapes. -/
inductive Json
  | null
  | bool (b : Bool)
  | number (literal : List Char)
  | string (s : List Char)
  | array (items : List Json)
  | object (fields : List (List Char × Json))

/-- `json.Unmarshal` into a zero `uint8`. -/
def Json.toByte : Json → Option UInt8
  | .null => some 0
  | .number literal =>
    if literal ≠ [] ∧ literal.all Char.isDigit ∧ Nat.ofDigitChars 10 literal 0 ≤ 255 then
      some (UInt8.ofNat (Nat.ofDigitChars 10 literal 0))
    else none
  | _ => none

/-- `json.Unmarshal` into a nil `[]byte`. -/
def Json.toBytes : Json → Option Bytes
  | .null => some []
  | .string s => Base64.decode s
  | .array items => items.mapM Json.toByte
  | _ => none

variable {M V : Type}

/-! ## The encoder -/

/-- A field that is missing reads as null. -/
def payloadBytes (payload : Option Json) : Option Bytes := (payload.getD .null).toBytes

/-- The fields of a message with its payload as a JSON value are those of the wire struct, under
the same names. -/
def wireOfRequest (req : Request Json) (args : Bytes) : WireRequest :=
  ⟨req.id, req.service, req.method, req.serviceVersion, args, req.timeout, req.isStream,
    req.metadata, req.createdAt, req.argsCodec⟩

def wireOfResponse (resp : Response Json) (data : Bytes) : WireResponse Error :=
  ⟨resp.id, data, resp.error, resp.metadata, resp.serverTime, resp.dataCodec⟩

/-- What `Decode` reads from `data` is the struct with the bytes of the payload; without such
bytes it is an error. -/
def ReadsAs {W : Type} {omitEmpty : W → W} (format : WireFormat W omitEmpty) (data : Bytes)
    (payload : Option Json) (wire : Bytes → W) : Prop :=
  match payloadBytes payload with
  | some b => format.unmarshal data = .ok (omitEmpty (wire b))
  | none => ∃ err, format.unmarshal data = .error err

/-- What is used of `encoding/json` beyond the wire structs: the value that `json.Marshal` writes
for a payload, and `Encoder.Encode` on messages, whose bytes end in a line break. -/
structure JsonLib (f : Formats) (mar : Marshal M V) where
  value : Payload M V → Except GoError Json
  text : Json → Bytes
  json_eq : ∀ p, mar.json p = (value p).map text
  value_bytes : ∀ b, value (.bytes b) = .ok (.string (Base64.encode b))
  writeRequest : Request Json → Bytes
  writeResponse : Response Json → Bytes
  read_request : ∀ req, ReadsAs f.jsonRequest (writeRequest req) req.args (wireOfRequest req)
  read_response : ∀ resp,
    ReadsAs f.jsonResponse (writeResponse resp) resp.data (wireOfResponse resp)

/-- The payload of a message and its codec. -/
def payloadOf : Body (Payload M V) → Option (Payload M V) × PayloadCodec
  | .request req => (req.args, req.argsCodec)
  | .response resp => (resp.data, resp.dataCodec)

section Encoder
variable {f : Formats} {mar : Marshal M V} (lib : JsonLib f mar)

/-- The value of a payload; nil stays nil. -/
def jsonPayload : Option (Payload M V) → Except GoError (Option Json)
  | none => .ok none
  | some p => (lib.value p).map some

/-- The message itself, as `encoding/json` sees it. -/
def writeBody (j : Option Json) : Body (Payload M V) → Bytes
  | .request req => lib.writeRequest ⟨req.id, req.service, req.method, req.serviceVersion, j,
      req.timeout, req.isStream, req.metadata, req.createdAt, req.argsCodec⟩
  | .response resp => lib.writeResponse ⟨resp.id, j, resp.error, resp.metadata, resp.serverTime,
      resp.dataCodec⟩

def encodeToWriter (body : Body (Payload M V)) : Except GoError Bytes :=
  match jsonPayload lib (payloadOf body).1 with
  | .error err => .error (.wrapf "json codec: encode to writer failed: %w" [] err)
  | .ok j => .ok (writeBody lib j body)

end Encoder

/-- `Decode` into a message with what it holds. -/
def decodeBody (f : Formats) (data : Bytes) :
    Body (Payload M V) → Except GoError (Body (Payload M V))
  | .request old => (decodeRequest f data old).map .request
  | .response old => (decodeResponse f data old).map .response

def SameKind : Body (Payload M V) → Body (Payload M V) → Prop
  | .request _, .request _ | .response _, .response _ => True
  | _, _ => False

/-- The bytes of the stream are accepted and decode to what those of `Encode` do, whatever is
decoded into. -/
def Interchangeable {f : Formats} {mar : Marshal M V} (lib : JsonLib f mar)
    (body : Body (Payload M V)) : Prop :=
  ∃ written, encodeToWriter lib body = .ok written ∧
    ∀ packed, (jsonCodec f mar).encode body = .ok packed → ∀ target, SameKind body target →
      ∃ got, decodeBody f written target = .ok got ∧ decodeBody f packed target = .ok got

/-- Where the two encoders agree, by the kind of the payload. -/
def FaithfulPayload {f : Formats} {mar : Marshal M V} (lib : JsonLib f mar) :
    Option (Payload M V) → PayloadCodec → Prop
  | none, codec => codec = payloadCodecUnknown
  | some (.bytes _), codec => codec ≠ payloadCodecUnknown
  -- of any other value the stream has the JSON, which is to be read as the bytes that were meant
  | some (.proto m), codec => ∃ j, lib.value (.proto m) = .ok j ∧
      (codec = payloadCodecJSON ∧ j.toBytes = some (lib.text j) ∨
        codec = payloadCodecProtobuf ∧ ∃ b, mar.proto m = .ok b ∧ j.toBytes = some b)
  | some (.other v), codec => codec = payloadCodecJSON ∧
      ∃ j, lib.value (.other v) = .ok j ∧ j.toBytes = some (lib.text j)

def Faithful {f : Formats} {mar : Marshal M V} (lib : JsonLib f mar) (body : Body (Payload M V)) :
    Prop :=
  FaithfulPayload lib (payloadOf body).1 (payloadOf body).2

/-! ## What is decoded -/

/-- The message that decoding leaves in a target of its kind, for a payload and a codec. -/
def into : Body (Payload M V) → Body (Payload M V) → Bytes → PayloadCodec → Body (Payload M V)
  | .request req, .request old, data, codec =>
    .request { req with
      args := setPayload data old.args
      metadata := some (req.metadata.getD [])
      argsCodec := codec }
  | .response resp, .response old, data, codec =>
    .response { resp with
      data := setPayload data old.data
      metadata := some (resp.metadata.getD [])
      dataCodec := codec }
  | _, target, _, _ => target

def zeroLike : Body (Payload M V) → Body (Payload M V)
  | .request _ => .request zeroRequest
  | .response _ => .response zeroResponse

theorem sameKind_zeroLike (body : Body (Payload M V)) : SameKind body (zeroLike body) := by
  cases body <;> trivial

theorem arrived_inj {a b : Bytes}
    (h : (arrived a : Option (Payload M V)) = arrived b) : a = b := by
  unfold arrived at h
  split at h
  · split at h
    · simp [*]
    · cases h
  · split at h
    · cases h
    · simpa using h

theorem into_inj {body : Body (Payload M V)} {a b : Bytes} {c c' : PayloadCodec}
    (h : into body (zeroLike body) a c = into body (zeroLike body) b c') : a = b ∧ c = c' := by
  cases body with
  | request req =>
    simp only [into, zeroLike, Body.request.injEq, Request.mk.injEq, zeroRequest,
      setPayload_none] at h
    exact ⟨arrived_inj h.2.2.2.2.1, h.2.2.2.2.2.2.2.2.2⟩
  | response resp =>
    simp only [into, zeroLike, Body.response.injEq, Response.mk.injEq, zeroResponse,
      setPayload_none] at h
    exact ⟨arrived_inj h.2.1, h.2.2.2.2.2⟩

section Decoded
variable {f : Formats} {mar : Marshal M V} {lib : JsonLib f mar} {body : Body (Payload M V)}

theorem decode_packed {packed : Bytes} (h : (jsonCodec f mar).encode body = .ok packed) :
    ∃ data, bodyContent mar body = some data ∧ ∀ target, SameKind body target →
      decodeBody f packed target =
        .ok (into body target data (effectiveCodec (payloadOf body).1 (payloadOf body).2)) := by
  cases body with
  | request req =>
    obtain ⟨data, hdata, -⟩ := (encodeRequest_carried f mar req zeroRequest).ok h
    refine ⟨data, hdata, fun target hkind => ?_⟩
    cases target with
    | response old => exact hkind.elim
    | request old =>
      obtain ⟨data', hdata', hdec⟩ := (encodeRequest_carried f mar req old).ok h
      rw [hdata] at hdata'
      cases hdata'
      simp only [decodeBody, hdec]
      rfl
  | response resp =>
    obtain ⟨data, hdata, -⟩ := (encodeResponse_carried f mar resp zeroResponse).ok h
    refine ⟨data, hdata, fun target hkind => ?_⟩
    cases target with
    | request old => exact hkind.elim
    | response old =>
      obtain ⟨data', hdata', hdec⟩ := (encodeResponse_carried f mar resp old).ok h
      rw [hdata] at hdata'
      cases hdata'
      simp only [decodeBody, hdec]
      rfl

/-- What `Decode` makes of the bytes of the stream. -/
theorem decode_writeBody (lib : JsonLib f mar) (j : Option Json) {target : Body (Payload M V)}
    (hkind : SameKind body target) :
    match payloadBytes j with
    | some b =>
      decodeBody f (writeBody lib j body) target = .ok (into body target b (payloadOf body).2)
    | none => ∃ err, decodeBody f (writeBody lib j body) target = .error err := by
  cases body with
  | request req =>
    cases target with
    | response old => exact hkind.elim
    | request old =>
      have hread := lib.read_request ⟨req.id, req.service, req.method, req.serviceVersion, j,
        req.timeout, req.isStream, req.metadata, req.createdAt, req.argsCodec⟩
      cases hj : payloadBytes j with
      | some b =>
        simp only [ReadsAs, hj] at hread
        simp only [decodeBody, writeBody, decodeRequest, hread, into, payloadOf, Except.map,
          readRequest, wireOfRequest, WireRequest.omitEmpty, setMetadata_omitEmpty]
      | none =>
        simp only [ReadsAs, hj] at hread
        obtain ⟨err, herr⟩ := hread
        exact ⟨err, by simp only [decodeBody, writeBody, decodeRequest, herr, Except.map]⟩
  | response resp =>
    cases target with
    | request old => exact hkind.elim
    | response old =>
      have hread := lib.read_response ⟨resp.id, j, resp.error, resp.metadata, resp.serverTime,
        resp.dataCodec⟩
      cases hj : payloadBytes j with
      | some b =>
        simp only [ReadsAs, hj] at hread
        simp only [decodeBody, writeBody, decodeResponse, hread, into, payloadOf, Except.map,
          wireOfResponse, WireResponse.omitEmpty, setMetadata_omitEmpty]
      | none =>
        simp only [ReadsAs, hj] at hread
        obtain ⟨err, herr⟩ := hread
        exact ⟨err, by simp only [decodeBody, writeBody, decodeResponse, herr, Except.map]⟩

/-- The codec is the effective one, and the payload's JSON value reads as its content. -/
def SameContent (lib : JsonLib f mar) (p : Option (Payload M V)) (codec : PayloadCodec) : Prop :=
  effectiveCodec p codec = codec ∧
    ∃ j, jsonPayload lib p = .ok j ∧ payloadBytes j = content mar p (effectiveCodec p codec)

theorem bodyContent_eq (mar : Marshal M V) (body : Body (Payload M V)) :
    bodyContent mar body = content mar (payloadOf body).1
      (effectiveCodec (payloadOf body).1 (payloadOf body).2) := by
  cases body <;> rfl

theorem Interchangeable.sameContent {packed : Bytes}
    (henc : (jsonCodec f mar).encode body = .ok packed) (h : Interchangeable lib body) :
    SameContent lib (payloadOf body).1 (payloadOf body).2 := by
  obtain ⟨written, hwritten, hsame⟩ := h
  obtain ⟨data, hdata, hpacked⟩ := decode_packed henc
  obtain ⟨got, hgot, hgot'⟩ := hsame packed henc (zeroLike body) (sameKind_zeroLike body)
  rw [hpacked _ (sameKind_zeroLike body)] at hgot'
  cases hgot'
  unfold encodeToWriter at hwritten
  split at hwritten
  · cases hwritten
  rename_i j hj
  cases hwritten
  have hdec := decode_writeBody lib j (sameKind_zeroLike body)
  cases hb : payloadBytes j with
  | none =>
    rw [hb] at hdec
    obtain ⟨err, herr⟩ := hdec
    rw [herr] at hgot
    cases hgot
  | some b =>
    rw [hb] at hdec
    rw [hdec] at hgot
    obtain ⟨rfl, hcodec⟩ := into_inj (Except.ok.inj hgot)
    rw [bodyContent_eq] at hdata
    exact ⟨hcodec.symm, j, hj, hb.trans hdata.symm⟩

theorem SameContent.interchangeable (h : SameContent lib (payloadOf body).1 (payloadOf body).2) :
    Interchangeable lib body := by
  obtain ⟨hcodec, j, hj, hb⟩ := h
  refine ⟨writeBody lib j body, by rw [encodeToWriter, hj], fun packed henc target hkind => ?_⟩
  obtain ⟨data, hdata, hpacked⟩ := decode_packed henc
  have hdec := decode_writeBody lib j hkind
  rw [hb.trans ((bodyContent_eq mar body).symm.trans hdata)] at hdec
  refine ⟨_, hdec, ?_⟩
  rw [hpacked target hkind, hcodec]

/-- A value that is neither nil nor bytes, under a codec that is set. -/
theorem sameContent_value {p : Payload M V} {codec : PayloadCodec}
    (hcodec : codec ≠ payloadCodecUnknown) : SameContent lib (some p) codec ↔
      ∃ j, lib.value p = .ok j ∧ j.toBytes = content mar (some p) codec := by
  have heff : effectiveCodec (some p) codec = codec := if_neg hcodec
  rw [SameContent, heff]
  cases hj : lib.value p with
  | error err => simp [jsonPayload, hj, Except.map]
  | ok j => simp [jsonPayload, hj, Except.map, payloadBytes]

theorem not_sameContent_unset (p : Payload M V) :
    ¬ SameContent lib (some p) payloadCodecUnknown := by
  rintro ⟨hcodec, -⟩
  rw [effectiveCodec, if_pos rfl] at hcodec
  cases p <;> simp [Payload.codec, payloadCodecUnknown, payloadCodecRaw, payloadCodecJSON,
    payloadCodecProtobuf] at hcodec

theorem content_json {p : Payload M V} {j : Json} (hp : ∀ b, p ≠ .bytes b)
    (hj : lib.value p = .ok j) :
    content mar (some p) payloadCodecJSON = some (lib.text j) := by
  have hjson : mar.json p = .ok (lib.text j) := by rw [lib.json_eq, hj]; rfl
  cases p with
  | bytes b => exact absurd rfl (hp b)
  | proto m => simp [content, hjson, Except.toOption]
  | other v => simp [content, hjson, Except.toOption]

theorem not_faithful_unset (lib : JsonLib f mar) (p : Payload M V) :
    ¬ FaithfulPayload lib (some p) payloadCodecUnknown := by
  cases p with
  | bytes b => exact fun h => h rfl
  | proto m =>
    rintro ⟨j, -, ⟨hc, -⟩ | ⟨hc, -⟩⟩ <;> exact absurd hc (by decide)
  | other v => exact fun h => absurd h.1 (by decide)

/-- A message is serialized as JSON or as Protobuf. -/
theorem proto_content_iff {m : M} {j : Json} {codec : PayloadCodec} {data : Bytes}
    (hj : lib.value (.proto m) = .ok j) (hdata : content mar (some (.proto m)) codec = some data) :
    j.toBytes = content mar (some (.proto m)) codec ↔
      codec = payloadCodecJSON ∧ j.toBytes = some (lib.text j) ∨
        codec = payloadCodecProtobuf ∧ ∃ b, mar.proto m = .ok b ∧ j.toBytes = some b := by
  by_cases hjson : codec = payloadCodecJSON
  · subst hjson
    rw [content_json (p := .proto m) (by simp) hj]
    simp [payloadCodecJSON, payloadCodecProtobuf]
  · rw [content, if_neg hjson] at hdata ⊢
    split at hdata
    · rename_i hproto
      subst hproto
      cases hm : mar.proto m with
      | error err => simp [hm, Except.toOption] at hdata
      | ok b => simp [Except.toOption, payloadCodecJSON, payloadCodecProtobuf]
    · cases hdata

/-- For a payload that `Encode` can write, that is what `FaithfulPayload` says. -/
theorem sameContent_iff (lib : JsonLib f mar) {p : Option (Payload M V)} {codec : PayloadCodec}
    {data : Bytes} (hdata : content mar p (effectiveCodec p codec) = some data) :
    SameContent lib p codec ↔ FaithfulPayload lib p codec := by
  cases p with
  | none =>
    refine ⟨fun h => h.1.symm, fun h => ⟨h.symm, none, rfl, rfl⟩⟩
  | some p =>
    by_cases hcodec : codec = payloadCodecUnknown
    · subst hcodec
      exact iff_of_false (not_sameContent_unset p) (not_faithful_unset lib p)
    have heff : effectiveCodec (some p) codec = codec := if_neg hcodec
    rw [heff] at hdata
    rw [sameContent_value hcodec]
    cases p with
    | bytes b =>
      refine iff_of_true ⟨_, lib.value_bytes b, ?_⟩ hcodec
      have hb : content mar (some (.bytes b)) codec = some b := by
        rw [content] at hdata ⊢
        split at hdata
        · rename_i hmem
          exact if_pos hmem
        · cases hdata
      exact (Base64.decode_encode b).trans hb.symm
    | proto m => exact exists_congr fun j => and_congr_right fun hj => proto_content_iff hj hdata
    | other v =>
      rw [content] at hdata
      split at hdata
      · rename_i hjson
        subst hjson
        refine Iff.trans ?_ (and_iff_right rfl).symm
        refine exists_congr fun j => and_congr_right fun hj => ?_
        rw [content_json (p := .other v) (by simp) hj]
      · cases hdata

/-- The two encoders are interchangeable on a message that `Encode` accepts exactly if it is
`Faithful`. -/
theorem stream_interchangeable_iff (lib : JsonLib f mar) (body : Body (Payload M V))
    (haccepted : ∃ packed, (jsonCodec f mar).encode body = .ok packed) :
    Interchangeable lib body ↔ Faithful lib body := by
  obtain ⟨packed, henc⟩ := haccepted
  obtain ⟨data, hdata, -⟩ := decode_packed henc
  rw [bodyContent_eq] at hdata
  rw [Faithful, ← sameContent_iff lib hdata]
  exact ⟨Interchangeable.sameContent henc, SameContent.interchangeable⟩

end Decoded

/-! ## A library as assumed -/

section Example
variable {W : Type} [Encodable W]

/-- A format that reads nothing into no bytes. -/
def guardedFormat (omitEmpty : W → W) : WireFormat W omitEmpty where
  marshal w := .ok (123 :: List.replicate (Encodable.encode (omitEmpty w)) 0)
  unmarshal
    | [] => .error (.foreign "unexpected end of JSON input")
    | _ :: data =>
      match Encodable.decode data.length with
      | some w => .ok w
      | none => .error (.foreign "unexpected end of JSON input")
  inverse w := ⟨_, rfl, by simp only [List.length_replicate, Encodable.encodek]⟩

/-- The struct if the payload can be read. -/
def writeGuarded (omitEmpty : W → W) (payload : Option Json) (wire : Bytes → W) : Bytes :=
  match payloadBytes payload with
  | some b => 123 :: List.replicate (Encodable.encode (omitEmpty (wire b))) 0
  | none => []

theorem readsAs_writeGuarded (omitEmpty : W → W) (payload : Option Json) (wire : Bytes → W) :
    ReadsAs (guardedFormat omitEmpty) (writeGuarded omitEmpty payload wire) payload wire := by
  unfold ReadsAs writeGuarded
  cases payloadBytes payload with
  | none => exact ⟨_, rfl⟩
  | some b => simp only [guardedFormat, List.length_replicate, Encodable.encodek]

end Example

def guardedFormats : Formats :=
  { (default : Formats) with jsonRequest := guardedFormat _, jsonResponse := guardedFormat _ }

/-- The only payloads besides bytes are empty objects. -/
def objectValue : Payload Empty Unit → Json
  | .bytes b => .string (Base64.encode b)
  | .other _ => .object []

def objectText : Json → Bytes
  | .string s => 34 :: s.map (fun c => UInt8.ofNat c.toNat) ++ [34]
  | _ => [123, 125]

def objectMarshal : Marshal Empty Unit where
  json p := .ok (objectText (objectValue p))
  proto m := m.elim
  typeName _ := ""

def objectLib : JsonLib guardedFormats objectMarshal where
  value p := .ok (objectValue p)
  text := objectText
  json_eq _ := rfl
  value_bytes _ := rfl
  writeRequest req := writeGuarded WireRequest.omitEmpty req.args (wireOfRequest req)
  writeResponse resp := writeGuarded WireResponse.omitEmpty resp.data (wireOfResponse resp)
  read_request req := readsAs_writeGuarded _ req.args (wireOfRequest req)
  read_response resp := readsAs_writeGuarded _ resp.data (wireOfResponse resp)

/-- A request with a payload of three bytes. -/
def rawRequest : Body (Payload Empty Unit) :=
  .request { (zeroRequest : Request (Payload Empty Unit)) with
    args := some (.bytes [1, 2, 3]), argsCodec := payloadCodecRaw }

theorem stream_interchangeable_iff_raw : Interchangeable objectLib rawRequest := by
  have hset : payloadCodecRaw ≠ payloadCodecUnknown := by decide
  exact (stream_interchangeable_iff objectLib rawRequest ⟨_, rfl⟩).mpr hset

/-- A request for an empty object, its codec left open as `NewRequest` leaves it. -/
def objectRequest : Body (Payload Empty Unit) :=
  .request { (zeroRequest : Request (Payload Empty Unit)) with args := some (.other ()) }

theorem object_refused :
    ¬ ∀ body, (∃ packed, (jsonCodec guardedFormats objectMarshal).encode body = .ok packed) →
      Interchangeable objectLib body := by
  intro h
  have hsame := (h objectRequest ⟨_, rfl⟩).sameContent rfl
  exact not_sameContent_unset _ hsame

end RpcInGo.Codec.StreamJson
