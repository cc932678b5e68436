import Mathlib.Logic.Encodable.Basic
import Mathlib.Logic.Equiv.List
import RpcInGo.Codec.Payloads
import RpcInGo.Codec.Registry

/-!
`JSONCodec` and `ProtobufCodec` on requests and responses (`json.go`, `protobuf.go`).
Both refine one description, `Carries`: a message is either refused for its payload or
arrives as `Body.received` says. `codecs_agree` compares the two.
-/

namespace RpcInGo.Codec.Bodies
open Lib.ByteStream Protocol.Message Registry Payloads

/-! ## Wire structs -/

/-- `pb.Request`, and the struct of the same fields in `json.go`. -/
structure WireRequest where
  id : UInt64
  service : String
  method : String
  serviceVersion : String
  args : Bytes
  timeout : Int
  isStream : Bool
  metadata : Option Metadata
  createdAt : Int
  argsCodec : PayloadCodec

/-- The error is a `protocol.Error` in JSON and a `pb.Error` in Protobuf. -/
structure WireResponse (E : Type) where
  id : UInt64
  data : Bytes
  error : Option E
  metadata : Option Metadata
  serverTime : Int
  dataCodec : PayloadCodec

/-- `pb.Error`. -/
structure PbError where
  code : Int32
  message : String
  details : String

/-- Neither format writes a map without entries. -/
def WireRequest.omitEmpty (w : WireRequest) : WireRequest :=
  { w with metadata := w.metadata.filter (!·.isEmpty) }

def WireResponse.omitEmpty {E : Type} (w : WireResponse E) : WireResponse E :=
  { w with metadata := w.metadata.filter (!·.isEmpty) }

/-- Marshalling of a wire struct and its inverse, as the libraries provide them. A map
is read back with the entries it was written with. -/
structure WireFormat (W : Type) (omitEmpty : W → W) where
  marshal : W → Except GoError Bytes
  unmarshal : Bytes → Except GoError W
  inverse : ∀ w, ∃ data, marshal w = .ok data ∧ unmarshal data = .ok (omitEmpty w)

structure Formats where
  jsonRequest : WireFormat WireRequest WireRequest.omitEmpty
  jsonResponse : WireFormat (WireResponse Error) WireResponse.omitEmpty
  protoRequest : WireFormat WireRequest WireRequest.omitEmpty
  protoResponse : WireFormat (WireResponse PbError) WireResponse.omitEmpty

instance encodableUInt8 : Encodable UInt8 :=
  .ofLeftInverse UInt8.toNat UInt8.ofNat fun _ => UInt8.ofNat_toNat
instance encodableUInt64 : Encodable UInt64 :=
  .ofLeftInverse UInt64.toNat UInt64.ofNat fun _ => UInt64.ofNat_toNat
instance encodableInt32 : Encodable Int32 :=
  .ofLeftInverse Int32.toInt Int32.ofInt Int32.ofInt_toInt
instance encodableChar : Encodable Char := .ofLeftInverse Char.toNat Char.ofNat Char.ofNat_toNat
instance encodableString : Encodable String :=
  .ofLeftInverse String.toList String.ofList fun _ => String.ofList_toList

instance encodableError : Encodable Error := .ofLeftInverse
  (fun e => (e.code, e.message, e.details)) (fun t => ⟨t.1, t.2.1, t.2.2⟩) fun _ => rfl

instance encodablePbError : Encodable PbError := .ofLeftInverse
  (fun e => (e.code, e.message, e.details)) (fun t => ⟨t.1, t.2.1, t.2.2⟩) fun _ => rfl

instance encodableWireRequest : Encodable WireRequest := .ofLeftInverse
  (fun w => ((w.id, w.service, w.method, w.serviceVersion, w.args),
    (w.timeout, w.isStream, w.metadata, w.createdAt, w.argsCodec)))
  (fun t => ⟨t.1.1, t.1.2.1, t.1.2.2.1, t.1.2.2.2.1, t.1.2.2.2.2, t.2.1, t.2.2.1, t.2.2.2.1,
    t.2.2.2.2.1, t.2.2.2.2.2⟩)
  fun _ => rfl

instance encodableWireResponse {E : Type} [Encodable E] : Encodable (WireResponse E) :=
  .ofLeftInverse (fun w => (w.id, w.data, w.error, w.metadata, w.serverTime, w.dataCodec))
    (fun t => ⟨t.1, t.2.1, t.2.2.1, t.2.2.2.1, t.2.2.2.2.1, t.2.2.2.2.2⟩) fun _ => rfl

deriving instance DecidableEq for WireRequest
deriving instance DecidableEq for PbError
deriving instance DecidableEq for WireResponse

section Samples
variable {W : Type} [DecidableEq W] [Encodable W] (omitEmpty : W → W)

/-- A format that writes one struct as its library does, and any other as its number in unary. -/
def sampleFormat (text : Bytes) (sample : W) (htext : text.head? ≠ some 0) :
    WireFormat W omitEmpty where
  marshal w :=
    if omitEmpty w = sample then .ok text
    else .ok (List.replicate (Encodable.encode (omitEmpty w) + 1) 0)
  unmarshal data :=
    if data = text then .ok sample
    else
      match Encodable.decode (data.length - 1) with
      | some w => .ok w
      | none => .error (.foreign "unexpected EOF")
  inverse w := by
    split
    · rename_i hw
      exact ⟨text, rfl, by rw [if_pos rfl, hw]⟩
    · have hne : List.replicate (Encodable.encode (omitEmpty w) + 1) 0 ≠ text := by
        rintro rfl
        exact htext rfl
      refine ⟨_, rfl, ?_⟩
      simp only [if_neg hne, List.length_replicate, Nat.add_sub_cancel, Encodable.encodek]

end Samples

/-- The request without contents. -/
def zeroWire : WireRequest := ⟨0, "", "", "", [], 0, false, none, 0, 0⟩

/-- What JSON makes of it. -/
def zeroText : Bytes := "\x7b\"id\":0,\"service\":\"\",\"method\":\"\"\x7d".toUTF8.data.toList

/-- Formats as assumed exist; these agree with the libraries on messages without contents. -/
instance : Inhabited Formats where
  default :=
    { jsonRequest := sampleFormat _ zeroText zeroWire (by decide)
      jsonResponse := sampleFormat _ "\x7b\"id\":0\x7d".toUTF8.data.toList
        ⟨0, [], none, none, 0, 0⟩ (by decide)
      protoRequest := sampleFormat _ [] zeroWire (by decide)
      protoResponse := sampleFormat _ [] ⟨0, [], none, none, 0, 0⟩ (by decide) }

variable {M V : Type}

/-- The zero values decoded into. -/
def zeroRequest : Request (Payload M V) := ⟨0, "", "", "", none, 0, false, none, 0, 0⟩
def zeroResponse : Response (Payload M V) := ⟨0, none, none, none, 0, 0⟩

/-- A payload is set only if it has bytes; else the target keeps its own. -/
def setPayload (data : Bytes) (old : Option (Payload M V)) : Option (Payload M V) :=
  if data.length > 0 then some (.bytes data) else old

def setMetadata : Option Metadata → Option Metadata
  | some entries => some entries
  | none => some []

/-- The fields of a request on the wire; `ToMap` copies the metadata. -/
def wireRequest (req : Request (Payload M V)) (args : Bytes) (argsCodec : PayloadCodec) :
    WireRequest :=
  ⟨req.id, req.service, req.method, req.serviceVersion, args, req.timeout, req.isStream,
    req.metadata, req.createdAt, argsCodec⟩

/-- The fields that decoding sets in `req`. -/
def readRequest (w : WireRequest) (req : Request (Payload M V)) : Request (Payload M V) :=
  ⟨w.id, w.service, w.method, w.serviceVersion, setPayload w.args req.args, w.timeout, w.isStream,
    setMetadata w.metadata, w.createdAt, w.argsCodec⟩

section Codecs
variable (f : Formats) (mar : Marshal M V)

/-! ## JSON -/

/-- `JSONCodec.encodeRequest`. -/
def encodeRequest (req : Request (Payload M V)) : Except GoError Bytes :=
  match serialize mar argsLabels req.args req.argsCodec with
  | .error err => .error err
  | .ok (argsData, argsCodec) => f.jsonRequest.marshal (wireRequest req argsData argsCodec)

def decodeRequest (data : Bytes) (req : Request (Payload M V)) :
    Except GoError (Request (Payload M V)) :=
  match f.jsonRequest.unmarshal data with
  | .error err => .error err
  | .ok w => .ok (readRequest w req)

def encodeResponse (resp : Response (Payload M V)) : Except GoError Bytes :=
  match serialize mar dataLabels resp.data resp.dataCodec with
  | .error err => .error err
  | .ok (dataBytes, dataCodec) =>
    f.jsonResponse.marshal
      ⟨resp.id, dataBytes, resp.error, resp.metadata, resp.serverTime, dataCodec⟩

def decodeResponse (data : Bytes) (resp : Response (Payload M V)) :
    Except GoError (Response (Payload M V)) :=
  match f.jsonResponse.unmarshal data with
  | .error err => .error err
  | .ok w => .ok ⟨w.id, setPayload w.data resp.data, w.error, setMetadata w.metadata, w.serverTime,
      w.dataCodec⟩

def jsonCodec : BodyCodec (Payload M V) where
  encode
    | .request req => encodeRequest f mar req
    | .response resp => encodeResponse f mar resp
  decodeRequest data := decodeRequest f data zeroRequest
  decodeResponse data := decodeResponse f data zeroResponse

/-! ## Protobuf -/

def requestToProto (req : Request (Payload M V)) : Except GoError WireRequest :=
  match serialize mar argsLabels req.args req.argsCodec with
  | .error err => .error err
  | .ok (argsData, argsCodec) => .ok (wireRequest req argsData argsCodec)

def protoToRequest (w : WireRequest) (req : Request (Payload M V)) : Request (Payload M V) :=
  readRequest w req

def responseToProto (resp : Response (Payload M V)) : Except GoError (WireResponse PbError) :=
  match serialize mar dataLabels resp.data resp.dataCodec with
  | .error err => .error err
  | .ok (dataBytes, dataCodec) =>
    .ok ⟨resp.id, dataBytes, resp.error.map fun e => ⟨e.code, e.message, e.details⟩, resp.metadata,
      resp.serverTime, dataCodec⟩

/-- Unlike JSON this keeps an error of the target when none was sent. -/
def protoToResponse (w : WireResponse PbError) (resp : Response (Payload M V)) :
    Response (Payload M V) :=
  ⟨w.id, setPayload w.data resp.data,
    match w.error with
    | some e => some ⟨e.code, e.message, e.details⟩
    | none => resp.error,
    setMetadata w.metadata, w.serverTime, w.dataCodec⟩

def protobufEncode : Body (Payload M V) → Except GoError Bytes
  | .request req =>
    match requestToProto mar req with
    | .error err => .error (.wrapf "convert request to proto failed: %w" [] err)
    | .ok w => f.protoRequest.marshal w
  | .response resp =>
    match responseToProto mar resp with
    | .error err => .error (.wrapf "convert response to proto failed: %w" [] err)
    | .ok w => f.protoResponse.marshal w

def protobufDecodeRequest (data : Bytes) (req : Request (Payload M V)) :
    Except GoError (Request (Payload M V)) :=
  match f.protoRequest.unmarshal data with
  | .error err => .error (.wrapf "unmarshal proto request failed: %w" [] err)
  | .ok w => .ok (protoToRequest w req)

def protobufDecodeResponse (data : Bytes) (resp : Response (Payload M V)) :
    Except GoError (Response (Payload M V)) :=
  match f.protoResponse.unmarshal data with
  | .error err => .error (.wrapf "unmarshal proto response failed: %w" [] err)
  | .ok w => .ok (protoToResponse w resp)

def protobufCodec : BodyCodec (Payload M V) where
  encode := protobufEncode f mar
  decodeRequest data := protobufDecodeRequest f data zeroRequest
  decodeResponse data := protobufDecodeResponse f data zeroResponse

end Codecs

/-! ## What they carry -/

/-- The content of a message's payload under its effective codec. -/
def bodyContent (mar : Marshal M V) : Body (Payload M V) → Option Bytes
  | .request req => content mar req.args (effectiveCodec req.args req.argsCodec)
  | .response resp => content mar resp.data (effectiveCodec resp.data resp.dataCodec)

/-- The payload that arrives for a content: nil when it is empty. -/
def arrived (data : Bytes) : Option (Payload M V) := if data = [] then none else some (.bytes data)

/-- The message that arrives: the one sent, but for its payload, the payload's codec
and metadata that was nil. -/
def received : Body (Payload M V) → Bytes → Body (Payload M V)
  | .request req, data =>
    .request { req with
      args := arrived data
      metadata := some (req.metadata.getD [])
      argsCodec := effectiveCodec req.args req.argsCodec }
  | .response resp, data =>
    .response { resp with
      data := arrived data
      metadata := some (resp.metadata.getD [])
      dataCodec := effectiveCodec resp.data resp.dataCodec }

/-- Decodes into a zero value of the kind of message given. -/
def decodeAs (c : BodyCodec (Payload M V)) : Body (Payload M V) → Bytes →
    Except GoError (Body (Payload M V))
  | .request _, packed => (c.decodeRequest packed).map .request
  | .response _, packed => (c.decodeResponse packed).map .response

/-- What a codec makes of one kind of message: it refuses a payload without content, and
what it encodes otherwise is decoded to `expected` of that content. -/
def Carried {α : Type} (payload : Option Bytes) (encoded : Except GoError Bytes)
    (decode : Bytes → Except GoError α) (expected : Bytes → α) : Prop :=
  (∃ err, encoded = .error err ∧ payload = none) ∨
    ∃ data packed, encoded = .ok packed ∧ payload = some data ∧ decode packed = .ok (expected data)

namespace Carried
variable {α β : Type} {payload : Option Bytes} {encoded : Except GoError Bytes}
  {decode : Bytes → Except GoError α} {expected : Bytes → α}

theorem ok (h : Carried payload encoded decode expected) {packed : Bytes}
    (henc : encoded = .ok packed) :
    ∃ data, payload = some data ∧ decode packed = .ok (expected data) := by
  rcases h with ⟨err, herr, -⟩ | ⟨data, packed', hok, hdata, hdec⟩
  · rw [henc] at herr
    cases herr
  · rw [henc] at hok
    cases hok
    exact ⟨data, hdata, hdec⟩

theorem failed_iff (h : Carried payload encoded decode expected) :
    (∃ err, encoded = .error err) ↔ payload = none := by
  rcases h with ⟨err, herr, hnone⟩ | ⟨data, packed, hok, hdata, -⟩
  · exact ⟨fun _ => hnone, fun _ => ⟨err, herr⟩⟩
  · rw [hok, hdata]
    exact ⟨nofun, nofun⟩

theorem map (h : Carried payload encoded decode expected) (g : α → β) :
    Carried payload encoded (fun packed => (decode packed).map g)
      (fun data => g (expected data)) := by
  rcases h with hfail | ⟨data, packed, hok, hdata, hdec⟩
  · exact .inl hfail
  · exact .inr ⟨data, packed, hok, hdata, congrArg (Except.map g) hdec⟩

end Carried

/-- The codec carries every kind of message. -/
def Carries (mar : Marshal M V) (c : BodyCodec (Payload M V)) : Prop :=
  ∀ body, Carried (bodyContent mar body) (c.encode body) (decodeAs c body) (received body)

theorem setPayload_none (data : Bytes) :
    setPayload data (none : Option (Payload M V)) = arrived data := by
  cases data <;> rfl

theorem setMetadata_omitEmpty (entries : Option Metadata) :
    setMetadata (entries.filter (!·.isEmpty)) = some (entries.getD []) := by
  rcases entries with _ | _ | _ <;> rfl

section Targets
variable (f : Formats) (mar : Marshal M V)

/-- The request that decoding leaves in `old`. -/
def requestInto (req old : Request (Payload M V)) (data : Bytes) : Request (Payload M V) :=
  { req with
    args := setPayload data old.args
    metadata := some (req.metadata.getD [])
    argsCodec := effectiveCodec req.args req.argsCodec }

def responseInto (resp old : Response (Payload M V)) (data : Bytes) : Response (Payload M V) :=
  { resp with
    data := setPayload data old.data
    metadata := some (resp.metadata.getD [])
    dataCodec := effectiveCodec resp.data resp.dataCodec }

theorem readRequest_omitEmpty (req old : Request (Payload M V)) (data : Bytes) :
    readRequest (wireRequest req data (effectiveCodec req.args req.argsCodec)).omitEmpty old =
      requestInto req old data := by
  simp only [readRequest, wireRequest, WireRequest.omitEmpty, setMetadata_omitEmpty, requestInto]

theorem encodeRequest_carried (req old : Request (Payload M V)) :
    Carried (bodyContent mar (.request req)) (encodeRequest f mar req)
      (fun packed => decodeRequest f packed old) (requestInto req old) := by
  rcases serialize_cases mar argsLabels req.args req.argsCodec with
    ⟨err, hser, hnone⟩ | ⟨data, hser, hdata⟩
  · exact .inl ⟨err, by simp only [encodeRequest, hser], hnone⟩
  · obtain ⟨packed, hpacked, hback⟩ := f.jsonRequest.inverse
      (wireRequest req data (effectiveCodec req.args req.argsCodec))
    refine .inr ⟨data, packed, by simp only [encodeRequest, hser, hpacked], hdata, ?_⟩
    simp only [decodeRequest, hback, readRequest_omitEmpty]

theorem encodeResponse_carried (resp old : Response (Payload M V)) :
    Carried (bodyContent mar (.response resp)) (encodeResponse f mar resp)
      (fun packed => decodeResponse f packed old) (responseInto resp old) := by
  rcases serialize_cases mar dataLabels resp.data resp.dataCodec with
    ⟨err, hser, hnone⟩ | ⟨data, hser, hdata⟩
  · exact .inl ⟨err, by simp only [encodeResponse, hser], hnone⟩
  · obtain ⟨packed, hpacked, hback⟩ := f.jsonResponse.inverse
      ⟨resp.id, data, resp.error, resp.metadata, resp.serverTime,
        effectiveCodec resp.data resp.dataCodec⟩
    refine .inr ⟨data, packed, by simp only [encodeResponse, hser, hpacked], hdata, ?_⟩
    simp only [decodeResponse, hback, WireResponse.omitEmpty, setMetadata_omitEmpty, responseInto]

theorem protobufRequest_carried (req old : Request (Payload M V)) :
    Carried (bodyContent mar (.request req)) (protobufEncode f mar (.request req))
      (fun packed => protobufDecodeRequest f packed old) (requestInto req old) := by
  rcases serialize_cases mar argsLabels req.args req.argsCodec with
    ⟨err, hser, hnone⟩ | ⟨data, hser, hdata⟩
  · exact .inl ⟨.wrapf "convert request to proto failed: %w" [] err,
      by simp only [protobufEncode, requestToProto, hser], hnone⟩
  · obtain ⟨packed, hpacked, hback⟩ := f.protoRequest.inverse
      (wireRequest req data (effectiveCodec req.args req.argsCodec))
    refine .inr ⟨data, packed, by simp only [protobufEncode, requestToProto, hser, hpacked], hdata,
      ?_⟩
    simp only [protobufDecodeRequest, hback, protoToRequest, readRequest_omitEmpty]

/-- An error of the target stays when the response has none. -/
theorem protobufResponse_carried (resp old : Response (Payload M V)) :
    Carried (bodyContent mar (.response resp)) (protobufEncode f mar (.response resp))
      (fun packed => protobufDecodeResponse f packed old)
      (fun data => { responseInto resp old data with error := resp.error.or old.error }) := by
  rcases serialize_cases mar dataLabels resp.data resp.dataCodec with
    ⟨err, hser, hnone⟩ | ⟨data, hser, hdata⟩
  · exact .inl ⟨.wrapf "convert response to proto failed: %w" [] err,
      by simp only [protobufEncode, responseToProto, hser], hnone⟩
  · obtain ⟨packed, hpacked, hback⟩ := f.protoResponse.inverse
      ⟨resp.id, data, resp.error.map fun e => ⟨e.code, e.message, e.details⟩, resp.metadata,
        resp.serverTime, effectiveCodec resp.data resp.dataCodec⟩
    refine .inr ⟨data, packed, by simp only [protobufEncode, responseToProto, hser, hpacked], hdata,
      ?_⟩
    simp only [protobufDecodeResponse, hback, protoToResponse, WireResponse.omitEmpty,
      setMetadata_omitEmpty, responseInto]
    -- the error is rebuilt field by field
    cases resp.error <;> rfl

end Targets

section Spec
variable (f : Formats) (mar : Marshal M V)

theorem requestInto_zero (req : Request (Payload M V)) :
    (fun data => Body.request (requestInto req zeroRequest data)) = received (.request req) := by
  funext data
  simp only [requestInto, zeroRequest, setPayload_none, received]

theorem responseInto_zero (resp : Response (Payload M V)) :
    (fun data => Body.response (responseInto resp zeroResponse data)) =
      received (.response resp) := by
  funext data
  simp only [responseInto, zeroResponse, setPayload_none, received]

theorem jsonCodec_carries : Carries mar (jsonCodec f mar) := by
  intro body
  cases body with
  | request req =>
    rw [← requestInto_zero]
    exact (encodeRequest_carried f mar req zeroRequest).map Body.request
  | response resp =>
    rw [← responseInto_zero]
    exact (encodeResponse_carried f mar resp zeroResponse).map Body.response

theorem protobufCodec_carries : Carries mar (protobufCodec f mar) := by
  intro body
  cases body with
  | request req =>
    rw [← requestInto_zero]
    exact (protobufRequest_carried f mar req zeroRequest).map Body.request
  | response resp =>
    have hcarried := (protobufResponse_carried f mar resp zeroResponse).map Body.response
    simp only [zeroResponse, Option.or_none] at hcarried
    rw [← responseInto_zero]
    exact hcarried

end Spec

/-- JSON and Protobuf refuse the same messages; the others arrive alike through both,
as the message sent with its payload serialized. -/
theorem codecs_agree (f : Formats) (mar : Marshal M V) (body : Body (Payload M V)) :
    ((∃ err, (jsonCodec f mar).encode body = .error err) ↔
      ∃ err, (protobufCodec f mar).encode body = .error err) ∧
    ∀ json proto, (jsonCodec f mar).encode body = .ok json →
      (protobufCodec f mar).encode body = .ok proto →
      ∃ data, bodyContent mar body = some data ∧
        decodeAs (jsonCodec f mar) body json = .ok (received body data) ∧
        decodeAs (protobufCodec f mar) body proto = .ok (received body data) := by
  have hj := jsonCodec_carries f mar body
  have hp := protobufCodec_carries f mar body
  constructor
  · rw [hj.failed_iff, hp.failed_iff]
  · intro json proto hjson hproto
    obtain ⟨data, hdata, hback⟩ := hj.ok hjson
    obtain ⟨data', hdata', hback'⟩ := hp.ok hproto
    rw [hdata] at hdata'
    cases hdata'
    exact ⟨data, hdata, hback, hback'⟩

end RpcInGo.Codec.Bodies
