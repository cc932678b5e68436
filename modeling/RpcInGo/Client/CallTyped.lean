import RpcInGo.Codec.Bodies

/-!
Typed calls: the result of a server method travels as a response payload
(`HandleRequest` in `pkg/server/server.go`), and `CallTyped` in `pkg/client/client.go`
unmarshals it into the caller's message. A result that marshals to no bytes arrives as
a nil payload, and the caller's message is then left alone: `callTyped_eq_iff`.
-/

namespace RpcInGo.Client.CallTyped
open Lib.ByteStream Protocol.Message Codec.Registry Codec.Payloads Codec.Bodies

variable {M V : Type}

/-- The response of `HandleRequest` for the result of a method. -/
def handleSuccess (req : Request (Payload M V)) (result : Option (Payload M V)) (now : Int) :
    Response (Payload M V) :=
  match req.getMetadata metaKeySpanID with
  | some spanID =>
    if spanID ≠ "" then (newSuccessResponse req.id result now).setMetadata metaKeySpanID spanID
    else newSuccessResponse req.id result now
  | none => newSuccessResponse req.id result now

/-- `proto.Unmarshal` and `json.Unmarshal` into a message, which they may change even
when they fail. -/
structure Unmarshal (M : Type) where
  proto : Bytes → M → Option GoError × M
  json : Bytes → M → Option GoError × M

/-- Unmarshalling resets its target and undoes marshalling. -/
def Unmarshal.Undoes (um : Unmarshal M) (mar : Marshal M V) : Prop :=
  ∀ m data resp, mar.proto m = .ok data → um.proto data resp = (none, m)

section
variable (mar : Marshal M V) (um : Unmarshal M)

/-- The switch on `DataCodec`. -/
def unmarshalAs (codec : PayloadCodec) (dataBytes : Bytes) (resp : M) : Option GoError × M :=
  if codec = payloadCodecProtobuf then um.proto dataBytes resp
  else if codec = payloadCodecJSON then um.json dataBytes resp
  else if codec = payloadCodecRaw then
    (some (.errorf "cannot unmarshal raw bytes into typed response" []), resp)
  else
    match um.proto dataBytes resp with
    | (none, resp) => (none, resp)
    | (some _, resp) => um.json dataBytes resp

/-- `CallTyped` after `Call` has returned `called`: the response, the error and the
caller's message. -/
def callTyped (called : Except GoError (Response (Payload M V))) (resp : M) :
    Option (Response (Payload M V)) × Option GoError × M :=
  match called with
  | .error err => (none, some err, resp)
  | .ok respData =>
    if respData.isError then
      (some respData, some (.errorf "rpc error %s" [.str ((respData.error.map (·.text)).getD "")]),
        resp)
    else
      match respData.data with
      | none => (some respData, none, resp)
      | some (.bytes dataBytes) => (some respData, unmarshalAs um respData.dataCodec dataBytes resp)
      | some data =>
        match mar.json data with
        | .error err => (some respData, some (.wrapf "marshal response data: %w" [] err), resp)
        | .ok dataBytes => (some respData, unmarshalAs um respData.dataCodec dataBytes resp)

end

theorem handleSuccess_eq (req : Request (Payload M V)) (result : Option (Payload M V)) (now : Int) :
    ∃ metadata, handleSuccess req result now =
      { newSuccessResponse req.id result now with metadata := metadata } := by
  unfold handleSuccess
  split
  · split
    · exact ⟨_, rfl⟩
    · exact ⟨_, rfl⟩
  · exact ⟨_, rfl⟩

section Typed
variable {f : Formats} {mar : Marshal M V} {um : Unmarshal M} {c : BodyCodec (Payload M V)}

theorem carries_of_mem (hc : c ∈ [jsonCodec f mar, protobufCodec f mar]) : Carries mar c := by
  rcases List.mem_pair.mp hc with rfl | rfl
  · exact jsonCodec_carries f mar
  · exact protobufCodec_carries f mar

theorem bodyContent_handleSuccess (mar : Marshal M V) (req : Request (Payload M V)) (m : M)
    (now : Int) :
    bodyContent mar (.response (handleSuccess req (some (.proto m)) now)) =
      (mar.proto m).toOption := by
  obtain ⟨metadata, heq⟩ := handleSuccess_eq req (some (.proto m)) now
  rw [heq]
  rfl

theorem encode_handleSuccess (hc : Carries mar c) (req : Request (Payload M V)) {m : M} (now : Int)
    {data : Bytes} (hm : mar.proto m = .ok data) :
    ∃ packed, c.encode (.response (handleSuccess req (some (.proto m)) now)) = .ok packed := by
  cases henc : c.encode (.response (handleSuccess req (some (.proto m)) now)) with
  | ok packed => exact ⟨packed, rfl⟩
  | error err =>
    have hnone := (hc _).failed_iff.mp ⟨err, henc⟩
    rw [bodyContent_handleSuccess, hm] at hnone
    cases hnone

/-- What the client decodes of a typed result. -/
theorem decode_handleSuccess (hc : Carries mar c) {req : Request (Payload M V)} {m : M} {now : Int}
    {packed : Bytes}
    (henc : c.encode (.response (handleSuccess req (some (.proto m)) now)) = .ok packed) :
    ∃ data respData, mar.proto m = .ok data ∧ c.decodeResponse packed = .ok respData ∧
      respData.isError = false ∧ respData.data = arrived data ∧
      respData.dataCodec = payloadCodecProtobuf := by
  obtain ⟨data, hdata, hdec⟩ := (hc _).ok henc
  obtain ⟨metadata, heq⟩ := handleSuccess_eq req (some (.proto m)) now
  rw [bodyContent_handleSuccess] at hdata
  rw [heq] at hdec
  cases hm : mar.proto m with
  | error err =>
    rw [hm] at hdata
    cases hdata
  | ok _ =>
    rw [hm] at hdata
    cases hdata
    cases hresp : c.decodeResponse packed with
    | error err =>
      rw [decodeAs, hresp] at hdec
      cases hdec
    | ok respData =>
      rw [decodeAs, hresp] at hdec
      cases hdec
      exact ⟨data, _, rfl, rfl, rfl, rfl, rfl⟩

theorem callTyped_empty {respData : Response (Payload M V)} (hok : respData.isError = false)
    (hdata : respData.data = arrived []) (resp : M) :
    callTyped mar um (.ok respData) resp = (some respData, none, resp) := by
  simp only [callTyped, hok, hdata, arrived, if_true, Bool.false_eq_true, if_false]

theorem callTyped_bytes {respData : Response (Payload M V)} (hok : respData.isError = false)
    {data : Bytes} (hne : data ≠ []) (hdata : respData.data = arrived data)
    (hcodec : respData.dataCodec = payloadCodecProtobuf) (resp : M) :
    callTyped mar um (.ok respData) resp = (some respData, um.proto data resp) := by
  simp only [callTyped, hok, hdata, arrived, hne, hcodec, unmarshalAs, if_true, if_false,
    Bool.false_eq_true]

/-- A typed call returns without an error, and the caller's message is the result exactly
if the result marshals to some bytes or was in the message before the call. -/
theorem callTyped_eq_iff (hum : um.Undoes mar) (hc : c ∈ [jsonCodec f mar, protobufCodec f mar])
    (req : Request (Payload M V)) (m : M) (now : Int) (resp : M) {packed : Bytes}
    (henc : c.encode (.response (handleSuccess req (some (.proto m)) now)) = .ok packed) :
    (callTyped mar um (c.decodeResponse packed) resp).2.1 = none ∧
      ((callTyped mar um (c.decodeResponse packed) resp).2.2 = m ↔
        mar.proto m ≠ .ok [] ∨ resp = m) := by
  obtain ⟨data, respData, hm, hdec, hok, hdata, hcodec⟩ :=
    decode_handleSuccess (carries_of_mem hc) henc
  rw [hdec, hm]
  by_cases hne : data = []
  · subst hne
    rw [callTyped_empty hok hdata]
    simp
  · rw [callTyped_bytes hok hne hdata hcodec, hum m data resp hm]
    simp [hne]

end Typed

/-! A message of one byte, whose default marshals to nothing. -/

def byteMarshal : Marshal UInt8 Unit where
  json _ := .error (.foreign "json: unsupported type")
  proto m := .ok (if m = 0 then [] else [m])
  typeName _ := "byte"

def byteUnmarshal : Unmarshal UInt8 where
  proto data _ := (none, data.headD 0)
  json _ resp := (some (.foreign "json: unsupported type"), resp)

theorem byteUnmarshal_undoes : byteUnmarshal.Undoes byteMarshal := by
  rintro m data resp hm
  cases hm
  by_cases hz : m = 0
  · simp [byteUnmarshal, hz]
  · simp [byteUnmarshal, hz]

def ping : Request (Payload UInt8 Unit) := newRequest "echo" "Ping" none 0

theorem callTyped_eq_iff_bytes : ∃ packed,
    (jsonCodec default byteMarshal).encode (.response (handleSuccess ping (some (.proto 7)) 0)) =
      .ok packed ∧
    (callTyped byteMarshal byteUnmarshal ((jsonCodec default byteMarshal).decodeResponse packed)
      3).2.1 = none ∧
    ((callTyped byteMarshal byteUnmarshal ((jsonCodec default byteMarshal).decodeResponse packed)
      3).2.2 = 7 ↔ byteMarshal.proto 7 ≠ .ok [] ∨ (3 : UInt8) = 7) := by
  obtain ⟨packed, henc⟩ := encode_handleSuccess (jsonCodec_carries default byteMarshal) ping
    (m := 7) 0 rfl
  exact ⟨packed, henc,
    callTyped_eq_iff byteUnmarshal_undoes (List.mem_cons_self ..) ping 7 0 3 henc⟩

/-- The result of the previous call is still there when the new one is the default. -/
theorem not_callTyped_eq : ¬ ∀ (f : Formats) (mar : Marshal UInt8 Unit) (um : Unmarshal UInt8),
    um.Undoes mar → ∀ c ∈ [jsonCodec f mar, protobufCodec f mar],
    ∀ (req : Request (Payload UInt8 Unit)) (m : UInt8) (now : Int) (resp : UInt8) (packed : Bytes),
    c.encode (.response (handleSuccess req (some (.proto m)) now)) = .ok packed →
    (callTyped mar um (c.decodeResponse packed) resp).2.1 = none →
    (callTyped mar um (c.decodeResponse packed) resp).2.2 = m := by
  intro hall
  have hcarries := protobufCodec_carries default byteMarshal
  obtain ⟨packed, henc⟩ := encode_handleSuccess hcarries ping (m := 0) 0 rfl
  obtain ⟨data, respData, hm, hdec, hok, hdata, -⟩ := decode_handleSuccess hcarries henc
  cases hm
  have hempty : callTyped byteMarshal byteUnmarshal (.ok respData) 3 = (some respData, none, 3) :=
    callTyped_empty hok hdata 3
  have hsame := hall default byteMarshal byteUnmarshal byteUnmarshal_undoes _
    (List.mem_cons_of_mem _ (List.mem_cons_self ..)) ping 0 0 3 packed henc
  rw [hdec, hempty] at hsame
  have hthree : (3 : UInt8) = 0 := hsame rfl
  exact absurd hthree (by decide)

end RpcInGo.Client.CallTyped
