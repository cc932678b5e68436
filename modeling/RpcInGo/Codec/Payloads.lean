import RpcInGo.Lib.ByteStream
import RpcInGo.Protocol.Message

/-!
How `Args` and `Data` become bytes. The decision on the dynamic type and the payload
codec is written out four times in `pkg/codec`, in `json.go` and `protobuf.go` for
requests and for responses; the copies differ only in the names their errors use.
`serialize_toOption` says what all of them compute.
-/

namespace RpcInGo.Codec.Payloads
open Lib.ByteStream Protocol.Message

def payloadCodecUnknown : PayloadCodec := 0
def payloadCodecRaw : PayloadCodec := 1
def payloadCodecJSON : PayloadCodec := 2
def payloadCodecProtobuf : PayloadCodec := 3

/-- A value of `Args` or `Data` that is not nil, by its dynamic type. -/
inductive Payload (M V : Type)
  | bytes (b : Bytes)
  | proto (m : M)
  | other (v : V)
  deriving DecidableEq, Repr

/-- What the code uses of `encoding/json` and `proto` for payloads, and `%T`. -/
structure Marshal (M V : Type) where
  json : Payload M V → Except GoError Bytes
  proto : M → Except GoError Bytes
  typeName : Payload M V → String

/-- How the errors name a payload and its codec. -/
structure Labels where
  codec : String
  field : String
  name : String

def argsLabels : Labels := ⟨"ArgsCodec", "Args", "args"⟩
def dataLabels : Labels := ⟨"DataCodec", "Data", "data"⟩

variable {M V : Type}

section Serialize
variable (mar : Marshal M V) (l : Labels)

/-- The branches for a codec that the caller has set. -/
def serializeAs (p : Payload M V) (codec : PayloadCodec) : Except GoError Bytes :=
  if codec = payloadCodecRaw then
    match p with
    | .bytes b => .ok b
    | _ => .error (.errorf (l.codec ++ " is RAW but " ++ l.field ++ " is not []byte (got %T)")
        [.str (mar.typeName p)])
  else if codec = payloadCodecJSON then
    match p with
    | .bytes b => .ok b
    | _ => (mar.json p).mapError (.wrapf ("marshal " ++ l.name ++ " as JSON failed: %w") [])
  else if codec = payloadCodecProtobuf then
    match p with
    | .bytes b => .ok b
    | .proto m =>
      (mar.proto m).mapError (.wrapf ("marshal " ++ l.name ++ " as Protobuf failed: %w") [])
    | .other _ => .error (.errorf (l.codec ++ " is PROTOBUF but " ++ l.field ++
        " is not proto.Message or []byte (got %T)") [.str (mar.typeName p)])
  else .error (.errorf ("unsupported " ++ l.codec ++ ": %v") [.int codec.toInt])

/-- The branches for a codec left unspecified. -/
def serializeInferred : Payload M V → Except GoError (Bytes × PayloadCodec)
  | .bytes b => .ok (b, payloadCodecRaw)
  | .proto m => ((mar.proto m).mapError (.wrapf ("marshal " ++ l.name ++ " failed: %w") [])).map
      (·, payloadCodecProtobuf)
  | .other v =>
    ((mar.json (.other v)).mapError (.wrapf ("marshal " ++ l.name ++ " failed: %w") [])).map
      (·, payloadCodecJSON)

/-- The bytes and the codec that go on the wire. -/
def serialize (p : Option (Payload M V)) (codec : PayloadCodec) :
    Except GoError (Bytes × PayloadCodec) :=
  match p with
  | none => .ok ([], payloadCodecUnknown)
  | some p =>
    if codec ≠ payloadCodecUnknown then (serializeAs mar l p codec).map (·, codec)
    else serializeInferred mar l p

end Serialize

/-! ## What it is for -/

/-- The codec that goes with a dynamic type. -/
def Payload.codec : Payload M V → PayloadCodec
  | .bytes _ => payloadCodecRaw
  | .proto _ => payloadCodecProtobuf
  | .other _ => payloadCodecJSON

def effectiveCodec : Option (Payload M V) → PayloadCodec → PayloadCodec
  | none, _ => payloadCodecUnknown
  | some p, codec => if codec = payloadCodecUnknown then p.codec else codec

/-- The bytes of a payload under an effective codec, if it has any: bytes are their
own under every codec there is, JSON takes all other values and Protobuf messages. -/
def content (mar : Marshal M V) : Option (Payload M V) → PayloadCodec → Option Bytes
  | none, _ => some []
  | some (.bytes b), codec =>
    if codec ∈ [payloadCodecRaw, payloadCodecJSON, payloadCodecProtobuf] then some b else none
  | some (.proto m), codec =>
    if codec = payloadCodecJSON then (mar.json (.proto m)).toOption
    else if codec = payloadCodecProtobuf then (mar.proto m).toOption
    else none
  | some (.other v), codec =>
    if codec = payloadCodecJSON then (mar.json (.other v)).toOption else none

@[simp] theorem toOption_mapError {ε ε' α : Type} (f : ε → ε') (x : Except ε α) :
    (x.mapError f).toOption = x.toOption := by
  cases x <;> rfl

@[simp] theorem toOption_map {ε α β : Type} (f : α → β) (x : Except ε α) :
    (x.map f).toOption = x.toOption.map f := by
  cases x <;> rfl

section Spec
variable (mar : Marshal M V) (l : Labels)

theorem serializeAs_toOption (p : Payload M V) (codec : PayloadCodec) :
    (serializeAs mar l p codec).toOption = content mar (some p) codec := by
  cases p with
  | bytes b =>
    simp only [serializeAs, content, List.mem_cons, List.not_mem_nil, or_false]
    split
    · simp [*, Except.toOption]
    · split
      · simp [*, Except.toOption]
      · split <;> simp [*, Except.toOption]
  | proto m =>
    simp only [serializeAs, content]
    split
    · simp [*, Except.toOption, payloadCodecRaw, payloadCodecJSON, payloadCodecProtobuf]
    · split
      · rw [toOption_mapError]
      · split
        · rw [toOption_mapError]
        · rfl
  | other v =>
    simp only [serializeAs, content]
    split
    · simp [*, Except.toOption, payloadCodecRaw, payloadCodecJSON]
    · split
      · rw [toOption_mapError]
      · split <;> rfl

theorem serializeInferred_toOption (p : Payload M V) :
    (serializeInferred mar l p).toOption = (content mar (some p) p.codec).map (·, p.codec) := by
  cases p with
  | bytes b => rfl
  | proto m =>
    simp [serializeInferred, Payload.codec, content, payloadCodecProtobuf, payloadCodecJSON]
  | other v => simp [serializeInferred, Payload.codec, content]

/-- The payload is written as its content under the effective codec, and that codec
with it; the payloads without content are those that fail. -/
theorem serialize_toOption (p : Option (Payload M V)) (codec : PayloadCodec) :
    (serialize mar l p codec).toOption =
      (content mar p (effectiveCodec p codec)).map (·, effectiveCodec p codec) := by
  cases p with
  | none => rfl
  | some p =>
    by_cases hcodec : codec = payloadCodecUnknown
    · simp only [serialize, effectiveCodec, hcodec, ne_eq, not_true, if_false, if_true]
      exact serializeInferred_toOption mar l p
    · simp only [serialize, effectiveCodec, hcodec, ne_eq, not_false_eq_true, if_true, if_false,
        toOption_map, serializeAs_toOption]

theorem serialize_cases (p : Option (Payload M V)) (codec : PayloadCodec) :
    (∃ err, serialize mar l p codec = .error err ∧ content mar p (effectiveCodec p codec) = none) ∨
      ∃ data, serialize mar l p codec = .ok (data, effectiveCodec p codec) ∧
        content mar p (effectiveCodec p codec) = some data := by
  have hspec := serialize_toOption mar l p codec
  cases hs : serialize mar l p codec with
  | error err =>
    rw [hs] at hspec
    exact .inl ⟨err, rfl, Option.map_eq_none_iff.mp hspec.symm⟩
  | ok written =>
    rw [hs] at hspec
    obtain ⟨data, hdata, rfl⟩ := Option.map_eq_some_iff.mp hspec.symm
    exact .inr ⟨data, rfl, hdata⟩

end Spec

end RpcInGo.Codec.Payloads
