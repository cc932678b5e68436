import RpcInGo.Client.CallTyped
import RpcInGo.Server.Reflect

/-!
How a registered method is called (`pkg/server/service.go`): `methodKind` accepts
a method by its type, `makeMethodHandler` builds its handler, and
`callTypedMethod` rebuilds a typed argument from the payload that arrived.

* `dispatch_ok_iff`: the reflective call of a handler is well formed, and the
  handler does not panic, exactly when an args-style method gets arguments, the
  context fits its parameter and the last result is of a kind that may be nil;
* `typed_invoked`: a typed method is invoked with the message that the client
  has passed, through either codec.
-/

namespace RpcInGo.Server.Dispatch
open Lib.ByteStream Protocol.Message Codec.Registry Codec.Payloads Codec.Bodies Client.CallTyped
open Reflect

variable {M V : Type}

inductive RpcMethodKind
  | argsOnly
  | ctxArgs
  | typed
  deriving DecidableEq, Repr

def isTypedMethod (inType outType : GoType) : Bool :=
  if inType.kind ≠ .pointer ∨ outType.kind ≠ .pointer then false
  else inType.implements protoMsgType && outType.implements protoMsgType

/-- `none` is a method that is not registered. -/
def methodKind (mt : FuncType) : Option RpcMethodKind :=
  match mt.outs with
  | [out0, out1] =>
    if !out1.implements errType then none
    else
      match mt.ins with
      | [_, in1] => if in1 = emptyIface ∧ out0 = emptyIface then some .argsOnly else none
      | [_, in1, in2] =>
        if !in1.implements ctxType then none
        else if in2 = emptyIface ∧ out0 = emptyIface then some .ctxArgs
        else if isTypedMethod in2 out0 then some .typed
        else none
      | _ => none
  | _ => none

/-- What the dispatch uses of other packages: the dynamic type of a payload,
`reflect.New` for the element of a parameter's type, and the marshallers. -/
structure Library (M V : Type) where
  typeOf : Payload M V → GoType
  zero : GoType → M
  marshal : Marshal M V
  unmarshal : Unmarshal M

/-- What a value passed to a method holds. -/
inductive Arg (M V : Type)
  | receiver
  | ctx
  | payload (p : Payload M V)
  | message (m : M)

def jsonNull : Bytes := [110, 117, 108, 108]

section Handlers
variable (lib : Library M V)

/-- `reflect.ValueOf(req.Args)`; the zero `Value` for nil. -/
def valueOf (args : Option (Payload M V)) : Option (Val (Arg M V)) :=
  args.map fun p => ⟨lib.typeOf p, .payload p⟩

/-- `json.Marshal(req.Args)`. -/
def marshalJSON : Option (Payload M V) → Except GoError Bytes
  | none => .ok jsonNull
  | some p => lib.marshal.json p

/-- The message after an attempt to unmarshal into it. -/
def unmarshalled : Option GoError × M → Except GoError M
  | (some err, _) => .error (.wrapf "unmarshal request: %w" [] err)
  | (none, m) => .ok m

/-- The switch of `callTypedMethod` on the codec of a payload of bytes. -/
def bytesArg (isProtoMsg : Bool) (argsCodec : PayloadCodec) (argsBytes : Bytes) (reqPtr : M) :
    Except GoError M :=
  if argsCodec = payloadCodecProtobuf then
    if !isProtoMsg then
      .error (.errorf "args codec is protobuf but target type does not implement proto.Message" [])
    else unmarshalled (lib.unmarshal.proto argsBytes reqPtr)
  else if argsCodec = payloadCodecJSON then unmarshalled (lib.unmarshal.json argsBytes reqPtr)
  else if argsCodec = payloadCodecRaw then
    .error (.errorf "cannot unmarshal raw bytes into typed request" [])
  else if isProtoMsg then unmarshalled (lib.unmarshal.proto argsBytes reqPtr)
  else unmarshalled (lib.unmarshal.json argsBytes reqPtr)

def jsonArg (args : Option (Payload M V)) (reqPtr : M) : Except GoError M :=
  match marshalJSON lib args with
  | .error err => .error (.wrapf "marshal args: %w" [] err)
  | .ok argsBytes => unmarshalled (lib.unmarshal.json argsBytes reqPtr)

def protoArg (argsProto : M) (reqPtr : M) : Except GoError M :=
  match lib.marshal.proto argsProto with
  | .error err => .error (.wrapf "marshal args: %w" [] err)
  | .ok reqBytes => unmarshalled (lib.unmarshal.proto reqBytes reqPtr)

/-- The part of `callTypedMethod` before the call, for a parameter of type `in2`.
Maps have a branch of their own, which does what the last one does. -/
def typedArg (in2 : GoType) (req : Request (Payload M V)) : Except GoError M :=
  let reqPtr := lib.zero in2.elem
  let isProtoMsg := (GoType.ptr in2.elem).implements protoMsgType
  match req.args with
  | some (.bytes argsBytes) => bytesArg lib isProtoMsg req.argsCodec argsBytes reqPtr
  | some (.proto argsProto) =>
    if isProtoMsg then protoArg lib argsProto reqPtr
    else jsonArg lib (some (.proto argsProto)) reqPtr
  | args => jsonArg lib args reqPtr

/-- The type of a parameter or result; `methodKind` has counted them. -/
def typeAt (types : List GoType) (i : Nat) : GoType := types.getD i emptyIface

/-- What a handler passes to `Func.Call`, or the error it returns without a call.
`recv` and `ctx` are the dynamic types of the service and of the context. -/
def callArgs (mt : FuncType) (recv ctx : GoType) (kind : RpcMethodKind)
    (req : Request (Payload M V)) : Except GoError (List (Option (Val (Arg M V)))) :=
  match kind with
  | .argsOnly => .ok [some ⟨recv, .receiver⟩, valueOf lib req.args]
  | .ctxArgs => .ok [some ⟨recv, .receiver⟩, some ⟨ctx, .ctx⟩, valueOf lib req.args]
  | .typed => (typedArg lib (typeAt mt.ins 2) req).map fun m =>
      [some ⟨recv, .receiver⟩, some ⟨ctx, .ctx⟩, some ⟨.ptr (typeAt mt.ins 2).elem, .message m⟩]

/-- A method of the service: its result and its error. -/
abbrev Method (M V : Type) := List (Val (Arg M V)) → Option (Payload M V) × Option GoError

def results (out : Option (Payload M V) × Option GoError) :
    Option (Payload M V) × Option GoError :=
  match out.2 with
  | some err => (none, some err)
  | none => (out.1, none)

def makeMethodHandler (mt : FuncType) (recv : GoType) (method : Method M V) (kind : RpcMethodKind)
    (ctx : GoType) (req : Request (Payload M V)) :
    Except Panic (Option (Payload M V) × Option GoError) :=
  match callArgs lib mt recv ctx kind req with
  | .error err => .ok (none, some err)
  | .ok args =>
    match funcCall mt args with
    | .error why => .error why
    | .ok vals =>
      if (typeAt mt.outs 1).kind.nilable then .ok (results (method vals)) else .error .isNil

/-- The call that a handler makes, if it makes one, has arguments that are valid
and assignable, and `IsNil` is asked of a result that may be nil. -/
def WellFormed (mt : FuncType) (recv : GoType) (kind : RpcMethodKind) (ctx : GoType)
    (req : Request (Payload M V)) : Prop :=
  ∀ args, callArgs lib mt recv ctx kind req = .ok args →
    List.Forall₂ (fun arg t => ∃ val, arg = some val ∧ val.type.assignableTo t = true) args mt.ins ∧
    (typeAt mt.outs 1).kind.nilable = true

end Handlers

/-! ## Accepted methods -/

/-- The types that `methodKind` accepts. -/
inductive Accepted : FuncType → RpcMethodKind → Prop
  | argsOnly {in0 out1} : Accepted ⟨[in0, emptyIface], [emptyIface, out1]⟩ .argsOnly
  | ctxArgs {in0 in1 out1} : Accepted ⟨[in0, in1, emptyIface], [emptyIface, out1]⟩ .ctxArgs
  | typed {in0 in1 in2 out0 out1} : isTypedMethod in2 out0 = true →
      Accepted ⟨[in0, in1, in2], [out0, out1]⟩ .typed

theorem methodKind_accepted {mt : FuncType} {kind : RpcMethodKind}
    (h : methodKind mt = some kind) : Accepted mt kind := by
  obtain ⟨ins, outs⟩ := mt
  unfold methodKind at h
  split at h
  · rename_i out0 out1 houts
    obtain rfl : outs = [out0, out1] := houts
    split at h
    · cases h
    split at h
    · rename_i in0 in1 hins
      obtain rfl : ins = [in0, in1] := hins
      split at h
      · rename_i heq
        obtain ⟨rfl, rfl⟩ := heq
        cases h
        exact .argsOnly
      · cases h
    · rename_i in0 in1 in2 hins
      obtain rfl : ins = [in0, in1, in2] := hins
      split at h
      · cases h
      split at h
      · rename_i heq
        obtain ⟨rfl, rfl⟩ := heq
        cases h
        exact .ctxArgs
      · split at h
        · cases h
          exact .typed (by assumption)
        · cases h
    · cases h
  · cases h

theorem isTypedMethod_message {in2 out0 : GoType} (h : isTypedMethod in2 out0 = true) :
    in2.kind = .pointer ∧ in2.implements protoMsgType = true := by
  unfold isTypedMethod at h
  split at h
  · cases h
  rename_i hkinds
  obtain ⟨hkind, -⟩ := not_or.mp hkinds
  exact ⟨by simpa using hkind, (Bool.and_eq_true_iff.mp h).1⟩

theorem isTypedMethod_ptr {in2 out0 : GoType} (h : isTypedMethod in2 out0 = true) :
    .ptr in2.elem = in2 := by
  obtain ⟨hkind, himpl⟩ := isTypedMethod_message h
  apply ptr_elem hkind
  intro hnil
  rw [GoType.implements, hnil] at himpl
  exact absurd himpl (by decide)

theorem isTypedMethod_of_typed {mt : FuncType} (h : methodKind mt = some .typed) :
    isTypedMethod (typeAt mt.ins 2) (typeAt mt.outs 0) = true := by
  cases methodKind_accepted h with
  | typed htyped => exact htyped

/-! ## The reflective call -/

/-- An args-style method gets arguments, the context fits the parameter for it,
and the last result may be nil. -/
structure Fits (mt : FuncType) (kind : RpcMethodKind) (ctx : GoType)
    (req : Request (Payload M V)) : Prop where
  args : kind ≠ .typed → req.args ≠ none
  context : kind ≠ .argsOnly → ctx.assignableTo (typeAt mt.ins 1) = true
  result : (typeAt mt.outs 1).kind.nilable = true

section Calls
variable {lib : Library M V} {mt : FuncType} {kind : RpcMethodKind} {recv ctx : GoType}
  {req : Request (Payload M V)}

/-- The argument of the payload is valid when there is one. -/
theorem valueOf_fits (lib : Library M V) (args : Option (Payload M V)) :
    (∃ val, valueOf lib args = some val ∧ val.type.assignableTo emptyIface = true) ↔
      args ≠ none := by
  cases args with
  | none => simp [valueOf]
  | some p => simp [valueOf, assignableTo_emptyIface]

theorem forall₂_fits (ha : Accepted mt kind) (hrecv : mt.ins.head? = some recv)
    {args : List (Option (Val (Arg M V)))} (hargs : callArgs lib mt recv ctx kind req = .ok args) :
    List.Forall₂ (fun arg t => ∃ val, arg = some val ∧ val.type.assignableTo t = true) args mt.ins ↔
      (kind ≠ .typed → req.args ≠ none) ∧
      (kind ≠ .argsOnly → ctx.assignableTo (typeAt mt.ins 1) = true) := by
  cases ha with
  | argsOnly =>
    cases hargs
    cases hrecv
    simp [valueOf_fits, assignableTo_self]
  | ctxArgs =>
    cases hargs
    cases hrecv
    simp [valueOf_fits, assignableTo_self, typeAt, and_comm]
  | @typed _ in1 in2 _ _ htyped =>
    cases hrecv
    simp only [callArgs] at hargs
    cases hm : typedArg lib (typeAt [recv, in1, in2] 2) req with
    | error err =>
      rw [hm] at hargs
      cases hargs
    | ok m =>
      rw [hm] at hargs
      cases hargs
      simp [assignableTo_self, typeAt, isTypedMethod_ptr htyped]

theorem wellFormed_iff (ha : Accepted mt kind) (hrecv : mt.ins.head? = some recv) :
    WellFormed lib mt recv kind ctx req ↔
      (∃ err, callArgs lib mt recv ctx kind req = .error err) ∨ Fits mt kind ctx req := by
  cases hargs : callArgs lib mt recv ctx kind req with
  | error err => simp [WellFormed, hargs]
  | ok args =>
    have hfits := forall₂_fits ha hrecv hargs
    constructor
    · intro h
      obtain ⟨hall, hnil⟩ := h args hargs
      obtain ⟨hpayload, hctx⟩ := hfits.mp hall
      exact .inr ⟨hpayload, hctx, hnil⟩
    · rintro (⟨err, herr⟩ | hfit)
      · cases herr
      · intro args' hargs'
        rw [hargs] at hargs'
        cases hargs'
        exact ⟨hfits.mpr ⟨hfit.args, hfit.context⟩, hfit.result⟩

theorem valid_of_forall₂ {args : List (Option (Val (Arg M V)))} {ins : List GoType}
    (h : List.Forall₂ (fun arg t => ∃ val, arg = some val ∧ val.type.assignableTo t = true)
      args ins) :
    ∃ vals, args = vals.map some ∧
      List.Forall₂ (fun v t => v.type.assignableTo t = true) vals ins := by
  induction h with
  | nil => exact ⟨[], rfl, .nil⟩
  | cons harg _ ih =>
    obtain ⟨val, rfl, hval⟩ := harg
    obtain ⟨vals, rfl, hvals⟩ := ih
    exact ⟨val :: vals, rfl, .cons hval hvals⟩

/-- The handler panics only in a call that is not well formed. -/
theorem makeMethodHandler_ok_iff (method : Method M V) :
    (∃ out, makeMethodHandler lib mt recv method kind ctx req = .ok out) ↔
      WellFormed lib mt recv kind ctx req := by
  unfold makeMethodHandler
  cases hargs : callArgs lib mt recv ctx kind req with
  | error err => simp [WellFormed, hargs]
  | ok args =>
    constructor
    · rintro ⟨out, h⟩ args' hargs'
      rw [hargs] at hargs'
      cases hargs'
      simp only at h
      split at h
      · cases h
      rename_i vals hcall
      split at h
      · rename_i hnil
        obtain ⟨rfl, hall⟩ := funcCall_ok_iff.mp hcall
        refine ⟨?_, hnil⟩
        rw [List.forall₂_map_left_iff]
        exact hall.imp fun _ _ hval => ⟨_, rfl, hval⟩
      · cases h
    · intro h
      obtain ⟨hall, hnil⟩ := h args hargs
      obtain ⟨vals, hvals⟩ := valid_of_forall₂ hall
      simp only [funcCall_ok_iff.mpr hvals, hnil, if_true]
      exact ⟨_, rfl⟩

end Calls

/-- For every accepted method and every request, the reflective call is well
formed, and the handler does not panic, exactly when the request is refused
before the call or these fit: arguments for an args-style method, the context,
and the kind of the last result. -/
theorem dispatch_ok_iff {lib : Library M V} {mt : FuncType} {kind : RpcMethodKind} {recv : GoType}
    (hkind : methodKind mt = some kind) (hrecv : mt.ins.head? = some recv) (ctx : GoType)
    (req : Request (Payload M V)) (method : Method M V) :
    (WellFormed lib mt recv kind ctx req ↔
      (∃ err, callArgs lib mt recv ctx kind req = .error err) ∨ Fits mt kind ctx req) ∧
    ((∃ out, makeMethodHandler lib mt recv method kind ctx req = .ok out) ↔
      (∃ err, callArgs lib mt recv ctx kind req = .error err) ∨ Fits mt kind ctx req) := by
  have hwell : WellFormed lib mt recv kind ctx req ↔ _ :=
    wellFormed_iff (methodKind_accepted hkind) hrecv
  exact ⟨hwell, (makeMethodHandler_ok_iff method).trans hwell⟩

/-! A service with a method for any arguments and a typed one; its messages are
single bytes. -/

def service : GoType :=
  .ptr (.base "Service" .struct "struct {}" [] ["Any(interface {}) (interface {}, error)"])

def byteType : GoType :=
  .base "Byte" .struct "struct { B byte }" [] ["ProtoReflect() protoreflect.Message"]

def background : GoType := .base "context.backgroundCtx" .struct "struct { emptyCtx }"
  ["Deadline() (time.Time, bool)", "Done() <-chan struct {}", "Err() error",
   "Value(interface {}) interface {}"] []

def anyMethod : FuncType := ⟨[service, emptyIface], [emptyIface, errType]⟩

def typedMethod : FuncType := ⟨[service, ctxType, .ptr byteType], [.ptr byteType, errType]⟩

def byteLibrary : Library UInt8 Unit where
  typeOf
    | .bytes _ => .base "" .slice "[]uint8" [] []
    | .proto _ => .ptr byteType
    | .other _ => .base "" .struct "struct {}" [] []
  zero _ := 0
  marshal := byteMarshal
  unmarshal :=
    { byteUnmarshal with
      json := fun data m => if data = jsonNull then (none, m) else byteUnmarshal.json data m }

def noMethod : Method UInt8 Unit := fun _ => (none, none)

theorem dispatch_ok_typed :
    methodKind typedMethod = some .typed ∧
    ∃ out, makeMethodHandler byteLibrary typedMethod service noMethod .typed background ping =
      .ok out :=
  ⟨by decide, (dispatch_ok_iff (by decide) rfl background ping noMethod).2.mpr
    (.inr ⟨fun h => absurd rfl h, fun _ => by decide, by decide⟩)⟩

/-- A request without a payload for the method that takes any arguments. -/
theorem nil_args_panic :
    ¬ ∀ (lib : Library UInt8 Unit) (mt : FuncType) (kind : RpcMethodKind) (recv ctx : GoType)
      (req : Request (Payload UInt8 Unit)), methodKind mt = some kind →
      mt.ins.head? = some recv → ctx.implements ctxType = true →
      WellFormed lib mt recv kind ctx req := by
  intro h
  have hall := (h byteLibrary anyMethod .argsOnly service background ping (by decide) rfl
    (by decide) _ rfl).1
  cases hall with
  | cons _ hrest =>
    cases hrest with
    | cons hpayload _ =>
      obtain ⟨val, hval, -⟩ := hpayload
      cases hval

/-! ## Typed arguments -/

/-- What is assumed of the libraries about messages: unmarshalling into a new
message undoes marshalling, only the default message marshals to nothing, and
JSON's null leaves its target alone. -/
structure Lawful (lib : Library M V) : Prop where
  undoes : ∀ m data reqType, lib.typeOf (.proto m) = .ptr reqType →
    lib.marshal.proto m = .ok data → lib.unmarshal.proto data (lib.zero reqType) = (none, m)
  default : ∀ m reqType, lib.typeOf (.proto m) = .ptr reqType →
    lib.marshal.proto m = .ok [] → m = lib.zero reqType
  null : ∀ m, lib.unmarshal.json jsonNull m = (none, m)

section Typed
variable {lib : Library M V} {f : Formats} {c : BodyCodec (Payload M V)}
  {req : Request (Payload M V)} {m : M} {reqType : GoType}

/-- What the server decodes of a request for a message. -/
theorem decode_proto_request (hc : Carries lib.marshal c) (hargs : req.args = some (.proto m))
    (hcodec : req.argsCodec = payloadCodecUnknown) {packed : Bytes}
    (henc : c.encode (.request req) = .ok packed) :
    ∃ data arrivedReq, lib.marshal.proto m = .ok data ∧ c.decodeRequest packed = .ok arrivedReq ∧
      arrivedReq.args = arrived data ∧ arrivedReq.argsCodec = payloadCodecProtobuf := by
  obtain ⟨data, hdata, hdec⟩ := (hc _).ok henc
  have hcontent : bodyContent lib.marshal (.request req) = (lib.marshal.proto m).toOption := by
    rw [bodyContent, hargs, hcodec]
    rfl
  rw [hcontent] at hdata
  cases hm : lib.marshal.proto m with
  | error err =>
    rw [hm] at hdata
    cases hdata
  | ok data' =>
    rw [hm] at hdata
    cases hdata
    cases hreq : c.decodeRequest packed with
    | error err =>
      rw [decodeAs, hreq] at hdec
      cases hdec
    | ok arrivedReq =>
      rw [decodeAs, hreq] at hdec
      cases hdec
      exact ⟨data, _, rfl, rfl, rfl, by simp only [hargs, hcodec]; rfl⟩

/-- A message with bytes comes back through the codec of the payload, and one
without through JSON's null. -/
theorem typedArg_arrived (hlib : Lawful lib) (htype : lib.typeOf (.proto m) = .ptr reqType)
    (hproto : (GoType.ptr reqType).implements protoMsgType = true) {data : Bytes}
    (hm : lib.marshal.proto m = .ok data) (hargs : req.args = arrived data)
    (hcodec : req.argsCodec = payloadCodecProtobuf) :
    typedArg lib (.ptr reqType) req = .ok m := by
  by_cases hempty : data = []
  · subst hempty
    have hnull : jsonArg lib none (lib.zero reqType) = .ok m := by
      rw [hlib.default m reqType htype hm]
      simp only [jsonArg, marshalJSON, hlib.null, unmarshalled]
    simpa [typedArg, hargs, arrived, GoType.elem] using hnull
  · have hback := hlib.undoes m data reqType htype hm
    simp [typedArg, hargs, arrived, hempty, GoType.elem, hproto, bytesArg, hcodec, hback,
      unmarshalled]

end Typed

/-- A typed method is invoked with the message that the client has passed. -/
theorem typed_invoked {lib : Library M V} (hlib : Lawful lib) {f : Formats}
    {c : BodyCodec (Payload M V)} (hc : c ∈ [jsonCodec f lib.marshal, protobufCodec f lib.marshal])
    {recv ctx reqType respType : GoType}
    (hkind : methodKind ⟨[recv, ctxType, .ptr reqType], [.ptr respType, errType]⟩ = some .typed)
    (hctx : ctx.implements ctxType = true) {m : M} (htype : lib.typeOf (.proto m) = .ptr reqType)
    {req : Request (Payload M V)} (hargs : req.args = some (.proto m))
    (hcodec : req.argsCodec = payloadCodecUnknown) {packed : Bytes}
    (henc : c.encode (.request req) = .ok packed) (method : Method M V) :
    ∃ arrivedReq, c.decodeRequest packed = .ok arrivedReq ∧
      makeMethodHandler lib ⟨[recv, ctxType, .ptr reqType], [.ptr respType, errType]⟩ recv method
        .typed ctx arrivedReq =
        .ok (results (method [⟨recv, .receiver⟩, ⟨ctx, .ctx⟩, ⟨.ptr reqType, .message m⟩])) := by
  obtain ⟨data, arrivedReq, hm, hdec, hdata, harrived⟩ :=
    decode_proto_request (carries_of_mem hc) hargs hcodec henc
  have hproto : (GoType.ptr reqType).implements protoMsgType = true :=
    (isTypedMethod_message (isTypedMethod_of_typed hkind)).2
  have harg : typedArg lib (.ptr reqType) arrivedReq = .ok m :=
    typedArg_arrived hlib htype hproto hm hdata harrived
  let passed : List (Val (Arg M V)) :=
    [⟨recv, .receiver⟩, ⟨ctx, .ctx⟩, ⟨.ptr reqType, .message m⟩]
  have hcall : funcCall ⟨[recv, ctxType, .ptr reqType], [.ptr respType, errType]⟩
      (passed.map some) = .ok passed := by
    refine funcCall_ok_iff.mpr ⟨rfl, .cons (assignableTo_self recv) (.cons ?_ (.cons ?_ .nil))⟩
    · exact assignableTo_of_implements hctx
    · exact assignableTo_self _
  refine ⟨arrivedReq, hdec, ?_⟩
  have hargs : callArgs lib ⟨[recv, ctxType, .ptr reqType], [.ptr respType, errType]⟩ recv ctx
      .typed arrivedReq = .ok (passed.map some) := by
    simp only [callArgs, typeAt, List.getD_cons_succ, List.getD_cons_zero, harg]
    rfl
  simp only [makeMethodHandler, hargs, hcall]
  rfl

theorem byteLibrary_lawful : Lawful byteLibrary := by
  constructor
  · intro m data _ _ hm
    exact byteUnmarshal_undoes m data 0 hm
  · intro m _ _ hm
    by_contra hne
    have hne' : m ≠ 0 := hne
    simp [byteLibrary, byteMarshal, hne'] at hm
  · intro m
    rfl

/-- The request of the call below on the wire: service, method and the codec of the arguments. -/
def pingText : Bytes :=
  [18, 4] ++ "echo".toUTF8.data.toList ++ [26, 4] ++ "Ping".toUTF8.data.toList ++ [80, 3]

def pingFormats : Formats :=
  { (default : Formats) with
    protoRequest := sampleFormat _ pingText
      ⟨0, "echo", "Ping", "", [], 0, false, none, 0, payloadCodecProtobuf⟩ (by decide) }

/-- The default message travels as no payload at all. -/
theorem typed_invoked_default : ∃ arrivedReq,
    (protobufCodec pingFormats byteMarshal).encode
      (.request (newRequest "echo" "Ping" (some (.proto 0)) 0)) = .ok pingText ∧
    (protobufCodec pingFormats byteMarshal).decodeRequest pingText = .ok arrivedReq ∧
    makeMethodHandler byteLibrary typedMethod service noMethod .typed background arrivedReq =
      .ok (results (noMethod [⟨service, .receiver⟩, ⟨background, .ctx⟩,
        ⟨.ptr byteType, .message 0⟩])) := by
  have hkind : methodKind typedMethod = some .typed := by decide
  have henc : (protobufCodec pingFormats byteMarshal).encode
      (.request (newRequest "echo" "Ping" (some (.proto 0)) 0)) = .ok pingText := rfl
  obtain ⟨arrivedReq, hdec, hcall⟩ := typed_invoked byteLibrary_lawful
    (List.mem_cons_of_mem _ (List.mem_cons_self ..)) hkind
    (show background.implements ctxType = true by decide) rfl rfl rfl henc noMethod
  exact ⟨arrivedReq, henc, hdec, hcall⟩

end RpcInGo.Server.Dispatch
