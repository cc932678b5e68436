import Mathlib.Data.List.Basic

/-! Messages of `pkg/protocol`: error codes, requests, responses, the frame
header, and the Go error values that cross the packages. An error built by
`fmt.Errorf` is kept as its format and arguments. -/

namespace RpcInGo.Protocol.Message

abbrev CodecType := UInt8
abbrev CompressType := UInt8
abbrev MessageType := UInt8
abbrev PayloadCodec := Int32
abbrev Metadata := List (String × String)

def codecTypeJSON : CodecType := 0x00
def codecTypeProtobuf : CodecType := 0x01
def codecTypeMsgPack : CodecType := 0x02

def msgTypeRequest : MessageType := 0x01
def msgTypeResponse : MessageType := 0x02

def errorCodeOK : Int32 := 0
def errorCodeCanceled : Int32 := 1
def errorCodeInvalidArgument : Int32 := 3
def errorCodeDeadlineExceeded : Int32 := 4
def errorCodeNotFound : Int32 := 5
def errorCodeResourceExhausted : Int32 := 8
def errorRequestEntityTooLarge : Int32 := 9
def errorCodeInternal : Int32 := 13
def errorCodeUnavailable : Int32 := 14

/-- `protocol.Error`. -/
structure Error where
  code : Int32
  message : String
  details : String
  deriving DecidableEq, Repr

def newError (code : Int32) (message : String) : Error := ⟨code, message, ""⟩

/-- `Error.Error`. -/
def Error.text (e : Error) : String :=
  "[" ++ toString e.code.toInt ++ "] " ++ e.message ++
    if e.details ≠ "" then ": " ++ e.details else ""

/-! ## Go error values -/

inductive FmtArg where
  | str (s : String)
  | int (n : Int)
  | duration (ns : Int)
  | codec (t : CodecType)
  deriving DecidableEq, Repr

/-- Package-level error variables, compared by identity. -/
inductive Sentinel where
  | errRateLimitExceeded
  | errCircuitOpen
  | errTooManyRequests
  | errNotFound
  | errInvalidArgument
  | errWatcherStopped
  | deadlineExceeded
  | canceled
  deriving DecidableEq, Repr

/-- `wrapf` is `fmt.Errorf` with `%w` for another error, `printed` with `%v`, through which
`errors.Is` does not see; `foreign` is an error made outside the repository (network, operating
system, user code). -/
inductive GoError where
  | sentinel (s : Sentinel)
  | protocol (e : Error)
  | errorf (format : String) (args : List FmtArg)
  | wrapf (format : String) (args : List FmtArg) (inner : GoError)
  | printed (format : String) (args : List FmtArg) (inner : GoError)
  | foreign (text : String)
  deriving DecidableEq, Repr

/-- What `ctx.Err()` answers once `ctx.Done()` is closed. -/
inductive CtxErr where
  | canceled
  | deadlineExceeded
  deriving DecidableEq, Repr

def CtxErr.toGoError : CtxErr → GoError
  | .canceled => .sentinel .canceled
  | .deadlineExceeded => .sentinel .deadlineExceeded

/-! ## Requests and responses, over the type of dynamic payload values -/

structure Request (Value : Type) where
  id : UInt64
  service : String
  method : String
  serviceVersion : String
  args : Option Value
  timeout : Int
  isStream : Bool
  metadata : Option Metadata
  createdAt : Int
  argsCodec : PayloadCodec
  deriving DecidableEq, Repr

structure Response (Value : Type) where
  id : UInt64
  data : Option Value
  error : Option Error
  metadata : Option Metadata
  serverTime : Int
  dataCodec : PayloadCodec
  deriving DecidableEq, Repr

variable {Value : Type}

def newRequest (service method : String) (args : Option Value) (now : Int) : Request Value :=
  ⟨0, service, method, "", args, 0, false, some [], now, 0⟩

def metaKeyHashKey : String := "lb-hash-key"
def metaKeySpanID : String := "span-id"

def Request.setMetadata (r : Request Value) (key value : String) : Request Value :=
  { r with metadata := some ((key, value) :: (r.metadata.getD []).filter (·.1 ≠ key)) }

def Request.getMetadata (r : Request Value) (key : String) : Option String :=
  (r.metadata.getD []).lookup key

def Response.setMetadata (r : Response Value) (key value : String) : Response Value :=
  { r with metadata := some ((key, value) :: (r.metadata.getD []).filter (·.1 ≠ key)) }

def newSuccessResponse (requestID : UInt64) (data : Option Value) (now : Int) : Response Value :=
  ⟨requestID, data, none, some [], now, 0⟩

def newErrorResponse (requestID : UInt64) (err : Error) (now : Int) : Response Value :=
  ⟨requestID, none, some err, some [], now, 0⟩

def Response.isSuccess (r : Response Value) : Bool :=
  match r.error with
  | none => true
  | some e => e.code = errorCodeOK

def Response.isError (r : Response Value) : Bool :=
  match r.error with
  | none => false
  | some e => e.code ≠ errorCodeOK

/-- The fixed 20-byte frame header. -/
structure Header where
  magic : UInt16
  version : UInt8
  msgType : MessageType
  codec : CodecType
  compress : CompressType
  reserved : UInt8 × UInt8
  requestID : UInt64
  bodyLength : UInt32
  deriving DecidableEq, Repr

theorem Response.isError_eq (r : Response Value) : r.isError = !r.isSuccess := by
  unfold Response.isError Response.isSuccess
  cases r.error <;> simp

end RpcInGo.Protocol.Message
