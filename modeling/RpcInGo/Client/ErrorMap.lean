import RpcInGo.Protocol.Message

/-! `pkg/client/error_map.go`, and the three ways one `callOnce` attempt ends. -/

namespace RpcInGo.Client.ErrorMap
open Protocol.Message

variable {Value : Type}

/-- `none` is the nil error. -/
def unmapError (resp : Response Value) : Option GoError :=
  if resp.isSuccess then none
  else
    match resp.error with
    | none => none
    | some err =>
      if err.code = errorCodeResourceExhausted then some (.sentinel .errRateLimitExceeded)
      else if err.code = errorCodeUnavailable then some (.sentinel .errCircuitOpen)
      else if err.code = errorCodeDeadlineExceeded then some (.sentinel .deadlineExceeded)
      else if err.code = errorCodeCanceled then some (.sentinel .canceled)
      else if err.code = errorCodeNotFound then
        some (.errorf "%s: %s" [.str err.message, .str err.details])
      else if err.code = errorCodeInvalidArgument then
        some (.errorf "invalid argument: %s" [.str err.message])
      else some (.errorf "rpc error [%d]: %s" [.int err.code.toInt, .str err.message])

/-- What a call returns: a response pointer and an error, either possibly nil. -/
structure Reply (Value : Type) where
  resp : Option (Response Value)
  err : Option GoError
  deriving DecidableEq, Repr

/-- The outcome of `source.acquire` and of `SendRequest` in one attempt. -/
inductive Attempt (Value : Type) where
  | acquireFailed (e : GoError)
  | sendFailed (e : GoError)
  | responded (resp : Response Value)
  deriving DecidableEq, Repr

/-- What `callOnce` returns for each outcome. -/
def Attempt.reply : Attempt Value → Reply Value
  | .acquireFailed e => ⟨none, some e⟩
  | .sendFailed e => ⟨none, some (.wrapf "send: %w" [] e)⟩
  | .responded resp => if resp.isError then ⟨none, unmapError resp⟩ else ⟨some resp, none⟩

end RpcInGo.Client.ErrorMap
