import RpcInGo.Client.ErrorMap

/-!
`pkg/server/error_map.go`: the table that ties sentinel errors to protocol codes,
and its way back. The client has a copy of the way back that is written out by
hand (`pkg/client/error_map.go`).

* `server_unmapError_is`: the server's own copy finds the sentinel again;
* `client_unmapError_is_iff`: the client's copy does so except for
  `ErrNotFound` and `ErrInvalidArgument`, and agrees with the server's for the
  same sentinels only.
-/

namespace RpcInGo.Server.ErrorMap
open Protocol.Message

/-! ## `errors.Is` -/

/-- An error of a handler, as `errors.Is` sees it: its text, whether it is one of
the sentinel variables, its `Is` method, and what its `Unwrap` returns. A joined
error unwraps to several. -/
inductive ErrTree where
  | node (text : String) (self : Option Sentinel) (isMethod : Sentinel → Bool)
      (unwrap : List ErrTree)

namespace ErrTree

def text : ErrTree → String
  | .node text _ _ _ => text

mutual

def is (target : Sentinel) : ErrTree → Bool
  | .node _ self isMethod unwrap =>
    self = some target || isMethod target || anyIs target unwrap

def anyIs (target : Sentinel) : List ErrTree → Bool
  | [] => false
  | e :: es => e.is target || anyIs target es

end

/-- A sentinel variable. -/
def ofSentinel (text : String) (s : Sentinel) : ErrTree := .node text (some s) (fun _ => false) []

def wrap (text : String) (inner : ErrTree) : ErrTree := .node text none (fun _ => false) [inner]

def join (text : String) (errs : List ErrTree) : ErrTree := .node text none (fun _ => false) errs

end ErrTree

/-- `errors.Is` on the errors that the mapping functions make. -/
def goErrorIs (target : Sentinel) : GoError → Bool
  | .sentinel s => s = target
  | .wrapf _ _ inner => goErrorIs target inner
  | _ => false

/-- A nil error is no sentinel. -/
def resultIs (target : Sentinel) (err : Option GoError) : Bool := err.any (goErrorIs target)

/-! ## The table -/

structure ErrorMapping where
  code : Int32
  sentinel : Sentinel
  message : String → String → String

def errorTable : List ErrorMapping :=
  [⟨errorCodeResourceExhausted, .errRateLimitExceeded, fun _ _ => "rate limit exceeded"⟩,
   ⟨errorCodeUnavailable, .errCircuitOpen,
     fun service _ => "service " ++ service ++ " circuit breaker is open"⟩,
   ⟨errorCodeDeadlineExceeded, .deadlineExceeded,
     fun service method => "method " ++ service ++ "." ++ method ++ " execution exceeded deadline"⟩,
   ⟨errorCodeCanceled, .canceled,
     fun service method => "method " ++ service ++ "." ++ method ++ " execution canceled"⟩,
   ⟨errorCodeNotFound, .errNotFound,
     fun service _ => "service " ++ service ++ " not found in registry"⟩,
   ⟨errorCodeInvalidArgument, .errInvalidArgument, fun _ _ => "invalid argument"⟩]

/-- `none` is the nil error. -/
def sentinelForCode (code : Int32) : Option Sentinel :=
  (errorTable.find? (·.code = code)).map (·.sentinel)

/-- The first row whose sentinel the error is. -/
def matching (err : ErrTree) : Option ErrorMapping :=
  errorTable.find? fun row => err.is row.sentinel

def mapError (err : ErrTree) (service method : String) : Int32 × String :=
  match matching err with
  | some row => (row.code, row.message service method)
  | none => (errorCodeInternal,
      "method " ++ service ++ "." ++ method ++ " execution failed: " ++ err.text)

section Responses
variable {Value : Type}

/-- The response of `HandleRequest` to a request whose handler failed. -/
def handleError (req : Request Value) (err : ErrTree) (now : Int) : Response Value :=
  newErrorResponse req.id (newError (mapError err req.service req.method).1
    (mapError err req.service req.method).2) now

/-- `none` is the nil error. -/
def unmapError (resp : Response Value) : Option GoError :=
  if resp.isSuccess then none
  else
    match resp.error with
    | none => none
    | some err =>
      match sentinelForCode err.code with
      | some sentinel =>
        if err.details ≠ "" then some (.wrapf "%w: %s" [.str err.details] (.sentinel sentinel))
        else some (.sentinel sentinel)
      | none => some (.errorf "rpc error [%d]: %s" [.int err.code.toInt, .str err.message])

end Responses

/-! ## There and back -/

/-- The rows of the table as the client reads their codes: the sentinels of two
of them are not known there. -/
theorem row_cases {row : ErrorMapping} (h : row ∈ errorTable) :
    row.code ≠ errorCodeOK ∧ sentinelForCode row.code = some row.sentinel := by
  simp only [errorTable, List.mem_cons, List.not_mem_nil, or_false] at h
  rcases h with rfl | rfl | rfl | rfl | rfl | rfl <;> exact ⟨by decide, by decide⟩

section Codes
variable {Value : Type} {row : ErrorMapping} (msg : String) (id : UInt64) (now : Int)

theorem server_unmapError_row (h : row ∈ errorTable) :
    unmapError (newErrorResponse id (newError row.code msg) now : Response Value) =
      some (.sentinel row.sentinel) := by
  obtain ⟨hcode, hsentinel⟩ := row_cases h
  simp [unmapError, newErrorResponse, newError, Response.isSuccess, hcode, hsentinel]

theorem client_unmapError_row (h : row ∈ errorTable) (target : Sentinel) :
    resultIs target (Client.ErrorMap.unmapError
      (newErrorResponse id (newError row.code msg) now : Response Value)) = true ↔
      row.sentinel = target ∧ row.sentinel ≠ .errNotFound ∧ row.sentinel ≠ .errInvalidArgument := by
  simp only [errorTable, List.mem_cons, List.not_mem_nil, or_false] at h
  rcases h with rfl | rfl | rfl | rfl | rfl | rfl <;>
    simp [Client.ErrorMap.unmapError, newErrorResponse, newError, Response.isSuccess, resultIs,
      goErrorIs, errorCodeOK, errorCodeResourceExhausted, errorCodeUnavailable,
      errorCodeDeadlineExceeded, errorCodeCanceled, errorCodeNotFound, errorCodeInvalidArgument]

end Codes

section RoundTrip
variable {Value : Type} {err : ErrTree} {row : ErrorMapping} (req : Request Value) (now : Int)

theorem matching_mem (h : matching err = some row) : row ∈ errorTable := List.mem_of_find?_eq_some h

theorem handleError_eq (h : matching err = some row) :
    handleError req err now =
      newErrorResponse req.id (newError row.code (row.message req.service req.method)) now := by
  simp only [handleError, mapError, h]

/-- The table read in both directions. -/
theorem server_unmapError_is (h : matching err = some row) (target : Sentinel) :
    resultIs target (unmapError (handleError req err now)) = true ↔ row.sentinel = target := by
  rw [handleError_eq req now h, server_unmapError_row _ _ _ (matching_mem h)]
  simp [resultIs, goErrorIs]

theorem client_unmapError_is (h : matching err = some row) (target : Sentinel) :
    resultIs target (Client.ErrorMap.unmapError (handleError req err now)) = true ↔
      row.sentinel = target ∧ row.sentinel ≠ .errNotFound ∧ row.sentinel ≠ .errInvalidArgument := by
  rw [handleError_eq req now h]
  exact client_unmapError_row _ _ _ (matching_mem h) target

end RoundTrip

/-- The sentinel of the first row that a handler's error matches is found again by
the client, and the two copies of `unmapError` agree on all sentinels of the
table, exactly when it is neither `ErrNotFound` nor `ErrInvalidArgument`. -/
theorem client_unmapError_is_iff {Value : Type} {err : ErrTree} {row : ErrorMapping}
    (h : matching err = some row) (req : Request Value) (now : Int) :
    (resultIs row.sentinel (Client.ErrorMap.unmapError (handleError req err now)) = true ↔
      row.sentinel ≠ .errNotFound ∧ row.sentinel ≠ .errInvalidArgument) ∧
    ((∀ r ∈ errorTable, resultIs r.sentinel (Client.ErrorMap.unmapError (handleError req err now)) =
        resultIs r.sentinel (unmapError (handleError req err now))) ↔
      row.sentinel ≠ .errNotFound ∧ row.sentinel ≠ .errInvalidArgument) := by
  have hclient := client_unmapError_is req now h
  have hserver := server_unmapError_is req now h
  refine ⟨by simp [hclient], ?_, ?_⟩
  · intro hagree
    have hown := hagree row (matching_mem h)
    rw [(hserver row.sentinel).mpr rfl] at hown
    exact ((hclient row.sentinel).mp hown).2
  · intro hknown r _
    rw [Bool.eq_iff_iff, hclient, hserver]
    exact ⟨And.left, fun heq => ⟨heq, hknown⟩⟩

/-- A wrapped timeout joined with a refusal of the limiter. -/
def busy : ErrTree := .join "busy" [
  .wrap "query: context deadline exceeded"
    (.ofSentinel "context deadline exceeded" .deadlineExceeded),
  .ofSentinel "rate limit exceeded" .errRateLimitExceeded]

def getUser : Request Unit := newRequest "users" "Get" none 0

theorem client_unmapError_is_busy :
    (matching busy).map (·.sentinel) = some .errRateLimitExceeded ∧
    resultIs .errRateLimitExceeded
      (Client.ErrorMap.unmapError (handleError getUser busy 0)) = true := by
  have hmatch : matching busy = some ⟨errorCodeResourceExhausted, .errRateLimitExceeded,
    fun _ _ => "rate limit exceeded"⟩ := rfl
  exact ⟨by rw [hmatch]; rfl, (client_unmapError_is_iff hmatch getUser 0).1.mpr (by decide)⟩

theorem client_loses_notFound :
    ¬ ∀ (err : ErrTree) (row : ErrorMapping), matching err = some row →
      ∀ (req : Request Unit) (now : Int),
      resultIs row.sentinel (Client.ErrorMap.unmapError (handleError req err now)) = true := by
  intro h
  have hfound := h (.ofSentinel "service not found" .errNotFound) _ rfl getUser 0
  exact absurd hfound (by decide)

end RpcInGo.Server.ErrorMap
