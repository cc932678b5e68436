import RpcInGo.Server.ErrorMap
import RpcInGo.Server.Services

/-!
`HandleRequest` of `pkg/server/server.go`: the interceptor chain around the lookup and the call
of a method, and the response that is made of the outcome. The request is passed by pointer, and
its ID is read again once the chain has returned.

* `handleRequest_id`: every response carries the ID that the request has at the end;
* `handleRequest_keeps`: interceptors and methods that leave the IDs of requests alone leave
  them as they were decoded.
-/

namespace RpcInGo.Server.HandleRequest
open Protocol.Message Codec.Payloads ErrorMap Services Client.CallTyped

/-- The requests by address, and all else that an interceptor or a method depends on, what
other goroutines do meanwhile included. -/
structure Memory (M V X : Type) where
  requests : Nat → Request (Payload M V)
  rest : X

variable {M V X : Type}

def Memory.store (mem : Memory M V X) (req : Nat) (content : Request (Payload M V)) :
    Memory M V X :=
  { mem with requests := Function.update mem.requests req content }

@[simp] theorem Memory.store_self (mem : Memory M V X) (req : Nat)
    (content : Request (Payload M V)) : (mem.store req content).requests req = content :=
  Function.update_self ..

/-- `none` is nil for the result and for the error. -/
abbrev Outcome (M V : Type) := Option (Payload M V) × Option ErrTree

/-- `Invoker`, and `MethodHandler` of `service.go`. -/
abbrev Invoker (M V X : Type) := Nat → Memory M V X → Outcome M V × Memory M V X

abbrev Interceptor (M V X : Type) := Nat → Invoker M V X → Memory M V X → Outcome M V × Memory M V X

/-! ## Chain and lookup -/

def buildChain (interceptors : List (Interceptor M V X)) (invoker : Invoker M V X) :
    Invoker M V X :=
  interceptors.foldr (fun interceptor next req => interceptor req next) invoker

/-- `Chain.Intercept`. -/
def intercept (interceptors : List (Interceptor M V X)) (req : Nat) (invoker : Invoker M V X) :
    Memory M V X → Outcome M V × Memory M V X :=
  if interceptors.length = 0 then invoker req else buildChain interceptors invoker req

theorem intercept_cons (ic : Interceptor M V X) (ics : List (Interceptor M V X)) (req : Nat)
    (invoker : Invoker M V X) :
    intercept (ic :: ics) req invoker = ic req fun req => intercept ics req invoker := by
  cases ics <;> rfl

def errNotFound : ErrTree := .ofSentinel "service not found" .errNotFound

def getHandler {H : Type} (sr : ServiceRegistry H) (service method : String) : Except ErrTree H :=
  match sr.services service with
  | none => .error (.wrap ("service not found: service=" ++ service) errNotFound)
  | some svc =>
    match svc.methods method with
    | none =>
      .error (.wrap ("service not found: service=" ++ service ++ " method=" ++ method) errNotFound)
    | some handler => .ok handler

/-- The fields of `Server` that `HandleRequest` uses. -/
structure RpcServer (M V X : Type) where
  interceptors : List (Interceptor M V X)
  registry : ServiceRegistry (Invoker M V X)

/-- The function at the end of the chain. -/
def RpcServer.invoker (s : RpcServer M V X) : Invoker M V X := fun request mem =>
  match getHandler s.registry (mem.requests request).service (mem.requests request).method with
  | .error err => ((none, some (.wrap ("get handler: " ++ err.text) err)), mem)
  | .ok handler => handler request mem

/-- The error that `HandleRequest` returns is always nil. -/
def handleRequest (s : RpcServer M V X) (req : Nat) (now : Int) (mem : Memory M V X) :
    Response (Payload M V) × Memory M V X :=
  match intercept s.interceptors req s.invoker mem with
  | ((_, some err), mem) => (handleError (mem.requests req) err now, mem)
  | ((result, none), mem) => (handleSuccess (mem.requests req) result now, mem)

/-! ## Which ID a response carries -/

theorem handleSuccess_id (req : Request (Payload M V)) (result : Option (Payload M V)) (now : Int) :
    (handleSuccess req result now).id = req.id := by
  obtain ⟨metadata, heq⟩ := handleSuccess_eq req result now
  rw [heq]
  rfl

theorem handleRequest_mem (s : RpcServer M V X) (req : Nat) (now : Int) (mem : Memory M V X) :
    (handleRequest s req now mem).2 = (intercept s.interceptors req s.invoker mem).2 := by
  unfold handleRequest
  split
  · rename_i heq
    rw [heq]
  · rename_i heq
    rw [heq]

/-- Success or failure, the ID is read when the chain has returned. -/
theorem handleRequest_id (s : RpcServer M V X) (req : Nat) (now : Int) (mem : Memory M V X) :
    (handleRequest s req now mem).1.id = ((handleRequest s req now mem).2.requests req).id := by
  unfold handleRequest
  split
  · rfl
  · exact handleSuccess_id ..

/-- Whoever calls it finds the IDs of all requests as they were. -/
def Keeps (invoker : Invoker M V X) : Prop :=
  ∀ req mem a, ((invoker req mem).2.requests a).id = (mem.requests a).id

/-- The interceptors and the methods of a server keep the IDs of requests. -/
structure RpcServer.KeepsIDs (s : RpcServer M V X) : Prop where
  interceptors : ∀ ic ∈ s.interceptors, ∀ next, Keeps next → Keeps fun req => ic req next
  methods : ∀ service method handler, getHandler s.registry service method = .ok handler →
    Keeps handler

theorem RpcServer.KeepsIDs.invoker {s : RpcServer M V X} (h : s.KeepsIDs) : Keeps s.invoker := by
  intro req mem a
  unfold RpcServer.invoker
  split
  · rfl
  · rename_i handler hget
    exact h.methods _ _ handler hget req mem a

theorem intercept_keeps {ics : List (Interceptor M V X)} {invoker : Invoker M V X}
    (hics : ∀ ic ∈ ics, ∀ next, Keeps next → Keeps fun req => ic req next)
    (hinv : Keeps invoker) : Keeps fun req => intercept ics req invoker := by
  induction ics with
  | nil => exact hinv
  | cons ic ics ih =>
    have hnext := ih fun ic' hic => hics ic' (List.mem_cons_of_mem _ hic)
    have hfirst := hics ic List.mem_cons_self _ hnext
    have heq : (fun req => intercept (ic :: ics) req invoker) =
        fun req => ic req fun req => intercept ics req invoker :=
      funext fun req => intercept_cons ic ics req invoker
    rw [heq]
    exact hfirst

theorem handleRequest_keeps {s : RpcServer M V X} (h : s.KeepsIDs) (req : Nat) (now : Int)
    (mem : Memory M V X) :
    ((handleRequest s req now mem).2.requests req).id = (mem.requests req).id := by
  rw [handleRequest_mem]
  exact intercept_keeps h.interceptors h.invoker req mem req

end RpcInGo.Server.HandleRequest
