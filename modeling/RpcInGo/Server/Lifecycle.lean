import RpcInGo.Registry.Interface
import RpcInGo.Server.Registration
import RpcInGo.Tcp.CloseReturn

/-!
`Start` and `Stop` of `pkg/server/server.go` with the heartbeats, on top of the transport of
`Tcp.ServerModel` and of any registry. `Start` listens, registers and serves; `Stop` ends the
heartbeats, deregisters and closes the transport. Neither takes a lock, so they interleave with
each other, with the context and with whatever else uses the registry.

* `Stepped`: what a step can do;
* `Condition`: what may be asked of a run.
-/

namespace RpcInGo.Server.Lifecycle
open Lib.Goroutine Protocol.Message Registry.Instance Registry.Interface

variable {R A Value : Type}

/-- The options that `Start` and `Stop` read. `enableRegistry` says that there is a registry and
that it is to be used. -/
structure Options where
  address : String
  serviceName : String
  serviceVersion : String
  enableRegistry : Bool
  heartbeatInterval : Int
  transport : Tcp.ServerModel.ServerOptions

/-- `listener` and `serving` are fields of the transport; an address stands for the listener that
is bound to it. -/
structure ServerState (R Value : Type) where
  transport : Tcp.ServerModel.Server Value
  listener : Option String
  serving : Bool
  serviceInstance : Option ServiceInstance
  /-- `stopHeartbeat` is closed. -/
  heartbeatStopped : Bool
  registry : R
  deriving DecidableEq

inductive Pc (Value : Type) where
  | startListen
  | startRegister
  | registering (inst : ServiceInstance)
  | startHeartbeat
  | startServe
  | startFailed (err : GoError)
  | newTicker
  | beating
  | beatingEnded (err : Option GoError)
  | stopCall
  | stopCheck
  | deregistering (instanceID : String)
  | stopFailed (err : GoError)
  /-- In `Serve` or `Close` of the transport, or one of its own goroutines. -/
  | transport (pc : Tcp.ServerModel.Pc Value)
  /-- Everybody else who uses the registry. -/
  | elsewhere
  /-- The others may take more steps before the process has ended. -/
  | panicked
  deriving DecidableEq

inductive Ev (R A Value : Type) where
  | step
  | bound (res : Except GoError String)
  | now (t : Int)
  | answer (a : A)
  | transport (e : Tcp.ServerModel.Ev Value)
  | elsewhere (r : R)

abbrev Next (R Value : Type) := Option (ServerState R Value × Pc Value × List (Pc Value))

section Steps
variable (o : Options) (reg : Registrar R A) (g : ServerState R Value)

/-- `Transport.Listen`. -/
def listen (res : Except GoError String) : Except GoError (ServerState R Value) :=
  match g.listener, res with
  | some _, _ => .error (.errorf "already listening on %s" [.str o.address])
  | none, .error e => .error (.wrapf "failed to listen on %s: %w" [.str o.address] e)
  | none, .ok addr => .ok { g with listener := some addr }

def startStep : Pc Value → Ev R A Value → Next R Value
  | .startListen, .bound res =>
    match listen o g res with
    | .error e => some (g, .startFailed (.wrapf "failed to listen tcp transport: %w" [] e), [])
    | .ok g => some (g, if o.enableRegistry then .startRegister else .startServe, [])
  -- `registerService`: the instance is in place before the registry has answered
  | .startRegister, .now t =>
    match g.listener with
    | none => some (g, .panicked, [])
    | some addr =>
      match Registration.registerService o.serviceName o.serviceVersion addr t fun _ => none with
      | .error e => some (g, .startFailed (.printed "register service: %v" [] e), [])
      | .ok inst => some ({ g with serviceInstance := some inst }, .registering inst, [])
  | .registering inst, .answer a =>
    match reg.register g.registry inst a with
    | none => some (g, .panicked, [])
    | some (some e, r) =>
      let err : GoError := .wrapf "register to registry: %w" [] e
      some ({ g with registry := r }, .startFailed (.printed "register service: %v" [] err), [])
    | some (none, r) => some ({ g with registry := r }, .startHeartbeat, [])
  | .startHeartbeat, .step => some (g, .startServe, [.newTicker])
  -- the first part of `Serve`
  | .startServe, .step =>
    match g.listener, g.serving with
    | none, _ => some (g, .startFailed (.errorf "not listening on %s" [.str ""]), [])
    | some addr, true => some (g, .startFailed (.errorf "already serving on %s" [.str addr]), [])
    | some _, false => some ({ g with serving := true }, .transport .accepting,
        [.transport .watching])
  | _, _ => none

/-- `startHeartbeat`, whose ticker panics on an interval that is not positive; the environment
says which case of the `select` is taken. -/
def heartbeatStep : Pc Value → Ev R A Value → Next R Value
  | .newTicker, .step =>
    if o.heartbeatInterval ≤ 0 then some (g, .panicked, []) else some (g, .beating, [])
  | .beating, .step => if g.heartbeatStopped then some (g, .beatingEnded none, []) else none
  | .beating, .answer a =>
    match g.serviceInstance with
    | none => some (g, .panicked, [])
    | some inst =>
      match reg.heartbeat g.registry o.serviceName inst.id a with
      | none => some (g, .beating, [])
      | some e => some (g, .beatingEnded (some (.wrapf "heartbeat failed: %w" [] e)), [])
  | _, _ => none

def stopStep : Pc Value → Ev R A Value → Next R Value
  | .stopCall, .step => some ({ g with heartbeatStopped := true }, .stopCheck, [])
  | .stopCheck, .step =>
    match o.enableRegistry, g.serviceInstance with
    | true, some inst => some (g, .deregistering inst.id, [])
    | _, _ => some (g, .transport .closeCall, [])
  | .deregistering instanceID, .answer a =>
    match reg.deregister g.registry o.serviceName instanceID a with
    | none => some (g, .panicked, [])
    | some (some e, r) =>
      some ({ g with registry := r }, .stopFailed (.wrapf "deregister from registry: %w" [] e), [])
    | some (none, r) => some ({ g with registry := r }, .transport .closeCall, [])
  | _, _ => none

/-- A step of the transport; its `Close` has nothing to close before `Listen`. -/
def transportStep : Pc Value → Ev R A Value → Next R Value
  | .transport pc, .transport e =>
    match g.listener, pc with
    | none, .closeListener => some (g, .transport .closeWait, [])
    | _, pc =>
      match Tcp.ServerModel.serverStep o.transport g.transport pc e with
      | none => none
      | some (tr, pc, new) => some ({ g with transport := tr }, .transport pc, new.map .transport)
  | .elsewhere, .elsewhere r => some ({ g with registry := r }, .elsewhere, [])
  | _, _ => none

def lifeStep (pc : Pc Value) (e : Ev R A Value) : Next R Value :=
  (startStep o reg g pc e).or <| (heartbeatStep o reg g pc e).or <|
    (stopStep o reg g pc e).or (transportStep o g pc e)

end Steps

def lifecycle (o : Options) (reg : Registrar R A) :
    Program (ServerState R Value) (Pc Value) (Ev R A Value) where
  step g pc e := lifeStep o reg g pc e

def newServer (o : Options) (r : R) : ServerState R Value :=
  ⟨Tcp.ServerModel.newServer o.transport, none, false, none, false, r⟩

/-- `n` goroutines may call `Start`, and `m` may call `Stop`. -/
def start (o : Options) (r : R) (n m : Nat) : Config (ServerState R Value) (Pc Value) :=
  ⟨newServer o r, .transport .context :: .elsewhere ::
    (List.replicate n .startListen ++ List.replicate m .stopCall)⟩

/-! ## What a step can do -/

/-- In `Close` of the transport, or returned from it. -/
def closing : Tcp.ServerModel.Pc Value → Bool
  | .closeCall | .closeListener | .closeWait | .closeReturned _ => true
  | _ => false

/-- What a step of the transport does to its flags. -/
inductive Moves (g : Tcp.ServerModel.Server Value) (pc : Tcp.ServerModel.Pc Value)
    (g' : Tcp.ServerModel.Server Value) (pc' : Tcp.ServerModel.Pc Value) : Prop
  | aside : closing pc = false → closing pc' = false → pc' ≠ .watching → g'.closed = g.closed →
      g'.listenerClosed = g.listenerClosed → (g.ctxDone.isSome → g'.ctxDone.isSome) →
      Moves g pc g' pc'
  | watched : pc = .watching → pc' = .watched → g.ctxDone.isSome → g'.closed = g.closed →
      g'.listenerClosed = true → g'.ctxDone = g.ctxDone → Moves g pc g' pc'
  | again : pc = .closeCall → pc' = .closeReturned none → g.closed = true → g' = g →
      Moves g pc g' pc'
  | called : pc = .closeCall → pc' = .closeListener → g.closed = false →
      g' = { g with closed := true } → Moves g pc g' pc'
  | listener : pc = .closeListener → pc' = .closeWait → g.listenerClosed = false →
      g' = { g with listenerClosed := true } → Moves g pc g' pc'
  | refused {e : GoError} : pc = .closeListener → pc' = .closeReturned (some e) →
      g.listenerClosed = true → g' = g → Moves g pc g' pc'
  | waited : pc = .closeWait → pc' = .closeReturned none → g.wg = 0 → g' = g → Moves g pc g' pc'

section Transport
open Tcp.ServerModel

variable {o : ServerOptions} {g g' : Tcp.ServerModel.Server Value}
  {pc pc' : Tcp.ServerModel.Pc Value} {e : Tcp.ServerModel.Ev Value}
  {new : List (Tcp.ServerModel.Pc Value)}

theorem closing_of_conn {k : Nat} (h : pc.conn = some k) : closing pc = false := by
  cases pc <;> first | rfl | cases h

theorem freeStep_moves (h : FreeStep g pc e (g', pc', new)) : Moves g pc g' pc' := by
  rcases h with h | h <;> revert h
  · fun_cases serveStep g pc e <;> intro h <;> try contradiction
    all_goals cases h
    all_goals first
      | exact .aside rfl rfl (by simp) rfl rfl id
      | exact .aside rfl rfl (by simp) rfl rfl fun _ => rfl
      | exact .watched rfl rfl (by assumption) rfl rfl rfl
  · fun_cases closeStep g pc e <;> intro h <;> try contradiction
    all_goals cases h
    all_goals first
      | exact .again rfl rfl (by assumption) rfl
      | exact .called rfl rfl (Bool.eq_false_iff.mpr (by assumption)) rfl
      | exact .listener rfl rfl (Bool.eq_false_iff.mpr (by assumption)) rfl
      | exact .refused rfl rfl (by assumption) rfl
      | exact .waited rfl rfl (by assumption) rfl

theorem serverStep_moves (h : serverStep o g pc e = some (g', pc', new)) :
    Moves g pc g' pc' ∧ ∀ q ∈ new, ∃ k, q.conn = some k := by
  obtain ⟨-, hs⟩ | ⟨k, c, hk, hc, hs⟩ := serverStep_cases h
  · refine ⟨freeStep_moves hs, fun q hq => ?_⟩
    obtain ⟨-, ⟨-, rfl⟩ | ⟨-, rfl⟩⟩ := freeStep_conns hs
    · cases hq
    · rw [List.mem_singleton.mp hq]
      exact ⟨_, rfl⟩
  · obtain ⟨d, hstay⟩ := connStep_stays hc hs
    obtain ⟨hclosed, hlistener, hctx⟩ := connStep_apart hs
    have hnext : pc' ≠ .watching := by
      rintro rfl
      cases hstay.next
    exact ⟨.aside (closing_of_conn hk) (closing_of_conn hstay.next) hnext hclosed hlistener
      (by rw [hctx]; exact id), fun q hq => ⟨k, hstay.spawned q hq⟩⟩

/-- The goroutines that a step starts work for a connection. -/
theorem spawned_ne {p : Tcp.ServerModel.Pc Value} (hnew : ∀ q ∈ new, ∃ k, q.conn = some k)
    (hp : p.conn = none) : ∀ q ∈ new.map Lifecycle.Pc.transport, q ≠ .transport p := by
  intro q hq heq
  obtain ⟨p', hp', rfl⟩ := List.mem_map.mp hq
  obtain ⟨k, hk⟩ := hnew p' hp'
  cases heq
  cases hp.symm.trans hk

end Transport

/-- Nothing is left to do but heartbeats. -/
def ended : Pc Value → Bool
  | .startFailed _ | .stopFailed _ | .newTicker | .beating | .beatingEnded _ | .panicked => true
  | _ => false

def outside : Pc Value → Bool
  | .transport _ => false
  | _ => true

/-- What a step can do, branch by branch. -/
inductive Stepped (o : Options) (reg : Registrar R A) (g : ServerState R Value) :
    Pc Value → Ev R A Value → ServerState R Value → Pc Value → List (Pc Value) → Prop
  | ends {pc pc' : Pc Value} {e : Ev R A Value} : outside pc = true → ended pc' = true →
      Stepped o reg g pc e g pc' []
  | listened {addr : String} {e : Ev R A Value} : g.listener = none →
      Stepped o reg g .startListen e { g with listener := some addr }
        (if o.enableRegistry then .startRegister else .startServe) []
  | named {addr : String} {t : Int} {inst : ServiceInstance} {e : Ev R A Value} :
      g.listener = some addr →
      Registration.registerService o.serviceName o.serviceVersion addr t (fun _ => none) =
        .ok inst →
      Stepped o reg g .startRegister e { g with serviceInstance := some inst }
        (.registering inst) []
  | refused {inst : ServiceInstance} {r : R} {err : GoError} {e : Ev R A Value} :
      Stepped o reg g (.registering inst) e { g with registry := r } (.startFailed err) []
  | registered {inst : ServiceInstance} {r : R} {a : A} {e : Ev R A Value} :
      reg.register g.registry inst a = some (none, r) →
      Stepped o reg g (.registering inst) e { g with registry := r } .startHeartbeat []
  | beats {e : Ev R A Value} : Stepped o reg g .startHeartbeat e g .startServe [.newTicker]
  | serves {e : Ev R A Value} : g.listener.isSome = true → g.serving = false →
      Stepped o reg g .startServe e { g with serving := true } (.transport .accepting)
        [.transport .watching]
  | stops {e : Ev R A Value} :
      Stepped o reg g .stopCall e { g with heartbeatStopped := true } .stopCheck []
  | found {inst : ServiceInstance} {e : Ev R A Value} : g.serviceInstance = some inst →
      Stepped o reg g .stopCheck e g (.deregistering inst.id) []
  | unfound {e : Ev R A Value} : (o.enableRegistry = true → g.serviceInstance = none) →
      Stepped o reg g .stopCheck e g (.transport .closeCall) []
  | kept {id : String} {r : R} {a : A} {err : GoError} {e : Ev R A Value} :
      reg.deregister g.registry o.serviceName id a = some (some err, r) →
      Stepped o reg g (.deregistering id) e { g with registry := r }
        (.stopFailed (.wrapf "deregister from registry: %w" [] err)) []
  | withdrawn {id : String} {r : R} {a : A} {e : Ev R A Value} :
      reg.deregister g.registry o.serviceName id a = some (none, r) →
      Stepped o reg g (.deregistering id) e { g with registry := r } (.transport .closeCall) []
  | unbound {e : Ev R A Value} : g.listener = none →
      Stepped o reg g (.transport .closeListener) e g (.transport .closeWait) []
  | transport {pc pc' : Tcp.ServerModel.Pc Value} {e : Tcp.ServerModel.Ev Value}
      {tr : Tcp.ServerModel.Server Value} {new : List (Tcp.ServerModel.Pc Value)} :
      (g.listener = none → pc ≠ .closeListener) →
      Tcp.ServerModel.serverStep o.transport g.transport pc e = some (tr, pc', new) →
      Stepped o reg g (.transport pc) (.transport e) { g with transport := tr } (.transport pc')
        (new.map .transport)
  | elsewhere {r : R} :
      Stepped o reg g .elsewhere (.elsewhere r) { g with registry := r } .elsewhere []

section Inversion
variable {o : Options} {reg : Registrar R A} {g g' : ServerState R Value} {pc pc' : Pc Value}
  {e : Ev R A Value} {new : List (Pc Value)}

theorem startStep_stepped (h : startStep o reg g pc e = some (g', pc', new)) :
    Stepped o reg g pc e g' pc' new := by
  revert h
  fun_cases startStep o reg g pc e <;> intro h <;> cases h
  case case2 hlisten =>
    unfold listen at hlisten
    split at hlisten <;> cases hlisten
    exact .listened (by assumption)
  case case5 hlistener _ hinst => exact .named hlistener hinst
  case case7 => exact .refused
  case case8 hreg => exact .registered hreg
  case case9 => exact .beats
  case case12 hserving hlistener => exact .serves (by rw [hlistener]; rfl) hserving
  all_goals exact .ends rfl rfl

theorem heartbeatStep_stepped (h : heartbeatStep o reg g pc e = some (g', pc', new)) :
    Stepped o reg g pc e g' pc' new := by
  revert h
  fun_cases heartbeatStep o reg g pc e <;> intro h <;> cases h <;> exact .ends rfl rfl

theorem stopStep_stepped (h : stopStep o reg g pc e = some (g', pc', new)) :
    Stepped o reg g pc e g' pc' new := by
  revert h
  fun_cases stopStep o reg g pc e <;> intro h <;> cases h
  case case1 => exact .stops
  case case2 hinst _ => exact .found hinst
  case case3 hnone =>
    refine .unfound fun henable => ?_
    cases hinst : g.serviceInstance with
    | none => rfl
    | some inst => exact absurd hinst (hnone inst henable)
  case case4 => exact .ends rfl rfl
  case case5 hreg => exact .kept hreg
  case case6 hreg => exact .withdrawn hreg

theorem transportStep_stepped (h : transportStep o g pc e = some (g', pc', new)) :
    Stepped o reg g pc e g' pc' new := by
  revert h
  fun_cases transportStep o g pc e <;> intro h <;> cases h
  case case1 hnone => exact .unbound hnone
  case case3 hs hat => exact .transport hat hs
  case case4 => exact .elsewhere

theorem lifeStep_stepped (h : lifeStep o reg g pc e = some (g', pc', new)) :
    Stepped o reg g pc e g' pc' new := by
  simp only [lifeStep, Option.or_eq_some_iff] at h
  rcases h with h | ⟨-, h | ⟨-, h | ⟨-, h⟩⟩⟩
  · exact startStep_stepped h
  · exact heartbeatStep_stepped h
  · exact stopStep_stepped h
  · exact transportStep_stepped h

theorem fire_life {s t : Config (ServerState R Value) (Pc Value)} {i : Nat}
    (h : (lifecycle o reg).fire s i e = some t) :
    ∃ pc g' pc' new, s.threads[i]? = some pc ∧ t = ⟨g', s.threads.set i pc' ++ new⟩ ∧
      Stepped o reg s.shared pc e g' pc' new := by
  obtain ⟨pc, g', pc', new, hi, hs, rfl⟩ := fire_cases h
  exact ⟨pc, g', pc', new, hi, rfl, lifeStep_stepped hs⟩

end Inversion

/-! ## The instance -/

section Instance
variable {serviceName serviceVersion addr : String} {now : Int}
  {register : ServiceInstance → Option GoError} {inst : ServiceInstance}

theorem registerService_splits
    (h : Registration.registerService serviceName serviceVersion addr now register = .ok inst) :
    ∃ hp, Registration.splitHostPort addr = .ok hp := by
  unfold Registration.registerService at h
  split at h
  · cases h
  · rename_i hsplit
    exact ⟨_, hsplit⟩

theorem registerService_service
    (h : Registration.registerService serviceName serviceVersion addr now register = .ok inst) :
    inst.service = serviceName := by
  obtain ⟨⟨host, portStr⟩, hsplit⟩ := registerService_splits h
  unfold Registration.registerService at h
  rw [hsplit] at h
  simp only at h
  split at h
  · cases h
  split at h
  · cases h
  · cases h
    split <;> rfl

end Instance

/-! ## Runs -/

/-- What may be asked of a run: `Stop` is called only when `Start` has listened and is not
registering; the goroutine of `Serve` that waits for the context does not close the listener;
nobody else puts the instance into the registry, or takes it out; `Stop` is called once; the wait
of `Close` ends when the deferred calls of the connections are over. -/
inductive Condition where
  | startedFirst
  | listenerKept
  | notAdded
  | notRemoved
  | calledOnce
  | deferredOver
  deriving DecidableEq

/-- `registerService` is not over. -/
def enrolling : Pc Value → Bool
  | .startRegister | .registering _ => true
  | _ => false

def cancelling : Pc Value → Bool
  | .transport pc => Tcp.CloseReturn.cancelling pc
  | _ => false

/-- The instance of the server is in the registry. -/
def present (o : Options) (reg : Registrar R A) (g : ServerState R Value) : Bool :=
  match g.serviceInstance with
  | none => false
  | some inst => reg.has g.registry (reg.key o.serviceName inst.id)

def asks (o : Options) (reg : Registrar R A) (c : Condition)
    (s : Config (ServerState R Value) (Pc Value)) (i : Nat) (e : Ev R A Value) : Bool :=
  match c, s.threads[i]?, e with
  | .startedFirst, some .stopCall, _ => s.shared.listener.isSome && !s.threads.any enrolling
  | .listenerKept, some (.transport .watching), _ => s.shared.transport.listenerClosed
  | .notAdded, _, .elsewhere r =>
    present o reg s.shared || !present o reg { s.shared with registry := r }
  | .notRemoved, _, .elsewhere r =>
    !present o reg s.shared || present o reg { s.shared with registry := r }
  | .calledOnce, some .stopCall, _ => !s.shared.heartbeatStopped
  | .deferredOver, some (.transport .closeWait), _ => !s.threads.any cancelling
  | _, _, _ => true

theorem start_threads {o : Options} {r : R} {n m : Nat} {pc : Pc Value}
    (h : pc ∈ (start o r n m).threads) :
    pc = .transport .context ∨ pc = .elsewhere ∨ pc = .startListen ∨ pc = .stopCall := by
  simp only [start, List.mem_cons, List.mem_append, List.mem_replicate] at h
  tauto

end RpcInGo.Server.Lifecycle
