import Mathlib.Logic.Function.Basic
import RpcInGo.Lib.Goroutine
import RpcInGo.Registry.Memory

/-!
The instance cache of `discoverySource` in `pkg/client/source.go`, over the
in-memory registry: any number of `getInstances` calls, the `watchService`
goroutines they start, and callers of the registry. `watchService` holds
`watchMu` from its check to its subscription, which is one step here.

* `step_stepped`: what one step can do.
-/

namespace RpcInGo.Client.Source
open Lib.Goroutine Protocol.Message Registry.Instance Registry.Memory

/-- What the fields `discovery` and `enableWatch` of a `discoverySource` hold. -/
structure SourceConfig where
  hasDiscovery : Bool
  enableWatch : Bool
  deriving DecidableEq, Repr

/-- The loop of the update case, which stops at the first entry with the ID. -/
def replaceFirst (inst : ServiceInstance) : List ServiceInstance → List ServiceInstance
  | [] => []
  | x :: xs => if x.id = inst.id then inst :: xs else x :: replaceFirst inst xs

theorem mem_replaceFirst {inst x : ServiceInstance} {l : List ServiceInstance}
    (h : x ∈ replaceFirst inst l) : x = inst ∨ x ∈ l := by
  induction l with
  | nil => cases h
  | cons y l ih =>
    rw [replaceFirst] at h
    split at h
    · exact (List.mem_cons.mp h).imp_right (List.mem_cons_of_mem y)
    · rcases List.mem_cons.mp h with rfl | h
      · exact .inr List.mem_cons_self
      · exact (ih h).imp_right (List.mem_cons_of_mem y)

/-- `handleWatchEvent` on the cached list: the new one, and the endpoint whose
pool is removed. -/
def handleWatchEvent (instances : List ServiceInstance) (event : Event) :
    List ServiceInstance × Option String :=
  match event.type with
  | .add => (instances ++ [event.inst], none)
  | .delete => (instances.filter (·.id ≠ event.inst.id), some event.inst.endpoint)
  | .update => (replaceFirst event.inst instances, none)

/-- The registry, the maps of the `discoverySource`, and bookkeeping of the model:
for each service the events emitted so far, how many of them the registry had
emitted when the cached list was read from it, and up to which one the watch has
handled them. -/
structure Shared where
  registry : MemoryRegistry
  instanceCache : String → Option (List ServiceInstance)
  watchers : String → Option Nat
  log : String → List Event
  cachedAt : String → Nat
  handledTo : String → Nat

/-- Where a goroutine is: in `getInstances`, in `watchService`, or calling the
registry. A snapshot carries the number of events emitted before it. -/
inductive Pc
  | called (service : String)
  | missed (service : String)
  | holding (service : String) (instances : List ServiceInstance) (version : Nat)
  | stored (service : String) (instances : List ServiceInstance)
  | returned (instances : List ServiceInstance) (err : Option GoError)
  | starting (service : String)
  | watching (service : String) (ch : Nat)
  | handling (service : String) (ch : Nat) (event : Event)
  | stopped
  | operator
  deriving DecidableEq, Repr

/-- `discover` says in which order the registry lists its map; `nextFails` is a
watcher whose `Next` returns an error. -/
inductive Ev
  | read
  | discover (order : List ServiceInstance)
  | store
  | spawn
  | start
  | next
  | nextFails
  | handle
  | register (inst : ServiceInstance)
  | deregister (service instanceID : String)
  | update (inst : ServiceInstance)
  deriving DecidableEq, Repr

namespace Shared

def store (g : Shared) (service : String) (instances : List ServiceInstance) (version : Nat) :
    Shared :=
  { g with
    instanceCache := Function.update g.instanceCache service (some instances)
    cachedAt := Function.update g.cachedAt service version }

def subscribe (g : Shared) (service : String) : Shared :=
  { g with
    registry := (g.registry.watch service).1
    watchers := Function.update g.watchers service (some (g.registry.watch service).2)
    handledTo := Function.update g.handledTo service (g.log service).length }

def handle (g : Shared) (service : String) (event : Event) : Shared :=
  { g with
    instanceCache := Function.update g.instanceCache service
      (some (handleWatchEvent ((g.instanceCache service).getD []) event).1)
    handledTo := Function.update g.handledTo service (g.handledTo service + 1) }

def emit (g : Shared) (registry : MemoryRegistry) (event : Event) : Shared :=
  { g with
    registry := registry
    log := Function.update g.log event.inst.service (g.log event.inst.service ++ [event]) }

end Shared

/-- The operations of the registry that a caller may use. -/
def operate (g : Shared) : Ev → Option Shared
  | .register inst =>
    match g.registry.register inst with
    | some r => some (g.emit r ⟨.add, inst⟩)
    | none => none
  | .deregister service instanceID =>
    match g.registry.deregister service instanceID,
      g.registry.instances.find? (·.id = instanceID) with
    | some (r, _), some inst => some (g.emit r ⟨.delete, inst⟩)
    | some (r, _), none => some { g with registry := r }
    | none, _ => none
  | .update inst =>
    match g.registry.update inst with
    | some (r, none) => some (g.emit r ⟨.update, inst⟩)
    | some (r, some _) => some { g with registry := r }
    | none => none
  | _ => none

def step (cfg : SourceConfig) (g : Shared) : Pc → Ev → Option (Shared × Pc × List Pc)
  | .called service, .read =>
    match g.instanceCache service with
    | some (x :: xs) => some (g, .returned (x :: xs) none, [])
    | _ => some (g, .missed service, [])
  | .missed service, .discover order =>
    if cfg.hasDiscovery then
      if order.Perm (g.registry.getInstances service) then
        some (g, .holding service order (g.log service).length, [])
      else none
    else some (g, .returned [] (some (.errorf "no discovery configured" [])), [])
  | .holding service instances version, .store =>
    some (g.store service instances version, .stored service instances, [])
  | .stored service instances, .spawn =>
    some (g, .returned instances none, if cfg.enableWatch then [.starting service] else [])
  | .starting service, .start =>
    match g.watchers service with
    | some _ => some (g, .stopped, [])
    | none => some (g.subscribe service, .watching service (g.registry.watch service).2, [])
  | .watching service ch, .next =>
    match g.registry.next ch with
    | some (r, .ok event) => some ({ g with registry := r }, .handling service ch event, [])
    | some (r, .error _) => some ({ g with registry := r }, .stopped, [])
    | none => none
  | .watching _ _, .nextFails => some (g, .stopped, [])
  | .handling service ch event, .handle =>
    some (g.handle service event, .watching service ch, [])
  | .operator, e => (operate g e).map fun g' => (g', .operator, [])
  | _, _ => none

def source (cfg : SourceConfig) : Program Shared Pc Ev := ⟨step cfg⟩

/-- An empty registry and an empty cache, with calls for the listed services and
some callers of the registry. -/
def start (services : List String) (operators : Nat) : Config Shared Pc :=
  ⟨⟨newRegistry, fun _ => none, fun _ => none, fun _ => [], fun _ => 0, fun _ => 0⟩,
    services.map .called ++ List.replicate operators .operator⟩

/-! ## What a step can do -/

inductive Stepped (cfg : SourceConfig) (g : Shared) : Pc → Ev → Shared → Pc → List Pc → Prop
  | hit {service : String} {x : ServiceInstance} {xs : List ServiceInstance} :
      g.instanceCache service = some (x :: xs) →
      Stepped cfg g (.called service) .read g (.returned (x :: xs) none) []
  | miss {service : String} : (∀ x xs, g.instanceCache service ≠ some (x :: xs)) →
      Stepped cfg g (.called service) .read g (.missed service) []
  | noDiscovery {service : String} {order : List ServiceInstance} : cfg.hasDiscovery = false →
      Stepped cfg g (.missed service) (.discover order) g
        (.returned [] (some (.errorf "no discovery configured" []))) []
  | snapshot {service : String} {order : List ServiceInstance} : cfg.hasDiscovery = true →
      order.Perm (g.registry.getInstances service) →
      Stepped cfg g (.missed service) (.discover order) g
        (.holding service order (g.log service).length) []
  | store {service : String} {instances : List ServiceInstance} {version : Nat} :
      Stepped cfg g (.holding service instances version) .store
        (g.store service instances version) (.stored service instances) []
  | spawn {service : String} {instances : List ServiceInstance} :
      Stepped cfg g (.stored service instances) .spawn g (.returned instances none)
        (if cfg.enableWatch then [.starting service] else [])
  | already {service : String} {ch : Nat} : g.watchers service = some ch →
      Stepped cfg g (.starting service) .start g .stopped []
  | subscribe {service : String} : g.watchers service = none →
      Stepped cfg g (.starting service) .start (g.subscribe service)
        (.watching service g.registry.watchers.length) []
  | received {service : String} {ch : Nat} {r : MemoryRegistry} {event : Event} :
      g.registry.next ch = some (r, .ok event) →
      Stepped cfg g (.watching service ch) .next { g with registry := r }
        (.handling service ch event) []
  | ended {service : String} {ch : Nat} {r : MemoryRegistry} {err : GoError} :
      g.registry.next ch = some (r, .error err) →
      Stepped cfg g (.watching service ch) .next { g with registry := r } .stopped []
  | failed {service : String} {ch : Nat} :
      Stepped cfg g (.watching service ch) .nextFails g .stopped []
  | handled {service : String} {ch : Nat} {event : Event} :
      Stepped cfg g (.handling service ch event) .handle (g.handle service event)
        (.watching service ch) []
  | operated {e : Ev} {g' : Shared} : operate g e = some g' →
      Stepped cfg g .operator e g' .operator []

theorem step_stepped {cfg : SourceConfig} {g g' : Shared} {pc pc' : Pc} {e : Ev} {new : List Pc}
    (h : step cfg g pc e = some (g', pc', new)) : Stepped cfg g pc e g' pc' new := by
  revert h
  fun_cases step cfg g pc e <;> intro h <;> try cases h
  case case1 hc => exact .hit hc
  case case2 hc => exact .miss hc
  case case3 hd hperm => exact .snapshot hd hperm
  case case5 hd => exact .noDiscovery (Bool.eq_false_of_not_eq_true hd)
  case case6 => exact .store
  case case7 => exact .spawn
  case case8 hw => exact .already hw
  case case9 hw => exact .subscribe hw
  case case10 hn => exact .received hn
  case case11 hn => exact .ended hn
  case case13 => exact .failed
  case case14 => exact .handled
  case case15 =>
    obtain ⟨g₁, hop, heq⟩ := Option.map_eq_some_iff.mp h
    cases heq
    exact .operated hop

end RpcInGo.Client.Source
