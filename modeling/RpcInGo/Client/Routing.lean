import RpcInGo.Balancer.RoundRobin
import RpcInGo.Lib.Slices
import RpcInGo.Pool.Managed
import RpcInGo.Registry.Shutdown

/-!
The way of a call through `discoverySource`: from the cached list of its service over the balancer
to the pool of the endpoint that was picked. Any number of calls for any services, the watches they
start, the users of the in-memory registry and the other goroutines at the pools take their steps
in any order. A `discoverySource` has a registry: `NewDiscoveryClient` asks for one.

* `getInstancesStep`, `acquireStep`, `watchStep`: the methods of `discoverySource`;
* `step_kept`: what one step keeps of the origin of every instance in sight;
* `routed`: a call only gets a connection of a pool made for the endpoint of an instance of its
  service, with which somebody has called `Register` or `Update`.
-/

namespace RpcInGo.Client.Routing
open Lib.Channel Lib.Goroutine Lib.Slices Protocol.Message Registry.Instance Registry.Memory
open Balancer.RoundRobin (RoundRobinBalancer newRoundRobin)
open Registry.Shutdown (anInstance)
open Pool

/-! ## The model -/

/-- The balancers that keep nothing of the lists they are given. -/
inductive ListBalancer where
  | roundRobin (rb : RoundRobinBalancer)
  | random
  deriving DecidableEq

/-- `Pick` on a list with `n` entries, up to the index that it reads; `drawn % n` stands for
`Intn(n)`. -/
def ListBalancer.index (b : ListBalancer) (n drawn : Nat) : Nat × ListBalancer :=
  match b with
  | .roundRobin rb => ((rb.index + 1).toNat % n, .roundRobin ⟨rb.index + 1⟩)
  | .random => (drawn % n, .random)

/-- The registry and the fields of the `discoverySource`. `cacheLocked`: `cacheMu` is held across
steps, which only `handleWatchEvent` does. -/
structure World where
  registry : MemoryRegistry
  heap : Heap ServiceInstance
  instanceCache : String → Option Slice
  watchers : String → Option Nat
  cacheLocked : Bool
  loadBalancer : ListBalancer
  manager : Managed.ManagerState

def World.cached (w : World) (service : String) : Slice :=
  (w.instanceCache service).getD Slice.nil

def World.store (w : World) (service : String) (s : Slice) : World :=
  { w with instanceCache := Function.update w.instanceCache service (some s) }

structure RoutingConfig where
  manager : Managed.ManagerConfig
  enableWatch : Bool

inductive Pc where
  | called (service : String)
  | missed (service : String)
  | holding (service : String) (instances : Slice)
  | stored (service : String) (instances : Slice)
  | listed (service : String) (instances : Slice)
  | picking (service : String) (instances : Slice) (idx : Nat)
  /-- In `GetConnection`; the connection is the call's when it has returned one. -/
  | connecting (service : String) (inst : ServiceInstance) (pc : Managed.Pc)
  | failed (err : GoError)
  | starting (service : String)
  | watching (service : String) (ch : Nat)
  | handling (service : String) (ch : Nat) (event : Event)
  /-- In `RemovePool`, with the filtered list yet to be stored. -/
  | removing (service : String) (ch : Nat) (filtered : Slice) (pc : Managed.Pc)
  | stopped
  /-- A user of the registry. -/
  | operator
  /-- A connection on its way back, a background routine, `poolManager.Close`. -/
  | pooled (pc : Managed.Pc)
  deriving DecidableEq, Repr

/-- `discover` has the order in which the registry lists its map, `spare` is the room that `append`
leaves in a new array, `draw` the random number. -/
inductive Ev where
  | step
  | discover (order : List ServiceInstance) (spare : Nat)
  | draw (n : Nat)
  | nextFails
  | handle (spare : Nat)
  | register (inst : ServiceInstance)
  | deregister (service instanceID : String)
  | update (inst : ServiceInstance)
  | pool (e : Managed.Ev)

/-- The slice that `GetInstances` returns, which is nil without instances. -/
def collect (h : Heap ServiceInstance) (order : List ServiceInstance) (spare : Nat) :
    Slice × Heap ServiceInstance :=
  if order.length = 0 then (Slice.nil, h) else make h order spare

def getInstancesStep (cfg : RoutingConfig) (w : World) : Pc → Ev → Option (World × Pc × List Pc)
  | .called service, .step =>
    if w.cacheLocked then none
    else if 0 < (w.cached service).len then some (w, .listed service (w.cached service), [])
    else some (w, .missed service, [])
  | .missed service, .discover order spare =>
    if order.Perm (w.registry.getInstances service) then
      let result := collect w.heap order spare
      some ({ w with heap := result.2 }, .holding service result.1, [])
    else none
  | .holding service instances, .step =>
    if w.cacheLocked then none
    else some (w.store service instances, .stored service instances, [])
  | .stored service instances, .step =>
    some (w, .listed service instances, if cfg.enableWatch then [.starting service] else [])
  | _, _ => none

/-- `GetConnection` and `RemovePool` are called by the source only. -/
def sourceOnly : Managed.Ev → Bool
  | .getConnection _ | .removePool _ => true
  | _ => false

/-- What a caller does with its connection: `Release` or `Close`. -/
def releases (n : Nat) (c : Model.ConnId) : Managed.Ev → Bool
  | .use n' (.put c') => n' = n && c' = some c
  | .use n' (.closeConn c') => n' = n && c' = c
  | _ => false

/-- A step of a goroutine at the pools, which goes on at `k`. -/
def atPools (cfg : RoutingConfig) (w : World) (pc : Managed.Pc) (e : Managed.Ev)
    (k : Managed.Pc → Pc) : Option (World × Pc × List Pc) :=
  (Managed.managerStep cfg.manager w.manager pc e).map fun r =>
    ({ w with manager := r.1 }, k r.2, [])

/-- `acquire` after `getInstances`, and the connection on its way back. -/
def acquireStep (cfg : RoutingConfig) (w : World) : Pc → Ev → Option (World × Pc × List Pc)
  | .listed service instances, .draw n =>
    if instances.len = 0 then
      some (w, .failed (.errorf "no available instances for %s" [.str service]), [])
    else
      let r := w.loadBalancer.index instances.len n
      some ({ w with loadBalancer := r.2 }, .picking service instances r.1, [])
  -- the entry is read without a lock, after the index was drawn
  | .picking service instances idx, .step =>
    match (values w.heap instances)[idx]? with
    | none => none
    | some inst => some (w, .connecting service inst (.getLookup inst.endpoint), [])
  | .connecting service inst pc, .pool e =>
    match pc with
    | .returned (.conn n c) => if releases n c e then atPools cfg w pc e .pooled else none
    | .returned _ => none
    | _ => atPools cfg w pc e (.connecting service inst)
  | .connecting _ inst (.returned (.error err)), .step =>
    some (w, .failed (.wrapf "get connection to %s: %w" [.str inst.endpoint] err), [])
  | .pooled pc, .pool e => if sourceOnly e then none else atPools cfg w pc e .pooled
  | _, _ => none

/-- `handleWatchEvent` up to its call of `RemovePool`, if it makes one. -/
def handleWatchEvent (w : World) (service : String) (ch : Nat) (event : Event) (spare : Nat) :
    World × Pc :=
  let instances := w.cached service
  let old := values w.heap instances
  match event.type with
  | .add =>
    let r := append w.heap instances event.inst spare
    ({ w with heap := r.2 }.store service r.1, .watching service ch)
  | .delete =>
    let filtered := old.filter (·.id ≠ event.inst.id)
    let r := make w.heap filtered (old.length - filtered.length)
    ({ w with heap := r.2, cacheLocked := true },
      .removing service ch r.1 (.removeLock event.inst.endpoint))
  | .update =>
    match old.findIdx? (·.id = event.inst.id) with
    | none => (w.store service instances, .watching service ch)
    | some i =>
      ({ w with heap := write w.heap instances i event.inst }.store service instances,
        .watching service ch)

/-- `watchService`, which holds `watchMu` from its check to its subscription. -/
def watchStep (cfg : RoutingConfig) (w : World) : Pc → Ev → Option (World × Pc × List Pc)
  | .starting service, .step =>
    match w.watchers service with
    | some _ => some (w, .stopped, [])
    | none =>
      let r := w.registry.watch service
      some ({ w with registry := r.1, watchers := Function.update w.watchers service (some r.2) },
        .watching service r.2, [])
  | .watching service ch, .step =>
    match w.registry.next ch with
    | some (r, .ok event) => some ({ w with registry := r }, .handling service ch event, [])
    | some (r, .error _) => some ({ w with registry := r }, .stopped, [])
    | none => none
  | .watching _ _, .nextFails => some (w, .stopped, [])
  | .handling service ch event, .handle spare =>
    if w.cacheLocked then none
    else some ((handleWatchEvent w service ch event spare).1,
      (handleWatchEvent w service ch event spare).2, [])
  | .removing service ch filtered pc, .pool e =>
    match pc with
    | .returned _ => none
    | _ => atPools cfg w pc e (.removing service ch filtered)
  | .removing service ch filtered (.returned _), .step =>
    some ({ w with cacheLocked := false }.store service filtered, .watching service ch, [])
  | _, _ => none

def operatorStep (w : World) : Pc → Ev → Option (World × Pc × List Pc)
  | .operator, .register inst =>
    (w.registry.register inst).map fun r => ({ w with registry := r }, .operator, [])
  | .operator, .deregister service instanceID =>
    (w.registry.deregister service instanceID).map fun r =>
      ({ w with registry := r.1 }, .operator, [])
  | .operator, .update inst =>
    (w.registry.update inst).map fun r => ({ w with registry := r.1 }, .operator, [])
  | _, _ => none

def routingStep (cfg : RoutingConfig) (w : World) (pc : Pc) (e : Ev) :
    Option (World × Pc × List Pc) :=
  (getInstancesStep cfg w pc e).or <| (acquireStep cfg w pc e).or <|
    (watchStep cfg w pc e).or (operatorStep w pc e)

def routing (cfg : RoutingConfig) : Program World Pc Ev := ⟨routingStep cfg⟩

/-- A new client: calls for the listed services, users of the registry, and goroutines that may
use the pools. -/
def start (b : ListBalancer) (services : List String) (operators users : Nat) : Config World Pc :=
  ⟨⟨newRegistry, [], fun _ => none, fun _ => none, false, b, .new⟩,
    services.map .called ++ List.replicate operators .operator ++
      List.replicate users (.pooled (.returned .done))⟩

/-! ## Where instances come from -/

/-- Somebody has called `Register` or `Update` with the instance. -/
def Registered (tr : List (Nat × Ev)) (inst : ServiceInstance) : Prop :=
  ∃ i, (i, .register inst) ∈ tr ∨ (i, .update inst) ∈ tr

def Listing (tr : List (Nat × Ev)) (service : String) (inst : ServiceInstance) : Prop :=
  inst.service = service ∧ Registered tr inst

theorem Registered.mono {tr tr' : List (Nat × Ev)} {inst : ServiceInstance} (h : tr ⊆ tr')
    (hr : Registered tr inst) : Registered tr' inst := by
  obtain ⟨i, hi⟩ := hr
  exact ⟨i, hi.imp (fun hm => h hm) fun hm => h hm⟩

theorem Listing.mono {tr tr' : List (Nat × Ev)} {service : String} {inst : ServiceInstance}
    (h : tr ⊆ tr') (hl : Listing tr service inst) : Listing tr' service inst :=
  ⟨hl.1, hl.2.mono h⟩

/-- The registry has instances that were registered, and its channels carry events of their own
service. -/
structure Genuine (tr : List (Nat × Ev)) (r : MemoryRegistry) : Prop where
  known : ∀ inst ∈ r.instances, Registered tr inst
  queued : ∀ sub ∈ r.watchers, ∀ event ∈ sub.ch.buf, Listing tr sub.service event.inst

/-- Which channel is for which service. -/
def channels (r : MemoryRegistry) : List String := r.watchers.map (·.service)

section Registry
variable {tr : List (Nat × Ev)} {r r' : MemoryRegistry} {inst : ServiceInstance}

theorem offer_queued {sub sub' : Subscription} {event : Event}
    (h : sub.offer event.inst.service event = some sub') (hreg : Registered tr event.inst)
    (hq : ∀ x ∈ sub.ch.buf, Listing tr sub.service x.inst) :
    sub'.service = sub.service ∧ ∀ x ∈ sub'.ch.buf, Listing tr sub'.service x.inst := by
  unfold Subscription.offer at h
  split at h
  · rename_i hs
    split at h
    · rename_i ch hsend
      cases h
      refine ⟨rfl, fun x hx => ?_⟩
      rw [(send_ok hsend).1] at hx
      rcases List.mem_append.mp hx with hx | hx
      · exact hq x hx
      · rw [List.mem_singleton.mp hx]
        exact ⟨hs.symm, hreg⟩
    · cases h
      exact ⟨rfl, hq⟩
    · cases h
  · cases h
    exact ⟨rfl, hq⟩

theorem notify_queued {ws ws' : List Subscription} {event : Event}
    (h : notify event.inst.service event ws = some ws') (hreg : Registered tr event.inst)
    (hq : ∀ sub ∈ ws, ∀ x ∈ sub.ch.buf, Listing tr sub.service x.inst) :
    ws'.map (·.service) = ws.map (·.service) ∧
      ∀ sub ∈ ws', ∀ x ∈ sub.ch.buf, Listing tr sub.service x.inst := by
  induction ws generalizing ws' with
  | nil =>
    cases h
    exact ⟨rfl, hq⟩
  | cons sub rest ih =>
    unfold notify at h
    split at h
    · rename_i sub' rest' hoffer hrest
      cases h
      obtain ⟨hsub, hqs⟩ := List.forall_mem_cons.mp hq
      obtain ⟨hservice, hsub'⟩ := offer_queued hoffer hreg hsub
      obtain ⟨hservices, hrest'⟩ := ih hrest hqs
      exact ⟨by simp [hservice, hservices], List.forall_mem_cons.mpr ⟨hsub', hrest'⟩⟩
    · cases h

theorem mem_put {l : List ServiceInstance} {x : ServiceInstance} (h : x ∈ put l inst) :
    x ∈ l ∨ x = inst := by
  rcases List.mem_append.mp h with h | h
  · exact .inl (List.mem_of_mem_filter h)
  · exact .inr (List.mem_singleton.mp h)

theorem Genuine.put (hG : Genuine tr r) (hreg : Registered tr inst) {event : Event}
    (hevent : event.inst = inst) (hput : r'.instances = put r.instances inst)
    (hnotify : notify inst.service event r.watchers = some r'.watchers) :
    Genuine tr r' ∧ channels r' = channels r := by
  subst hevent
  obtain ⟨hservices, hqueued⟩ := notify_queued hnotify hreg hG.queued
  refine ⟨⟨fun x hx => ?_, hqueued⟩, hservices⟩
  rw [hput] at hx
  rcases mem_put hx with hx | rfl
  · exact hG.known x hx
  · exact hreg

theorem Genuine.register (hG : Genuine tr r) (hreg : Registered tr inst)
    (h : r.register inst = some r') : Genuine tr r' ∧ channels r' = channels r :=
  hG.put hreg rfl (register_ok h).1 (register_ok h).2

theorem Genuine.update (hG : Genuine tr r) (hreg : Registered tr inst) {err : Option GoError}
    (h : r.update inst = some (r', err)) : Genuine tr r' ∧ channels r' = channels r := by
  obtain ⟨-, -, hput, hnotify⟩ | ⟨-, -, rfl⟩ := update_cases h
  · exact hG.put hreg rfl hput hnotify
  · exact ⟨hG, rfl⟩

theorem Genuine.deregister (hG : Genuine tr r) {service id : String} {err : Option GoError}
    (h : r.deregister service id = some (r', err)) : Genuine tr r' ∧ channels r' = channels r := by
  cases hf : r.instances.find? (·.id = id) with
  | none =>
    rw [deregister_absent hf h]
    exact ⟨hG, rfl⟩
  | some old =>
    obtain ⟨hremove, hnotify⟩ := deregister_found hf h
    have hreg := hG.known old (List.mem_of_find?_eq_some hf)
    obtain ⟨hservices, hqueued⟩ :=
      @notify_queued tr r.watchers r'.watchers ⟨.delete, old⟩ hnotify hreg hG.queued
    refine ⟨⟨fun x hx => ?_, hqueued⟩, hservices⟩
    rw [hremove] at hx
    exact hG.known x (List.mem_of_mem_filter hx)

theorem Genuine.watch (hG : Genuine tr r) (service : String) :
    Genuine tr (r.watch service).1 ∧ channels (r.watch service).1 = channels r ++ [service] ∧
      (r.watch service).2 = (channels r).length := by
  refine ⟨⟨hG.known, fun sub hsub => ?_⟩, by simp [channels, MemoryRegistry.watch],
    by simp [channels, MemoryRegistry.watch]⟩
  rcases List.mem_append.mp hsub with hsub | hsub
  · exact hG.queued sub hsub
  · rw [List.mem_singleton.mp hsub]
    intro x hx
    cases hx

theorem Genuine.next (hG : Genuine tr r) {ch : Nat} {result : Except GoError Event}
    (h : r.next ch = some (r', result)) : Genuine tr r' ∧ channels r' = channels r ∧
      ∀ event service, result = .ok event → (channels r)[ch]? = some service →
        Listing tr service event.inst := by
  unfold MemoryRegistry.next at h
  split at h
  · cases h
  · rename_i sub hsub
    split at h
    · rename_i event c hrecv
      cases h
      have hbuf := (recv_ok hrecv).1
      have hq := hG.queued sub (List.mem_of_getElem? hsub)
      rw [hbuf] at hq
      refine ⟨⟨hG.known, forall_set (fun x hx => hq x (List.mem_cons_of_mem _ hx)) hG.queued
        fun _ h => h⟩, ?_, ?_⟩
      · exact map_set_same hsub rfl
      · intro event' service heq hch
        cases heq
        rw [channels, List.getElem?_map, hsub] at hch
        cases hch
        exact hq event List.mem_cons_self
    · cases h
      refine ⟨hG, rfl, fun event service heq => ?_⟩
      cases heq
    · cases h

theorem getInstances_listing (hG : Genuine tr r) {service : String} {order : List ServiceInstance}
    (h : order.Perm (r.getInstances service)) : ∀ inst ∈ order, Listing tr service inst := by
  intro inst hinst
  obtain ⟨hmem, hp⟩ := List.mem_filter.mp (h.mem_iff.mp hinst)
  simp only [decide_eq_true_eq] at hp
  exact ⟨hp.1, hG.known inst hmem⟩

end Registry

/-! ## Where connections go -/

/-- The goroutine asks for, is in, or has got a connection of a pool that was created for the
address, or has got none. -/
inductive Toward (m : Managed.ManagerState) (addr : String) : Managed.Pc → Prop
  | lookup : Toward m addr (.getLookup addr)
  | lock : Toward m addr (.getLock addr)
  | enter {n : Nat} : m.pm.created[n]? = some addr → Toward m addr (.getEnter n)
  | inPool {n : Nat} {pc : Model.Pc} : m.pm.created[n]? = some addr → Toward m addr (.inPool n pc)
  | conn {n : Nat} {c : Model.ConnId} : m.pm.created[n]? = some addr →
      Toward m addr (.returned (.conn n c))
  | error {err : GoError} : Toward m addr (.returned (.error err))
  | done : Toward m addr (.returned .done)

section Manager
variable {cfg : Managed.ManagerConfig} {m m' : Managed.ManagerState} {q q' : Managed.Pc}
  {e : Managed.Ev} {addr : String}

theorem getElem?_grown {l l' : List String} {n : Nat} {a : String} (h : l <+: l')
    (hn : l[n]? = some a) : l'[n]? = some a := by
  obtain ⟨more, rfl⟩ := h
  rw [List.getElem?_append_left (List.getElem?_eq_some_iff.mp hn).1, hn]

theorem toward_mono (h : m.pm.created <+: m'.pm.created) (hq : Toward m addr q) :
    Toward m' addr q := by
  cases hq with
  | lookup => exact .lookup
  | lock => exact .lock
  | enter hn => exact .enter (getElem?_grown h hn)
  | inPool hn => exact .inPool (getElem?_grown h hn)
  | conn hn => exact .conn (getElem?_grown h hn)
  | error => exact .error
  | done => exact .done

theorem removingNext_created {n : Nat} {pc : Model.Pc}
    (h : Managed.removingNext m n pc = (m', q')) : m'.pm.created = m.pm.created := by
  unfold Managed.removingNext at h
  split at h <;> cases h <;> rfl

theorem closingNext_created {n : Nat} {pc : Model.Pc}
    (h : Managed.closingNext m addr n pc = (m', q')) : m'.pm.created = m.pm.created := by
  unfold Managed.closingNext at h
  split at h
  · cases h
    rfl
  · cases h
    exact Manager.PoolManager.removePool_created _ _
  · cases h
    rfl

theorem managerStep_created (h : Managed.managerStep cfg m q e = some (m', q')) :
    m.pm.created <+: m'.pm.created := by
  cases Managed.managerStep_stepped h with
  | outside _ _ _ => exact List.prefix_rfl
  | created _ _ => exact List.prefix_append _ _
  | entered _ _ _ _ | worked _ _ => exact List.prefix_rfl
  | removed _ _ => exact (Manager.PoolManager.removePool_created _ _).symm ▸ List.prefix_rfl
  | removing _ _ hnext => exact (removingNext_created hnext).symm ▸ List.prefix_rfl
  | locked _ | visited _ => exact List.prefix_rfl
  | closing _ _ hnext => exact (closingNext_created hnext).symm ▸ List.prefix_rfl
  | closed _ => exact List.prefix_rfl

theorem leave_toward {n : Nat} (h : m.pm.created[n]? = some addr) (pc : Model.Pc) :
    Toward m addr (Managed.leave n pc) := by
  unfold Managed.leave
  split
  · rename_i r
    cases r with
    | conn c => exact .conn h
    | error _ => exact .error
    | done => exact .done
  · exact .inPool h

theorem inPool_toward {n : Nat} {pc : Model.Pc} {f : Model.Ev}
    (hn : m.pm.created[n]? = some addr)
    (h : (m.inPool cfg n pc f).map (fun r => (r.1, Managed.leave n r.2)) = some (m', q')) :
    Toward m' addr q' := by
  obtain ⟨⟨m₁, pc'⟩, hin, heq⟩ := Option.map_eq_some_iff.mp h
  cases heq
  obtain ⟨p, p', -, -, rfl⟩ := Managed.inPool_cases hin
  have hcreated : (m.setPool n p').pm.created[n]? = some addr := hn
  exact leave_toward hcreated pc'

theorem managerStep_toward (hreturned : ∀ r, q ≠ .returned r) (ht : Toward m addr q)
    (h : Managed.managerStep cfg m q e = some (m', q')) : Toward m' addr q' := by
  cases ht with
  | lookup =>
    cases e <;> simp only [Managed.managerStep, Managed.getConnectionStep, Managed.useStep,
      Managed.removePoolStep, Managed.closeStep, Option.or_none, reduceCtorEq] at h
    split at h
    · cases h
    · split at h
      · rename_i n hn
        cases h
        exact .enter (m.pm.kept_created hn)
      · cases h
        exact .lock
  | lock =>
    cases e <;> simp only [Managed.managerStep, Managed.getConnectionStep, Managed.useStep,
      Managed.removePoolStep, Managed.closeStep, Option.or_none, reduceCtorEq] at h
    split at h
    · cases h
    · split at h
      · rename_i n hn
        cases h
        exact .enter (m.pm.kept_created hn)
      · split at h
        · cases h
          exact .error
        · cases h
        · cases h
          refine .enter ?_
          rw [m.sized]
          exact List.getElem?_concat_length
  | enter hn =>
    cases e <;> simp only [Managed.managerStep, Managed.getConnectionStep, Managed.useStep,
      Managed.removePoolStep, Managed.closeStep, Option.or_none, reduceCtorEq] at h
    exact inPool_toward hn h
  | inPool hn =>
    cases e <;> simp only [Managed.managerStep, Managed.getConnectionStep, Managed.useStep,
      Managed.removePoolStep, Managed.closeStep, Option.or_none, Option.none_or,
      reduceCtorEq] at h
    exact inPool_toward hn h
  | conn _ | error | done => exact absurd rfl (hreturned _)

end Manager

/-! ## One step -/

/-- Every instance in sight comes from its service: `labels` names the service of each array. -/
structure Sound (tr : List (Nat × Ev)) (labels : List String) (w : World) : Prop where
  registry : Genuine tr w.registry
  heap : Labelled (Listing tr) labels w.heap
  cache : ∀ service s, w.instanceCache service = some s → Of labels service s

def Placed (tr : List (Nat × Ev)) (labels : List String) (w : World) : Pc → Prop
  | .holding service s | .stored service s | .listed service s | .picking service s _ =>
    Of labels service s
  | .connecting service inst pc =>
    Listing tr service inst ∧ Toward w.manager inst.endpoint pc
  | .watching service ch => (channels w.registry)[ch]? = some service
  | .handling service ch event =>
    (channels w.registry)[ch]? = some service ∧ Listing tr service event.inst
  | .removing service ch s _ => (channels w.registry)[ch]? = some service ∧ Of labels service s
  | _ => True

/-- What goroutines rely on only grows. -/
structure Grows (w w' : World) : Prop where
  subscribed : channels w.registry <+: channels w'.registry
  created : w.manager.pm.created <+: w'.manager.pm.created

/-- What a step leaves behind, for the goroutine that took it and those it started. -/
def Kept (tr : List (Nat × Ev)) (labels : List String) (w w' : World) (new : List Pc) : Prop :=
  ∃ more, Sound tr (labels ++ more) w' ∧ Grows w w' ∧ ∀ p ∈ new, Placed tr (labels ++ more) w' p

section Step
variable {tr tr' : List (Nat × Ev)} {labels : List String} {w w' : World} {pc pc' : Pc}
  {new : List Pc} {cfg : RoutingConfig} {e : Ev} {i : Nat}

/-- A step that leaves the registry and the pools alone. -/
theorem Grows.still (hr : w'.registry = w.registry) (hm : w'.manager = w.manager) : Grows w w' :=
  ⟨by simp [hr], by simp [hm]⟩

/-- A step at the registry that makes no channel. -/
theorem Grows.registry {r : MemoryRegistry} (hr : channels r = channels w.registry) :
    Grows w { w with registry := r } :=
  ⟨by simp [hr], List.prefix_rfl⟩

theorem Sound.mono (hs : Sound tr labels w) (h : tr ⊆ tr') : Sound tr' labels w :=
  ⟨⟨fun inst hi => (hs.registry.known inst hi).mono h,
    fun sub hsub x hx => (hs.registry.queued sub hsub x hx).mono h⟩,
    hs.heap.mono fun _ _ hl => hl.mono h, hs.cache⟩

theorem Placed.mono (hp : Placed tr labels w pc) (h : tr ⊆ tr') (more : List String)
    (hg : Grows w w') : Placed tr' (labels ++ more) w' pc := by
  cases pc with
  | holding service s | stored service s | listed service s
  | picking service s n => exact Of.extend hp more
  | connecting service inst q => exact ⟨hp.1.mono h, toward_mono hg.created hp.2⟩
  | watching service ch => exact getElem?_grown hg.subscribed hp
  | handling service ch event => exact ⟨getElem?_grown hg.subscribed hp.1, hp.2.mono h⟩
  | removing service ch s q => exact ⟨getElem?_grown hg.subscribed hp.1, hp.2.extend more⟩
  | called _ | missed _ | failed _ | starting _ | stopped | operator | pooled _ => trivial

/-- A step that makes no array. -/
theorem Kept.same (hs : Sound tr labels w') (hg : Grows w w')
    (hnew : ∀ p ∈ new, Placed tr labels w' p) : Kept tr labels w w' new :=
  ⟨[], by rwa [List.append_nil], hg, by rwa [List.append_nil]⟩

theorem Sound.cached (hs : Sound tr labels w) (service : String) :
    Of labels service (w.cached service) := by
  unfold World.cached
  cases hc : w.instanceCache service with
  | none => exact nil_of labels service
  | some s => exact hs.cache service s hc

theorem Sound.store (hs : Sound tr labels w) {service : String} {s : Slice}
    (ho : Of labels service s) : Sound tr labels (w.store service s) := by
  refine ⟨hs.registry, hs.heap, fun service' s' h => ?_⟩
  simp only [World.store] at h
  by_cases heq : service' = service
  · subst heq
    rw [Function.update_self] at h
    cases h
    exact ho
  · rw [Function.update_of_ne heq] at h
    exact hs.cache service' s' h

theorem Sound.setHeap (hs : Sound tr labels w) {more : List String} {h : Heap ServiceInstance}
    (hl : Labelled (Listing tr) (labels ++ more) h) :
    Sound tr (labels ++ more) { w with heap := h } :=
  ⟨hs.registry, hl, fun service s hc => (hs.cache service s hc).extend more⟩

theorem forall_mem_one {P : Pc → Prop} (h : P pc) : ∀ p ∈ [pc], P p := by simpa using h

theorem collect_labelled (hs : Sound tr labels w) {service : String}
    {order : List ServiceInstance} (ho : ∀ inst ∈ order, Listing tr service inst) (spare : Nat) :
    ∃ more, Labelled (Listing tr) (labels ++ more) (collect w.heap order spare).2 ∧
      Of (labels ++ more) service (collect w.heap order spare).1 := by
  unfold collect
  split
  · exact ⟨[], by rw [List.append_nil]; exact hs.heap, nil_of _ _⟩
  · exact ⟨[service], hs.heap.make ho spare⟩

theorem getInstancesStep_kept (hs : Sound tr labels w) (hp : Placed tr labels w pc)
    (h : getInstancesStep cfg w pc e = some (w', pc', new)) :
    Kept tr labels w w' (pc' :: new) := by
  revert h
  fun_cases getInstancesStep cfg w pc e <;> intro h
  case case2 service _ _ =>
    cases h
    exact .same hs (.still rfl rfl) (forall_mem_one (hs.cached service))
  case case3 =>
    cases h
    exact .same hs (.still rfl rfl) (forall_mem_one trivial)
  case case4 service order spare hperm result =>
    cases h
    obtain ⟨more, hlabelled, hof⟩ :=
      collect_labelled hs (getInstances_listing hs.registry hperm) spare
    exact ⟨more, hs.setHeap hlabelled, .still rfl rfl, forall_mem_one hof⟩
  case case7 service instances _ =>
    cases h
    exact .same (hs.store hp) (.still rfl rfl) (forall_mem_one hp)
  case case8 service instances =>
    cases h
    refine .same hs (.still rfl rfl) (List.forall_mem_cons.mpr ⟨hp, fun p hp' => ?_⟩)
    split at hp'
    · rw [List.mem_singleton.mp hp']
      trivial
    · cases hp'
  all_goals cases h

theorem atPools_kept {q : Managed.Pc} {f : Managed.Ev} {k : Managed.Pc → Pc}
    (hs : Sound tr labels w) (h : atPools cfg w q f k = some (w', pc', new))
    (hk : ∀ m' q', Managed.managerStep cfg.manager w.manager q f = some (m', q') →
      Placed tr labels { w with manager := m' } (k q')) : Kept tr labels w w' (pc' :: new) := by
  obtain ⟨⟨m', q'⟩, hstep, heq⟩ := Option.map_eq_some_iff.mp h
  cases heq
  exact .same ⟨hs.registry, hs.heap, hs.cache⟩ ⟨List.prefix_rfl, managerStep_created hstep⟩
    (forall_mem_one (hk m' q' hstep))

theorem acquireStep_kept (hs : Sound tr labels w) (hp : Placed tr labels w pc)
    (h : acquireStep cfg w pc e = some (w', pc', new)) :
    Kept tr labels w w' (pc' :: new) := by
  revert h
  fun_cases acquireStep cfg w pc e <;> intro h
  case case1 =>
    cases h
    exact .same hs (.still rfl rfl) (forall_mem_one trivial)
  case case2 =>
    cases h
    exact .same ⟨hs.registry, hs.heap, hs.cache⟩ (.still rfl rfl) (forall_mem_one hp)
  case case4 service instances idx inst hget =>
    cases h
    have hlisting := hs.heap.values hp inst (List.mem_of_getElem? hget)
    exact .same hs (.still rfl rfl) (forall_mem_one ⟨hlisting, .lookup⟩)
  case case5 => exact atPools_kept hs h fun _ _ _ => trivial
  case case8 service inst q f hconn hreturned =>
    refine atPools_kept hs h fun m' q' hstep => ⟨hp.1, ?_⟩
    exact managerStep_toward (fun r hr => hreturned r hr) hp.2 hstep
  case case9 =>
    cases h
    exact .same hs (.still rfl rfl) (forall_mem_one trivial)
  case case11 => exact atPools_kept hs h fun _ _ _ => trivial
  all_goals cases h

theorem handleWatchEvent_kept {service : String} {ch : Nat} {event : Event}
    (hs : Sound tr labels w) (hch : (channels w.registry)[ch]? = some service)
    (hl : Listing tr service event.inst) (spare : Nat) :
    Kept tr labels w (handleWatchEvent w service ch event spare).1
      [(handleWatchEvent w service ch event spare).2] := by
  unfold handleWatchEvent
  split
  · obtain ⟨more, hlabelled, hof⟩ := hs.heap.append (hs.cached service) hl spare
    exact ⟨more, (hs.setHeap hlabelled).store hof, .still rfl rfl, forall_mem_one hch⟩
  · have hfiltered : ∀ inst ∈ (values w.heap (w.cached service)).filter (·.id ≠ event.inst.id),
        Listing tr service inst := fun inst hi =>
      hs.heap.values (hs.cached service) inst (List.mem_of_mem_filter hi)
    obtain ⟨hlabelled, hof⟩ := hs.heap.make hfiltered ((values w.heap (w.cached service)).length -
      ((values w.heap (w.cached service)).filter (·.id ≠ event.inst.id)).length)
    refine ⟨[service], ⟨hs.registry, hlabelled, fun service' s hc => ?_⟩, .still rfl rfl,
      forall_mem_one ⟨hch, hof⟩⟩
    exact (hs.cache service' s hc).extend _
  · dsimp only
    split
    · exact .same (hs.store (hs.cached service)) (.still rfl rfl) (forall_mem_one hch)
    · rename_i i _
      have hlabelled := hs.heap.write (hs.cached service) i hl
      have hwritten : Sound tr labels
          { w with heap := write w.heap (w.cached service) i event.inst } :=
        ⟨hs.registry, hlabelled, hs.cache⟩
      exact .same (hwritten.store (hs.cached service)) (.still rfl rfl) (forall_mem_one hch)

theorem watchStep_kept (hs : Sound tr labels w) (hp : Placed tr labels w pc)
    (h : watchStep cfg w pc e = some (w', pc', new)) : Kept tr labels w w' (pc' :: new) := by
  revert h
  fun_cases watchStep cfg w pc e <;> intro h
  case case1 =>
    cases h
    exact .same hs (.still rfl rfl) (forall_mem_one trivial)
  case case2 service _ r =>
    cases h
    obtain ⟨hgenuine, hchannels, hch⟩ := hs.registry.watch service
    refine .same ⟨hgenuine, hs.heap, hs.cache⟩ ⟨?_, List.prefix_rfl⟩ (forall_mem_one ?_)
    · rw [hchannels]
      exact List.prefix_append _ _
    · simp only [Placed]
      rw [hchannels, hch]
      exact List.getElem?_concat_length
  case case3 service ch r event hnext =>
    cases h
    obtain ⟨hgenuine, hchannels, hevent⟩ := hs.registry.next hnext
    refine .same ⟨hgenuine, hs.heap, hs.cache⟩ (.registry hchannels)
      (forall_mem_one ⟨?_, hevent event service rfl hp⟩)
    rw [hchannels]
    exact hp
  case case4 service ch r err hnext =>
    cases h
    obtain ⟨hgenuine, hchannels, -⟩ := hs.registry.next hnext
    exact .same ⟨hgenuine, hs.heap, hs.cache⟩ (.registry hchannels)
      (forall_mem_one trivial)
  case case6 =>
    cases h
    exact .same hs (.still rfl rfl) (forall_mem_one trivial)
  case case8 service ch event spare _ =>
    cases h
    exact handleWatchEvent_kept hs hp.1 hp.2 spare
  case case10 => exact atPools_kept hs h fun _ _ _ => hp
  case case11 service ch filtered r =>
    cases h
    have hopen : Sound tr labels { w with cacheLocked := false } :=
      ⟨hs.registry, hs.heap, hs.cache⟩
    exact .same (hopen.store hp.2) (.still rfl rfl) (forall_mem_one hp.1)
  all_goals cases h

theorem operatorStep_kept (hs : Sound tr labels w) (he : (i, e) ∈ tr)
    (h : operatorStep w pc e = some (w', pc', new)) : Kept tr labels w w' (pc' :: new) := by
  have hkept : ∀ r, Genuine tr r ∧ channels r = channels w.registry →
      Kept tr labels w { w with registry := r } [.operator] := fun r hr =>
    .same ⟨hr.1, hs.heap, hs.cache⟩ (.registry hr.2) (forall_mem_one trivial)
  revert h
  fun_cases operatorStep w pc e <;> intro h
  case case1 inst =>
    obtain ⟨r, hr, heq⟩ := Option.map_eq_some_iff.mp h
    cases heq
    exact hkept r (hs.registry.register ⟨i, .inl he⟩ hr)
  case case2 service instanceID =>
    obtain ⟨⟨r, err⟩, hr, heq⟩ := Option.map_eq_some_iff.mp h
    cases heq
    exact hkept r (hs.registry.deregister hr)
  case case3 inst =>
    obtain ⟨⟨r, err⟩, hr, heq⟩ := Option.map_eq_some_iff.mp h
    cases heq
    exact hkept r (hs.registry.update ⟨i, .inr he⟩ hr)
  all_goals cases h

theorem step_kept (hs : Sound tr labels w) (hp : Placed tr labels w pc) (he : (i, e) ∈ tr)
    (h : routingStep cfg w pc e = some (w', pc', new)) : Kept tr labels w w' (pc' :: new) := by
  simp only [routingStep, Option.or_eq_some_iff] at h
  rcases h with h | ⟨-, h | ⟨-, h | ⟨-, h⟩⟩⟩
  · exact getInstancesStep_kept hs hp h
  · exact acquireStep_kept hs hp h
  · exact watchStep_kept hs hp h
  · exact operatorStep_kept hs he h

end Step

/-! ## Whole runs -/

def Routed (tr : List (Nat × Ev)) (t : Config World Pc) : Prop :=
  ∃ labels, Sound tr labels t.shared ∧ ∀ p ∈ t.threads, Placed tr labels t.shared p

section Runs
variable {cfg : RoutingConfig} {b : ListBalancer} {services : List String} {operators users : Nat}
  {tr : List (Nat × Ev)} {t : Config World Pc}

theorem start_routed : Routed [] (start b services operators users) := by
  refine ⟨[], ⟨⟨by simp [start, newRegistry], by simp [start, newRegistry]⟩,
    ⟨rfl, by simp⟩, by simp [start]⟩, fun p hp => ?_⟩
  simp only [start, List.mem_append, List.mem_map, List.mem_replicate] at hp
  obtain (⟨service, -, rfl⟩ | ⟨-, rfl⟩) | ⟨-, rfl⟩ := hp
  · trivial
  · trivial
  · trivial

theorem run_routed (h : Run (routing cfg) Any (start b services operators users) tr t) :
    Routed tr t := by
  induction h with
  | refl => exact start_routed
  | @step tr t i e u _ _ hfire ih =>
    obtain ⟨labels, hsound, hplaced⟩ := ih
    have htr : tr ⊆ tr ++ [(i, e)] := List.subset_append_left _ _
    obtain ⟨pc, w', pc', new, hi, hstep, rfl⟩ := fire_cases hfire
    have hpc : Placed (tr ++ [(i, e)]) (labels ++ []) t.shared pc :=
      (hplaced pc (List.mem_of_getElem? hi)).mono htr [] (.still rfl rfl)
    rw [List.append_nil] at hpc
    obtain ⟨more, hsound', hgrows, hnew⟩ :=
      step_kept (hsound.mono htr) hpc (List.mem_append_right _ (List.mem_singleton_self _)) hstep
    obtain ⟨hpc', hnew⟩ := List.forall_mem_cons.mp hnew
    refine ⟨labels ++ more, hsound', fun p hp => ?_⟩
    rcases List.mem_append.mp hp with hp | hp
    · exact forall_set hpc' hplaced (fun q hq => hq.mono htr more hgrows) p hp
    · exact hnew p hp

/-- However calls for any services, watches, registrations, updates and deregistrations, removals
of pools and the closing of the client take turns: a call that holds a connection got it from a
pool that was made for the endpoint of an instance of its own service, with which somebody had
called `Register` or `Update`. -/
theorem routed (h : Run (routing cfg) Any (start b services operators users) tr t)
    {service : String} {inst : ServiceInstance} {n : Nat} {c : Model.ConnId}
    (hp : .connecting service inst (.returned (.conn n c)) ∈ t.threads) :
    inst.service = service ∧ Registered tr inst ∧
      t.shared.manager.pm.created[n]? = some inst.endpoint := by
  obtain ⟨labels, -, hplaced⟩ := run_routed h
  obtain ⟨⟨hservice, hregistered⟩, htoward⟩ := hplaced _ hp
  cases htoward with
  | conn hcreated => exact ⟨hservice, hregistered, hcreated⟩

end Runs

def quick : RoutingConfig := ⟨Managed.jsonManager, true⟩

/-- A call for a service whose one instance has been registered, up to its connection. -/
def connects : List (Nat × Ev) :=
  [(1, .register anInstance), (0, .step), (0, .discover [anInstance] 0), (0, .step), (0, .step),
   (2, .step), (0, .draw 0), (0, .step), (0, .pool .step), (0, .pool (.create fun _ => none)),
   (0, .pool .step), (0, .pool (.pool .step)), (0, .pool (.pool .step)),
   (0, .pool (.pool .otherwise)), (0, .pool (.pool .step)), (0, .pool (.pool (.created 0))),
   (0, .pool (.pool .step)), (0, .pool (.pool .step))]

def oneCall : Config World Pc := start (.roundRobin newRoundRobin) ["users"] 1 0

theorem connects_runs : (exec (routing quick) Any oneCall connects).isSome := by
  decide

theorem connects_holds : .connecting "users" anInstance (.returned (.conn 0 0)) ∈
    ((exec (routing quick) Any oneCall connects).get connects_runs).threads :=
  List.mem_of_getElem? (i := 0) rfl

theorem routed_connects : anInstance.service = "users" ∧ Registered connects anInstance ∧
    ((exec (routing quick) Any oneCall connects).get connects_runs).shared.manager.pm.created[0]? =
      some "10.0.0.1:8080" :=
  routed (run_exec connects_runs) connects_holds

end RpcInGo.Client.Routing
