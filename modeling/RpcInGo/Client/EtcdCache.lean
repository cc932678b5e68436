import RpcInGo.Client.Source
import RpcInGo.Registry.EtcdLeases

/-!
The instance cache of `discoverySource` over etcd: what is listed once, and kept up by the
changes that etcd reports. `watchService` handles one event after the other until `Next` fails.

* `cache_follows_etcd`: while no response reports two changes of the service, the cache holds
  what `GetInstances` would return, whatever the registries do meanwhile.
-/

namespace RpcInGo.Client.EtcdCache
open Lib.ByteStream Lib.Leased Protocol.Message Registry.Instance Registry.EtcdWatcher
  Registry.EtcdLeases Source
open Registry.EtcdKeys (InstanceFormat serviceKey servicePrefix hasPrefix getInstances upInstances)

/-- The event of a change. `PrevKv` of a put is not read. -/
def etcdEvent : Change String Bytes → EtcdEvent
  | .put _ value isNew => ⟨.put, value, isNew, none⟩
  | .delete _ prev => ⟨.delete, [], false, some prev⟩

/-- The loop of `watchService` on the results of `Next`. -/
def watchLoop (instances : List ServiceInstance) :
    List (Except GoError Event) → List ServiceInstance
  | [] => instances
  | .error _ :: _ => instances
  | .ok event :: results => watchLoop (handleWatchEvent instances event).1 results

/-- The keys that a watch of the service reports. -/
def selects (keyPrefix service : String) (key : String) : Bool :=
  hasPrefix (servicePrefix keyPrefix service) key

/-- Without slashes, and up. -/
def Listable (inst : ServiceInstance) : Prop := PlainInstance inst ∧ inst.status = .up

theorem watchLoop_ok (instances : List ServiceInstance) (events : List Event) :
    watchLoop instances (events.map .ok) =
      events.foldl (fun l event => (handleWatchEvent l event).1) instances := by
  induction events generalizing instances with
  | nil => rfl
  | cons event events ih => exact ih _

/-- What `Next` calls the change. -/
def eventType : Change String Bytes → EventType
  | .put _ _ isNew => if isNew then .add else .update
  | .delete _ _ => .delete

/-- The events that `Next` makes of changes. -/
def eventsOf (fmt : InstanceFormat) (cs : List (Change String Bytes)) : List Event :=
  (cs.map etcdEvent).filterMap (translate fmt.unmarshal)

/-! ## The cache -/

section Cache
variable {fmt : InstanceFormat} {keyPrefix service : String} {instances : List ServiceInstance}
  {inst : ServiceInstance} {ch : Change String Bytes}

theorem translate_row (h : ch.row = rowOf fmt keyPrefix inst) :
    translate fmt.unmarshal (etcdEvent ch) = some ⟨eventType ch, inst⟩ := by
  cases ch with
  | put key value isNew =>
    obtain ⟨-, rfl⟩ := Prod.mk.inj h
    cases isNew <;> simp [Registry.EtcdWatcher.translate, etcdEvent, fmt.inverse, eventType]
  | delete key prev =>
    obtain ⟨-, rfl⟩ := Prod.mk.inj h
    simp [Registry.EtcdWatcher.translate, etcdEvent, fmt.inverse, eventType]

theorem rowOf_own_iff (h : PlainInstance inst) {x : ServiceInstance}
    (hx : x.service = inst.service) :
    (rowOf fmt keyPrefix x).1 = (rowOf fmt keyPrefix inst).1 ↔ x.id = inst.id := by
  have hiff : (rowOf fmt keyPrefix inst).1 = (rowOf fmt keyPrefix x).1 ↔
    inst.service = x.service ∧ inst.id = x.id := rowOf_key_iff h x.service x.id
  rw [eq_comm, hiff, hx]
  exact ⟨fun heq => heq.2.symm, fun heq => ⟨rfl, heq.symm⟩⟩

theorem replaceFirst_rows (h : PlainInstance inst)
    (hC : ∀ x ∈ instances, x.service = inst.service) :
    (replaceFirst inst instances).map (rowOf fmt keyPrefix) =
      replaceRow (rowOf fmt keyPrefix inst).1 (rowOf fmt keyPrefix inst).2
        (instances.map (rowOf fmt keyPrefix)) := by
  induction instances with
  | nil => rfl
  | cons x xs ih =>
    obtain ⟨hx, hxs⟩ := List.forall_mem_cons.mp hC
    have hiff : (rowOf fmt keyPrefix x).1 = (rowOf fmt keyPrefix inst).1 ↔ x.id = inst.id :=
      rowOf_own_iff h hx
    rw [List.map_cons, replaceFirst, replaceRow]
    by_cases hid : x.id = inst.id
    · rw [if_pos hid, if_pos (hiff.mpr hid)]
      rfl
    · rw [if_neg hid, if_neg (hiff.not.mpr hid), List.map_cons, ih hxs]

theorem handle_service {event : Event} (hservice : event.inst.service = service)
    (hC : ∀ x ∈ instances, x.service = service) :
    ∀ x ∈ (handleWatchEvent instances event).1, x.service = service := by
  intro x hx
  unfold handleWatchEvent at hx
  split at hx
  · rcases List.mem_append.mp hx with hx | hx
    · exact hC x hx
    · rw [List.mem_singleton.mp hx, hservice]
  · exact hC x (List.mem_filter.mp hx).1
  · rcases mem_replaceFirst hx with rfl | hx
    · exact hservice
    · exact hC x hx

/-- Handling an event does to the cache what the change does to the rows. -/
theorem handle_rows (hrow : ch.row = rowOf fmt keyPrefix inst) (hplain : PlainInstance inst)
    (hC : ∀ x ∈ instances, x.service = inst.service) :
    (handleWatchEvent instances ⟨eventType ch, inst⟩).1.map (rowOf fmt keyPrefix) =
      follow (instances.map (rowOf fmt keyPrefix)) ch := by
  cases ch with
  | put key value isNew =>
    cases isNew with
    | true =>
      simp only [eventType, if_true, handleWatchEvent, follow, List.map_append, List.map_cons,
        List.map_nil, ← hrow, Change.row]
    | false =>
      obtain ⟨rfl, rfl⟩ := Prod.mk.inj hrow
      exact replaceFirst_rows hplain hC
  | delete key prev =>
    obtain ⟨rfl, -⟩ := Prod.mk.inj hrow
    simp only [handleWatchEvent, eventType, follow]
    rw [List.filter_map]
    refine congrArg _ (List.filter_congr fun x hx => ?_)
    have hiff : (rowOf fmt keyPrefix x).1 = (rowOf fmt keyPrefix inst).1 ↔ x.id = inst.id :=
      rowOf_own_iff hplain (hC x hx)
    rw [rowOf, rowOf] at hiff
    simp [rowOf, hiff]

/-- The cache after all changes of the service, and the rows after them. -/
theorem watch_rows {cs : List (Change String Bytes)}
    (hcs : ∀ ch ∈ cs, ∃ inst, ch.row = rowOf fmt keyPrefix inst ∧ PlainInstance inst ∧
      inst.service = service)
    (hC : ∀ x ∈ instances, x.service = service) :
    ((eventsOf fmt cs).foldl (fun l event => (handleWatchEvent l event).1) instances).map
        (rowOf fmt keyPrefix) =
      cs.foldl follow (instances.map (rowOf fmt keyPrefix)) := by
  induction cs generalizing instances with
  | nil => rfl
  | cons ch cs ih =>
    obtain ⟨⟨inst, hrow, hplain, hservice⟩, hcs⟩ := List.forall_mem_cons.mp hcs
    rw [eventsOf, List.map_cons, List.filterMap_cons, translate_row hrow]
    simp only [List.foldl_cons]
    rw [← eventsOf]
    have hC' : ∀ x ∈ instances, x.service = inst.service :=
      fun x hx => (hC x hx).trans hservice.symm
    rw [ih hcs (handle_service hservice hC), handle_rows hrow hplain hC']

end Cache

/-! ## The cache and the registry -/

section Registry
variable {fmt : InstanceFormat} {keyPrefix service : String} {rows : List (String × Bytes)}

/-- The instances that the rows are of. -/
def instancesOf (fmt : InstanceFormat) (rows : List (String × Bytes)) : List ServiceInstance :=
  rows.map fun row => (fmt.unmarshal row.2).1

theorem instancesOf_rowOf (instances : List ServiceInstance) :
    instancesOf fmt (instances.map (rowOf fmt keyPrefix)) = instances := by
  rw [instancesOf, List.map_map]
  refine (List.map_congr_left fun x _ => ?_).trans (List.map_id _)
  simp [unmarshal_rowOf]

theorem upInstances_all {values : List Bytes}
    (h : ∀ v ∈ values, ∃ inst, fmt.unmarshal v = (inst, true) ∧ inst.status = .up) :
    upInstances fmt values = values.map fun v => (fmt.unmarshal v).1 := by
  induction values with
  | nil => rfl
  | cons v values ih =>
    obtain ⟨⟨inst, hun, hup⟩, hrest⟩ := List.forall_mem_cons.mp h
    rw [upInstances, if_pos ⟨by rw [hun], by rw [hun, hup]⟩, ih hrest, List.map_cons]

/-- `GetInstances` returns the instances of the selected rows, all of which are up. -/
theorem getInstances_rows
    (h : ∀ row ∈ rows, ∃ inst, Listable inst ∧ row = rowOf fmt keyPrefix inst) :
    getInstances fmt keyPrefix rows service none =
      .ok (instancesOf fmt (rows.filter (selects keyPrefix service ·.1))) := by
  rw [getInstances, upInstances_all, List.map_map]
  · rfl
  · intro v hv
    obtain ⟨row, hrow, rfl⟩ := List.mem_map.mp hv
    obtain ⟨inst, hinst, rfl⟩ := h row (List.mem_filter.mp hrow).1
    exact ⟨inst, unmarshal_rowOf inst, hinst.2⟩

/-- A selected row is the row of its instance. -/
theorem selected_rowOf (service : String)
    (h : ∀ row ∈ rows, ∃ inst, Listable inst ∧ row = rowOf fmt keyPrefix inst) :
    (instancesOf fmt (rows.filter (selects keyPrefix service ·.1))).map (rowOf fmt keyPrefix) =
        rows.filter (selects keyPrefix service ·.1) ∧
      ∀ x ∈ instancesOf fmt (rows.filter (selects keyPrefix service ·.1)), x.service = service := by
  have hrow : ∀ row ∈ rows.filter (selects keyPrefix service ·.1),
      rowOf fmt keyPrefix (fmt.unmarshal row.2).1 = row ∧
        (fmt.unmarshal row.2).1.service = service := by
    intro row hrow
    obtain ⟨hrow, hsel⟩ := List.mem_filter.mp hrow
    obtain ⟨inst, hinst, rfl⟩ := h row hrow
    rw [unmarshal_rowOf]
    exact ⟨rfl, (selected_iff hinst.1 service).mp hsel⟩
  constructor
  · rw [instancesOf, List.map_map]
    exact (List.map_congr_left fun row h => (hrow row h).1).trans (List.map_id _)
  · intro x hx
    obtain ⟨row, h, rfl⟩ := List.mem_map.mp hx
    exact (hrow row h).2

/-- What the calls of `Next` return when no response has two events. -/
theorem nexts_single {responses : List (List (Change String Bytes))}
    (hone : ∀ r ∈ responses, r.length ≤ 1) {n : Nat} (hn : responses.length ≤ n) :
    nexts fmt.unmarshal n (rounds (responses.map (·.map etcdEvent))) =
      (eventsOf fmt responses.flatten).map .ok := by
  have hsmall : ∀ evs ∈ responses.map (·.map etcdEvent),
      (evs.filterMap (translate fmt.unmarshal)).length ≤ 1 := by
    intro evs hevs
    obtain ⟨r, hr, rfl⟩ := List.mem_map.mp hevs
    exact (List.length_filterMap_le _ _).trans (by simpa using hone r hr)
  have hfirsts := (firsts_eq_iff _).mpr hsmall
  have hlen : ((responses.map (·.map etcdEvent)).filterMap (firstEvent fmt.unmarshal)).length ≤ n :=
    (List.length_filterMap_le _ _).trans (by simpa using hn)
  rw [nexts_responses, List.take_of_length_le hlen, hfirsts, eventsOf, List.flatMap_def,
    ← List.filterMap_flatten, List.map_flatten]

variable {E : Etcd} {c₀ c₁ c : Cluster E} {ops₀ ops₁ ops : List (Op E)}
  {cs₀ cs₁ cs : List (Change String Bytes)}

/-- A change of a selected key is one of an instance of the service. -/
theorem ran_selected (h : Ran fmt keyPrefix (newCluster E) ops cs c)
    (hops : ∀ inst, Registers ops inst → Listable inst) {ch : Change String Bytes} (hch : ch ∈ cs)
    (hsel : selects keyPrefix service ch.row.1 = true) :
    ∃ inst, ch.row = rowOf fmt keyPrefix inst ∧ PlainInstance inst ∧ inst.service = service := by
  obtain ⟨inst, hinst, hrow⟩ : ∃ inst, Registers ops inst ∧ ch.row = rowOf fmt keyPrefix inst := by
    rcases (ran_changed h).told hch with hmem | ⟨isNew, hput⟩
    · rw [Cluster.rows, newCluster, E.empty] at hmem
      cases hmem
    · exact ran_puts h hput
  have hplain := (hops inst hinst).1
  rw [hrow] at hsel
  exact ⟨inst, hrow, hplain, (selected_iff hplain service).mp hsel⟩

/-- A client lists a service and subscribes to its changes; between the two no instance of the
service changes. Then it handles what the watch reports, from the subscription on. As long as no
response reports two changes of the service, its cache holds what listing the service again would
return, however many registries register, update and deregister instances, close or lose their
leases. -/
theorem cache_follows_etcd (h₀ : Ran fmt keyPrefix (newCluster E) ops₀ cs₀ c₀)
    (h₁ : Ran fmt keyPrefix c₀ ops₁ cs₁ c₁) (h : Ran fmt keyPrefix c₁ ops cs c)
    (hops : ∀ inst, Registers (ops₀ ++ ops₁ ++ ops) inst → Listable inst)
    {listed : List ServiceInstance}
    (hlisted : getInstances fmt keyPrefix c₀.rows service none = .ok listed)
    (hgap : ∀ ch ∈ cs₁, selects keyPrefix service ch.row.1 = false)
    {responses : List (List (Change String Bytes))}
    (hresponses : responses.flatten = cs.filter (selects keyPrefix service ·.row.1))
    (hone : ∀ r ∈ responses, r.length ≤ 1) {n : Nat} (hn : responses.length ≤ n) :
    ∃ again, getInstances fmt keyPrefix c.rows service none = .ok again ∧
      (watchLoop listed
        (nexts fmt.unmarshal n (rounds (responses.map (·.map etcdEvent))))).Perm again := by
  have hops₀ : ∀ inst, Registers ops₀ inst → Listable inst := fun inst ⟨r, x, hop⟩ =>
    hops inst ⟨r, x, List.mem_append_left _ (List.mem_append_left _ hop)⟩
  have hall := (h₀.trans h₁).trans h
  have hrows₀ := ran_rows h₀ hops₀
  rw [getInstances_rows hrows₀, Except.ok.injEq] at hlisted
  subst hlisted
  obtain ⟨hown, hservice⟩ := selected_rowOf service hrows₀
  refine ⟨_, getInstances_rows (ran_rows hall hops), ?_⟩
  have hselected : ∀ ch ∈ cs.filter (selects keyPrefix service ·.row.1),
      ∃ inst, ch.row = rowOf fmt keyPrefix inst ∧ PlainInstance inst ∧ inst.service = service := by
    intro ch hch
    obtain ⟨hch, hsel⟩ := List.mem_filter.mp hch
    exact ran_selected hall hops (List.mem_append_right _ hch) hsel
  rw [nexts_single hone hn, watchLoop_ok, hresponses]
  have hwatch := watch_rows hselected hservice
  rw [hown] at hwatch
  -- the changes between the listing and the subscription are of other services
  have hsame : (cs₁ ++ cs).filter (selects keyPrefix service ·.row.1) =
      cs.filter (selects keyPrefix service ·.row.1) := by
    rw [List.filter_append, List.filter_eq_nil_iff.mpr fun ch hch => by simp [hgap ch hch],
      List.nil_append]
  have hperm : (followAll (selects keyPrefix service) _ (cs₁ ++ cs)).Perm
      (c.rows.filter (selects keyPrefix service ·.1)) :=
    (ran_changed (h₁.trans h)).follows (ran_nodup h₀) (.refl _)
  rw [followAll, hsame, ← hwatch] at hperm
  have hinst := hperm.map fun row => (fmt.unmarshal row.2).1
  rwa [← instancesOf, ← instancesOf, instancesOf_rowOf] at hinst

end Registry

def instanceB : ServiceInstance := ⟨"2", "a", "", "10.0.0.2", 80, [], 100, .up⟩

/-- A second registry is made. -/
def joins : List (Op leasedEtcd) := [.newRegistry 10 none (0 : Nat) none]

/-- It registers an instance, and the first registry closes. -/
def handsOver : List (Op leasedEtcd) := [.register 1 instanceB (0 : Nat), .close 0 (0 : Nat) none]

def listedAt : Cluster leasedEtcd :=
  ((perform default "/rpc/services" _ registersA).get registersA_possible).1

theorem joins_possible : (perform default "/rpc/services" listedAt joins).isSome := by decide

def watchedFrom : Cluster leasedEtcd × List (Change String Bytes) :=
  (perform default "/rpc/services" listedAt joins).get joins_possible

theorem handsOver_possible :
    (perform default "/rpc/services" watchedFrom.1 handsOver).isSome := by decide

def handedOver : Cluster leasedEtcd × List (Change String Bytes) :=
  (perform default "/rpc/services" watchedFrom.1 handsOver).get handsOver_possible

/-- Every change in a response of its own. -/
def oneByOne : List (List (Change String Bytes)) :=
  (handedOver.2.filter (selects "/rpc/services" "a" ·.row.1)).map ([·])

theorem cache_follows_etcd_handsOver :
    ∃ listed again, getInstances default "/rpc/services" listedAt.rows "a" none = .ok listed ∧
      getInstances default "/rpc/services" handedOver.1.rows "a" none = .ok again ∧
      (watchLoop listed (nexts (default : InstanceFormat).unmarshal oneByOne.length
        (rounds (oneByOne.map (·.map etcdEvent))))).Perm again := by
  have hops : ∀ inst, Registers (registersA ++ joins ++ handsOver) inst → Listable inst := by
    rintro inst ⟨r, x, hop⟩
    simp only [registersA, joins, handsOver, List.cons_append, List.nil_append, List.mem_cons,
      reduceCtorEq, List.not_mem_nil, or_false, false_or] at hop
    rcases hop with hop | hop <;> cases hop <;> exact ⟨⟨by decide, by decide⟩, rfl⟩
  have hflat : oneByOne.flatten = handedOver.2.filter (selects "/rpc/services" "a" ·.row.1) := by
    rw [oneByOne, ← List.flatMap_def, List.flatMap_singleton']
  have hone : ∀ r ∈ oneByOne, r.length ≤ 1 := by
    intro r hr
    obtain ⟨ch, -, rfl⟩ := List.mem_map.mp hr
    exact Nat.le_refl _
  have hlisted : getInstances default "/rpc/services" listedAt.rows "a" none = .ok _ := rfl
  have hgap : ∀ ch ∈ watchedFrom.2, selects "/rpc/services" "a" ch.row.1 = false := by
    intro ch hch
    cases hch
  obtain ⟨again, hagain, hperm⟩ := cache_follows_etcd (ran_perform registersA_possible)
    (ran_perform joins_possible) (ran_perform handsOver_possible) hops hlisted hgap hflat hone
    (Nat.le_refl _)
  exact ⟨_, again, hlisted, hagain, hperm⟩

end RpcInGo.Client.EtcdCache
