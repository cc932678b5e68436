import RpcInGo.Codec.Bodies
import RpcInGo.Lib.Leased
import RpcInGo.Registry.EtcdKeys

/-!
`EtcdRegistry` of `pkg/registry/etcd/registry.go`: any number of registries on one etcd. Each has
one lease, granted when it is made, and puts every instance under it. etcd and its client are not
part of the repository; `Etcd` is what is assumed of them.

* `ran_changed`, `ran_row`: what etcd holds after a run, and where it comes from;
* `getInstanceByID_iff`: looking an instance up by its ID agrees with listing its service.
-/

namespace RpcInGo.Registry.EtcdLeases
open Lib.ByteStream Lib.Leased Protocol.Message Instance
open EtcdKeys (InstanceFormat Plain serviceKey servicePrefix hasPrefix getInstances upInstances
  serviceKey_inj selects_iff selects_alone_iff)

/-! ## etcd -/

/-- The requests that the registry makes. -/
inductive Request
  | grant (ttl : Int)
  | put (key : String) (value : Bytes) (lease : Int)
  | delete (key : String)
  | keepAliveOnce (lease : Int)
  | revoke (lease : Int)
  deriving DecidableEq, Repr

/-- What a request returns, the text of its error or the lease that is granted, and what it has
done meanwhile. -/
structure Reply (State : Type) where
  err : Option String
  leaseID : Int
  state : State
  changes : List (Change String Bytes)

/-- etcd, to which only registries write. `Chance` is what an outcome depends on besides the
state, as the network and the time: a request may fail, before or after it has had its effect,
and leases may expire. Every change of a row is reported, and rows are only put on request. -/
structure Etcd where
  State : Type
  Chance : Type
  init : State
  rows : State → EtcdKeys.Store String
  serve : State → Request → Chance → Reply State
  expire : State → Chance → State × List (Change String Bytes)
  empty : rows init = []
  served : ∀ st req x, Changed (rows st) (serve st req x).changes (rows (serve st req x).state)
  expired : ∀ st x, Changed (rows st) (expire st x).2 (rows (expire st x).1)
  requested : ∀ {st req x key value isNew}, .put key value isNew ∈ (serve st req x).changes →
    ∃ lease, req = .put key value lease
  only_removes : ∀ {st x key value isNew}, .put key value isNew ∉ (expire st x).2

/-! ## Registries -/

structure EtcdRegistry where
  leaseID : Int
  /-- `stopCh` is closed. -/
  stopped : Bool
  deriving DecidableEq, Repr

/-- etcd, and the registries that were made. -/
structure Cluster (E : Etcd) where
  state : E.State
  registries : List EtcdRegistry

def newCluster (E : Etcd) : Cluster E := ⟨E.init, []⟩

def Cluster.rows {E : Etcd} (c : Cluster E) : EtcdKeys.Store String := E.rows c.state

inductive Result
  | ok
  | error (e : GoError)
  /-- `close(er.stopCh)` on a closed channel. -/
  | panic
  deriving DecidableEq, Repr

/-- The errors of `clientv3.New`, `KeepAlive` and `Close` of the client are given by their
texts. -/
inductive Op (E : Etcd)
  | newRegistry (ttl : Int) (clientErr : Option String) (x : E.Chance)
      (keepAliveErr : Option String)
  | register (r : Nat) (inst : ServiceInstance) (x : E.Chance)
  | deregister (r : Nat) (service instanceID : String) (x : E.Chance)
  | heartbeat (r : Nat) (x : E.Chance)
  | close (r : Nat) (x : E.Chance) (clientErr : Option String)
  | expire (x : E.Chance)

/-- An error is returned as `wrap` makes it. -/
def returned (err : Option String) (wrap : GoError → GoError) : Result :=
  match err with
  | none => .ok
  | some text => .error (wrap (.foreign text))

section Registry
variable {E : Etcd} (fmt : InstanceFormat) (keyPrefix : String) (c : Cluster E)

/-- A cluster after a request, and the changes. -/
def after (reply : Reply E.State) (registries : List EtcdRegistry) (res : Result) :
    Cluster E × Result × List (Change String Bytes) :=
  (⟨reply.state, registries⟩, res, reply.changes)

/-- `NewEtcdRegistry`, with `createLease`. -/
def newRegistry (ttl : Int) (clientErr : Option String) (x : E.Chance)
    (keepAliveErr : Option String) : Cluster E × Result × List (Change String Bytes) :=
  match clientErr with
  | some text => (c, .error (.printed "create etcd client error: %v" []
      (.wrapf "create etcd client: %w" [] (.foreign text))), [])
  | none =>
    let reply := E.serve c.state (.grant ttl) x
    match reply.err, keepAliveErr with
    | some text, _ => after reply c.registries (.error (.printed "create lease error: %v" []
        (.wrapf "grant lease: %w" [] (.foreign text))))
    | none, some text => after reply c.registries (.error (.printed "create lease error: %v" []
        (.wrapf "keep alive lease: %w" [] (.foreign text))))
    | none, none => after reply (c.registries ++ [⟨reply.leaseID, false⟩]) .ok

/-- `Register`, which is also `Update`. -/
def register (reg : EtcdRegistry) (inst : ServiceInstance) (x : E.Chance) :
    Cluster E × Result × List (Change String Bytes) :=
  let reply := E.serve c.state
    (.put (serviceKey keyPrefix inst.service inst.id) (fmt.marshal inst) reg.leaseID) x
  after reply c.registries (returned reply.err (.wrapf "put to etcd: %w" []))

def deregister (service instanceID : String) (x : E.Chance) :
    Cluster E × Result × List (Change String Bytes) :=
  let reply := E.serve c.state (.delete (serviceKey keyPrefix service instanceID)) x
  after reply c.registries (returned reply.err
    (.printed "delete service instance: %v from etcd: %v" [.str instanceID]))

def heartbeat (reg : EtcdRegistry) (x : E.Chance) :
    Cluster E × Result × List (Change String Bytes) :=
  let reply := E.serve c.state (.keepAliveOnce reg.leaseID) x
  after reply c.registries (returned reply.err (.wrapf "keepalive once: %w" []))

/-- `Close`: the outcome of the revocation is not looked at. -/
def close (r : Nat) (reg : EtcdRegistry) (x : E.Chance) (clientErr : Option String) :
    Cluster E × Result × List (Change String Bytes) :=
  let registries := c.registries.set r { reg with stopped := true }
  if reg.stopped then (c, .panic, [])
  else if reg.leaseID ≠ 0 then
    after (E.serve c.state (.revoke reg.leaseID) x) registries (returned clientErr id)
  else (⟨c.state, registries⟩, returned clientErr id, [])

/-- `none`: there is no such registry. -/
def apply : Op E → Option (Cluster E × Result × List (Change String Bytes))
  | .newRegistry ttl clientErr x keepAliveErr => some (newRegistry c ttl clientErr x keepAliveErr)
  | .register r inst x => (c.registries[r]?).map fun reg => register fmt keyPrefix c reg inst x
  | .deregister r service instanceID x =>
    (c.registries[r]?).map fun _ => deregister keyPrefix c service instanceID x
  | .heartbeat r x => (c.registries[r]?).map fun reg => heartbeat c reg x
  | .close r x clientErr => (c.registries[r]?).map fun reg => close c r reg x clientErr
  | .expire x => some (⟨(E.expire c.state x).1, c.registries⟩, .ok, (E.expire c.state x).2)

/-- A run, with the changes that etcd reports in it. -/
inductive Ran : List (Op E) → List (Change String Bytes) → Cluster E → Prop
  | refl : Ran [] [] c
  | step {c' c'' : Cluster E} {ops : List (Op E)} {cs cs' : List (Change String Bytes)} {op : Op E}
      {res : Result} : Ran ops cs c' → apply fmt keyPrefix c' op = some (c'', res, cs') →
      Ran (ops ++ [op]) (cs ++ cs') c''

end Registry

/-- What etcd holds for an instance. -/
def rowOf (fmt : InstanceFormat) (keyPrefix : String) (inst : ServiceInstance) : String × Bytes :=
  (serviceKey keyPrefix inst.service inst.id, fmt.marshal inst)

/-- What an operation can do to etcd: it changes rows, and puts that of the instance it
registers. -/
structure Effect (fmt : InstanceFormat) (keyPrefix : String) {E : Etcd} (c : Cluster E) (op : Op E)
    (cs : List (Change String Bytes)) (c' : Cluster E) : Prop where
  changed : Changed c.rows cs c'.rows
  puts : ∀ {key value isNew}, .put key value isNew ∈ cs →
    ∃ r inst x, op = .register r inst x ∧ (key, value) = rowOf fmt keyPrefix inst

section Runs
variable {E : Etcd} {fmt : InstanceFormat} {keyPrefix : String} {c c' c'' : Cluster E}
  {ops ops' : List (Op E)} {op : Op E} {cs cs' : List (Change String Bytes)} {res : Result}

/-- A request that is not a `Put`. -/
theorem effect_served {req : Request} {x : E.Chance} {registries : List EtcdRegistry}
    (hreq : ∀ key value lease, req ≠ .put key value lease) :
    Effect fmt keyPrefix c op (E.serve c.state req x).changes
      ⟨(E.serve c.state req x).state, registries⟩ where
  changed := E.served c.state req x
  puts h := by
    obtain ⟨lease, heq⟩ := E.requested h
    exact absurd heq (hreq _ _ lease)

theorem effect_same {registries : List EtcdRegistry} :
    Effect fmt keyPrefix c op [] ⟨c.state, registries⟩ :=
  ⟨.nil (.refl _), fun h => nomatch h⟩

theorem newRegistry_effect {ttl : Int} {clientErr keepAliveErr : Option String} {x : E.Chance}
    (h : newRegistry c ttl clientErr x keepAliveErr = (c', res, cs)) :
    Effect fmt keyPrefix c op cs c' := by
  unfold newRegistry at h
  split at h
  · cases h
    exact effect_same
  · simp only at h
    split at h <;> cases h <;> exact effect_served nofun

theorem close_effect {r : Nat} {reg : EtcdRegistry} {x : E.Chance} {clientErr : Option String}
    (h : close c r reg x clientErr = (c', res, cs)) : Effect fmt keyPrefix c op cs c' := by
  unfold close at h
  simp only at h
  split at h
  · cases h
    exact effect_same
  · split at h <;> cases h
    · exact effect_served nofun
    · exact effect_same

theorem apply_effect (h : apply fmt keyPrefix c op = some (c', res, cs)) :
    Effect fmt keyPrefix c op cs c' := by
  cases op with
  | newRegistry ttl clientErr x keepAliveErr => exact newRegistry_effect (Option.some.inj h)
  | register r inst x =>
    obtain ⟨reg, -, h⟩ := Option.map_eq_some_iff.mp h
    cases h
    refine ⟨E.served _ _ _, fun hput => ?_⟩
    obtain ⟨lease, heq⟩ := E.requested hput
    cases heq
    exact ⟨r, inst, x, rfl, rfl⟩
  | deregister r service instanceID x =>
    obtain ⟨reg, -, h⟩ := Option.map_eq_some_iff.mp h
    cases h
    exact effect_served nofun
  | heartbeat r x =>
    obtain ⟨reg, -, h⟩ := Option.map_eq_some_iff.mp h
    cases h
    exact effect_served nofun
  | close r x clientErr =>
    obtain ⟨reg, -, h⟩ := Option.map_eq_some_iff.mp h
    exact close_effect h
  | expire x =>
    cases h
    exact ⟨E.expired _ _, fun hput => absurd hput E.only_removes⟩

theorem ran_changed (h : Ran fmt keyPrefix c ops cs c') : Changed c.rows cs c'.rows := by
  induction h with
  | refl => exact .nil (.refl _)
  | step _ happly ih => exact ih.trans (apply_effect happly).changed

/-- Some operation registers the instance. -/
def Registers (ops : List (Op E)) (inst : ServiceInstance) : Prop :=
  ∃ r x, Op.register r inst x ∈ ops

theorem ran_puts (h : Ran fmt keyPrefix c ops cs c') {key : String} {value : Bytes} {isNew : Bool}
    (hput : .put key value isNew ∈ cs) :
    ∃ inst, Registers ops inst ∧ (key, value) = rowOf fmt keyPrefix inst := by
  induction h with
  | refl => cases hput
  | step _ happly ih =>
    rcases List.mem_append.mp hput with hput | hput
    · obtain ⟨inst, ⟨r, x, hop⟩, hrow⟩ := ih hput
      exact ⟨inst, ⟨r, x, List.mem_append_left _ hop⟩, hrow⟩
    · obtain ⟨r, inst, x, rfl, hrow⟩ := (apply_effect happly).puts hput
      exact ⟨inst, ⟨r, x, List.mem_append_right _ List.mem_cons_self⟩, hrow⟩

/-- Whatever etcd holds was registered. -/
theorem ran_row (h : Ran fmt keyPrefix (newCluster E) ops cs c) {row : String × Bytes}
    (hrow : row ∈ c.rows) : ∃ inst, Registers ops inst ∧ row = rowOf fmt keyPrefix inst := by
  rcases (ran_changed h).mem hrow with hrow | ⟨isNew, hput⟩
  · rw [Cluster.rows, newCluster, E.empty] at hrow
    cases hrow
  · exact ran_puts h hput

/-- What holds of all instances that are registered holds of those in etcd. -/
theorem ran_rows {P : ServiceInstance → Prop} (h : Ran fmt keyPrefix (newCluster E) ops cs c)
    (hops : ∀ inst, Registers ops inst → P inst) :
    ∀ row ∈ c.rows, ∃ inst, P inst ∧ row = rowOf fmt keyPrefix inst := by
  intro row hrow
  obtain ⟨inst, hinst, rfl⟩ := ran_row h hrow
  exact ⟨inst, hops inst hinst, rfl⟩

theorem ran_nodup (h : Ran fmt keyPrefix (newCluster E) ops cs c) :
    (c.rows.map Prod.fst).Nodup := by
  refine (ran_changed h).nodup ?_
  rw [Cluster.rows, newCluster, E.empty]
  exact .nil

theorem Ran.trans (h : Ran fmt keyPrefix c ops cs c') (h' : Ran fmt keyPrefix c' ops' cs' c'') :
    Ran fmt keyPrefix c (ops ++ ops') (cs ++ cs') c'' := by
  induction h' with
  | refl => simpa using h
  | step _ happly ih =>
    rw [← List.append_assoc, ← List.append_assoc]
    exact .step ih happly

end Runs

/-- Perform operations one after the other; `none` when one is not possible. -/
def perform {E : Etcd} (fmt : InstanceFormat) (keyPrefix : String) (c : Cluster E) :
    List (Op E) → Option (Cluster E × List (Change String Bytes))
  | [] => some (c, [])
  | op :: ops =>
    match apply fmt keyPrefix c op with
    | none => none
    | some (c', _, cs) => (perform fmt keyPrefix c' ops).map fun r => (r.1, cs ++ r.2)

theorem ran_perform {E : Etcd} {fmt : InstanceFormat} {keyPrefix : String} {c : Cluster E}
    {ops : List (Op E)} (h : (perform fmt keyPrefix c ops).isSome) :
    Ran fmt keyPrefix c ops ((perform fmt keyPrefix c ops).get h).2
      ((perform fmt keyPrefix c ops).get h).1 := by
  suffices hall : ∀ c' cs, perform fmt keyPrefix c ops = some (c', cs) →
      Ran fmt keyPrefix c ops cs c' from hall _ _ (Option.some_get h).symm
  clear h
  induction ops generalizing c with
  | nil =>
    intro c' cs heq
    cases heq
    exact .refl
  | cons op ops ih =>
    intro c' cs heq
    rw [perform] at heq
    split at heq
    · cases heq
    · rename_i c₁ res cs₁ happly
      obtain ⟨⟨c₂, cs₂⟩, hrest, heq⟩ := Option.map_eq_some_iff.mp heq
      cases heq
      exact Ran.trans (.step .refl happly) (ih c₂ cs₂ hrest)

/-! ## Looking up one instance -/

/-- `GetInstanceByID`; `jsonErr` is the text of the error of `json.Unmarshal` on a value. -/
def getInstanceByID (fmt : InstanceFormat) (keyPrefix : String) (jsonErr : Bytes → String)
    (st : EtcdKeys.Store String) (service instanceID : String) (failure : Option String) :
    Except GoError ServiceInstance :=
  match failure with
  | some text => .error (.wrapf "get instance by ID: %w" [] (.foreign text))
  | none =>
    match st.filter (·.1 = serviceKey keyPrefix service instanceID) with
    | [] => .error (.errorf "instance not found: %s" [.str instanceID])
    | kv :: _ =>
      if (fmt.unmarshal kv.2).2 = false then
        .error (.wrapf "unmarshal service instance: %w" [] (.foreign (jsonErr kv.2)))
      else if (fmt.unmarshal kv.2).1.status ≠ .up then
        .error (.errorf "instance is not up: %s" [.str instanceID])
      else .ok (fmt.unmarshal kv.2).1

/-- The instance has a name and an ID without slashes. -/
def PlainInstance (inst : ServiceInstance) : Prop := Plain inst.service ∧ Plain inst.id

section Lookup
variable {fmt : InstanceFormat} {keyPrefix : String} {rows : EtcdKeys.Store String}

/-- Among keys without further slashes a key tells its service and its ID. -/
theorem rowOf_key_iff {inst : ServiceInstance} (h : PlainInstance inst)
    (service instanceID : String) :
    (rowOf fmt keyPrefix inst).1 = serviceKey keyPrefix service instanceID ↔
      inst.service = service ∧ inst.id = instanceID := by
  constructor
  · intro hkey
    have hsel : hasPrefix (servicePrefix keyPrefix service)
        (serviceKey keyPrefix inst.service inst.id) := by
      rw [show serviceKey keyPrefix inst.service inst.id = _ from hkey, selects_iff]
      exact .inl rfl
    obtain rfl := ((selects_alone_iff keyPrefix).mpr h service).mp hsel
    exact ⟨rfl, (serviceKey_inj keyPrefix h.1 h.1 hkey).2⟩
  · rintro ⟨rfl, rfl⟩
    rfl

theorem selected_iff {inst : ServiceInstance} (h : PlainInstance inst) (service : String) :
    hasPrefix (servicePrefix keyPrefix service) (rowOf fmt keyPrefix inst).1 ↔
      inst.service = service :=
  (selects_alone_iff keyPrefix).mpr h service

theorem unmarshal_rowOf (inst : ServiceInstance) :
    fmt.unmarshal (rowOf fmt keyPrefix inst).2 = (inst, true) := fmt.inverse inst

theorem rowOf_inj {inst inst' : ServiceInstance}
    (h : rowOf fmt keyPrefix inst = rowOf fmt keyPrefix inst') : inst = inst' := by
  have heq := congrArg (fun row => (fmt.unmarshal row.2).1) h
  simpa [unmarshal_rowOf] using heq

theorem mem_upInstances {inst : ServiceInstance} {values : List Bytes} :
    inst ∈ upInstances fmt values ↔
      ∃ v ∈ values, fmt.unmarshal v = (inst, true) ∧ inst.status = .up := by
  induction values with
  | nil => simp [upInstances]
  | cons v values ih =>
    rw [upInstances, List.exists_mem_cons_iff, ← ih]
    split
    · rename_i hv
      rw [List.mem_cons]
      refine or_congr_left ⟨?_, fun h => by rw [h.1]⟩
      rintro rfl
      exact ⟨Prod.ext rfl hv.1, hv.2⟩
    · rename_i hv
      refine ⟨.inr, Or.rec (fun h => ?_) id⟩
      rw [h.1] at hv
      exact absurd ⟨rfl, h.2⟩ hv

/-- Listing a service finds the instances of its rows that are up. -/
theorem listed_iff (hrows : ∀ row ∈ rows, ∃ inst, PlainInstance inst ∧
      row = rowOf fmt keyPrefix inst) (service : String) (inst : ServiceInstance) :
    (∃ l, getInstances fmt keyPrefix rows service none = .ok l ∧ inst ∈ l) ↔
      inst.service = service ∧ inst.status = .up ∧ rowOf fmt keyPrefix inst ∈ rows := by
  simp only [getInstances, Except.ok.injEq, exists_eq_left', mem_upInstances, List.mem_map,
    List.mem_filter]
  constructor
  · rintro ⟨v, ⟨row, ⟨hrow, hsel⟩, rfl⟩, hun, hup⟩
    obtain ⟨inst', hplain, rfl⟩ := hrows row hrow
    rw [unmarshal_rowOf] at hun
    cases hun
    exact ⟨(selected_iff hplain service).mp hsel, hup, hrow⟩
  · rintro ⟨hservice, hup, hrow⟩
    obtain ⟨inst', hplain, heq⟩ := hrows _ hrow
    obtain rfl := rowOf_inj heq
    exact ⟨_, ⟨_, ⟨hrow, (selected_iff hplain service).mpr hservice⟩, rfl⟩, unmarshal_rowOf _, hup⟩

/-- Looking an instance up by its ID gives what is listed under its service with that ID. -/
theorem getInstanceByID_iff {E : Etcd} {c : Cluster E} {ops : List (Op E)}
    {cs : List (Change String Bytes)} (h : Ran fmt keyPrefix (newCluster E) ops cs c)
    (hops : ∀ inst, Registers ops inst → PlainInstance inst) (jsonErr : Bytes → String)
    (service instanceID : String) (inst : ServiceInstance) :
    getInstanceByID fmt keyPrefix jsonErr c.rows service instanceID none = .ok inst ↔
      inst.id = instanceID ∧
        ∃ l, getInstances fmt keyPrefix c.rows service none = .ok l ∧ inst ∈ l := by
  have hrows := ran_rows h hops
  rw [listed_iff hrows]
  unfold getInstanceByID
  simp only
  split
  · rename_i hnone
    refine ⟨nofun, ?_⟩
    rintro ⟨rfl, rfl, -, hrow⟩
    have hmem : rowOf fmt keyPrefix inst ∈
        c.rows.filter (·.1 = serviceKey keyPrefix inst.service inst.id) :=
      List.mem_filter.mpr ⟨hrow, by simp [rowOf]⟩
    rw [hnone] at hmem
    cases hmem
  · rename_i row rest hcons
    have hmem : row ∈ c.rows.filter (·.1 = serviceKey keyPrefix service instanceID) := by
      rw [hcons]
      exact List.mem_cons_self
    obtain ⟨hrow, hkey⟩ := List.mem_filter.mp hmem
    obtain ⟨inst', hplain, rfl⟩ := hrows row hrow
    obtain ⟨rfl, rfl⟩ := (rowOf_key_iff hplain service instanceID).mp (by simpa using hkey)
    simp only [unmarshal_rowOf, Bool.true_eq_false, if_false]
    constructor
    · intro hok
      split at hok <;> cases hok
      rename_i hup
      exact ⟨rfl, rfl, not_not.mp hup, hrow⟩
    · rintro ⟨hid, hservice, hup, hrow'⟩
      -- the two rows have one key
      have hsame : rowOf fmt keyPrefix inst = rowOf fmt keyPrefix inst' := by
        refine List.inj_on_of_nodup_map (ran_nodup h) hrow' hrow ?_
        rw [rowOf, rowOf, hservice, hid]
      obtain rfl := rowOf_inj hsame
      rw [if_neg (not_not.mpr hup)]

end Lookup

/-! ## A format, and an etcd -/

def statusNumber : InstanceStatus → Nat
  | .unknown => 0
  | .up => 1
  | .down => 2
  | .starting => 3

def numberedStatus : Nat → InstanceStatus
  | 0 => .unknown
  | 1 => .up
  | 2 => .down
  | _ => .starting

instance encodableStatus : Encodable InstanceStatus :=
  .ofLeftInverse statusNumber numberedStatus fun s => by cases s <;> rfl

instance encodableInstance : Encodable ServiceInstance := .ofLeftInverse
  (fun i => (i.id, i.service, i.version, i.address, i.port, i.metadata, i.weight, i.status))
  (fun t => ⟨t.1, t.2.1, t.2.2.1, t.2.2.2.1, t.2.2.2.2.1, t.2.2.2.2.2.1, t.2.2.2.2.2.2.1,
    t.2.2.2.2.2.2.2⟩) fun _ => rfl

/-- A format as assumed exists: the number of an instance in unary. -/
instance : Inhabited InstanceFormat where
  default :=
    { marshal := fun inst => List.replicate (Encodable.encode inst) 0
      unmarshal := fun data =>
        match Encodable.decode data.length with
        | some inst => (inst, true)
        | none => (EtcdWatcher.zeroInstance, false)
      inverse := fun inst => by simp only [List.length_replicate, Encodable.encodek] }

/-- An etcd as assumed exists: requests do not fail, but for a lease that is not there. -/
def leasedServe (st : Lib.Leased.Store String Bytes) :
    Request → Reply (Lib.Leased.Store String Bytes)
  | .grant _ => ⟨none, st.granted + 1, st.grant, []⟩
  | .put key value lease =>
    if lease.toNat ∈ st.leases then
      ⟨none, 0, (st.put key value lease.toNat).1, (st.put key value lease.toNat).2⟩
    else ⟨some "lease not found", 0, st, []⟩
  | .delete key => ⟨none, 0, (st.deleteAll [key]).1, (st.deleteAll [key]).2⟩
  | .keepAliveOnce lease =>
    ⟨if lease.toNat ∈ st.leases then none else some "lease not found", 0, st, []⟩
  | .revoke lease => ⟨none, 0, (st.revoke lease.toNat).1, (st.revoke lease.toNat).2⟩

def leasedEtcd : Etcd where
  State := Lib.Leased.Store String Bytes
  Chance := Nat
  init := .new
  rows := Store.rows
  serve st req _ := leasedServe st req
  expire st lease := st.revoke lease
  empty := rfl
  served st req _ := by
    cases req with
    | grant | keepAliveOnce => exact .nil (.refl _)
    | put key value lease =>
      simp only [leasedServe]
      split
      · exact Store.put_changed key value lease.toNat
      · exact .nil (.refl _)
    | delete => exact Store.deleteAll_changed _ _
    | revoke => exact Store.revoke_changed _
  expired _ _ := Store.revoke_changed _
  requested {st req x key value isNew} h := by
    cases req with
    | grant | keepAliveOnce => cases h
    | put key' value' lease =>
      simp only [leasedServe] at h
      split at h
      · cases List.mem_singleton.mp h
        exact ⟨lease, rfl⟩
      · cases h
    | delete => exact absurd h Store.deleteAll_puts
    | revoke => exact absurd h Store.deleteAll_puts
  only_removes := Store.deleteAll_puts

def instanceA : ServiceInstance := ⟨"1", "a", "", "10.0.0.1", 80, [], 100, .up⟩

def registersA : List (Op leasedEtcd) :=
  [.newRegistry 10 none (0 : Nat) none, .register 0 instanceA (0 : Nat)]

theorem registersA_possible :
    (perform default "/rpc/services" (newCluster leasedEtcd) registersA).isSome := by decide

theorem getInstanceByID_iff_registersA :
    let c := ((perform default "/rpc/services" _ registersA).get registersA_possible).1
    getInstanceByID default "/rpc/services" (fun _ => "") c.rows "a" "1" none = .ok instanceA ↔
      instanceA.id = "1" ∧ ∃ l, getInstances default "/rpc/services" c.rows "a" none = .ok l ∧
        instanceA ∈ l := by
  refine getInstanceByID_iff (ran_perform registersA_possible) ?_ _ "a" "1" instanceA
  rintro inst ⟨r, x, hop⟩
  simp only [registersA, List.mem_cons, reduceCtorEq, List.not_mem_nil, or_false,
    false_or] at hop
  cases hop
  exact ⟨by decide, by decide⟩

end RpcInGo.Registry.EtcdLeases
