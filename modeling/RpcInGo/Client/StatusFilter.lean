import RpcInGo.Client.CacheSync

/-!
What the cache of `discoverySource` holds when every event of a service reaches
`handleWatchEvent` at once and in order. `GetInstances` leaves out the instances that are
not up; the events carry all of them.

* `follow_upToDate_iff`: one operation keeps the cache right exactly when it registers an
  instance that is up, or updates one without taking it up or down, or deregisters one;
* `cache_filters`: in runs of such operations the cache holds the instances that are up,
  and each of them once if no instance that is up is registered again;
* `goes_down_stays`: an instance that goes down stays in the cache.
-/

namespace RpcInGo.Client.StatusFilter
open Lib.Goroutine Registry.Instance Registry.Memory Source CacheSync

/-- The events, one after the other, to `handleWatchEvent`. -/
def deliver (cache : List ServiceInstance) (events : List Event) : List ServiceInstance :=
  events.foldl (fun cache event => (handleWatchEvent cache event).1) cache

/-- Callers of the registry, with a cached list to which the events of the service are
delivered after each operation. -/
def follow (service : String) : Program (Shared × List ServiceInstance) Unit Ev where
  step p _ e := (operate p.1 e).map fun g =>
    ((g, deliver p.2 ((g.log service).drop (p.1.log service).length)), (), [])

/-- The cache holds instances whose ID is registered as up, and all that are. -/
structure UpToDate (service : String) (r : MemoryRegistry) (cache : List ServiceInstance) :
    Prop where
  onlyUp : ∀ x ∈ cache, ∃ y ∈ r.getInstances service, y.id = x.id
  allUp : ∀ y ∈ r.getInstances service, y ∈ cache

/-! ## The conditions -/

inductive Condition where
  /-- The operations are on instances of the service. -/
  | oneService
  /-- Instances are registered as up, and an update leaves an instance up if it was up and
  only then. -/
  | statusKept
  /-- An instance that is up is not registered again. -/
  | registeredOnce
  deriving DecidableEq

/-- The ID belongs to the service, if it is registered. -/
def ownID (service : String) (r : MemoryRegistry) (id : String) : Bool :=
  r.instances.all fun x => x.id ≠ id || x.service = service

def isUp (inst : ServiceInstance) : Bool := inst.status = .up

def statusKept (r : MemoryRegistry) : Ev → Bool
  | .register inst => isUp inst
  | .update inst => r.instances.all fun x => x.id ≠ inst.id || isUp x = isUp inst
  | _ => true

def asks (service : String) (c : Condition)
    (s : Config (Shared × List ServiceInstance) Unit) (_ : Nat) (e : Ev) : Bool :=
  let r := s.shared.1.registry
  match c, e with
  | .oneService, .register inst => inst.service = service && ownID service r inst.id
  | .oneService, .update inst => inst.service = service && ownID service r inst.id
  | .oneService, .deregister _ id => ownID service r id
  | .statusKept, e => statusKept r e
  | .registeredOnce, .register inst => r.instances.all fun x => x.id ≠ inst.id || !isUp x
  | _, _ => true

/-! ## One operation -/

section Lists
variable {l cache : List ServiceInstance} {inst x : ServiceInstance} {id : String}

theorem mem_remove : x ∈ remove l id ↔ x ∈ l ∧ x.id ≠ id := by
  simp [remove]

theorem mem_put : x ∈ put l inst ↔ x = inst ∨ (x ∈ l ∧ x.id ≠ inst.id) := by
  rw [put, List.mem_append, mem_remove, List.mem_singleton, or_comm]

theorem mem_getInstances {r : MemoryRegistry} {service : String} :
    x ∈ r.getInstances service ↔ x ∈ r.instances ∧ x.service = service ∧ isUp x = true := by
  simp [MemoryRegistry.getInstances, isUp]

theorem replaceFirst_keeps (hx : x ∈ cache) (hid : x.id ≠ inst.id) :
    x ∈ replaceFirst inst cache := by
  induction cache with
  | nil => cases hx
  | cons y ys ih =>
    rw [replaceFirst]
    rcases List.mem_cons.mp hx with rfl | hx
    · rw [if_neg hid]
      exact List.mem_cons_self
    · split
      · exact List.mem_cons_of_mem _ hx
      · exact List.mem_cons_of_mem _ (ih hx)

theorem mem_replaceFirst_self (hx : x ∈ cache) (hid : x.id = inst.id) :
    inst ∈ replaceFirst inst cache := by
  induction cache with
  | nil => cases hx
  | cons y ys ih =>
    rw [replaceFirst]
    split
    · exact List.mem_cons_self
    · rename_i hne
      rcases List.mem_cons.mp hx with rfl | hx
      · exact absurd hid hne
      · exact List.mem_cons_of_mem _ (ih hx)

theorem replaceFirst_absent (h : ∀ x ∈ cache, x.id ≠ inst.id) :
    replaceFirst inst cache = cache := by
  induction cache with
  | nil => rfl
  | cons y ys ih =>
    rw [replaceFirst, if_neg (h y List.mem_cons_self),
      ih fun x hx => h x (List.mem_cons_of_mem _ hx)]

theorem replaceFirst_ids : (replaceFirst inst cache).map (·.id) = cache.map (·.id) := by
  induction cache with
  | nil => rfl
  | cons y ys ih =>
    rw [replaceFirst]
    split
    · rename_i hid
      simp [hid]
    · simp [ih]

end Lists

/-- What an operation on the service does, and the events it emits for it. -/
inductive Applied (r r' : MemoryRegistry) : Ev → List Event → Prop
  | registered {inst : ServiceInstance} (h : r'.instances = put r.instances inst) :
      Applied r r' (.register inst) [⟨.add, inst⟩]
  | updated {inst old : ServiceInstance} (hold : old ∈ r.instances) (hid : old.id = inst.id)
      (h : r'.instances = put r.instances inst) : Applied r r' (.update inst) [⟨.update, inst⟩]
  | notUpdated {inst : ServiceInstance} (hnone : ∀ x ∈ r.instances, x.id ≠ inst.id)
      (h : r'.instances = r.instances) : Applied r r' (.update inst) []
  | removed {service id : String} {old : ServiceInstance} (hold : old ∈ r.instances)
      (hid : old.id = id) (h : r'.instances = remove r.instances id) :
      Applied r r' (.deregister service id) [⟨.delete, old⟩]
  | notRemoved {service id : String} (h : r'.instances = r.instances) :
      Applied r r' (.deregister service id) []

section Operate
variable {service : String} {g g' : Shared} {e : Ev} {r r' : MemoryRegistry}

theorem emit_new (event : Event) (h : event.inst.service = service) :
    ((g.emit r event).log service).drop (g.log service).length = [event] := by
  simp [Shared.emit, h]

theorem operate_applied {s : Config (Shared × List ServiceInstance) Unit} {i : Nat}
    (hown : asks service .oneService s i e = true) (h : operate s.shared.1 e = some g') :
    Applied s.shared.1.registry g'.registry e
      ((g'.log service).drop (s.shared.1.log service).length) := by
  cases e <;> try cases h
  case register inst =>
    simp only [asks, Bool.and_eq_true, decide_eq_true_eq] at hown
    simp only [operate] at h
    split at h
    · rename_i r hr
      cases h
      rw [emit_new _ hown.1]
      exact .registered (register_ok hr).1
    · cases h
  case deregister sv id =>
    simp only [operate] at h
    split at h
    · rename_i r err old hr hold
      cases h
      have hmem := List.mem_of_find?_eq_some hold
      have hid : old.id = id := by simpa using List.find?_some hold
      have hservice : old.service = service := by
        simp only [asks, ownID, List.all_eq_true, Bool.or_eq_true, decide_eq_true_eq] at hown
        exact (hown old hmem).resolve_left fun hne => hne hid
      rw [emit_new _ hservice]
      exact .removed hmem hid (deregister_found hold hr).1
    · rename_i r err hr hnone
      cases h
      simp only [List.drop_length]
      exact .notRemoved (congrArg _ (deregister_absent hnone hr))
    · cases h
  case update inst =>
    simp only [asks, Bool.and_eq_true, decide_eq_true_eq] at hown
    simp only [operate] at h
    split at h
    · rename_i r hr
      cases h
      rw [emit_new _ hown.1]
      obtain ⟨-, ⟨old, hold, hid⟩, hput, -⟩ | ⟨hne, -⟩ := update_cases hr
      · exact .updated hold hid hput
      · exact absurd rfl hne
    · rename_i r err hr
      cases h
      simp only [List.drop_length]
      obtain ⟨hnone, -⟩ | ⟨-, hfresh, hsame⟩ := update_cases hr
      · cases hnone
      · exact .notUpdated hfresh (congrArg _ hsame)
    · cases h

end Operate

section Step
variable {service id : String} {r r' : MemoryRegistry} {cache : List ServiceInstance}
  {inst old x y : ServiceInstance}

theorem getInstances_put (hput : r'.instances = put r.instances inst)
    (hservice : inst.service = service) : y ∈ r'.getInstances service ↔
      (y = inst ∧ isUp inst = true) ∨ (y ∈ r.getInstances service ∧ y.id ≠ inst.id) := by
  rw [mem_getInstances, mem_getInstances, hput, mem_put]
  constructor
  · rintro ⟨rfl | ⟨hy, hne⟩, hs, hup⟩
    · exact Or.inl ⟨rfl, hup⟩
    · exact Or.inr ⟨⟨hy, hs, hup⟩, hne⟩
  · rintro (⟨rfl, hup⟩ | ⟨⟨hy, hs, hup⟩, hne⟩)
    · exact ⟨Or.inl rfl, hservice, hup⟩
    · exact ⟨Or.inr ⟨hy, hne⟩, hs, hup⟩

/-- The ID of a new instance is in the registry with its status. -/
theorem isUp_of_put (hput : r'.instances = put r.instances inst)
    (hservice : inst.service = service) (hy : y ∈ r'.getInstances service)
    (hid : y.id = inst.id) : isUp inst = true := by
  obtain ⟨rfl, hup⟩ | ⟨-, hne⟩ := (getInstances_put hput hservice).mp hy
  · exact hup
  · exact absurd hid hne

/-- The ID of a cached instance is still registered as up when the new instance is. -/
theorem still_up (hu : UpToDate service r cache) (hput : r'.instances = put r.instances inst)
    (hservice : inst.service = service) (hx : x ∈ cache) (hup : isUp inst = true ∨ x.id ≠ inst.id) :
    ∃ y ∈ r'.getInstances service, y.id = x.id := by
  obtain ⟨y, hy, hyx⟩ := hu.onlyUp x hx
  by_cases hid : y.id = inst.id
  · have hinst : isUp inst = true := hup.resolve_right fun hne => hne (hyx.symm.trans hid)
    exact ⟨inst, (getInstances_put hput hservice).mpr (Or.inl ⟨rfl, hinst⟩), hid.symm.trans hyx⟩
  · exact ⟨y, (getInstances_put hput hservice).mpr (Or.inr ⟨hy, hid⟩), hyx⟩

theorem registered_iff (hu : UpToDate service r cache)
    (hput : r'.instances = put r.instances inst) (hservice : inst.service = service) :
    UpToDate service r' (cache ++ [inst]) ↔ isUp inst = true := by
  constructor
  · intro hu'
    obtain ⟨y, hy, hid⟩ := hu'.onlyUp inst (by simp)
    exact isUp_of_put hput hservice hy hid
  · intro hup
    refine ⟨fun x hx => ?_, fun y hy => ?_⟩
    · rcases List.mem_append.mp hx with hx | hx
      · exact still_up hu hput hservice hx (Or.inl hup)
      · rw [List.mem_singleton] at hx
        subst hx
        exact ⟨x, (getInstances_put hput hservice).mpr (Or.inl ⟨rfl, hup⟩), rfl⟩
    · obtain ⟨rfl, -⟩ | ⟨hy, -⟩ := (getInstances_put hput hservice).mp hy
      · simp
      · exact List.mem_append_left _ (hu.allUp y hy)

/-- A cached instance with the ID of a registered one tells that the latter is up. -/
theorem up_of_cached (hu : UpToDate service r cache) (hold : old ∈ r.instances) (hx : x ∈ cache)
    (hid : x.id = old.id) : isUp old = true := by
  obtain ⟨y, hy, hyx⟩ := hu.onlyUp x hx
  obtain ⟨hmem, -, hup⟩ := mem_getInstances.mp hy
  rw [List.inj_on_of_nodup_map r.unique hmem hold (hyx.trans hid)] at hup
  exact hup

theorem updated_iff (hu : UpToDate service r cache) (hold : old ∈ r.instances)
    (hid : old.id = inst.id) (hown : old.service = service)
    (hput : r'.instances = put r.instances inst) (hservice : inst.service = service) :
    UpToDate service r' (replaceFirst inst cache) ↔ isUp old = isUp inst := by
  have habsent : isUp old = false → replaceFirst inst cache = cache := by
    intro hdown
    apply replaceFirst_absent
    intro x hx hxi
    rw [up_of_cached hu hold hx (hxi.trans hid.symm)] at hdown
    cases hdown
  have hcached : isUp old = true → old ∈ cache :=
    fun hup => hu.allUp old (mem_getInstances.mpr ⟨hold, hown, hup⟩)
  constructor
  · intro hu'
    cases hup : isUp old with
    | true =>
      -- the new instance takes the place of the old one, so it has to be up
      have hin := mem_replaceFirst_self (hcached hup) hid
      obtain ⟨y, hy, hyi⟩ := hu'.onlyUp inst hin
      exact (isUp_of_put hput hservice hy hyi).symm
    | false =>
      -- the update finds nothing to replace, so the new instance must not be up
      by_contra hne
      have hinst : isUp inst = true := by
        cases h : isUp inst with
        | true => rfl
        | false => exact absurd h.symm hne
      have hin := hu'.allUp inst ((getInstances_put hput hservice).mpr (Or.inl ⟨rfl, hinst⟩))
      rw [habsent hup] at hin
      rw [up_of_cached hu hold hin hid.symm] at hup
      cases hup
  · intro hsame
    cases hup : isUp old with
    | true =>
      have hinst : isUp inst = true := hsame.symm.trans hup
      refine ⟨fun x hx => ?_, fun y hy => ?_⟩
      · rcases mem_replaceFirst hx with rfl | hx
        · exact ⟨x, (getInstances_put hput hservice).mpr (Or.inl ⟨rfl, hinst⟩), rfl⟩
        · exact still_up hu hput hservice hx (Or.inl hinst)
      · obtain ⟨rfl, -⟩ | ⟨hy, hne⟩ := (getInstances_put hput hservice).mp hy
        · exact mem_replaceFirst_self (hcached hup) hid
        · exact replaceFirst_keeps (hu.allUp y hy) hne
    | false =>
      rw [habsent hup]
      refine ⟨fun x hx => ?_, fun y hy => ?_⟩
      · refine still_up hu hput hservice hx (Or.inr fun hxi => ?_)
        rw [up_of_cached hu hold hx (hxi.trans hid.symm)] at hup
        cases hup
      · obtain ⟨rfl, hinst⟩ | ⟨hy, -⟩ := (getInstances_put hput hservice).mp hy
        · rw [hsame, hinst] at hup
          cases hup
        · exact hu.allUp y hy

theorem removed_upToDate (hu : UpToDate service r cache)
    (hremove : r'.instances = remove r.instances id) :
    UpToDate service r' (cache.filter (·.id ≠ id)) := by
  have hget : ∀ y, y ∈ r'.getInstances service ↔ y ∈ r.getInstances service ∧ y.id ≠ id := by
    intro y
    rw [mem_getInstances, mem_getInstances, hremove, mem_remove]
    tauto
  refine ⟨fun x hx => ?_, fun y hy => ?_⟩
  · obtain ⟨hx, hne⟩ := mem_remove.mp hx
    obtain ⟨y, hy, hyx⟩ := hu.onlyUp x hx
    exact ⟨y, (hget y).mpr ⟨hy, hyx ▸ hne⟩, hyx⟩
  · obtain ⟨hy, hne⟩ := (hget y).mp hy
    exact mem_remove.mpr ⟨hu.allUp y hy, hne⟩

theorem upToDate_same (h : r'.instances = r.instances) :
    UpToDate service r' cache ↔ UpToDate service r cache := by
  have hget : r'.getInstances service = r.getInstances service := by
    simp only [MemoryRegistry.getInstances, h]
  constructor <;> rintro ⟨h1, h2⟩
  · exact ⟨hget ▸ h1, hget ▸ h2⟩
  · exact ⟨hget ▸ h1, hget ▸ h2⟩

end Step

section Fire
variable {service : String} {s t : Config (Shared × List ServiceInstance) Unit} {i : Nat} {e : Ev}

theorem fire_applied (hown : asks service .oneService s i e = true)
    (h : (follow service).fire s i e = some t) :
    ∃ events, Applied s.shared.1.registry t.shared.1.registry e events ∧
      t.shared.2 = deliver s.shared.2 events := by
  obtain ⟨pc, p, pc', new, -, hs, rfl⟩ := fire_cases h
  obtain ⟨g', hop, heq⟩ := Option.map_eq_some_iff.mp hs
  cases heq
  exact ⟨_, operate_applied hown hop, rfl⟩

/-- One operation on an instance of the service keeps the cache right exactly if it keeps
the status. -/
theorem follow_upToDate_iff (hu : UpToDate service s.shared.1.registry s.shared.2)
    (hown : asks service .oneService s i e = true) (h : (follow service).fire s i e = some t) :
    UpToDate service t.shared.1.registry t.shared.2 ↔ asks service .statusKept s i e = true := by
  obtain ⟨events, happ, hcache⟩ := fire_applied hown h
  rw [hcache]
  cases happ with
  | registered hput =>
    simp only [asks, Bool.and_eq_true, decide_eq_true_eq] at hown
    exact registered_iff hu hput hown.1
  | @updated inst old hold hid hput =>
    simp only [asks, ownID, Bool.and_eq_true, decide_eq_true_eq, List.all_eq_true,
      Bool.or_eq_true] at hown
    have hservice := (hown.2 old hold).resolve_left fun hne => hne hid
    refine (updated_iff hu hold hid hservice hput hown.1).trans ?_
    simp only [asks, statusKept, List.all_eq_true, Bool.or_eq_true, decide_eq_true_eq]
    constructor
    · intro hsame x hx
      by_cases hxi : x.id = inst.id
      · rw [List.inj_on_of_nodup_map s.shared.1.registry.unique hx hold (hxi.trans hid.symm)]
        exact Or.inr hsame
      · exact Or.inl hxi
    · intro hall
      exact (hall old hold).resolve_left fun hne => hne hid
  | notUpdated hnone hsame =>
    refine iff_of_true ((upToDate_same hsame).mpr hu) ?_
    simp only [asks, statusKept, List.all_eq_true, Bool.or_eq_true, decide_eq_true_eq]
    exact fun x hx => Or.inl (hnone x hx)
  | removed hold hid hremove =>
    subst hid
    exact iff_of_true (removed_upToDate hu hremove) rfl
  | notRemoved hsame => exact iff_of_true ((upToDate_same hsame).mpr hu) rfl

theorem fire_unique (hu : UpToDate service s.shared.1.registry s.shared.2)
    (hn : (s.shared.2.map (·.id)).Nodup) (hown : asks service .oneService s i e = true)
    (honce : asks service .registeredOnce s i e = true)
    (h : (follow service).fire s i e = some t) : (t.shared.2.map (·.id)).Nodup := by
  obtain ⟨events, happ, hcache⟩ := fire_applied hown h
  rw [hcache]
  cases happ with
  | @registered inst hput =>
    have hfresh : inst.id ∉ s.shared.2.map (·.id) := by
      intro hmem
      obtain ⟨x, hx, hid⟩ := List.mem_map.mp hmem
      obtain ⟨y, hy, hyx⟩ := hu.onlyUp x hx
      obtain ⟨hy, -, hup⟩ := mem_getInstances.mp hy
      simp only [asks, List.all_eq_true, Bool.or_eq_true, decide_eq_true_eq,
        Bool.not_eq_true'] at honce
      rcases honce y hy with hne | hdown
      · exact hne (hyx.trans hid)
      · rw [hup] at hdown
        cases hdown
    show ((s.shared.2 ++ [inst]).map (·.id)).Nodup
    rw [List.map_append, List.map_singleton, ← List.concat_eq_append]
    exact hn.concat hfresh
  | @updated inst old _ _ _ =>
    show ((replaceFirst inst s.shared.2).map (·.id)).Nodup
    rw [replaceFirst_ids]
    exact hn
  | notUpdated | notRemoved => exact hn
  | @removed _ _ old _ _ _ => exact remove_unique hn old.id

end Fire

theorem getInstances_nodup (r : MemoryRegistry) (service : String) :
    ((r.getInstances service).map (·.id)).Nodup :=
  r.unique.sublist (List.filter_sublist.map _)

/-- With each ID once, the cache is what `GetInstances` returns. -/
theorem perm_of_upToDate {service : String} {r : MemoryRegistry} {cache : List ServiceInstance}
    (hu : UpToDate service r cache) (hn : (cache.map (·.id)).Nodup) :
    cache.Perm (r.getInstances service) := by
  refine (List.perm_ext_iff_of_nodup hn.of_map (getInstances_nodup r service).of_map).mpr ?_
  intro x
  refine ⟨fun hx => ?_, hu.allUp x⟩
  obtain ⟨y, hy, hyx⟩ := hu.onlyUp x hx
  rwa [← List.inj_on_of_nodup_map hn (hu.allUp y hy) hx hyx]

theorem upToDate_of_perm {service : String} {r : MemoryRegistry} {cache : List ServiceInstance}
    (h : cache.Perm (r.getInstances service)) : UpToDate service r cache :=
  ⟨fun x hx => ⟨x, h.mem_iff.mp hx, rfl⟩, fun _ hy => h.mem_iff.mpr hy⟩

theorem follow_run_upToDate {service : String} {g : Shared} {cache : List ServiceInstance}
    {tr : List (Nat × Ev)} {s : Config (Shared × List ServiceInstance) Unit}
    (hstart : cache.Perm (g.registry.getInstances service))
    (hr : Run (follow service) (Meets (asks service) [.oneService, .statusKept])
      ⟨(g, cache), [()]⟩ tr s) : UpToDate service s.shared.1.registry s.shared.2 := by
  refine hr.invariant (I := fun s => UpToDate service s.shared.1.registry s.shared.2)
    (upToDate_of_perm hstart) ?_
  intro s i e t hu hok h
  exact (follow_upToDate_iff hu (hok .oneService (by decide)) h).mpr (hok .statusKept (by decide))

/-- From a cache that agrees with `GetInstances`: if every operation is on an instance of
the service and keeps the status, the cache always holds the instances that are up; if
moreover no instance that is up is registered again, it holds each of them once, as it is
registered. An operation that does not keep the status makes the cache wrong. -/
theorem cache_filters {service : String} {g : Shared} {cache : List ServiceInstance}
    (hstart : cache.Perm (g.registry.getInstances service)) (tr : List (Nat × Ev))
    (s : Config (Shared × List ServiceInstance) Unit) :
    (Run (follow service) (Meets (asks service) [.oneService, .statusKept]) ⟨(g, cache), [()]⟩
        tr s →
      UpToDate service s.shared.1.registry s.shared.2) ∧
    (Run (follow service) (Meets (asks service) [.oneService, .statusKept, .registeredOnce])
        ⟨(g, cache), [()]⟩ tr s →
      s.shared.2.Perm (s.shared.1.registry.getInstances service)) ∧
    (∀ i e t, UpToDate service s.shared.1.registry s.shared.2 →
      asks service .oneService s i e = true → (follow service).fire s i e = some t →
      (UpToDate service t.shared.1.registry t.shared.2 ↔
        asks service .statusKept s i e = true)) := by
  refine ⟨follow_run_upToDate hstart, fun hr => ?_,
    fun i e t hu hown h => follow_upToDate_iff hu hown h⟩
  · have hboth := hr.invariant (I := fun s => UpToDate service s.shared.1.registry s.shared.2 ∧
      (s.shared.2.map (·.id)).Nodup) ⟨upToDate_of_perm hstart, ?_⟩ ?_
    · exact perm_of_upToDate hboth.1 hboth.2
    · exact (hstart.map _).nodup_iff.mpr (getInstances_nodup _ _)
    · rintro s i e t ⟨hu, hn⟩ hok h
      have hown := hok .oneService (by decide)
      exact ⟨(follow_upToDate_iff hu hown h).mpr (hok .statusKept (by decide)),
        fire_unique hu hn hown (hok .registeredOnce (by decide)) h⟩

/-- An empty registry and an empty cache. -/
def nothingYet : Config (Shared × List ServiceInstance) Unit := ⟨((start [] 0).shared, []), [()]⟩

/-- Two instances register, one of them changes its weight, the other one leaves. -/
def comeAndGo : List (Nat × Ev) :=
  [(0, .register (user "u1")), (0, .register (user "u2")),
    (0, .update { user "u1" with weight := 5 }), (0, .deregister "users" "u2")]

theorem comeAndGo_runs : (exec (follow "users") (Meets (asks "users")
    [.oneService, .statusKept, .registeredOnce]) nothingYet comeAndGo).isSome := by
  decide +kernel

theorem cache_filters_comeAndGo :
    (Option.get _ comeAndGo_runs).shared.2 = [{ user "u1" with weight := 5 }] ∧
    (Option.get _ comeAndGo_runs).shared.2.Perm
      ((Option.get _ comeAndGo_runs).shared.1.registry.getInstances "users") :=
  ⟨by decide +kernel, (cache_filters (List.Perm.refl []) comeAndGo _).2.1 (run_exec comeAndGo_runs)⟩

/-- An instance registers and goes down. -/
def goesDown : List (Nat × Ev) :=
  [(0, .register (user "u1")), (0, .update { user "u1" with status := .down })]

theorem goesDown_runs :
    (exec (follow "users") (Meets (asks "users") [.oneService]) nothingYet goesDown).isSome := by
  decide +kernel

/-- It stays in the cache, and the registry says that it is down. -/
theorem goes_down_stays :
    ¬ ∀ (service : String) (g : Shared) (cache : List ServiceInstance) (tr : List (Nat × Ev))
      (s : Config (Shared × List ServiceInstance) Unit),
      cache.Perm (g.registry.getInstances service) →
      Run (follow service) (Meets (asks service) [.oneService]) ⟨(g, cache), [()]⟩ tr s →
      UpToDate service s.shared.1.registry s.shared.2 := by
  intro h
  have hu := h "users" _ [] goesDown _ (List.Perm.refl []) (run_exec goesDown_runs)
  obtain ⟨y, hy, -⟩ := hu.onlyUp { user "u1" with status := .down } (by decide +kernel)
  have hnone : (Option.get _ goesDown_runs).shared.1.registry.getInstances "users" = [] := by
    decide +kernel
  rw [hnone] at hy
  cases hy

end RpcInGo.Client.StatusFilter
