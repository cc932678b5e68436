import RpcInGo.Client.StatusFilter

/-!
Whether an instance is in the cached list of its service once. Entries come from snapshots
of the registry, which has every ID once, and from Add events, which `handleWatchEvent`
appends without a look at what is there.

* `cached_once`: no ID is there twice in runs in which none is registered twice or moves
  between services, and snapshots are neither ahead of the watch nor behind it;
* `each_needed`: none of these conditions can be left out.
-/

namespace RpcInGo.Client.CachedOnce
open Lib.Goroutine Lib.Feed Registry.Instance Registry.Memory Source CacheSync
open StatusFilter (mem_put mem_remove replaceFirst_ids getInstances_nodup)

/-! ## The runs considered -/

inductive Condition where
  /-- Every event finds room in the channels, and so is delivered in order. -/
  | delivered
  /-- `Register` is called for IDs that are not registered. -/
  | registeredOnce
  /-- `Update` leaves an instance with its service. -/
  | sameService
  /-- While a service is watched, a snapshot is stored after the events that it holds already
  have been handled. -/
  | caughtUp
  /-- And before events that it does not hold yet. -/
  | notOvertaken
  /-- A subscription is made before the service changes after the stored snapshot. -/
  | watchedInTime
  deriving DecidableEq, Repr

def delivered (r : MemoryRegistry) : Ev → Bool
  | .register inst => !r.full inst.service
  | .update inst => r.instances.all (·.id ≠ inst.id) || !r.full inst.service
  | .deregister _ instanceID =>
    match r.instances.find? (·.id = instanceID) with
    | some inst => !r.full inst.service
    | none => true
  | _ => true

/-- Some goroutine watches the service. -/
def isAttended (ts : List Pc) (service : String) : Bool :=
  ts.any fun pc => (attends service pc).isSome

def asks (c : Condition) (s : Config Shared Pc) (i : Nat) (e : Ev) : Bool :=
  let g := s.shared
  match c, e, s.threads[i]? with
  | .delivered, e, _ => delivered g.registry e
  | .registeredOnce, .register inst, _ => g.registry.instances.all (·.id ≠ inst.id)
  | .sameService, .update inst, _ =>
    g.registry.instances.all fun x => x.id ≠ inst.id || x.service = inst.service
  | .caughtUp, .store, some (.holding service _ version) =>
    !isAttended s.threads service || version ≤ g.handledTo service
  | .notOvertaken, .store, some (.holding service _ version) =>
    !isAttended s.threads service || g.handledTo service ≤ version
  | .watchedInTime, .start, some (.starting service) =>
    (g.watchers service).isSome || g.cachedAt service = (g.log service).length
  | _, _, _ => true

def allConditions : List Condition :=
  [.delivered, .registeredOnce, .sameService, .caughtUp, .notOvertaken, .watchedInTime]

/-! ## Operations of the registry -/

/-- The registered IDs of a service, whatever their status. -/
def owned (r : MemoryRegistry) (service : String) : Set String :=
  { id | ∃ inst ∈ r.instances, inst.service = service ∧ inst.id = id }

/-- An operation that emits an event changes the registered IDs accordingly. -/
structure Logged (r r' : MemoryRegistry) (event : Event) : Prop where
  notified : notify event.inst.service event r.watchers = some r'.watchers
  room : r.full event.inst.service = false
  owned : ∀ service, owned r' service =
    if event.inst.service = service then (changeOf event).act (owned r service)
    else owned r service
  fresh : event.type = .add → event.inst.id ∉ CachedOnce.owned r event.inst.service

section Operate
variable {r r' : MemoryRegistry} {inst : ServiceInstance}

/-- An instance takes the place of those with its ID, if they have its service. -/
theorem owned_put (h : r'.instances = put r.instances inst)
    (hsame : ∀ x ∈ r.instances, x.id = inst.id → x.service = inst.service) (service : String) :
    owned r' service =
      if inst.service = service then insert inst.id (owned r service) else owned r service := by
  ext id
  simp only [owned, h, mem_put]
  split
  · rename_i hservice
    constructor
    · rintro ⟨x, rfl | ⟨hx, -⟩, hs, rfl⟩
      · exact Set.mem_insert _ _
      · exact Set.mem_insert_of_mem _ ⟨x, hx, hs, rfl⟩
    · rintro (rfl | ⟨x, hx, hs, rfl⟩)
      · exact ⟨inst, .inl rfl, hservice, rfl⟩
      · by_cases hid : x.id = inst.id
        · exact ⟨inst, .inl rfl, hservice, hid.symm⟩
        · exact ⟨x, .inr ⟨hx, hid⟩, hs, rfl⟩
  · rename_i hservice
    constructor
    · rintro ⟨x, rfl | ⟨hx, -⟩, hs, rfl⟩
      · exact absurd hs hservice
      · exact ⟨x, hx, hs, rfl⟩
    · rintro ⟨x, hx, hs, rfl⟩
      exact ⟨x, .inr ⟨hx, fun hid => hservice ((hsame x hx hid).symm.trans hs)⟩, hs, rfl⟩

theorem owned_remove (hinst : inst ∈ r.instances)
    (h : r'.instances = remove r.instances inst.id) (service : String) :
    owned r' service =
      if inst.service = service then owned r service \ {inst.id} else owned r service := by
  ext id
  simp only [owned, h, mem_remove]
  split
  · constructor
    · rintro ⟨x, ⟨hx, hid⟩, hs, rfl⟩
      exact ⟨⟨x, hx, hs, rfl⟩, hid⟩
    · rintro ⟨⟨x, hx, hs, rfl⟩, hid⟩
      exact ⟨x, ⟨hx, hid⟩, hs, rfl⟩
  · rename_i hservice
    constructor
    · rintro ⟨x, ⟨hx, -⟩, hs, rfl⟩
      exact ⟨x, hx, hs, rfl⟩
    · rintro ⟨x, hx, hs, rfl⟩
      refine ⟨x, ⟨hx, fun hid => hservice ?_⟩, hs, rfl⟩
      rw [← List.inj_on_of_nodup_map r.unique hx hinst hid]
      exact hs

theorem register_logged (h : r.register inst = some r') (hroom : r.full inst.service = false)
    (hfresh : ∀ x ∈ r.instances, x.id ≠ inst.id) : Logged r r' ⟨.add, inst⟩ := by
  obtain ⟨hput, hnotify⟩ := register_ok h
  refine ⟨hnotify, hroom, owned_put hput fun x hx hid => absurd hid (hfresh x hx), ?_⟩
  rintro - ⟨x, hx, -, hid⟩
  exact hfresh x hx hid

theorem update_logged (h : r.update inst = some (r', none))
    (hroom : (∀ x ∈ r.instances, x.id ≠ inst.id) ∨ r.full inst.service = false)
    (hsame : ∀ x ∈ r.instances, x.id = inst.id → x.service = inst.service) :
    Logged r r' ⟨.update, inst⟩ := by
  obtain ⟨-, ⟨old, hold, hid⟩, hput, hnotify⟩ | ⟨hne, -⟩ := update_cases h
  · refine ⟨hnotify, hroom.resolve_left fun hnone => hnone old hold hid, owned_put hput hsame, ?_⟩
    intro htype
    cases htype
  · exact absurd rfl hne

theorem deregister_logged {service id : String} {err : Option Protocol.Message.GoError}
    (hfind : r.instances.find? (·.id = id) = some inst)
    (h : r.deregister service id = some (r', err)) (hroom : r.full inst.service = false) :
    Logged r r' ⟨.delete, inst⟩ := by
  have hinst := List.mem_of_find?_eq_some hfind
  have hid : inst.id = id := by simpa using List.find?_some hfind
  obtain ⟨hremoved, hnotify⟩ := deregister_found hfind h
  rw [← hid] at hremoved
  refine ⟨hnotify, hroom, owned_remove hinst hremoved, ?_⟩
  intro htype
  cases htype

end Operate

theorem operate_logged {s : Config Shared Pc} {i : Nat} {e : Ev} {g' : Shared}
    (hmeets : Meets asks allConditions s i e) (h : operate s.shared e = some g') :
    g' = s.shared ∨ ∃ event r, Logged s.shared.registry r event ∧ g' = s.shared.emit r event := by
  have hdelivered := hmeets .delivered (by decide)
  have honce := hmeets .registeredOnce (by decide)
  have hsame := hmeets .sameService (by decide)
  revert h
  fun_cases operate s.shared e <;> intro h <;> cases h
  case case1 inst r hreg =>
    simp only [asks, delivered, Bool.not_eq_true', List.all_eq_true, decide_eq_true_eq]
      at hdelivered honce
    exact .inr ⟨_, r, register_logged hreg hdelivered honce, rfl⟩
  case case3 service id r err inst hfind hreg =>
    simp only [asks, delivered, hfind, Bool.not_eq_true'] at hdelivered
    exact .inr ⟨_, r, deregister_logged hfind hreg hdelivered, rfl⟩
  case case4 service id r err hfind hreg =>
    rw [deregister_absent hfind hreg]
    exact .inl rfl
  case case6 inst r hup =>
    simp only [asks, delivered, Bool.or_eq_true, Bool.not_eq_true', List.all_eq_true,
      decide_eq_true_eq] at hdelivered hsame
    refine .inr ⟨_, r, update_logged hup hdelivered fun x hx hid => ?_, rfl⟩
    exact (hsame x hx).resolve_left fun hne => hne hid
  case case7 inst r err hup =>
    obtain ⟨hnone, -⟩ | ⟨-, -, rfl⟩ := update_cases hup
    · cases hnone
    · exact .inl rfl

/-! ## The invariant -/

/-- The watch of a service that goes on. -/
structure Feeding (g : Shared) (ts : List Pc) (service : String) (c : Nat) (sub : Subscription)
    (pending : List Event) : Prop where
  channel : g.registry.watchers[c]? = some sub
  sameService : sub.service = service
  notClosed : sub.ch.closed = false
  attended : Attended ts service c pending
  bound : g.handledTo service ≤ (g.log service).length
  feed : pending ++ sub.ch.buf = (g.log service).drop (g.handledTo service)
  known : ∀ l, g.instanceCache service = some l → ids l ⊆ viewAt g service (g.handledTo service)

structure Once (g : Shared) (ts : List Pc) (service : String) : Prop where
  registered : owned g.registry service = view g service
  fresh : ∀ n event, (g.log service)[n]? = some event → event.type = .add →
    event.inst.id ∉ viewAt g service n
  held : ∀ l v, Pc.holding service l v ∈ ts →
    v ≤ (g.log service).length ∧ (l.map (·.id)).Nodup ∧ ids l ⊆ viewAt g service v
  cached : ∀ l, g.instanceCache service = some l → (l.map (·.id)).Nodup
  unwatched : g.watchers service = none → Unattended ts service ∧
    g.cachedAt service ≤ (g.log service).length ∧
    ∀ l, g.instanceCache service = some l → ids l ⊆ viewAt g service (g.cachedAt service)
  watched : ∀ c, g.watchers service = some c → Unattended ts service ∨
    ∃ sub pending, Feeding g ts service c sub pending

/-- What `g` and `g'` say about the service is the same, apart from the status of its
instances. -/
structure Alike (service : String) (g g' : Shared) : Prop where
  log : g'.log service = g.log service
  cache : g'.instanceCache service = g.instanceCache service
  watchers : g'.watchers service = g.watchers service
  cachedAt : g'.cachedAt service = g.cachedAt service
  handledTo : g'.handledTo service = g.handledTo service
  owned : owned g'.registry service = owned g.registry service
  channel : ∀ (c : Nat) sub, g.registry.watchers[c]? = some sub → sub.service = service →
    g'.registry.watchers[c]? = some sub

theorem alike_of_same {service : String} {g g' : Shared} (h : SameFor service g g')
    (howned : owned g'.registry service = owned g.registry service) : Alike service g g' :=
  ⟨h.log, h.cache, h.watchers, h.cachedAt, h.handledTo, howned, h.channel⟩

theorem Alike.refl (service : String) (g : Shared) : Alike service g g :=
  alike_of_same (.refl service g) rfl

theorem Alike.emit {g : Shared} {event : Event} {r : MemoryRegistry} {service : String}
    (hne : event.inst.service ≠ service) (hlogged : Logged g.registry r event) :
    Alike service g (g.emit r event) := by
  refine ⟨Function.update_of_ne hne.symm .., rfl, rfl, rfl, rfl, ?_, fun c sub hc hs => ?_⟩
  · exact (hlogged.owned service).trans (if_neg hne)
  · obtain ⟨sub', hsub', hoffer⟩ := notify_get hlogged.notified hc
    rw [offer_other hoffer (fun heq => hne (heq.symm.trans hs))] at hsub'
    exact hsub'

theorem owned_of_instances {r r' : MemoryRegistry} (h : r'.instances = r.instances)
    (service : String) : owned r' service = owned r service := by
  rw [owned, owned, h]

theorem unattended_of_stop {ts : List Pc} {service : String} {c i : Nat} {p q : Pc}
    {pending : List Event} (h : Attended ts service c pending) (hi : ts[i]? = some p)
    (hp : (attends service p).isSome) (hq : attends service q = none) :
    Unattended (ts.set i q ++ []) service := by
  obtain ⟨k, -, huniq⟩ := h
  have hik : i = k := huniq i (by rw [hi]; exact hp)
  intro pc hpc
  obtain ⟨j, hj⟩ := List.mem_iff_getElem?.mp hpc
  have hbind := bind_attends_set (q := q) hi (List.forall_mem_nil (attends service · = none)) j
  rw [hj, Option.bind_some] at hbind
  rw [hbind]
  split
  · exact hq
  · rename_i hne
    by_contra hsome
    exact hne (hik.trans (huniq j (Option.ne_none_iff_isSome.mp hsome)).symm)

section Frame
variable {g g' : Shared} {ts new : List Pc} {service : String} {i : Nat} {p q : Pc}

theorem Feeding.same {c : Nat} {sub : Subscription} {pending : List Event} {ts' : List Pc}
    (h : Feeding g ts service c sub pending) (hsame : Alike service g g')
    (hatt : Attended ts' service c pending) : Feeding g' ts' service c sub pending := by
  refine ⟨hsame.channel c sub h.channel h.sameService, h.sameService, h.notClosed, hatt, ?_, ?_, ?_⟩
  · rw [hsame.handledTo, hsame.log]
    exact h.bound
  · rw [hsame.handledTo, hsame.log]
    exact h.feed
  · rw [hsame.cache, hsame.handledTo, viewAt, hsame.log]
    exact h.known

/-- A step that is not about the service, or only reads what is. -/
theorem Once.frame (h : Once g ts service) (hsame : Alike service g g') (hi : ts[i]? = some p)
    (hp : attends service p = none) (hq : attends service q = none)
    (hheld : ∀ l v, q = .holding service l v →
      v ≤ (g.log service).length ∧ (l.map (·.id)).Nodup ∧ ids l ⊆ viewAt g service v)
    (hstart : ∀ pc ∈ new, ∃ sv, pc = .starting sv) :
    Once g' (ts.set i q ++ new) service := by
  have hattend : ∀ pc ∈ new, attends service pc = none := attends_starting hstart
  have hview : ∀ n, viewAt g' service n = viewAt g service n := fun n => by
    rw [viewAt, viewAt, hsame.log]
  refine ⟨?_, ?_, ?_, by rw [hsame.cache]; exact h.cached, ?_, ?_⟩
  · rw [hsame.owned, h.registered, view, view, hsame.log]
  · intro n event hn htype
    rw [hsame.log] at hn
    rw [hview]
    exact h.fresh n event hn htype
  · intro l v hmem
    rw [hsame.log, hview]
    rcases mem_set_append hmem with hmem | hmem | hmem
    · exact h.held l v hmem
    · exact hheld l v hmem.symm
    · obtain ⟨sv, hsv⟩ := hstart _ hmem
      cases hsv
  · intro hw
    rw [hsame.watchers] at hw
    obtain ⟨hun, hle, hcache⟩ := h.unwatched hw
    refine ⟨hun.frame hq hattend, ?_, ?_⟩
    · rw [hsame.cachedAt, hsame.log]
      exact hle
    · rw [hsame.cache, hsame.cachedAt, hview]
      exact hcache
  · intro c hw
    rw [hsame.watchers] at hw
    rcases h.watched c hw with hun | ⟨sub, pending, hfeed⟩
    · exact .inl (hun.frame hq hattend)
    · exact .inr ⟨sub, pending, hfeed.same hsame (hfeed.attended.frame hi hp hq hattend)⟩

/-- A goroutine that comes to hold no snapshot and to watch nothing. -/
theorem Once.inert (h : Once g ts service) (hsame : Alike service g g') (hi : ts[i]? = some p)
    (hp : attends service p = none) (hq : inert q = true) :
    Once g' (ts.set i q ++ []) service := by
  refine h.frame hsame hi hp ?_ ?_ (List.forall_mem_nil _)
  · exact attends_inert hq
  · rintro l v rfl
    cases hq

/-- A step about another service. -/
theorem Once.other {sv : String} (h : Once g ts service) (hne : sv ≠ service)
    (hsame : Alike service g g') (hi : ts[i]? = some p) (hp : attends service p = none)
    (hq : Elsewhere sv q) :
    Once g' (ts.set i q ++ []) service := by
  refine h.frame hsame hi hp ?_ ?_ (List.forall_mem_nil _)
  · exact hq.attends hne
  · rintro l v rfl
    rcases hq with ⟨l, hq⟩ | ⟨c, hq⟩ | ⟨c, event, hq⟩ <;> cases hq

end Frame

/-! ## Steps about a service -/

section Steps
variable {g : Shared} {ts : List Pc} {service : String} {i : Nat}

theorem ids_getInstances_subset (r : MemoryRegistry) (service : String) :
    ids (r.getInstances service) ⊆ owned r service := by
  rintro id ⟨inst, hinst, rfl⟩
  obtain ⟨hmem, hup⟩ := List.mem_filter.mp hinst
  exact ⟨inst, hmem, (decide_eq_true_eq.mp hup).1, rfl⟩

theorem Once.snapshot {sv : String} {order : List ServiceInstance} (h : Once g ts sv)
    (hi : ts[i]? = some (.missed service))
    (hperm : order.Perm (g.registry.getInstances service)) :
    Once g (ts.set i (.holding service order (g.log service).length) ++ []) sv := by
  refine h.frame (.refl sv _) hi rfl rfl ?_ (List.forall_mem_nil _)
  rintro l v ⟨⟩
  refine ⟨le_refl _, ?_, ?_⟩
  · exact (hperm.map _).nodup_iff.mpr (getInstances_nodup _ _)
  · rw [ids_perm hperm, viewAt_length, ← h.registered]
    exact ids_getInstances_subset _ _

theorem Once.held_set {q : Pc} (h : Once g ts service) (hq : ∀ l v, q ≠ .holding service l v) :
    ∀ l v, Pc.holding service l v ∈ ts.set i q ++ [] →
      v ≤ (g.log service).length ∧ (l.map (·.id)).Nodup ∧ ids l ⊆ viewAt g service v := by
  intro l v hmem
  rcases mem_set_append hmem with hmem | rfl | hmem
  · exact h.held l v hmem
  · exact absurd rfl (hq l v)
  · cases hmem

theorem isAttended_of {c : Nat} {pending : List Event} (h : Attended ts service c pending) :
    isAttended ts service = true := by
  obtain ⟨k, hk, -⟩ := h
  obtain ⟨pc, hpc, hattends⟩ := Option.bind_eq_some_iff.mp hk
  exact List.any_eq_true.mpr ⟨pc, List.mem_of_getElem? hpc, by rw [hattends]; rfl⟩

theorem Once.store {l : List ServiceInstance} {v : Nat} (h : Once g ts service)
    (hi : ts[i]? = some (.holding service l v))
    (hok : isAttended ts service = true → v = g.handledTo service) :
    Once (g.store service l v) (ts.set i (.stored service l) ++ []) service := by
  obtain ⟨hle, hnodup, hids⟩ := h.held l v (List.mem_of_getElem? hi)
  have hcache : (g.store service l v).instanceCache service = some l := Function.update_self ..
  have hat : (g.store service l v).cachedAt service = v := Function.update_self ..
  refine ⟨h.registered, h.fresh, h.held_set (by simp), ?_, ?_, ?_⟩
  · rw [hcache]
    rintro l' ⟨⟩
    exact hnodup
  · intro hw
    refine ⟨(h.unwatched hw).1.frame rfl (List.forall_mem_nil _), ?_, ?_⟩
    · rw [hat]
      exact hle
    · rw [hcache, hat]
      rintro l' ⟨⟩
      exact hids
  · intro c hw
    rcases h.watched c hw with hun | ⟨sub, pending, hfeed⟩
    · exact .inl (hun.frame rfl (List.forall_mem_nil _))
    · refine .inr ⟨sub, pending, hfeed.channel, hfeed.sameService, hfeed.notClosed,
        hfeed.attended.frame hi rfl rfl (List.forall_mem_nil _), hfeed.bound, hfeed.feed, ?_⟩
      rw [hcache]
      rintro l' ⟨⟩
      have hv := hok (isAttended_of hfeed.attended)
      rw [hv] at hids
      exact hids

theorem Once.subscribe (h : Once g ts service) (hi : ts[i]? = some (.starting service))
    (hw : g.watchers service = none) (hok : g.cachedAt service = (g.log service).length) :
    Once (g.subscribe service)
      (ts.set i (.watching service g.registry.watchers.length) ++ []) service := by
  obtain ⟨hun, -, hview⟩ := h.unwatched hw
  have hwatch : (g.subscribe service).watchers service = some g.registry.watchers.length :=
    Function.update_self ..
  have hto : (g.subscribe service).handledTo service = (g.log service).length :=
    Function.update_self ..
  refine ⟨h.registered, h.fresh, h.held_set (by simp), h.cached, ?_, ?_⟩
  · rw [hwatch]
    intro hnone
    cases hnone
  · rw [hwatch]
    rintro c ⟨⟩
    refine .inr ⟨⟨service, .make 10⟩, [], ?_, rfl, rfl, hun.begin hi (attends_watching _ _), ?_,
      ?_, ?_⟩
    · simp [Shared.subscribe, MemoryRegistry.watch]
    · rw [hto]
      exact le_refl _
    · rw [hto]
      exact List.drop_length.symm
    · rw [hto, ← hok]
      exact hview

/-- The watch that a goroutine at work for the service belongs to. -/
theorem Once.feeding {p : Pc} {c : Nat} {before : List Event} (h : Once g ts service)
    (hi : ts[i]? = some p) (hp : attends service p = some (c, before)) :
    g.watchers service = some c ∧ ∃ sub, Feeding g ts service c sub before := by
  have hattends : ¬ Unattended ts service := by
    intro hun
    rw [hun p (List.mem_of_getElem? hi)] at hp
    cases hp
  cases hw : g.watchers service with
  | none => exact absurd (h.unwatched hw).1 hattends
  | some c' =>
    obtain ⟨sub, pending, hfeed⟩ := (h.watched c' hw).resolve_left hattends
    obtain ⟨rfl, rfl, -⟩ := hfeed.attended.move hi hp hp
    exact ⟨rfl, sub, hfeed⟩

theorem Once.received {c : Nat} {r : MemoryRegistry} {event : Event} (h : Once g ts service)
    (hi : ts[i]? = some (.watching service c)) (hnext : g.registry.next c = some (r, .ok event)) :
    Once { g with registry := r } (ts.set i (.handling service c event) ++ []) service := by
  have hp := attends_watching service c
  have hq := attends_handling service c event
  obtain ⟨hw, sub, hfeed⟩ := h.feeding hi hp
  obtain ⟨sub', ch, hsub, hbuf, hclosed, hinst, hset⟩ := next_ok hnext
  cases hsub.symm.trans hfeed.channel
  refine ⟨?_, h.fresh, h.held_set (by simp), h.cached, ?_, ?_⟩
  · exact (owned_of_instances hinst service).trans h.registered
  · intro hnone
    rw [hw] at hnone
    cases hnone
  · intro c' hw'
    cases hw.symm.trans hw'
    have hlt : c < g.registry.watchers.length := (List.getElem?_eq_some_iff.mp hsub).1
    refine .inr ⟨⟨sub.service, ch⟩, [event], ?_, hfeed.sameService, hclosed.trans hfeed.notClosed,
      (hfeed.attended.move hi hp hq).2.2, hfeed.bound, ?_, hfeed.known⟩
    · show r.watchers[c]? = _
      rw [hset]
      simp [hlt]
    · have hrest := hfeed.feed
      rw [hbuf] at hrest
      exact hrest

/-- The goroutine that watches the service stops. -/
theorem Once.stopped {p : Pc} {c : Nat} {before : List Event} (h : Once g ts service)
    (hi : ts[i]? = some p) (hp : attends service p = some (c, before)) :
    Once g (ts.set i .stopped ++ []) service := by
  obtain ⟨hw, sub, hfeed⟩ := h.feeding hi hp
  refine ⟨h.registered, h.fresh, h.held_set (by simp), h.cached, ?_, ?_⟩
  · intro hnone
    rw [hw] at hnone
    cases hnone
  · intro c' _
    exact .inl (unattended_of_stop hfeed.attended hi (by rw [hp]; rfl) rfl)

theorem viewAt_succ {n : Nat} {event : Event} (h : (g.log service)[n]? = some event) :
    viewAt g service (n + 1) = (changeOf event).act (viewAt g service n) := by
  rw [viewAt, List.take_add_one, h, Option.toList_some, List.map_append, replay_append, viewAt]
  rfl

/-- An event leaves a list with every ID once, unless it adds an ID that is there. -/
theorem handle_nodup_iff {l : List ServiceInstance} (event : Event)
    (h : (l.map (·.id)).Nodup) : ((handleWatchEvent l event).1.map (·.id)).Nodup ↔
      ¬ (event.type = .add ∧ event.inst.id ∈ l.map (·.id)) := by
  obtain ⟨type, inst⟩ := event
  cases type with
  | add =>
    simp only [handleWatchEvent, List.map_append, List.map_singleton, List.nodup_append, h,
      List.nodup_singleton, List.mem_singleton, true_and]
    constructor
    · intro hdisj hmem
      exact hdisj _ hmem _ rfl rfl
    · rintro hnew a ha b rfl rfl
      exact hnew ha
  | delete =>
    refine iff_of_true (h.sublist (List.filter_sublist.map _)) ?_
    rintro ⟨htype, -⟩
    cases htype
  | update =>
    have hsame : (handleWatchEvent l ⟨.update, inst⟩).1.map (·.id) = l.map (·.id) :=
      replaceFirst_ids
    refine iff_of_true (by rw [hsame]; exact h) ?_
    rintro ⟨htype, -⟩
    cases htype

theorem handle_known {l : List ServiceInstance} {event : Event} {V : Set String}
    (hids : ids l ⊆ V) : ids (handleWatchEvent l event).1 ⊆ (changeOf event).act V := by
  obtain ⟨type, inst⟩ := event
  cases type with
  | add =>
    rw [ids_handleWatchEvent (by simp)]
    exact Set.insert_subset_insert hids
  | delete =>
    rw [ids_handleWatchEvent (by simp)]
    exact Set.sdiff_subset_sdiff_left hids
  | update =>
    have hsame : (handleWatchEvent l ⟨.update, inst⟩).1.map (·.id) = l.map (·.id) :=
      replaceFirst_ids
    rintro id ⟨x, hx, rfl⟩
    have hmem : x.id ∈ l.map (·.id) := hsame ▸ List.mem_map_of_mem hx
    obtain ⟨y, hy, hid⟩ := List.mem_map.mp hmem
    exact Set.mem_insert_of_mem _ (hids ⟨y, hy, hid⟩)

theorem Once.handled {c : Nat} {event : Event} (h : Once g ts service)
    (hi : ts[i]? = some (.handling service c event)) :
    Once (g.handle service event) (ts.set i (.watching service c) ++ []) service := by
  have hp := attends_handling service c event
  have hq := attends_watching service c
  obtain ⟨hw, sub, hfeed⟩ := h.feeding hi hp
  obtain ⟨hget, hrest⟩ := feed_head hfeed.feed
  have hlt : g.handledTo service < (g.log service).length := (List.getElem?_eq_some_iff.mp hget).1
  have hto : (g.handle service event).handledTo service = g.handledTo service + 1 :=
    Function.update_self ..
  have hcache : (g.handle service event).instanceCache service =
      some (handleWatchEvent ((g.instanceCache service).getD []) event).1 := Function.update_self ..
  have hnodup : (((g.instanceCache service).getD []).map (·.id)).Nodup := by
    cases hc : g.instanceCache service with
    | none => exact List.nodup_nil
    | some l => exact h.cached l hc
  have hids : ids ((g.instanceCache service).getD []) ⊆ viewAt g service (g.handledTo service) := by
    cases hc : g.instanceCache service with
    | none =>
      rintro id ⟨x, hx, -⟩
      cases hx
    | some l => exact hfeed.known l hc
  have hnodup' : ((handleWatchEvent ((g.instanceCache service).getD []) event).1.map
      (·.id)).Nodup := by
    refine (handle_nodup_iff event hnodup).mpr ?_
    rintro ⟨htype, hmem⟩
    obtain ⟨x, hx, hid⟩ := List.mem_map.mp hmem
    exact h.fresh _ event hget htype (hids ⟨x, hx, hid⟩)
  refine ⟨h.registered, h.fresh, h.held_set (by simp), ?_, ?_, ?_⟩
  · rw [hcache]
    rintro l ⟨⟩
    exact hnodup'
  · intro hnone
    exact absurd (hw.symm.trans hnone) (by simp)
  · intro c' hw'
    cases hw.symm.trans hw'
    refine .inr ⟨sub, [], hfeed.channel, hfeed.sameService, hfeed.notClosed,
      (hfeed.attended.move hi hp hq).2.2, ?_, ?_, ?_⟩
    · rw [hto]
      exact hlt
    · rw [hto]
      exact hrest
    · rw [hto, hcache]
      rintro l ⟨⟩
      exact (viewAt_succ hget).symm ▸ handle_known hids

theorem Once.emitted {r : MemoryRegistry} {event : Event} (h : Once g ts event.inst.service)
    (hi : ts[i]? = some .operator) (hlogged : Logged g.registry r event) :
    Once (g.emit r event) (ts.set i .operator ++ []) event.inst.service := by
  rw [List.append_nil, set_same hi]
  refine ⟨?_, ?_, ?_, h.cached, ?_, ?_⟩
  · rw [emit_view, ← h.registered]
    exact (hlogged.owned _).trans (if_pos rfl)
  · intro n ev hn htype
    rw [emit_log] at hn
    rcases Nat.lt_trichotomy n (g.log event.inst.service).length with hlt | rfl | hgt
    · rw [List.getElem?_append_left hlt] at hn
      rw [emit_viewAt r event hlt.le]
      exact h.fresh n ev hn htype
    · rw [List.getElem?_concat_length, Option.some.injEq] at hn
      subst hn
      rw [emit_viewAt r event le_rfl, viewAt_length, ← h.registered]
      exact hlogged.fresh htype
    · rw [List.getElem?_eq_none (by rw [List.length_append]; exact hgt)] at hn
      cases hn
  · intro l v hmem
    obtain ⟨hv, hnodup, hids⟩ := h.held l v hmem
    rw [emit_viewAt r event hv]
    exact ⟨le_emit_log r event hv, hnodup, hids⟩
  · intro hw
    obtain ⟨hun, hat, hcache⟩ := h.unwatched hw
    refine ⟨hun, le_emit_log r event hat, fun l hl => ?_⟩
    have hids := hcache l hl
    rw [← emit_viewAt r event hat] at hids
    exact hids
  · intro c hw
    rcases h.watched c hw with hun | ⟨sub, pending, hfeed⟩
    · exact .inl hun
    · obtain ⟨sub', hsub', hoffer⟩ := notify_get hlogged.notified hfeed.channel
      obtain ⟨hservice, hclosed, hbuf⟩ := offer_room hoffer hfeed.sameService
        (room_of_not_full hlogged.room hfeed.channel hfeed.sameService)
      refine .inr ⟨sub', pending, hsub', hservice, hclosed.trans hfeed.notClosed, hfeed.attended,
        le_emit_log r event hfeed.bound, ?_, fun l hl => ?_⟩
      · rw [hbuf, ← List.append_assoc, hfeed.feed, emit_log]
        exact (List.drop_append_of_le_length hfeed.bound).symm
      · have hids := hfeed.known l hl
        rw [← emit_viewAt r event hfeed.bound] at hids
        exact hids

end Steps

/-! ## Runs -/

/-- One step of a run that meets the conditions. -/
theorem once_fire {cfg : SourceConfig} {s t : Config Shared Pc} {i : Nat} {e : Ev}
    (h : ∀ service, Once s.shared s.threads service) (hok : Meets asks allConditions s i e)
    (hfire : (source cfg).fire s i e = some t) :
    ∀ service, Once t.shared t.threads service := by
  obtain ⟨p, g, q, new, hi, hstep, rfl⟩ := fire_cases hfire
  intro sv
  have hsv := h sv
  cases step_stepped hstep with
  | hit => exact hsv.inert (.refl sv _) hi rfl rfl
  | miss => exact hsv.inert (.refl sv _) hi rfl rfl
  | noDiscovery => exact hsv.inert (.refl sv _) hi rfl rfl
  | already => exact hsv.inert (.refl sv _) hi rfl rfl
  | snapshot hd hperm => exact hsv.snapshot hi hperm
  | @store service l v =>
    by_cases hne : service = sv
    · subst hne
      refine hsv.store hi fun hatt => ?_
      have hup := hok .caughtUp (by decide)
      have hnot := hok .notOvertaken (by decide)
      simp only [asks, hi, hatt, Bool.not_true, Bool.false_or, decide_eq_true_eq] at hup hnot
      exact le_antisymm hup hnot
    · exact hsv.other hne (alike_of_same (.store hne l v) rfl) hi rfl (.inl ⟨l, rfl⟩)
  | @spawn service l =>
    refine hsv.frame (.refl sv _) hi rfl rfl (by simp) ?_
    intro pc hpc
    split at hpc
    · exact ⟨service, List.mem_singleton.mp hpc⟩
    · cases hpc
  | @subscribe service hw =>
    by_cases hne : service = sv
    · subst hne
      refine hsv.subscribe hi hw ?_
      have htime := hok .watchedInTime (by decide)
      simpa [asks, hi, hw] using htime
    · exact hsv.other hne (alike_of_same (.subscribe hne) rfl) hi rfl (.inr (.inl ⟨_, rfl⟩))
  | @received service c r event hnext =>
    by_cases hne : service = sv
    · subst hne
      exact hsv.received hi hnext
    · obtain ⟨-, sub, hfeed⟩ := (h service).feeding hi (attends_watching service c)
      obtain ⟨-, -, -, -, -, hinst, -⟩ := next_ok hnext
      have hsame := SameFor.received hne hfeed.channel hfeed.sameService hnext
      exact hsv.other hne (alike_of_same hsame (owned_of_instances hinst sv)) hi
        (by simp [attends, hne]) (.inr (.inr ⟨_, _, rfl⟩))
  | @ended service c r err hnext =>
    obtain ⟨-, sub, hfeed⟩ := (h service).feeding hi (attends_watching service c)
    obtain ⟨sub', hsub, hclosed⟩ := next_error hnext
    cases hsub.symm.trans hfeed.channel
    rw [hfeed.notClosed] at hclosed
    cases hclosed
  | @failed service c =>
    by_cases hne : service = sv
    · subst hne
      exact hsv.stopped hi (attends_watching service c)
    · exact hsv.inert (.refl sv _) hi (by simp [attends, hne]) rfl
  | @handled service c event =>
    by_cases hne : service = sv
    · subst hne
      exact hsv.handled hi
    · exact hsv.other hne (alike_of_same (.handle hne event) rfl) hi (by simp [attends, hne])
        (.inr (.inl ⟨_, rfl⟩))
  | operated hop =>
    rcases operate_logged hok hop with rfl | ⟨event, r, hlogged, rfl⟩
    · exact hsv.inert (.refl sv _) hi rfl rfl
    · by_cases hne : event.inst.service = sv
      · subst hne
        exact hsv.emitted hi hlogged
      · exact hsv.inert (.emit hne hlogged) hi rfl rfl

theorem once_start (services : List String) (operators : Nat) (service : String) :
    Once (start services operators).shared (start services operators).threads service := by
  refine ⟨?_, ?_, ?_, ?_, fun _ => ⟨fun pc hpc => ?_, le_refl _, ?_⟩, ?_⟩
  · ext id
    simp [owned, start, newRegistry, view]
  · intro n event hn
    cases hn
  · intro l v hpc
    cases start_inert hpc
  · intro l hl
    cases hl
  · exact attends_inert (start_inert hpc)
  · intro l hl
    cases hl
  · intro c hc
    cases hc

/-- In every run that meets the conditions, no cached list has an ID twice. -/
theorem cached_once {cfg : SourceConfig} {services : List String} {operators : Nat}
    {tr : List (Nat × Ev)} {s : Config Shared Pc} {service : String} {l : List ServiceInstance}
    (hrun : Run (source cfg) (Meets asks allConditions) (start services operators) tr s)
    (hl : s.shared.instanceCache service = some l) : (l.map (·.id)).Nodup :=
  (Run.invariant (I := fun s => ∀ service, Once s.shared s.threads service) hrun
    (once_start services operators) (fun _ _ _ _ h hok hf => once_fire h hok hf) service).cached l
      hl

theorem registersLater_meets : (exec (source watchingSource) (Meets asks allConditions)
    (start ["users"] 1) registersLater).isSome := by
  decide +kernel

theorem cached_once_registersLater :
    (Option.get _ registersLater_meets).shared.instanceCache "users" =
      some [user "u1", user "u2"] ∧ ([user "u1", user "u2"].map (·.id)).Nodup := by
  have hcache : (Option.get _ registersLater_meets).shared.instanceCache "users" =
      some [user "u1", user "u2"] := by decide +kernel
  exact ⟨hcache, cached_once (run_exec registersLater_meets) hcache⟩

/-! ## Runs with the same ID twice -/

def duplicated (s : Config Shared Pc) : Bool :=
  ((s.shared.instanceCache "users").map fun l => decide ¬ (l.map (·.id)).Nodup) = some true

/-- A call that finds nothing registered, and the watch it starts. -/
def watched (watch : Nat) : List (Nat × Ev) :=
  [(0, .read), (0, .discover []), (0, .store), (0, .spawn), (watch, .start)]

def delivery (watch : Nat) : List (Nat × Ev) := [(watch, .next), (watch, .handle)]

/-- An ID is registered a second time. -/
def registeredAgain : List (Nat × Ev) :=
  watched 2 ++ [(1, .register (user "u1"))] ++ delivery 2 ++ [(1, .register (user "u1"))] ++
    delivery 2

/-- The instance moves to another service, which is told that it is gone. -/
def movedAway : List (Nat × Ev) :=
  watched 2 ++ [(1, .register (user "u1"))] ++ delivery 2 ++
    [(1, .update { user "u1" with service := "orders" }), (1, .deregister "orders" "u1"),
      (1, .register (user "u1"))] ++ delivery 2

/-- A second call stores an instance whose Add event is still in the channel. -/
def readAhead : List (Nat × Ev) :=
  watched 3 ++ [(2, .register (user "u1")), (1, .read), (1, .discover [user "u1"]), (1, .store)] ++
    delivery 3

/-- A second call stores an instance whose Delete event has been handled. -/
def storedLate : List (Nat × Ev) :=
  watched 3 ++ [(1, .read), (2, .register (user "u1")), (1, .discover [user "u1"])] ++
    delivery 3 ++ [(2, .deregister "users" "u1")] ++ delivery 3 ++
    [(1, .store), (2, .register (user "u1"))] ++ delivery 3

/-- The Delete event is emitted before the watch begins. -/
def watchedLate : List (Nat × Ev) :=
  [(1, .register (user "u1")), (0, .read), (0, .discover [user "u1"]), (0, .store), (0, .spawn),
    (1, .deregister "users" "u1"), (2, .start), (1, .register (user "u1"))] ++ delivery 2

/-- The Delete event does not fit into the channel. -/
def eventLost : List (Nat × Ev) :=
  watched 2 ++ [(1, .register (user "u1"))] ++ delivery 2 ++
    List.replicate 10 (1, .update (user "u1")) ++ [(1, .deregister "users" "u1")] ++ delivery 2 ++
    [(1, .register (user "u1"))] ++ (List.replicate 10 (delivery 2)).flatten

/-- The calls of a run that breaks one condition, and its steps. -/
def breaking : Condition → List String × List (Nat × Ev)
  | .delivered => (["users"], eventLost)
  | .registeredOnce => (["users"], registeredAgain)
  | .sameService => (["users"], movedAway)
  | .caughtUp => (["users", "users"], readAhead)
  | .notOvertaken => (["users", "users"], storedLate)
  | .watchedInTime => (["users"], watchedLate)

theorem breaking_runs (c : Condition) :
    (exec (source watchingSource) (Meets asks (allConditions.erase c))
      (start (breaking c).1 1) (breaking c).2).map duplicated = some true := by
  cases c <;> decide +kernel

theorem not_nodup_of_duplicated {s : Config Shared Pc} (h : duplicated s = true) :
    ∃ l, s.shared.instanceCache "users" = some l ∧ ¬ (l.map (·.id)).Nodup := by
  obtain ⟨l, hl, hdup⟩ := Option.map_eq_some_iff.mp (decide_eq_true_eq.mp h)
  exact ⟨l, hl, decide_eq_true_eq.mp hdup⟩

/-- A run that breaks only the condition `c`, with a cached list that has an ID twice. -/
theorem each_needed (c : Condition) : ∃ services tr s l,
    Run (source watchingSource) (Meets asks (allConditions.erase c)) (start services 1) tr s ∧
      s.shared.instanceCache "users" = some l ∧ ¬ (l.map (·.id)).Nodup := by
  obtain ⟨s, hexec, hdup⟩ := Option.map_eq_some_iff.mp (breaking_runs c)
  obtain ⟨l, hl, hnot⟩ := not_nodup_of_duplicated hdup
  exact ⟨_, _, s, l, run_of_exec hexec, hl, hnot⟩

/-- An ID that is registered again is cached twice, with every event delivered. -/
theorem registered_again_twice : ¬ ∀ cfg services operators tr s service l,
    Run (source cfg) (Meets asks [.delivered]) (start services operators) tr s →
    s.shared.instanceCache service = some l → (l.map (·.id)).Nodup := by
  intro h
  obtain ⟨services, tr, s, l, hrun, hl, hnot⟩ := each_needed .registeredOnce
  refine hnot (h watchingSource services 1 tr s "users" l (hrun.mono ?_) hl)
  intro s i e hmeets c hc
  rw [List.mem_singleton.mp hc]
  exact hmeets .delivered (by decide)

end RpcInGo.Client.CachedOnce
