import RpcInGo.Client.Source

/-!
The cached instances of a service against what the registry would return, once
the watch has handled every event. `getInstances` reads the registry, stores
what it has read and subscribes in three steps, so that a change between the
first and the last one may be missed for good, and a late store may undo events
that were handled before it.

* `synced_fire`: the cache and the events still to be handled give what the
  registry holds;
* `cache_eq_registry`: the cache is right when nothing is left to be handled, in
  runs in which neither happens.
-/

namespace RpcInGo.Client.CacheSync
open Lib.Goroutine Lib.Feed Registry.Instance Registry.Memory Source

/-! ## The runs considered -/

/-- `Register` is called for new IDs with status up, a deregistration or
registration finds room in every channel, and watchers do not fail. -/
def restricted (g : Shared) : Ev → Bool
  | .register inst =>
    g.registry.instances.all (·.id ≠ inst.id) && inst.status = .up && !g.registry.full inst.service
  | .deregister _ instanceID =>
    match g.registry.instances.find? (·.id = instanceID) with
    | some inst => !g.registry.full inst.service
    | none => true
  | .update _ => false
  | .nextFails => false
  | _ => true

def Restricted (s : Config Shared Pc) (_ : Nat) (e : Ev) : Prop := restricted s.shared e

/-- A subscription is made before the service changes after the stored snapshot,
and a snapshot is stored before an event emitted after it is handled. -/
def timely (s : Config Shared Pc) (i : Nat) : Ev → Bool
  | .store =>
    match s.threads[i]? with
    | some (.holding service _ version) =>
      (s.shared.watchers service).isNone || s.shared.handledTo service ≤ version
    | _ => true
  | .start =>
    match s.threads[i]? with
    | some (.starting service) => (s.shared.watchers service).isSome ||
        s.shared.cachedAt service = (s.shared.log service).length
    | _ => true
  | _ => true

def Timely (s : Config Shared Pc) (i : Nat) (e : Ev) : Prop :=
  (restricted s.shared e && timely s i e) = true

instance (s : Config Shared Pc) (i : Nat) (e : Ev) : Decidable (Restricted s i e) :=
  inferInstanceAs (Decidable (restricted s.shared e = true))

instance (s : Config Shared Pc) (i : Nat) (e : Ev) : Decidable (Timely s i e) :=
  inferInstanceAs (Decidable ((restricted s.shared e && timely s i e) = true))

/-! ## Views of a service -/

section Views
variable (g : Shared) (service : String)

/-- The registered IDs after the first `n` events. -/
def viewAt (n : Nat) : Set String := replay ∅ (((g.log service).take n).map changeOf)

def view : Set String := replay ∅ ((g.log service).map changeOf)

/-- The changes after the first `n` events. -/
def since (n : Nat) : List (Change String) := ((g.log service).drop n).map changeOf

end Views

theorem viewAt_length (g : Shared) (service : String) :
    viewAt g service (g.log service).length = view g service := by
  rw [viewAt, List.take_length, view]

theorem viewAt_catches_up (g : Shared) (service : String) {h a : Nat} (hle : h ≤ a) :
    replay (viewAt g service a) (since g service h) = view g service := by
  rw [viewAt, since, view, List.map_take, List.map_drop]
  exact replay_take_drop ∅ hle

theorem ids_handleWatchEvent {instances : List ServiceInstance} {event : Event}
    (h : event.type ≠ .update) :
    ids (handleWatchEvent instances event).1 = (changeOf event).act (ids instances) := by
  cases htype : event.type with
  | update => exact absurd htype h
  | add => simp [handleWatchEvent, changeOf, Change.act, htype, ids_snoc]
  | delete =>
    have hrem := ids_remove instances event.inst.id fun _ => true
    simp only [List.filter_true] at hrem
    simpa [handleWatchEvent, changeOf, Change.act, htype, remove] using hrem

theorem ids_perm {l l' : List ServiceInstance} (h : l.Perm l') : ids l = ids l' := by
  ext id
  simp only [ids, h.mem_iff]

/-! ## The goroutine that watches a service -/

/-- The channel it reads, and the event it has taken and not yet handled. -/
def attends (service : String) : Pc → Option (Nat × List Event)
  | .watching sv c => if sv = service then some (c, []) else none
  | .handling sv c event => if sv = service then some (c, [event]) else none
  | _ => none

@[simp] theorem attends_watching (service : String) (c : Nat) :
    attends service (.watching service c) = some (c, []) := if_pos rfl

@[simp] theorem attends_handling (service : String) (c : Nat) (event : Event) :
    attends service (.handling service c event) = some (c, [event]) := if_pos rfl

/-- Exactly one goroutine watches the service. -/
def Attended (ts : List Pc) (service : String) (c : Nat) (pending : List Event) : Prop :=
  ∃ i : Nat, (ts[i]?.bind (attends service) = some (c, pending)) ∧
    ∀ j : Nat, (ts[j]?.bind (attends service)).isSome → j = i

def Unattended (ts : List Pc) (service : String) : Prop := ∀ pc ∈ ts, attends service pc = none

section Attended
variable {ts new : List Pc} {service : String} {i c : Nat} {p q : Pc} {pending : List Event}

theorem bind_attends_set (hi : ts[i]? = some p) (hnew : ∀ pc ∈ new, attends service pc = none)
    (j : Nat) : (ts.set i q ++ new)[j]?.bind (attends service) =
      if i = j then attends service q else ts[j]?.bind (attends service) := by
  have hlt : i < ts.length := (List.getElem?_eq_some_iff.mp hi).1
  by_cases hj : j < ts.length
  · rw [List.getElem?_append_left (by rwa [List.length_set]), List.getElem?_set]
    split
    · simp
    · rfl
  · have hne : ¬ i = j := by omega
    rw [if_neg hne, List.getElem?_eq_none (Nat.not_lt.mp hj),
      List.getElem?_append_right (by rw [List.length_set]; omega)]
    cases hn : new[j - (ts.set i q).length]? with
    | none => rfl
    | some pc => exact hnew pc (List.mem_of_getElem? hn)

/-- A step of another goroutine. -/
theorem Attended.frame (h : Attended ts service c pending) (hi : ts[i]? = some p)
    (hp : attends service p = none) (hq : attends service q = none)
    (hnew : ∀ pc ∈ new, attends service pc = none) :
    Attended (ts.set i q ++ new) service c pending := by
  obtain ⟨k, hk, huniq⟩ := h
  have hne : i ≠ k := by
    rintro rfl
    rw [hi, Option.bind_some, hp] at hk
    cases hk
  refine ⟨k, ?_, fun j hj => ?_⟩
  · rw [bind_attends_set hi hnew, if_neg hne, hk]
  · rw [bind_attends_set hi hnew] at hj
    split at hj
    · rw [hq] at hj
      cases hj
    · exact huniq j hj

/-- A step of the goroutine itself. -/
theorem Attended.move (h : Attended ts service c pending) (hi : ts[i]? = some p) {c' : Nat}
    {before after : List Event} (hp : attends service p = some (c', before))
    (hq : attends service q = some (c', after)) :
    c' = c ∧ before = pending ∧ Attended (ts.set i q ++ []) service c after := by
  obtain ⟨k, hk, huniq⟩ := h
  have hik : i = k := huniq i (by rw [hi, Option.bind_some, hp]; rfl)
  subst hik
  rw [hi, Option.bind_some, hp] at hk
  cases hk
  refine ⟨rfl, rfl, i, ?_, fun j hj => ?_⟩
  · rw [bind_attends_set hi (List.forall_mem_nil _), if_pos rfl, hq]
  · rw [bind_attends_set hi (List.forall_mem_nil _)] at hj
    split at hj
    · rename_i hij
      exact hij.symm
    · exact huniq j hj

theorem Unattended.frame (h : Unattended ts service) (hq : attends service q = none)
    (hnew : ∀ pc ∈ new, attends service pc = none) : Unattended (ts.set i q ++ new) service := by
  intro pc hpc
  rcases List.mem_append.mp hpc with hpc | hpc
  · exact forall_set (R := fun pc => attends service pc = none) hq h (fun _ hp => hp) pc hpc
  · exact hnew pc hpc

theorem Unattended.begin (h : Unattended ts service) (hi : ts[i]? = some p)
    (hq : attends service q = some (c, pending)) :
    Attended (ts.set i q ++ []) service c pending := by
  refine ⟨i, ?_, fun j hj => ?_⟩
  · rw [bind_attends_set hi (List.forall_mem_nil _), if_pos rfl, hq]
  · rw [bind_attends_set hi (List.forall_mem_nil _)] at hj
    split at hj
    · rename_i hij
      exact hij.symm
    · cases hj' : ts[j]? with
      | none => simp [hj'] at hj
      | some pc => simp [hj', h pc (List.mem_of_getElem? hj')] at hj

end Attended

/-! ## The invariant -/

/-- The watch of a service: its subscription `sub`, the event in hand and the
cached list. -/
structure WatchedBy (g : Shared) (ts : List Pc) (service : String) (c : Nat) (sub : Subscription)
    (pending : List Event) (cached : List ServiceInstance) : Prop where
  channel : g.registry.watchers[c]? = some sub
  sameService : sub.service = service
  notClosed : sub.ch.closed = false
  attended : Attended ts service c pending
  bound : g.handledTo service ≤ (g.log service).length
  feed : pending ++ sub.ch.buf = (g.log service).drop (g.handledTo service)
  cache : g.instanceCache service = some cached
  catchesUp : replay (ids cached) (since g service (g.handledTo service)) = view g service

structure Synced (g : Shared) (ts : List Pc) (service : String) : Prop where
  noUpdate : ∀ event ∈ g.log service, event.type ≠ .update
  registered : ids (g.registry.getInstances service) = view g service
  held : ∀ l v, Pc.holding service l v ∈ ts →
    v ≤ (g.log service).length ∧ ids l = viewAt g service v
  stored : ∀ pc ∈ ts, (pc = .starting service ∨ ∃ l, pc = .stored service l) →
    g.instanceCache service ≠ none
  unwatched : g.watchers service = none → Unattended ts service ∧
    g.cachedAt service ≤ (g.log service).length ∧
    ∀ l, g.instanceCache service = some l → ids l = viewAt g service (g.cachedAt service)
  watched : ∀ c, g.watchers service = some c →
    ∃ sub pending cached, WatchedBy g ts service c sub pending cached

/-- What `g` and `g'` say about the service is the same. -/
structure SameFor (service : String) (g g' : Shared) : Prop where
  log : g'.log service = g.log service
  cache : g'.instanceCache service = g.instanceCache service
  watchers : g'.watchers service = g.watchers service
  cachedAt : g'.cachedAt service = g.cachedAt service
  handledTo : g'.handledTo service = g.handledTo service
  instances : ids (g'.registry.getInstances service) = ids (g.registry.getInstances service)
  channel : ∀ (c : Nat) sub, g.registry.watchers[c]? = some sub → sub.service = service →
    g'.registry.watchers[c]? = some sub

theorem SameFor.refl (service : String) (g : Shared) : SameFor service g g :=
  ⟨rfl, rfl, rfl, rfl, rfl, rfl, fun _ _ h _ => h⟩

/-! What is done for one service leaves the others as they are. -/

section SameFor
variable {g : Shared} {service sv : String} (hne : service ≠ sv)
include hne

theorem SameFor.store (l : List ServiceInstance) (v : Nat) :
    SameFor sv g (g.store service l v) where
  log := rfl
  cache := Function.update_of_ne hne.symm ..
  watchers := rfl
  cachedAt := Function.update_of_ne hne.symm ..
  handledTo := rfl
  instances := rfl
  channel _ _ hc _ := hc

theorem SameFor.subscribe : SameFor sv g (g.subscribe service) where
  log := rfl
  cache := rfl
  watchers := Function.update_of_ne hne.symm ..
  cachedAt := rfl
  handledTo := Function.update_of_ne hne.symm ..
  instances := rfl
  channel c sub hc _ := by
    have hlt : c < g.registry.watchers.length := (List.getElem?_eq_some_iff.mp hc).1
    show (g.registry.watchers ++ _)[c]? = _
    rw [List.getElem?_append_left hlt, hc]

theorem SameFor.handle (event : Event) : SameFor sv g (g.handle service event) where
  log := rfl
  cache := Function.update_of_ne hne.symm ..
  watchers := rfl
  cachedAt := rfl
  handledTo := Function.update_of_ne hne.symm ..
  instances := rfl
  channel _ _ hc _ := hc

theorem SameFor.received {c : Nat} {sub : Subscription} {r : MemoryRegistry} {event : Event}
    (hsub : g.registry.watchers[c]? = some sub) (hs : sub.service = service)
    (hnext : g.registry.next c = some (r, .ok event)) : SameFor sv g { g with registry := r } := by
  obtain ⟨sub', ch, hsub', -, -, hinst, hset⟩ := next_ok hnext
  refine ⟨rfl, rfl, rfl, rfl, rfl, ?_, fun c' other hc' hs' => ?_⟩
  · show ids (List.filter _ r.instances) = ids (List.filter _ g.registry.instances)
    rw [hinst]
  · have hcc : c ≠ c' := by
      rintro rfl
      cases hsub.symm.trans hc'
      exact hne (hs.symm.trans hs')
    show r.watchers[c']? = _
    rw [hset, List.getElem?_set_ne hcc, hc']

omit hne in
theorem SameFor.emit {event : Event} {r : MemoryRegistry} (hne : event.inst.service ≠ sv)
    (hemits : Emits g.registry event r) : SameFor sv g (g.emit r event) := by
  refine ⟨Function.update_of_ne hne.symm .., rfl, rfl, rfl, rfl, ?_, fun c sub hc hs => ?_⟩
  · exact (hemits.changed sv).trans (if_neg hne)
  · obtain ⟨sub', hsub', hoffer⟩ := notify_get hemits.notified hc
    rw [offer_other hoffer (fun heq => hne (heq.symm.trans hs))] at hsub'
    exact hsub'

end SameFor

theorem mem_set_append {ts new : List Pc} {i : Nat} {q pc : Pc} (h : pc ∈ ts.set i q ++ new) :
    pc ∈ ts ∨ pc = q ∨ pc ∈ new := by
  rcases List.mem_append.mp h with h | h
  · rcases List.mem_or_eq_of_mem_set h with h | h
    · exact .inl h
    · exact .inr (.inl h)
  · exact .inr (.inr h)

theorem attends_starting {new : List Pc} {service : String}
    (h : ∀ pc ∈ new, ∃ sv, pc = .starting sv) : ∀ pc ∈ new, attends service pc = none := by
  intro pc hpc
  obtain ⟨sv, rfl⟩ := h pc hpc
  rfl

/-- A step that is not about the service, or only reads what is. -/
theorem Synced.frame {g g' : Shared} {ts new : List Pc} {service : String} {i : Nat} {p q : Pc}
    (h : Synced g ts service) (hsame : SameFor service g g') (hi : ts[i]? = some p)
    (hp : attends service p = none) (hq : attends service q = none)
    (hheld : ∀ l v, q = .holding service l v →
      v ≤ (g.log service).length ∧ ids l = viewAt g service v)
    (hnew : ∀ pc ∈ q :: new, (pc = .starting service ∨ ∃ l, pc = .stored service l) →
      g.instanceCache service ≠ none)
    (hstart : ∀ pc ∈ new, ∃ sv, pc = .starting sv) :
    Synced g' (ts.set i q ++ new) service := by
  have hattend : ∀ pc ∈ new, attends service pc = none := attends_starting hstart
  have hview : ∀ n, viewAt g' service n = viewAt g service n := fun n => by
    rw [viewAt, viewAt, hsame.log]
  refine ⟨by rw [hsame.log]; exact h.noUpdate, ?_, ?_, ?_, ?_, ?_⟩
  · rw [hsame.instances, h.registered, view, view, hsame.log]
  · intro l v hmem
    rw [hsame.log, hview]
    rcases mem_set_append hmem with hmem | hmem | hmem
    · exact h.held l v hmem
    · exact hheld l v hmem.symm
    · obtain ⟨sv, hsv⟩ := hstart _ hmem
      cases hsv
  · intro pc hpc hst
    rw [hsame.cache]
    rcases mem_set_append hpc with hpc | rfl | hpc
    · exact h.stored pc hpc hst
    · exact hnew pc (by simp) hst
    · exact hnew pc (by simp [hpc]) hst
  · intro hw
    rw [hsame.watchers] at hw
    obtain ⟨hun, hle, hcache⟩ := h.unwatched hw
    refine ⟨hun.frame hq hattend, ?_, ?_⟩
    · rw [hsame.cachedAt, hsame.log]
      exact hle
    · rw [hsame.cache, hsame.cachedAt, hview]
      exact hcache
  · intro c hw
    rw [hsame.watchers] at hw
    obtain ⟨sub, pending, cached, hby⟩ := h.watched c hw
    refine ⟨sub, pending, cached, hsame.channel c sub hby.channel hby.sameService, hby.sameService,
      hby.notClosed, hby.attended.frame hi hp hq hattend, ?_, ?_, ?_, ?_⟩
    · rw [hsame.handledTo, hsame.log]
      exact hby.bound
    · rw [hsame.handledTo, hsame.log]
      exact hby.feed
    · rw [hsame.cache]
      exact hby.cache
    · rw [hsame.handledTo, since, view, hsame.log]
      exact hby.catchesUp

/-- The goroutine is neither at work for a service nor about to be. -/
def inert : Pc → Bool
  | .called _ | .missed _ | .returned _ _ | .stopped | .operator => true
  | _ => false

theorem attends_inert {service : String} {q : Pc} (hq : inert q = true) :
    attends service q = none := by
  cases q <;> first | rfl | cases hq

/-- At work for another service. -/
def Elsewhere (sv : String) (q : Pc) : Prop :=
  (∃ l, q = .stored sv l) ∨ (∃ c, q = .watching sv c) ∨ ∃ c event, q = .handling sv c event

theorem Elsewhere.attends {sv service : String} {q : Pc} (hq : Elsewhere sv q)
    (hne : sv ≠ service) : attends service q = none := by
  rcases hq with ⟨l, rfl⟩ | ⟨c, rfl⟩ | ⟨c, event, rfl⟩
  · rfl
  · simp [CacheSync.attends, hne]
  · simp [CacheSync.attends, hne]

theorem Synced.inert {g g' : Shared} {ts : List Pc} {service : String} {i : Nat} {p q : Pc}
    (h : Synced g ts service) (hsame : SameFor service g g') (hi : ts[i]? = some p)
    (hp : attends service p = none) (hq : inert q = true) :
    Synced g' (ts.set i q ++ []) service := by
  refine h.frame hsame hi hp ?_ ?_ ?_ (List.forall_mem_nil _)
  · exact attends_inert hq
  · rintro l v rfl
    cases hq
  · intro pc hpc hst
    rw [List.mem_singleton.mp hpc] at hst
    rcases hst with rfl | ⟨l, rfl⟩ <;> cases hq

/-- A step about another service. -/
theorem Synced.other {g g' : Shared} {ts : List Pc} {service sv : String} {i : Nat} {p q : Pc}
    (h : Synced g ts service) (hne : sv ≠ service) (hsame : SameFor service g g')
    (hi : ts[i]? = some p) (hp : attends service p = none)
    (hq : Elsewhere sv q) :
    Synced g' (ts.set i q ++ []) service := by
  refine h.frame hsame hi hp ?_ ?_ ?_ (List.forall_mem_nil _)
  · exact hq.attends hne
  · rintro l v rfl
    rcases hq with ⟨l, hq⟩ | ⟨c, hq⟩ | ⟨c, event, hq⟩ <;> cases hq
  · intro pc hpc hst
    rw [List.mem_singleton.mp hpc] at hst
    rcases hst with rfl | ⟨l, rfl⟩ <;>
      rcases hq with ⟨l, hq⟩ | ⟨c, hq⟩ | ⟨c, event, hq⟩ <;> cases hq
    exact absurd rfl hne

/-! ## Steps about a service -/

section Steps
variable {g : Shared} {ts : List Pc} {service : String} {i : Nat}

/-- A snapshot is what the registry holds at that moment. -/
theorem Synced.snapshot {sv : String} {order : List ServiceInstance} (h : Synced g ts sv)
    (hi : ts[i]? = some (.missed service))
    (hperm : order.Perm (g.registry.getInstances service)) :
    Synced g (ts.set i (.holding service order (g.log service).length) ++ []) sv := by
  refine h.frame (.refl sv _) hi rfl rfl ?_ ?_ (List.forall_mem_nil _)
  · rintro l v ⟨⟩
    refine ⟨le_refl _, ?_⟩
    rw [ids_perm hperm, viewAt_length]
    exact h.registered
  · intro pc hpc hst
    rw [List.mem_singleton.mp hpc] at hst
    rcases hst with hst | ⟨l, hst⟩ <;> cases hst

theorem Synced.held_set {q : Pc} (h : Synced g ts service) (hq : ∀ l v, q ≠ .holding service l v) :
    ∀ l v, Pc.holding service l v ∈ ts.set i q ++ [] →
      v ≤ (g.log service).length ∧ ids l = viewAt g service v := by
  intro l v hmem
  rcases mem_set_append hmem with hmem | rfl | hmem
  · exact h.held l v hmem
  · exact absurd rfl (hq l v)
  · cases hmem

theorem Synced.store {l : List ServiceInstance} {v : Nat} (h : Synced g ts service)
    (hi : ts[i]? = some (.holding service l v))
    (hok : g.watchers service = none ∨ g.handledTo service ≤ v) :
    Synced (g.store service l v) (ts.set i (.stored service l) ++ []) service := by
  obtain ⟨hle, hids⟩ := h.held l v (List.mem_of_getElem? hi)
  have hcache : (g.store service l v).instanceCache service = some l := Function.update_self ..
  have hat : (g.store service l v).cachedAt service = v := Function.update_self ..
  refine ⟨h.noUpdate, h.registered, ?_, ?_, ?_, ?_⟩
  · exact h.held_set nofun
  · intro pc _ _
    rw [hcache]
    nofun
  · intro hw
    refine ⟨(h.unwatched hw).1.frame rfl (List.forall_mem_nil _), ?_, ?_⟩
    · rw [hat]
      exact hle
    · rw [hcache, hat]
      rintro l' ⟨⟩
      exact hids
  · intro c hw
    have hw : g.watchers service = some c := hw
    obtain ⟨sub, pending, cached, hby⟩ := h.watched c hw
    have hle : g.handledTo service ≤ v := hok.resolve_left (by rw [hw]; nofun)
    refine ⟨sub, pending, l, hby.channel, hby.sameService, hby.notClosed,
      hby.attended.frame hi rfl rfl (List.forall_mem_nil _), hby.bound, hby.feed, hcache, ?_⟩
    rw [hids]
    exact viewAt_catches_up g service hle

theorem Synced.subscribe (h : Synced g ts service) (hi : ts[i]? = some (.starting service))
    (hw : g.watchers service = none) (hok : g.cachedAt service = (g.log service).length) :
    Synced (g.subscribe service)
      (ts.set i (.watching service g.registry.watchers.length) ++ []) service := by
  obtain ⟨hun, -, hview⟩ := h.unwatched hw
  obtain ⟨cached, hcached⟩ := Option.ne_none_iff_exists'.mp
    (h.stored _ (List.mem_of_getElem? hi) (.inl rfl))
  have hids := hview cached hcached
  rw [hok, viewAt_length] at hids
  have hwatch : (g.subscribe service).watchers service = some g.registry.watchers.length :=
    Function.update_self ..
  have hto : (g.subscribe service).handledTo service = (g.log service).length :=
    Function.update_self ..
  refine ⟨h.noUpdate, h.registered, ?_, ?_, ?_, ?_⟩
  · exact h.held_set nofun
  · intro pc _ _
    show g.instanceCache service ≠ none
    rw [hcached]
    nofun
  · rw [hwatch]
    nofun
  · rw [hwatch]
    rintro c ⟨⟩
    refine ⟨⟨service, .make 10⟩, [], cached, ?_, rfl, rfl, hun.begin hi (attends_watching _ _), ?_,
      ?_, hcached, ?_⟩
    · simp [Shared.subscribe, MemoryRegistry.watch]
    · rw [hto]
      exact le_refl _
    · rw [hto]
      exact List.drop_length.symm
    · rw [hto]
      show replay (ids cached) (((g.log service).drop (g.log service).length).map _) = _
      rw [List.drop_length]
      exact hids

/-- The watch that a goroutine at work for the service belongs to. -/
theorem Synced.watchedBy {p : Pc} {c : Nat} {before : List Event} (h : Synced g ts service)
    (hi : ts[i]? = some p) (hp : attends service p = some (c, before)) :
    g.watchers service = some c ∧ ∃ sub cached, WatchedBy g ts service c sub before cached := by
  cases hw : g.watchers service with
  | none =>
    have hnone := (h.unwatched hw).1 p (List.mem_of_getElem? hi)
    rw [hp] at hnone
    cases hnone
  | some c' =>
    obtain ⟨sub, pending, cached, hby⟩ := h.watched c' hw
    obtain ⟨rfl, rfl, -⟩ := hby.attended.move hi hp hp
    exact ⟨rfl, sub, cached, hby⟩

theorem Synced.received {c : Nat} {r : MemoryRegistry} {event : Event} (h : Synced g ts service)
    (hi : ts[i]? = some (.watching service c)) (hnext : g.registry.next c = some (r, .ok event)) :
    Synced { g with registry := r } (ts.set i (.handling service c event) ++ []) service := by
  have hp := attends_watching service c
  have hq := attends_handling service c event
  obtain ⟨hw, sub, cached, hby⟩ := h.watchedBy hi hp
  obtain ⟨sub', ch, hsub, hbuf, hclosed, hinst, hset⟩ := next_ok hnext
  cases hsub.symm.trans hby.channel
  refine ⟨h.noUpdate, ?_, ?_, ?_, ?_, ?_⟩
  · rw [← show view g service = view { g with registry := r } service from rfl, ← h.registered]
    show ids (List.filter _ r.instances) = ids (List.filter _ g.registry.instances)
    rw [hinst]
  · exact h.held_set nofun
  · intro pc _ _
    show g.instanceCache service ≠ none
    rw [hby.cache]
    nofun
  · intro hnone
    exact absurd (hw.symm.trans hnone) nofun
  · intro c' hw'
    cases hw.symm.trans hw'
    have hlt : c < g.registry.watchers.length := (List.getElem?_eq_some_iff.mp hsub).1
    refine ⟨⟨sub.service, ch⟩, [event], cached, ?_, hby.sameService, hclosed.trans hby.notClosed,
      (hby.attended.move hi hp hq).2.2, hby.bound, ?_, hby.cache, hby.catchesUp⟩
    · show r.watchers[c]? = _
      rw [hset]
      simp [hlt]
    · have hfeed := hby.feed
      rw [hbuf] at hfeed
      exact hfeed

/-- The event in hand is the first one that is not handled yet. -/
theorem feed_head {log rest : List Event} {event : Event} {n : Nat}
    (h : event :: rest = log.drop n) : log[n]? = some event ∧ rest = log.drop (n + 1) := by
  refine ⟨?_, ?_⟩
  · rw [← List.head?_drop, ← h, List.head?_cons]
  · rw [← List.tail_drop, ← h, List.tail_cons]

theorem Synced.handled {c : Nat} {event : Event} (h : Synced g ts service)
    (hi : ts[i]? = some (.handling service c event)) :
    Synced (g.handle service event) (ts.set i (.watching service c) ++ []) service := by
  have hp := attends_handling service c event
  have hq := attends_watching service c
  obtain ⟨hw, sub, cached, hby⟩ := h.watchedBy hi hp
  obtain ⟨hget, hrest⟩ := feed_head hby.feed
  obtain ⟨hlt, hevent⟩ := List.getElem?_eq_some_iff.mp hget
  have hkind : event.type ≠ .update := h.noUpdate event (List.mem_of_getElem? hget)
  have hcache : (g.handle service event).instanceCache service =
      some (handleWatchEvent cached event).1 := by
    simp [Shared.handle, hby.cache]
  have hto : (g.handle service event).handledTo service = g.handledTo service + 1 :=
    Function.update_self ..
  refine ⟨h.noUpdate, h.registered, ?_, ?_, ?_, ?_⟩
  · exact h.held_set nofun
  · intro pc _ _
    rw [hcache]
    nofun
  · intro hnone
    exact absurd (hw.symm.trans hnone) nofun
  · intro c' hw'
    cases hw.symm.trans hw'
    refine ⟨sub, [], _, hby.channel, hby.sameService, hby.notClosed,
      (hby.attended.move hi hp hq).2.2, ?_, ?_, hcache, ?_⟩
    · rw [hto]
      exact hlt
    · rw [hto]
      exact hrest
    · have hcatch := hby.catchesUp
      rw [since, List.drop_eq_getElem_cons hlt, hevent, List.map_cons, replay_cons] at hcatch
      rw [hto, ids_handleWatchEvent hkind]
      exact hcatch

theorem emit_log (r : MemoryRegistry) (event : Event) :
    (g.emit r event).log event.inst.service = g.log event.inst.service ++ [event] :=
  Function.update_self ..

theorem emit_view (r : MemoryRegistry) (event : Event) :
    view (g.emit r event) event.inst.service =
      (changeOf event).act (view g event.inst.service) := by
  rw [view, emit_log, List.map_append, replay_append]
  rfl

/-- What was the case before an event stays so. -/
theorem emit_viewAt (r : MemoryRegistry) (event : Event) {n : Nat}
    (hn : n ≤ (g.log event.inst.service).length) :
    viewAt (g.emit r event) event.inst.service n = viewAt g event.inst.service n := by
  rw [viewAt, emit_log, List.take_append_of_le_length hn, viewAt]

theorem le_emit_log (r : MemoryRegistry) (event : Event) {n : Nat}
    (hn : n ≤ (g.log event.inst.service).length) :
    n ≤ ((g.emit r event).log event.inst.service).length := by
  rw [emit_log, List.length_append]
  exact Nat.le_add_right_of_le hn

theorem Synced.emitted {r : MemoryRegistry} {event : Event} (h : Synced g ts event.inst.service)
    (hi : ts[i]? = some .operator) (hemits : Emits g.registry event r)
    (hkind : event.type ≠ .update) (hroom : g.registry.full event.inst.service = false) :
    Synced (g.emit r event) (ts.set i .operator ++ []) event.inst.service := by
  rw [List.append_nil, set_same hi]
  refine ⟨?_, ?_, ?_, h.stored, ?_, ?_⟩
  · rw [emit_log]
    intro ev hev
    rcases List.mem_append.mp hev with hev | hev
    · exact h.noUpdate ev hev
    · rw [List.mem_singleton.mp hev]
      exact hkind
  · rw [emit_view, ← h.registered]
    exact (hemits.changed _).trans (if_pos rfl)
  · intro l v hmem
    obtain ⟨hle, hids⟩ := h.held l v hmem
    rw [emit_viewAt r event hle]
    exact ⟨le_emit_log r event hle, hids⟩
  · intro hw
    obtain ⟨hun, hle, hcache⟩ := h.unwatched hw
    refine ⟨hun, le_emit_log r event hle, fun l hl => ?_⟩
    rw [hcache l hl]
    exact (emit_viewAt r event hle).symm
  · intro c hw
    obtain ⟨sub, pending, cached, hby⟩ := h.watched c hw
    obtain ⟨sub', hsub', hoffer⟩ := notify_get hemits.notified hby.channel
    obtain ⟨hservice, hclosed, hbuf⟩ := offer_room hoffer hby.sameService
      (room_of_not_full hroom hby.channel hby.sameService)
    refine ⟨sub', pending, cached, hsub', hservice, hclosed.trans hby.notClosed, hby.attended,
      le_emit_log r event hby.bound, ?_, hby.cache, ?_⟩
    · rw [hbuf, ← List.append_assoc, hby.feed, emit_log]
      exact (List.drop_append_of_le_length hby.bound).symm
    · have hsince : since (g.emit r event) event.inst.service (g.handledTo event.inst.service) =
          since g event.inst.service (g.handledTo event.inst.service) ++ [changeOf event] := by
        rw [since, emit_log, List.drop_append_of_le_length hby.bound, List.map_append]
        rfl
      show replay (ids cached) (since (g.emit r event) _ (g.handledTo event.inst.service)) = _
      rw [hsince, replay_append, hby.catchesUp, emit_view]
      rfl

end Steps

/-! ## Runs -/

theorem operate_emits {g g' : Shared} {e : Ev} (hr : restricted g e = true)
    (h : operate g e = some g') : g' = g ∨ ∃ event r, Emits g.registry event r ∧
      event.type ≠ .update ∧ g.registry.full event.inst.service = false ∧ g' = g.emit r event := by
  revert h
  fun_cases operate g e <;> intro h <;> cases h
  case case1 inst r hreg =>
    simp only [restricted, Bool.and_eq_true, List.all_eq_true, decide_eq_true_eq,
      Bool.not_eq_true'] at hr
    obtain ⟨⟨hfresh, hup⟩, hroom⟩ := hr
    exact .inr ⟨_, r, register_emits hfresh hup hreg, nofun, hroom, rfl⟩
  case case3 service id r err inst hf hreg =>
    simp only [restricted, hf, Bool.not_eq_true'] at hr
    exact .inr ⟨_, r, deregister_emits hf hreg, nofun, hr, rfl⟩
  case case4 service id r err hf hreg =>
    rw [deregister_absent hf hreg]
    exact .inl rfl
  case case6 => cases hr
  case case7 => cases hr

/-- One step of a timely run keeps every service in sync. -/
theorem synced_fire {cfg : SourceConfig} {s t : Config Shared Pc} {i : Nat} {e : Ev}
    (h : ∀ service, Synced s.shared s.threads service) (hok : Timely s i e)
    (hfire : (source cfg).fire s i e = some t) :
    ∀ service, Synced t.shared t.threads service := by
  obtain ⟨hres, htime⟩ := Bool.and_eq_true_iff.mp hok
  obtain ⟨p, g, q, new, hi, hstep, rfl⟩ := fire_cases hfire
  intro sv
  have hsv := h sv
  cases step_stepped hstep with
  | hit => exact hsv.inert (.refl sv _) hi rfl rfl
  | miss => exact hsv.inert (.refl sv _) hi rfl rfl
  | noDiscovery => exact hsv.inert (.refl sv _) hi rfl rfl
  | already => exact hsv.inert (.refl sv _) hi rfl rfl
  | failed => cases hres
  | snapshot hd hperm => exact hsv.snapshot hi hperm
  | @store service l v =>
    by_cases hne : service = sv
    · subst hne
      refine hsv.store hi ?_
      simpa [timely, hi] using htime
    · exact hsv.other hne (.store hne l v) hi rfl (.inl ⟨l, rfl⟩)
  | @spawn service l =>
    refine hsv.frame (.refl sv _) hi rfl rfl nofun ?_ ?_
    · intro pc hpc hst
      rcases List.mem_cons.mp hpc with rfl | hpc
      · rcases hst with hst | ⟨l', hst⟩ <;> cases hst
      · split at hpc
        · rw [List.mem_singleton.mp hpc] at hst
          rcases hst with hst | ⟨l', hst⟩ <;> cases hst
          exact hsv.stored _ (List.mem_of_getElem? hi) (.inr ⟨l, rfl⟩)
        · cases hpc
    · intro pc hpc
      split at hpc
      · exact ⟨service, List.mem_singleton.mp hpc⟩
      · cases hpc
  | @subscribe service hw =>
    by_cases hne : service = sv
    · subst hne
      refine hsv.subscribe hi hw ?_
      simpa [timely, hi, hw] using htime
    · exact hsv.other hne (.subscribe hne) hi rfl (.inr (.inl ⟨_, rfl⟩))
  | @received service c r event hnext =>
    by_cases hne : service = sv
    · subst hne
      exact hsv.received hi hnext
    · obtain ⟨-, sub, cached, hby⟩ := (h service).watchedBy hi (attends_watching service c)
      exact hsv.other hne (.received hne hby.channel hby.sameService hnext) hi
        (by simp [attends, hne]) (.inr (.inr ⟨_, _, rfl⟩))
  | @ended service c r err hnext =>
    obtain ⟨-, sub, cached, hby⟩ := (h service).watchedBy hi (attends_watching service c)
    obtain ⟨sub', hsub, hclosed⟩ := next_error hnext
    cases hsub.symm.trans hby.channel
    rw [hby.notClosed] at hclosed
    cases hclosed
  | @handled service c event =>
    by_cases hne : service = sv
    · subst hne
      exact hsv.handled hi
    · exact hsv.other hne (.handle hne event) hi (by simp [attends, hne]) (.inr (.inl ⟨_, rfl⟩))
  | operated hop =>
    rcases operate_emits hres hop with rfl | ⟨event, r, hemits, hkind, hroom, rfl⟩
    · exact hsv.inert (.refl sv _) hi rfl rfl
    · by_cases hne : event.inst.service = sv
      · subst hne
        exact hsv.emitted hi hemits hkind hroom
      · exact hsv.inert (.emit hne hemits) hi rfl rfl

theorem start_inert {services : List String} {operators : Nat} {pc : Pc}
    (h : pc ∈ (start services operators).threads) : inert pc = true := by
  rcases List.mem_append.mp h with h | h
  · obtain ⟨sv, -, rfl⟩ := List.mem_map.mp h
    rfl
  · rw [List.eq_of_mem_replicate h]
    rfl

theorem synced_start (services : List String) (operators : Nat) (service : String) :
    Synced (start services operators).shared (start services operators).threads service := by
  refine ⟨nofun, ?_, ?_, ?_, fun _ => ⟨fun pc hpc => ?_, le_refl _, nofun⟩, nofun⟩
  · ext id
    simp [ids, start, newRegistry, MemoryRegistry.getInstances, view]
  · intro l v hpc
    cases start_inert hpc
  · intro pc hpc hst
    rcases hst with rfl | ⟨l, rfl⟩ <;> cases start_inert hpc
  · exact attends_inert (start_inert hpc)

/-- A `getInstances` for the service is between two of its steps. -/
def inProgress (service : String) : Pc → Bool
  | .missed sv | .holding sv _ _ | .stored sv _ => sv = service
  | _ => false

def isHandling (service : String) : Pc → Bool
  | .handling sv _ _ => sv = service
  | _ => false

/-- Nothing is going on for the service: its cached list is in use, and the watch
has handled every event. -/
structure Settled (s : Config Shared Pc) (service : String) (cached : List ServiceInstance) :
    Prop where
  cache : s.shared.instanceCache service = some cached
  nonempty : cached ≠ []
  idle : ∀ pc ∈ s.threads, inProgress service pc = false
  watch : ∃ c sub, s.shared.watchers service = some c ∧
    s.shared.registry.watchers[c]? = some sub ∧ sub.ch.buf = []
  handled : ∀ pc ∈ s.threads, isHandling service pc = false

/-- In every timely run, the cached IDs of a settled service are those that the
registry would return. -/
theorem cache_eq_registry {cfg : SourceConfig} {services : List String} {operators : Nat}
    {tr : List (Nat × Ev)} {s : Config Shared Pc} {service : String}
    {cached : List ServiceInstance}
    (hrun : Run (source cfg) Timely (start services operators) tr s)
    (hs : Settled s service cached) :
    ids cached = ids (s.shared.registry.getInstances service) := by
  have hsync := Run.invariant (I := fun s => ∀ service, Synced s.shared s.threads service) hrun
    (synced_start services operators) (fun _ _ _ _ h hok hf => synced_fire h hok hf) service
  obtain ⟨c, sub, hw, hsub, hbuf⟩ := hs.watch
  obtain ⟨sub', pending, l, hby⟩ := hsync.watched c hw
  cases hsub.symm.trans hby.channel
  cases hs.cache.symm.trans hby.cache
  have hpending : pending = [] := by
    obtain ⟨k, hk, -⟩ := hby.attended
    obtain ⟨pc, hpc, hattends⟩ := Option.bind_eq_some_iff.mp hk
    have hnot := hs.handled pc (List.mem_of_getElem? hpc)
    unfold attends at hattends
    split at hattends
    · split at hattends <;> cases hattends
      rfl
    · split at hattends
      · rename_i hsv
        simp [isHandling, hsv] at hnot
      · cases hattends
    · cases hattends
  have hnone : (s.shared.log service).drop (s.shared.handledTo service) = [] := by
    rw [← hby.feed, hpending, hbuf, List.append_nil]
  have hcatch := hby.catchesUp
  rw [since, hnone] at hcatch
  rw [hsync.registered]
  exact hcatch

def user (id : String) : ServiceInstance := ⟨id, "users", "v1", "10.0.0.1", 8080, [], 1, .up⟩

def watchingSource : SourceConfig := ⟨true, true⟩

/-- The second instance registers after the subscription. -/
def registersLater : List (Nat × Ev) :=
  [(1, .register (user "u1")), (0, .read), (0, .discover [user "u1"]), (0, .store), (0, .spawn),
    (2, .start), (1, .register (user "u2")), (2, .next), (2, .handle)]

theorem registersLater_runs :
    (exec (source watchingSource) Timely (start ["users"] 1) registersLater).isSome := by
  decide +kernel

theorem cache_eq_registry_registersLater : ids [user "u1", user "u2"] =
    ids ((Option.get _ registersLater_runs).shared.registry.getInstances "users") :=
  cache_eq_registry (run_exec registersLater_runs)
    ⟨by decide +kernel, by decide +kernel, by decide +kernel,
      ⟨0, ⟨"users", .make 10⟩, by decide +kernel, by decide +kernel, rfl⟩, by decide +kernel⟩

/-- The second instance registers between the snapshot and the subscription. -/
def registersBetween : List (Nat × Ev) :=
  [(1, .register (user "u1")), (0, .read), (0, .discover [user "u1"]),
    (1, .register (user "u2")), (0, .store), (0, .spawn), (2, .start)]

theorem registersBetween_runs :
    (exec (source watchingSource) Restricted (start ["users"] 1) registersBetween).isSome := by
  decide +kernel

/-- Nothing will ever put the second instance into the cache. -/
theorem not_cache_eq_registry : ¬ ∀ cfg services operators tr s service cached,
    cfg.enableWatch = true → Run (source cfg) Restricted (start services operators) tr s →
    Settled s service cached → ids cached = ids (s.shared.registry.getInstances service) := by
  intro h
  have heq := h watchingSource ["users"] 1 _ _ "users" [user "u1"] rfl
    (run_exec registersBetween_runs)
    ⟨by decide +kernel, by decide +kernel, by decide +kernel,
      ⟨0, ⟨"users", .make 10⟩, by decide +kernel, by decide +kernel, rfl⟩, by decide +kernel⟩
  have hget : (Option.get _ registersBetween_runs).shared.registry.getInstances "users" =
      [user "u1", user "u2"] := by
    decide +kernel
  rw [hget] at heq
  have hmem : "u2" ∈ ids [user "u1"] := heq ▸ ⟨user "u2", by decide, rfl⟩
  obtain ⟨x, hx, hid⟩ := hmem
  rw [List.mem_singleton.mp hx] at hid
  exact absurd hid (by decide)

end RpcInGo.Client.CacheSync
