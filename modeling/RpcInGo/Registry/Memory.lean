import Mathlib.Data.List.Nodup
import RpcInGo.Lib.Channel
import RpcInGo.Lib.Feed
import RpcInGo.Protocol.Message
import RpcInGo.Registry.Instance

/-!
The in-memory registry of `pkg/registry/memory`. Its operations hold the mutex,
so each is one step; one that sends on a closed channel panics, and is `none`
here.

* `register_emits`, `deregister_emits`: the event an operation sends is the change
  it makes to what `GetInstances` returns;
* `notify_get`: what a subscriber finds in its channel after a notification.
-/

namespace RpcInGo.Registry.Memory
open Lib.Channel Lib.Feed Protocol.Message Instance

/-- A channel that `Watch` has made. -/
structure Subscription where
  service : String
  ch : Chan Event
  deriving DecidableEq

/-- `memory.Registry`: the map of instances by their IDs, and the subscriptions in
the order in which they were made. -/
structure MemoryRegistry where
  instances : List ServiceInstance
  watchers : List Subscription
  unique : (instances.map (·.id)).Nodup

def newRegistry : MemoryRegistry := ⟨[], [], List.nodup_nil⟩

def remove (l : List ServiceInstance) (id : String) : List ServiceInstance :=
  l.filter (·.id ≠ id)

def put (l : List ServiceInstance) (inst : ServiceInstance) : List ServiceInstance :=
  remove l inst.id ++ [inst]

theorem remove_unique {l : List ServiceInstance} (h : (l.map (·.id)).Nodup) (id : String) :
    ((remove l id).map (·.id)).Nodup :=
  h.sublist (List.filter_sublist.map _)

theorem put_unique {l : List ServiceInstance} (h : (l.map (·.id)).Nodup) (inst : ServiceInstance) :
    ((put l inst).map (·.id)).Nodup := by
  have hfresh : inst.id ∉ (remove l inst.id).map (·.id) := by simp [remove]
  rw [put, List.map_append, List.map_singleton, List.nodup_append]
  refine ⟨remove_unique h inst.id, List.nodup_singleton _, ?_⟩
  rintro a ha b hb rfl
  rw [List.mem_singleton] at hb
  exact hfresh (hb ▸ ha)

/-- One iteration of the loop in `notify`: a full channel loses the event. -/
def Subscription.offer (sub : Subscription) (service : String) (event : Event) :
    Option Subscription :=
  if sub.service = service then
    match sub.ch.send event with
    | .ok ch => some { sub with ch := ch }
    | .full => some sub
    | .panic => none
  else some sub

def notify (service : String) (event : Event) : List Subscription → Option (List Subscription)
  | [] => some []
  | sub :: rest =>
    match sub.offer service event, notify service event rest with
    | some sub, some rest => some (sub :: rest)
    | _, _ => none

namespace MemoryRegistry

def register (r : MemoryRegistry) (inst : ServiceInstance) : Option MemoryRegistry :=
  match notify inst.service ⟨.add, inst⟩ r.watchers with
  | some ws => some ⟨put r.instances inst, ws, put_unique r.unique inst⟩
  | none => none

/-- The argument `service` is not read. -/
def deregister (r : MemoryRegistry) (_service instanceID : String) :
    Option (MemoryRegistry × Option GoError) :=
  match r.instances.find? (·.id = instanceID) with
  | none => some (r, some (.sentinel .errNotFound))
  | some inst =>
    match notify inst.service ⟨.delete, inst⟩ r.watchers with
    | some ws =>
      some (⟨remove r.instances instanceID, ws, remove_unique r.unique instanceID⟩, none)
    | none => none

def update (r : MemoryRegistry) (inst : ServiceInstance) :
    Option (MemoryRegistry × Option GoError) :=
  match r.instances.find? (·.id = inst.id) with
  | none => some (r, some (.sentinel .errNotFound))
  | some _ =>
    match notify inst.service ⟨.update, inst⟩ r.watchers with
    | some ws => some (⟨put r.instances inst, ws, put_unique r.unique inst⟩, none)
    | none => none

/-- The iteration order of the Go map is open; this is one of the possible
results. -/
def getInstances (r : MemoryRegistry) (service : String) : List ServiceInstance :=
  r.instances.filter fun inst => inst.service = service ∧ inst.status = .up

/-- `Watch`, with the position of the new channel. -/
def watch (r : MemoryRegistry) (service : String) : MemoryRegistry × Nat :=
  ({ r with watchers := r.watchers ++ [⟨service, Chan.make 10⟩] }, r.watchers.length)

/-- `Next` on a channel, for a watcher that is not stopped; `none` when it
blocks. -/
def next (r : MemoryRegistry) (ch : Nat) : Option (MemoryRegistry × Except GoError Event) :=
  match r.watchers[ch]? with
  | none => none
  | some sub =>
    match sub.ch.recv with
    | .ok event c =>
      some ({ r with watchers := r.watchers.set ch { sub with ch := c } }, .ok event)
    | .zero => some (r, .error (.sentinel .errWatcherStopped))
    | .empty => none

/-- Some subscriber of the service would lose an event now. -/
def full (r : MemoryRegistry) (service : String) : Bool :=
  r.watchers.any fun sub => sub.service = service && sub.ch.cap ≤ sub.ch.buf.length

end MemoryRegistry

/-! ## What an operation leaves, unless it panics -/

section Inversion
variable {r r' : MemoryRegistry} {inst : ServiceInstance} {err : Option GoError}

theorem register_ok (h : r.register inst = some r') :
    r'.instances = put r.instances inst ∧
      notify inst.service ⟨.add, inst⟩ r.watchers = some r'.watchers := by
  unfold MemoryRegistry.register at h
  split at h
  · rename_i ws hws
    cases h
    exact ⟨rfl, hws⟩
  · cases h

/-- `Update` finds the ID and replaces its instance, or reports an error. -/
theorem update_cases (h : r.update inst = some (r', err)) :
    (err = none ∧ (∃ old ∈ r.instances, old.id = inst.id) ∧ r'.instances = put r.instances inst ∧
        notify inst.service ⟨.update, inst⟩ r.watchers = some r'.watchers) ∨
      (err ≠ none ∧ (∀ x ∈ r.instances, x.id ≠ inst.id) ∧ r' = r) := by
  unfold MemoryRegistry.update at h
  split at h
  · rename_i hnone
    cases h
    exact .inr ⟨nofun, by simpa using hnone, rfl⟩
  · rename_i old hold
    split at h
    · rename_i ws hws
      cases h
      have hid : old.id = inst.id := by simpa using List.find?_some hold
      exact .inl ⟨rfl, ⟨old, List.mem_of_find?_eq_some hold, hid⟩, rfl, hws⟩
    · cases h

theorem deregister_found {service id : String} (hf : r.instances.find? (·.id = id) = some inst)
    (h : r.deregister service id = some (r', err)) :
    r'.instances = remove r.instances id ∧
      notify inst.service ⟨.delete, inst⟩ r.watchers = some r'.watchers := by
  simp only [MemoryRegistry.deregister, hf] at h
  split at h
  · rename_i ws hws
    cases h
    exact ⟨rfl, hws⟩
  · cases h

theorem deregister_absent {service id : String} (hf : r.instances.find? (·.id = id) = none)
    (h : r.deregister service id = some (r', err)) : r' = r := by
  simp only [MemoryRegistry.deregister, hf] at h
  cases h
  rfl

end Inversion

/-! ## Events as changes -/

def ids (l : List ServiceInstance) : Set String := { id | ∃ inst ∈ l, inst.id = id }

def changeOf (event : Event) : Change String :=
  match event.type with
  | .delete => .drop event.inst.id
  | _ => .put event.inst.id

/-- The operation sends the event, and changes what `GetInstances` returns
accordingly. -/
structure Emits (r : MemoryRegistry) (event : Event) (r' : MemoryRegistry) : Prop where
  notified : notify event.inst.service event r.watchers = some r'.watchers
  changed : ∀ service, ids (r'.getInstances service) =
    if event.inst.service = service then (changeOf event).act (ids (r.getInstances service))
    else ids (r.getInstances service)

theorem ids_snoc (l : List ServiceInstance) (inst : ServiceInstance) :
    ids (l ++ [inst]) = insert inst.id (ids l) := by
  ext k
  simp only [ids, List.mem_append, List.mem_singleton, Set.mem_insert_iff, Set.mem_ofPred_eq]
  constructor
  · rintro ⟨x, hx | rfl, rfl⟩
    · exact .inr ⟨x, hx, rfl⟩
    · exact .inl rfl
  · rintro (rfl | ⟨x, hx, rfl⟩)
    · exact ⟨inst, .inr rfl, rfl⟩
    · exact ⟨x, .inl hx, rfl⟩

theorem ids_remove (l : List ServiceInstance) (id : String) (p : ServiceInstance → Bool) :
    ids ((remove l id).filter p) = ids (l.filter p) \ {id} := by
  ext k
  simp only [ids, remove, List.mem_filter, Set.mem_sdiff, Set.mem_ofPred_eq, Set.mem_singleton_iff,
    decide_eq_true_eq]
  constructor
  · rintro ⟨x, ⟨⟨hx, hne⟩, hp⟩, rfl⟩
    exact ⟨⟨x, ⟨hx, hp⟩, rfl⟩, hne⟩
  · rintro ⟨⟨x, ⟨hx, hp⟩, rfl⟩, hne⟩
    exact ⟨x, ⟨⟨hx, hne⟩, hp⟩, rfl⟩

theorem remove_of_fresh {l : List ServiceInstance} {id : String} (h : ∀ x ∈ l, x.id ≠ id) :
    remove l id = l := by
  simpa [remove] using h

section Emits
variable {r r' : MemoryRegistry} {inst : ServiceInstance}

theorem register_emits (hfresh : ∀ x ∈ r.instances, x.id ≠ inst.id) (hup : inst.status = .up)
    (h : r.register inst = some r') : Emits r ⟨.add, inst⟩ r' := by
  obtain ⟨hput, hws⟩ := register_ok h
  refine ⟨hws, fun service => ?_⟩
  simp only [MemoryRegistry.getInstances, hput, put, remove_of_fresh hfresh, List.filter_append]
  by_cases hs : inst.service = service
  · simp [hs, hup, ids_snoc, changeOf, Change.act]
  · simp [hs]

theorem find_unique (hf : r.instances.find? (·.id = inst.id) = some inst) {x : ServiceInstance}
    (hx : x ∈ r.instances) (hid : x.id = inst.id) : x = inst :=
  List.inj_on_of_nodup_map r.unique hx (List.mem_of_find?_eq_some hf) hid

theorem deregister_emits {service id : String} {err : Option GoError}
    (hf : r.instances.find? (·.id = id) = some inst)
    (h : r.deregister service id = some (r', err)) : Emits r ⟨.delete, inst⟩ r' := by
  have hid : inst.id = id := by simpa using List.find?_some hf
  subst hid
  obtain ⟨hremove, hws⟩ := deregister_found hf h
  refine ⟨hws, fun sv => ?_⟩
  simp only [MemoryRegistry.getInstances, hremove, ids_remove]
  by_cases hs : inst.service = sv
  · simp [hs, changeOf, Change.act]
  · rw [if_neg hs, Set.sdiff_singleton_eq_self]
    rintro ⟨x, hx, hxid⟩
    obtain ⟨hmem, hp⟩ := List.mem_filter.mp hx
    rw [find_unique hf hmem hxid] at hp
    simp [hs] at hp

end Emits

/-! ## Channels -/

theorem offer_other {sub sub' : Subscription} {service : String} {event : Event}
    (h : sub.offer service event = some sub') (hs : sub.service ≠ service) : sub' = sub := by
  rw [Subscription.offer, if_neg hs] at h
  exact (Option.some.inj h).symm

theorem offer_room {sub sub' : Subscription} {service : String} {event : Event}
    (h : sub.offer service event = some sub') (hs : sub.service = service)
    (hroom : sub.ch.buf.length < sub.ch.cap) : sub'.service = service ∧
      sub'.ch.closed = sub.ch.closed ∧ sub'.ch.buf = sub.ch.buf ++ [event] := by
  rw [Subscription.offer, if_pos hs] at h
  split at h
  · rename_i ch hsend
    cases h
    obtain ⟨hbuf, -, hclosed, -⟩ := send_ok hsend
    exact ⟨hs, hclosed, hbuf⟩
  · rename_i hfull
    exact absurd hroom (Nat.not_lt.mpr (send_full hfull))
  · cases h

theorem notify_get {service : String} {event : Event} {ws ws' : List Subscription}
    (h : notify service event ws = some ws') {c : Nat} {sub : Subscription}
    (hc : ws[c]? = some sub) :
    ∃ sub', ws'[c]? = some sub' ∧ sub.offer service event = some sub' := by
  induction ws generalizing ws' c with
  | nil => simp at hc
  | cons s ws ih =>
    unfold notify at h
    split at h
    · rename_i s' rest hs hrest
      cases h
      cases c with
      | zero =>
        cases hc
        exact ⟨s', rfl, hs⟩
      | succ c => exact ih hrest hc
    · cases h

theorem room_of_not_full {r : MemoryRegistry} {service : String} (h : r.full service = false)
    {c : Nat} {sub : Subscription} (hc : r.watchers[c]? = some sub) (hs : sub.service = service) :
    sub.ch.buf.length < sub.ch.cap := by
  have hsub := List.any_eq_false.mp h sub (List.mem_of_getElem? hc)
  simpa [hs] using hsub

theorem next_ok {r r' : MemoryRegistry} {c : Nat} {event : Event}
    (h : r.next c = some (r', .ok event)) : ∃ sub ch, r.watchers[c]? = some sub ∧
      sub.ch.buf = event :: ch.buf ∧ ch.closed = sub.ch.closed ∧ r'.instances = r.instances ∧
      r'.watchers = r.watchers.set c ⟨sub.service, ch⟩ := by
  unfold MemoryRegistry.next at h
  split at h
  · cases h
  · rename_i sub hsub
    split at h
    · rename_i ev ch hrecv
      cases h
      obtain ⟨hbuf, -, hclosed⟩ := recv_ok hrecv
      exact ⟨sub, ch, hsub, hbuf, hclosed, rfl, rfl⟩
    · cases h
    · cases h

theorem next_error {r r' : MemoryRegistry} {c : Nat} {err : GoError}
    (h : r.next c = some (r', .error err)) :
    ∃ sub, r.watchers[c]? = some sub ∧ sub.ch.closed = true := by
  unfold MemoryRegistry.next at h
  split at h
  · cases h
  · rename_i sub hsub
    split at h
    · cases h
    · rename_i hrecv
      exact ⟨sub, hsub, (recv_zero hrecv).2⟩
    · cases h

end RpcInGo.Registry.Memory
