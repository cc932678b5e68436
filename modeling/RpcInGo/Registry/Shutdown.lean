import RpcInGo.Lib.Calls
import RpcInGo.Lib.Goroutine
import RpcInGo.Registry.Memory

/-!
The in-memory registry and its `Close`. `Close` closes the channel of every watcher and
leaves it subscribed, so whatever notifies its service afterwards sends on a closed
channel, and a second `Close` closes it again.

* `call_lives`: what an operation does to the channels, open or closed;
* `call_panics`: which operations panic in a given state;
* `runs_iff`: a sequence of operations runs to its end exactly if no operation strikes a
  service that a `Close` has cut off.
-/

namespace RpcInGo.Registry.Shutdown
open Lib.Calls Lib.Channel Protocol.Message Instance Memory
open Lib.Goroutine (map_set_same)

/-! ## The operations -/

/-- The loops of `Close`; `none` is the panic of closing a channel twice. -/
def closeAll : List Subscription → Option (List Subscription)
  | [] => some []
  | sub :: rest =>
    if sub.ch.closed then none
    else
      match closeAll rest with
      | none => none
      | some rest => some ({ sub with ch := sub.ch.close } :: rest)

def close (r : MemoryRegistry) : Option MemoryRegistry :=
  match closeAll r.watchers with
  | none => none
  | some ws => some { r with watchers := ws }

/-- `Heartbeat` writes a timestamp that nothing else reads. -/
def heartbeat (r : MemoryRegistry) (_service instanceID : String) : Option GoError :=
  match r.instances.find? (·.id = instanceID) with
  | none => some (.sentinel .errNotFound)
  | some _ => none

inductive Op where
  | register (inst : ServiceInstance)
  | deregister (service instanceID : String)
  | update (inst : ServiceInstance)
  | heartbeat (service instanceID : String)
  | watch (service : String)
  | close
  /-- A watcher takes an event, if there is one. -/
  | next (ch : Nat)
  deriving DecidableEq

/-- One operation, and the error it returns; `none` is a panic. -/
def call (r : MemoryRegistry) : Op → Option (Option GoError × MemoryRegistry)
  | .register inst => (r.register inst).map fun r => (none, r)
  | .deregister service instanceID => (r.deregister service instanceID).map Prod.swap
  | .update inst => (r.update inst).map Prod.swap
  | .heartbeat service instanceID => some (heartbeat r service instanceID, r)
  | .watch service => some (none, (r.watch service).1)
  | .close => (close r).map fun r => (none, r)
  | .next ch =>
    match r.next ch with
    | none => some (none, r)
    | some (r, _) => some (none, r)

/-! ## The channels -/

/-- Whom a channel serves, and whether it is closed. -/
def life (sub : Subscription) : String × Bool := (sub.service, sub.ch.closed)

def lives (r : MemoryRegistry) : List (String × Bool) := r.watchers.map life

theorem offer_life {sub sub' : Subscription} {service : String} {event : Event}
    (h : sub.offer service event = some sub') : life sub' = life sub := by
  unfold Subscription.offer at h
  split at h
  · split at h
    · rename_i ch hsend
      cases h
      simp only [life, (send_ok hsend).2.2.1]
    · cases h
      rfl
    · cases h
  · cases h
    rfl

theorem offer_panics {sub : Subscription} {service : String} {event : Event} :
    sub.offer service event = none ↔ life sub = (service, true) := by
  unfold Subscription.offer
  by_cases hs : sub.service = service
  · rw [if_pos hs]
    cases hc : sub.ch.closed with
    | true => simp [life, hs, hc, Chan.send]
    | false =>
      have hlife : life sub ≠ (service, true) := by simp [life, hc]
      refine iff_of_false ?_ hlife
      unfold Chan.send
      simp only [hc]
      split
      · simp
      · simp
      · rename_i hsend
        split at hsend
        · rename_i hc'
          cases hc'
        · split at hsend <;> cases hsend
  · simp [hs, life]

theorem notify_lives {ws ws' : List Subscription} {service : String} {event : Event}
    (h : notify service event ws = some ws') :
    ws'.map life = ws.map life := by
  induction ws generalizing ws' with
  | nil =>
    cases h
    rfl
  | cons sub rest ih =>
    unfold notify at h
    split at h
    · rename_i sub' rest' hoffer hrest
      cases h
      rw [List.map_cons, List.map_cons, offer_life hoffer, ih hrest]
    · cases h

theorem notify_panics (service : String) (event : Event) (ws : List Subscription) :
    notify service event ws = none ↔ (service, true) ∈ ws.map life := by
  induction ws with
  | nil => simp [notify]
  | cons sub rest ih =>
    have hhead : (service, true) = life sub ↔ sub.offer service event = none :=
      eq_comm.trans offer_panics.symm
    rw [List.map_cons, List.mem_cons, ← ih, hhead, notify]
    cases sub.offer service event <;> cases notify service event rest <;> simp

theorem closeAll_lives {ws ws' : List Subscription} (h : closeAll ws = some ws') :
    ws'.map life = ws.map fun sub => (sub.service, true) := by
  induction ws generalizing ws' with
  | nil =>
    cases h
    rfl
  | cons sub rest ih =>
    unfold closeAll at h
    split at h
    · cases h
    · split at h
      · cases h
      · rename_i rest' hrest
        cases h
        rw [List.map_cons, List.map_cons, ih hrest]
        rfl

theorem closeAll_panics (ws : List Subscription) :
    closeAll ws = none ↔ ∃ service, (service, true) ∈ ws.map life := by
  induction ws with
  | nil => simp [closeAll]
  | cons sub rest ih =>
    rw [closeAll]
    cases hc : sub.ch.closed with
    | true => simpa using ⟨sub.service, .inl (by simp [life, hc])⟩
    | false =>
      have hlife : ∀ service, (service, true) ≠ life sub := by simp [life, hc]
      simp only [List.map_cons, List.mem_cons, hlife, false_or, ← ih]
      cases closeAll rest <;> simp

theorem next_lives {r r' : MemoryRegistry} {ch : Nat} {e : Except GoError Event}
    (h : r.next ch = some (r', e)) : lives r' = lives r := by
  unfold MemoryRegistry.next at h
  split at h
  · cases h
  · rename_i sub hsub
    split at h
    · rename_i event c hrecv
      cases h
      exact map_set_same hsub (by simp only [life, (recv_ok hrecv).2.2])
    · cases h
      rfl
    · cases h

/-! ## One operation -/

section Call
variable {r r' : MemoryRegistry} {op : Op} {e : Option GoError}

/-- Only `Watch` and `Close` do anything to the list of channels. -/
def Op.act : Op → List (String × Bool) → List (String × Bool)
  | .watch service, ls => ls ++ [(service, false)]
  | .close, ls => ls.map fun p => (p.1, true)
  | _, ls => ls

theorem call_lives (h : call r op = some (e, r')) : lives r' = op.act (lives r) := by
  cases op with
  | register inst =>
    obtain ⟨r₁, hreg, heq⟩ := Option.map_eq_some_iff.mp h
    cases heq
    exact notify_lives (register_ok hreg).2
  | deregister service instanceID =>
    obtain ⟨⟨r₁, e₁⟩, hdereg, heq⟩ := Option.map_eq_some_iff.mp h
    cases heq
    cases hfind : r.instances.find? (·.id = instanceID) with
    | none =>
      rw [deregister_absent hfind hdereg]
      rfl
    | some inst => exact notify_lives (deregister_found hfind hdereg).2
  | update inst =>
    obtain ⟨⟨r₁, e₁⟩, hupdate, heq⟩ := Option.map_eq_some_iff.mp h
    cases heq
    obtain ⟨-, -, -, hnotify⟩ | ⟨-, -, rfl⟩ := update_cases hupdate
    · exact notify_lives hnotify
    · rfl
  | heartbeat service instanceID =>
    cases h
    rfl
  | watch service =>
    cases h
    simp [lives, MemoryRegistry.watch, life, Chan.make, Op.act]
  | close =>
    obtain ⟨r₁, hclose, heq⟩ := Option.map_eq_some_iff.mp h
    cases heq
    unfold close at hclose
    split at hclose
    · cases hclose
    · rename_i ws hws
      cases hclose
      rw [lives, closeAll_lives hws, lives, Op.act, List.map_map]
      rfl
  | next ch =>
    simp only [call] at h
    split at h
    · cases h
      rfl
    · rename_i r₁ e₁ hnext
      cases h
      exact next_lives hnext

/-- The services that an operation notifies. -/
def notifies (r : MemoryRegistry) : Op → Option String
  | .register inst => some inst.service
  | .deregister _ instanceID => (r.instances.find? (·.id = instanceID)).map (·.service)
  | .update inst => (r.instances.find? (·.id = inst.id)).map fun _ => inst.service
  | _ => none

/-- An operation panics if it notifies a closed channel or closes one again, and in no
other case. -/
theorem call_panics : call r op = none ↔
    (∃ service, notifies r op = some service ∧ (service, true) ∈ lives r) ∨
    op = .close ∧ ∃ service, (service, true) ∈ lives r := by
  cases op with
  | register inst =>
    have hiff := notify_panics inst.service ⟨.add, inst⟩ r.watchers
    simp only [call, Option.map_eq_none_iff, MemoryRegistry.register, notifies, lives,
      Option.some.injEq, exists_eq_left', ← hiff]
    cases notify inst.service ⟨.add, inst⟩ r.watchers <;> simp
  | deregister service instanceID =>
    simp only [call, Option.map_eq_none_iff, MemoryRegistry.deregister, notifies, lives]
    cases r.instances.find? (·.id = instanceID) with
    | none => simp
    | some inst =>
      have hiff := notify_panics inst.service ⟨.delete, inst⟩ r.watchers
      simp only [Option.map_some, Option.some.injEq, exists_eq_left', ← hiff]
      cases notify inst.service ⟨.delete, inst⟩ r.watchers <;> simp
  | update inst =>
    simp only [call, Option.map_eq_none_iff, MemoryRegistry.update, notifies, lives]
    cases r.instances.find? (·.id = inst.id) with
    | none => simp
    | some old =>
      have hiff := notify_panics inst.service ⟨.update, inst⟩ r.watchers
      simp only [Option.map_some, Option.some.injEq, exists_eq_left', ← hiff]
      cases notify inst.service ⟨.update, inst⟩ r.watchers <;> simp
  | heartbeat service instanceID => simp [call, notifies]
  | watch service => simp [call, notifies]
  | close =>
    have hiff := closeAll_panics r.watchers
    simp only [call, Option.map_eq_none_iff, close, notifies, lives, ← hiff]
    cases closeAll r.watchers <;> simp
  | next ch =>
    simp only [call, notifies]
    cases r.next ch <;> simp

end Call

/-! ## Sequences of operations -/

/-- A `Watch` of the service stands before a `Close`. -/
def CutOff (ops : List Op) (service : String) : Prop :=
  ∃ before after, ops = before ++ .close :: after ∧ .watch service ∈ before

theorem cutOff_snoc {ops : List Op} {op : Op} {service : String} :
    CutOff (ops ++ [op]) service ↔ CutOff ops service ∨ op = .close ∧ .watch service ∈ ops := by
  constructor
  · rintro ⟨before, after, heq, hmem⟩
    rcases List.eq_nil_or_concat after with rfl | ⟨after, op', rfl⟩
    · obtain ⟨rfl, hop⟩ := List.append_inj' heq rfl
      exact .inr ⟨List.singleton_inj.mp hop, hmem⟩
    · rw [List.concat_eq_append, ← List.cons_append, ← List.append_assoc] at heq
      exact .inl ⟨before, after, (List.append_inj' heq rfl).1, hmem⟩
  · rintro (⟨before, after, rfl, hmem⟩ | ⟨rfl, hmem⟩)
    · exact ⟨before, after ++ [op], by simp, hmem⟩
    · exact ⟨ops, [], rfl, hmem⟩

/-- The channels, as the operations so far left them. -/
structure Tracks (ops : List Op) (r : MemoryRegistry) : Prop where
  watched : ∀ service, (∃ closed, (service, closed) ∈ lives r) ↔ .watch service ∈ ops
  cutOff : ∀ service, (service, true) ∈ lives r ↔ CutOff ops service

theorem new_tracks : Tracks [] newRegistry := by
  refine ⟨fun service => ?_, fun service => ?_⟩
  · simp [lives, newRegistry]
  · simp [lives, newRegistry, CutOff]

theorem Tracks.call {ops : List Op} {r r' : MemoryRegistry} {op : Op} {e : Option GoError}
    (ht : Tracks ops r) (h : call r op = some (e, r')) : Tracks (ops ++ [op]) r' := by
  have hlives := call_lives h
  refine ⟨fun service => ?_, fun service => ?_⟩
  · rw [List.mem_append, List.mem_singleton, ← ht.watched, hlives]
    cases op with
    | watch s =>
      simp only [Op.act, List.mem_append, List.mem_singleton, Prod.mk.injEq, exists_or,
        exists_and_left, exists_eq, and_true, Op.watch.injEq]
    | close => simp [Op.act]
    | register _ => simp [Op.act]
    | deregister _ _ => simp [Op.act]
    | update _ => simp [Op.act]
    | heartbeat _ _ => simp [Op.act]
    | next _ => simp [Op.act]
  · rw [cutOff_snoc, ← ht.cutOff, ← ht.watched, hlives]
    cases op with
    | close =>
      rw [Op.act, List.mem_map]
      constructor
      · rintro ⟨⟨s, closed⟩, hmem, heq⟩
        cases heq
        exact .inr ⟨rfl, closed, hmem⟩
      · rintro (hmem | ⟨-, closed, hmem⟩)
        · exact ⟨_, hmem, rfl⟩
        · exact ⟨_, hmem, rfl⟩
    | watch s => simp [Op.act]
    | register _ => simp [Op.act]
    | deregister _ _ => simp [Op.act]
    | update _ => simp [Op.act]
    | heartbeat _ _ => simp [Op.act]
    | next _ => simp [Op.act]

theorem Tracks.serve {ops rest : List Op} {r r' : MemoryRegistry} {es : List (Option GoError)}
    (ht : Tracks ops r) (h : serve Shutdown.call r rest = some (es, r')) :
    Tracks (ops ++ rest) r' := by
  induction rest generalizing ops r es with
  | nil =>
    cases h
    rwa [List.append_nil]
  | cons op rest ih =>
    obtain ⟨e, r₁, es', hcall, hrest, rfl⟩ := serve_cons.mp h
    have htracks := ih (ht.call hcall) hrest
    rwa [List.append_assoc, List.singleton_append] at htracks

/-- The operation notifies a service that is cut off, or closes the registry although
some service is. -/
def Strikes (ops : List Op) (r : MemoryRegistry) (op : Op) : Prop :=
  (∃ service, notifies r op = some service ∧ CutOff ops service) ∨
    op = .close ∧ ∃ service, CutOff ops service

theorem Tracks.panics {ops : List Op} {r : MemoryRegistry} (ht : Tracks ops r) (op : Op) :
    Shutdown.call r op = none ↔ Strikes ops r op := by
  simp only [call_panics, Strikes, ht.cutOff]

/-- A sequence of operations runs to its end, no send on a closed channel and no second
close among them, exactly if no operation in it strikes. -/
theorem runs_iff (ops : List Op) : (serve call newRegistry ops).isSome ↔
    ∀ before op after es r, ops = before ++ op :: after →
      serve call newRegistry before = some (es, r) → ¬ Strikes before r op := by
  rw [serve_isSome_iff]
  have hstep : ∀ before op es r, serve call newRegistry before = some (es, r) →
      ((call r op).isSome ↔ ¬ Strikes before r op) := by
    intro before op es r hserve
    have htracks := new_tracks.serve hserve
    rw [List.nil_append] at htracks
    rw [← htracks.panics op, Option.isSome_iff_ne_none]
  constructor
  · intro h before op after es r heq hserve
    exact (hstep before op es r hserve).mp (h before op after es r heq hserve)
  · intro h before op after es r heq hserve
    exact (hstep before op es r hserve).mpr (h before op after es r heq hserve)

def anInstance : ServiceInstance := ⟨"u1", "users", "v1", "10.0.0.1", 8080, [], 100, .up⟩

/-- The registry is closed before the server deregisters. -/
def closedFirst : List Op :=
  [.register anInstance, .watch "users", .close, .deregister "users" "u1"]

theorem deregister_panics : ¬ ∀ ops, (serve call newRegistry ops).isSome := by
  intro h
  have hruns := h closedFirst
  revert hruns
  decide

end RpcInGo.Registry.Shutdown
