import RpcInGo.Client.Source
import RpcInGo.Pool.Manager

/-!
What a Delete event does to the connection pools of a `discoverySource`. Instances are cached by
service and ID, pools are kept by endpoint, and the event removes the pool of its endpoint without
a look at who else has it.

* `delete_frames`: the event takes its ID out of the list of its service and touches no other; it
  closes no pool that is still needed exactly if there is none for the endpoint, or no remaining
  instance has that endpoint;
* `restart_loses_pool`: an instance that was restarted on its address loses its pool when the
  lease of its predecessor expires.
-/

namespace RpcInGo.Client.DeletedPools
open Protocol.Message Registry.Instance Source Pool.Manager

structure DiscoverySource where
  instanceCache : String → Option (List ServiceInstance)
  poolManager : PoolManager

namespace DiscoverySource

/-- A service that is not in the map has no instances. -/
def cached (s : DiscoverySource) (service : String) : List ServiceInstance :=
  (s.instanceCache service).getD []

def handleWatchEvent (s : DiscoverySource) (service : String) (event : Event) :
    DiscoverySource where
  instanceCache := Function.update s.instanceCache service
    (some (Source.handleWatchEvent (s.cached service) event).1)
  poolManager :=
    match (Source.handleWatchEvent (s.cached service) event).2 with
    | some addr => s.poolManager.removePool addr
    | none => s.poolManager

/-- Some cached instance, of whatever service, has this endpoint. -/
def Serves (s : DiscoverySource) (addr : String) : Prop :=
  ∃ service, ∃ x ∈ s.cached service, x.endpoint = addr

/-- No pool was closed on the way from `s` to `s'` whose endpoint is still in the cache. -/
def Unharmed (s s' : DiscoverySource) : Prop :=
  ∀ p addr, p ∈ s'.poolManager.closed → p ∉ s.poolManager.closed →
    s'.poolManager.created[p]? = some addr → ¬ s'.Serves addr

end DiscoverySource

open DiscoverySource

theorem cached_update (s : DiscoverySource) (pm : PoolManager) (service k : String)
    (l : List ServiceInstance) :
    (⟨Function.update s.instanceCache service (some l), pm⟩ : DiscoverySource).cached k =
      if k = service then l else s.cached k := by
  simp only [cached, Function.update_apply]
  split <;> rfl

/-! ## One Delete event -/

/-- No other cached instance, of whatever service, has the endpoint of this one. -/
def Alone (s : DiscoverySource) (service : String) (inst : ServiceInstance) : Prop :=
  ∀ k, ∀ x ∈ s.cached k, x.endpoint = inst.endpoint → k = service ∧ x.id = inst.id

theorem delete_cached (s : DiscoverySource) (service k : String) (inst : ServiceInstance) :
    (s.handleWatchEvent service ⟨.delete, inst⟩).cached k =
      if k = service then (s.cached service).filter (·.id ≠ inst.id) else s.cached k :=
  cached_update s _ service k _

/-- What remains in the cache are the other instances. -/
theorem delete_serves_iff (s : DiscoverySource) (service : String) (inst : ServiceInstance) :
    (s.handleWatchEvent service ⟨.delete, inst⟩).Serves inst.endpoint ↔ ¬ Alone s service inst := by
  have hmem (k : String) (x : ServiceInstance) :
      x ∈ (s.handleWatchEvent service ⟨.delete, inst⟩).cached k ↔
        x ∈ s.cached k ∧ ¬ (k = service ∧ x.id = inst.id) := by
    rw [delete_cached]
    split
    · rename_i hk
      simp [hk]
    · rename_i hk
      simp [hk]
  simp only [Serves, Alone, hmem]
  push Not
  constructor
  · rintro ⟨k, x, ⟨hx, hne⟩, heq⟩
    exact ⟨k, x, hx, heq, hne⟩
  · rintro ⟨k, x, hx, heq, hne⟩
    exact ⟨k, x, ⟨hx, hne⟩, heq⟩

theorem delete_unharmed_iff (s : DiscoverySource) (service : String) (inst : ServiceInstance) :
    s.Unharmed (s.handleWatchEvent service ⟨.delete, inst⟩) ↔
      s.poolManager.pools inst.endpoint = none ∨ Alone s service inst := by
  have hserves := not_congr (delete_serves_iff s service inst)
  rw [not_not] at hserves
  have hpm : (s.handleWatchEvent service ⟨.delete, inst⟩).poolManager =
      s.poolManager.removePool inst.endpoint := rfl
  generalize s.handleWatchEvent service ⟨.delete, inst⟩ = s' at *
  rw [← hserves, Unharmed, hpm]
  constructor
  · intro h
    cases hp : s.poolManager.pools inst.endpoint with
    | none => exact .inl rfl
    | some p =>
      refine .inr (h p inst.endpoint ?_ (s.poolManager.kept_open hp) ?_)
      · exact PoolManager.mem_removePool_closed.mpr (.inl hp)
      · rw [PoolManager.removePool_created]
        exact s.poolManager.kept_created hp
  · intro h p addr hclosed hopen haddr
    have hp : s.poolManager.pools inst.endpoint = some p :=
      (PoolManager.mem_removePool_closed.mp hclosed).resolve_right hopen
    rw [PoolManager.removePool_created, s.poolManager.kept_created hp] at haddr
    cases haddr
    exact h.resolve_left (by simp [hp])

/-- A Delete event takes exactly its ID out of the cache. Pools that are still needed survive it
exactly if none is kept for its endpoint or no other instance has that endpoint. -/
theorem delete_frames (s : DiscoverySource) (service : String) (inst : ServiceInstance) :
    (∀ k, (s.handleWatchEvent service ⟨.delete, inst⟩).cached k =
      if k = service then (s.cached service).filter (·.id ≠ inst.id) else s.cached k) ∧
    (s.Unharmed (s.handleWatchEvent service ⟨.delete, inst⟩) ↔
      s.poolManager.pools inst.endpoint = none ∨ Alone s service inst) :=
  ⟨fun k => delete_cached s service k inst, delete_unharmed_iff s service inst⟩

/-- The instance that a server registers first, and after its restart a minute later. -/
def restarted : DiscoverySource where
  instanceCache := Function.update (fun _ => none) "echo"
    (some [newServiceInstance "echo" "10.0.0.1" 8080 1700000000,
      newServiceInstance "echo" "10.0.0.1" 8080 1700000060])
  poolManager := (newPoolManager.getConnection "10.0.0.1:8080" none).1

theorem restart_loses_pool :
    ¬ ∀ (s : DiscoverySource) (service : String) (inst : ServiceInstance),
      s.Unharmed (s.handleWatchEvent service ⟨.delete, inst⟩) := by
  intro h
  have hun := h restarted "echo" (newServiceInstance "echo" "10.0.0.1" 8080 1700000000)
  exact hun 0 "10.0.0.1:8080" (by decide) (by decide) (by decide)
    ⟨"echo", newServiceInstance "echo" "10.0.0.1" 8080 1700000060, by decide, by decide⟩

end RpcInGo.Client.DeletedPools
