import RpcInGo.Registry.Shutdown

/-!
`registry.Registry` of `pkg/registry/registry.go`, as far as a server uses it. An operation
returns its error with the state it leaves; `none` is a panic. What the state holds is seen
through keys: two instances that a registry does not tell apart have the same key.

* `memory`: the registry in memory is one.
-/

namespace RpcInGo.Registry.Interface
open Protocol.Message Instance

/-- `A` is what the outcome of a call depends on besides the state. -/
structure Registrar (R A : Type) where
  key : String → String → String
  has : R → String → Bool
  register : R → ServiceInstance → A → Option (Option GoError × R)
  deregister : R → String → String → A → Option (Option GoError × R)
  heartbeat : R → String → String → A → Option GoError
  registered : ∀ {r r' inst a}, register r inst a = some (none, r') →
    has r' (key inst.service inst.id) = true
  withdrawn : ∀ {r r' service id a}, deregister r service id a = some (none, r') →
    has r' (key service id) = false
  only_removes : ∀ {r r' service id a err k}, deregister r service id a = some (err, r') →
    has r k = false → has r' k = false

section Memory
open Memory

/-- The instances are found by their IDs alone. -/
def kept (r : MemoryRegistry) (id : String) : Bool := r.instances.any (·.id = id)

theorem kept_eq_false {r : MemoryRegistry} {id : String} :
    kept r id = false ↔ ∀ inst ∈ r.instances, inst.id ≠ id := by
  simp [kept]

theorem kept_register {r r' : MemoryRegistry} {inst : ServiceInstance}
    (h : r.register inst = some r') : kept r' inst.id = true := by
  simp [kept, (register_ok h).1, put]

/-- `Deregister` removes the ID, or does not find it and says so. -/
theorem deregister_cases {r r' : MemoryRegistry} {service id : String} {err : Option GoError}
    (h : r.deregister service id = some (r', err)) :
    err = none ∧ r'.instances = remove r.instances id ∨ err ≠ none ∧ r' = r := by
  unfold MemoryRegistry.deregister at h
  split at h
  · cases h
    exact .inr ⟨by simp, rfl⟩
  · split at h
    · cases h
      exact .inl ⟨rfl, rfl⟩
    · cases h

def memory : Registrar MemoryRegistry Unit where
  key _ id := id
  has := kept
  register r inst _ := (r.register inst).map fun r => (none, r)
  deregister r service id _ := (r.deregister service id).map Prod.swap
  heartbeat r service id _ := Shutdown.heartbeat r service id
  registered h := by
    obtain ⟨r', hr', heq⟩ := Option.map_eq_some_iff.mp h
    cases heq
    exact kept_register hr'
  withdrawn h := by
    obtain ⟨⟨r', err⟩, hr', heq⟩ := Option.map_eq_some_iff.mp h
    cases heq
    obtain ⟨-, hrem⟩ | ⟨herr, -⟩ := deregister_cases hr'
    · rw [kept_eq_false, hrem]
      intro inst hinst
      simpa using (List.mem_filter.mp hinst).2
    · exact absurd rfl herr
  only_removes h hno := by
    obtain ⟨⟨r', err⟩, hr', heq⟩ := Option.map_eq_some_iff.mp h
    cases heq
    obtain ⟨-, hrem⟩ | ⟨-, rfl⟩ := deregister_cases hr'
    · rw [kept_eq_false] at hno ⊢
      rw [hrem]
      exact fun inst hinst => hno inst (List.mem_filter.mp hinst).1
    · exact hno

end Memory

end RpcInGo.Registry.Interface
