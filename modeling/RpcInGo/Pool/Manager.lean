import Mathlib.Logic.Function.Basic
import RpcInGo.Protocol.Message

/-!
The pool manager of `pkg/pool/pool_manager.go`: a map of connection pools by address. Pools are
numbered as they are created. Each method holds `mu` for as long as it looks at the map, and the
fast path of `GetConnection` finds in it what the second look under the lock would.

The map holds the open pools and nothing else; the structure carries this as a field.
-/

namespace RpcInGo.Pool.Manager
open Protocol.Message

structure PoolManager where
  pools : String → Option Nat
  /-- The address of each pool that was created. -/
  created : List String
  closed : List Nat
  closed_lt : ∀ p ∈ closed, p < created.length
  kept_iff : ∀ addr p, pools addr = some p ↔ created[p]? = some addr ∧ p ∉ closed

theorem getElem?_concat_eq_some {l : List String} {a b : String} {p : Nat} :
    (l ++ [b])[p]? = some a ↔ l[p]? = some a ∨ p = l.length ∧ a = b := by
  rw [List.getElem?_append]
  split
  · have : p ≠ l.length := by omega
    simp [this]
  · have hnone : l[p]? = none := List.getElem?_eq_none (by omega)
    rw [hnone, List.getElem?_singleton]
    split
    · have : p = l.length := by omega
      simp [this, eq_comm]
    · have : p ≠ l.length := by omega
      simp [this]

def newPoolManager : PoolManager where
  pools := fun _ => none
  created := []
  closed := []
  closed_lt := by simp
  kept_iff := by simp

namespace PoolManager

theorem kept_created (pm : PoolManager) {addr : String} {p : Nat} (h : pm.pools addr = some p) :
    pm.created[p]? = some addr := ((pm.kept_iff addr p).mp h).1

theorem kept_open (pm : PoolManager) {addr : String} {p : Nat} (h : pm.pools addr = some p) :
    p ∉ pm.closed := ((pm.kept_iff addr p).mp h).2

/-- A pool is added for an address that has none. -/
def create (pm : PoolManager) (addr : String) (h : pm.pools addr = none) : PoolManager where
  pools := Function.update pm.pools addr (some pm.created.length)
  created := pm.created ++ [addr]
  closed := pm.closed
  closed_lt p hp := by
    have := pm.closed_lt p hp
    simp only [List.length_append, List.length_singleton]
    omega
  kept_iff a p := by
    have hfresh : pm.created.length ∉ pm.closed := fun hmem => by
      have := pm.closed_lt _ hmem
      omega
    have hkept := pm.kept_iff a p
    rw [getElem?_concat_eq_some]
    by_cases ha : a = addr
    · subst ha
      rw [Function.update_self]
      rw [h] at hkept
      grind
    · rw [Function.update_of_ne ha, hkept]
      simp [ha]

/-- `GetConnection` up to the pool that it asks for a connection. `failure` is what
`NewConnectionPool` returns for an error, should it be called. -/
def getConnection (pm : PoolManager) (addr : String) (failure : Option GoError) :
    PoolManager × Except GoError Nat :=
  match h : pm.pools addr with
  | some p => (pm, .ok p)
  | none =>
    match failure with
    | some err => (pm, .error (.wrapf "new pool: %w" [] err))
    | none => (pm.create addr h, .ok pm.created.length)

def removePool (pm : PoolManager) (addr : String) : PoolManager :=
  match h : pm.pools addr with
  | none => pm
  | some p =>
    { pools := Function.update pm.pools addr none
      created := pm.created
      closed := p :: pm.closed
      closed_lt := by
        intro q hq
        rcases List.mem_cons.mp hq with rfl | hq
        · exact (List.getElem?_eq_some_iff.mp (pm.kept_created h)).1
        · exact pm.closed_lt q hq
      kept_iff := by
        intro a q
        have hkept := pm.kept_iff a q
        have hp := pm.kept_created h
        by_cases ha : a = addr
        · subst ha
          rw [Function.update_self]
          grind
        · rw [Function.update_of_ne ha, hkept]
          grind }

theorem removePool_none {pm : PoolManager} {addr : String} (h : pm.pools addr = none) :
    pm.removePool addr = pm := by
  unfold removePool
  split
  · rfl
  · rename_i h'
    rw [h] at h'
    cases h'

theorem removePool_closed {pm : PoolManager} {addr : String} {p : Nat}
    (h : pm.pools addr = some p) : (pm.removePool addr).closed = p :: pm.closed := by
  unfold removePool
  split
  · rename_i h'
    rw [h] at h'
    cases h'
  · rename_i q h'
    rw [h] at h'
    cases h'
    rfl

theorem removePool_created (pm : PoolManager) (addr : String) :
    (pm.removePool addr).created = pm.created := by
  unfold removePool
  split <;> rfl

/-- The pools that are closed are those of the address. -/
theorem mem_removePool_closed {pm : PoolManager} {addr : String} {p : Nat} :
    p ∈ (pm.removePool addr).closed ↔ pm.pools addr = some p ∨ p ∈ pm.closed := by
  cases h : pm.pools addr with
  | none => simp [removePool_none h]
  | some q => simp [removePool_closed h, eq_comm]

end PoolManager

end RpcInGo.Pool.Manager
