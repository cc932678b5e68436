import Mathlib.Data.List.Sort
import Mathlib.Logic.Function.Basic
import RpcInGo.Lib.Search
import RpcInGo.Registry.Instance

/-!
The ring of virtual nodes of the consistent-hash balancer, for an arbitrary
hash function in place of the truncated MD5 sum.

* `virtualKey_inj`: the string of a virtual node determines the ID and the number, also for IDs
  with dashes and digits of their own;
* `rebuild_isSome`, `rebuild_rebuilt`: rebuilding succeeds on a list without
  nil pointers, and gives every ring value a node of the list;
* `lookup_mem`: a lookup on such a ring returns one of the instances the ring
  was built from.
-/

namespace RpcInGo.Balancer.HashRing
open Lib.Search Registry.Instance

/-- The options' metadata is left out: no balancer reads it. -/
structure PickOptions where
  key : String
  deriving DecidableEq, Repr

/-- Slices of `*ServiceInstance`; `none` is the nil pointer. -/
abbrev Instances := List (Option ServiceInstance)

def ids (instances : Instances) : List String := instances.filterMap (Option.map (·.id))

theorem id_mem_ids {instances : Instances} {inst : ServiceInstance} (h : some inst ∈ instances) :
    inst.id ∈ ids instances :=
  List.mem_filterMap.mpr ⟨some inst, h, rfl⟩

/-- `nodes` is the Go map: a missing key reads as nil. -/
structure ConsistentHash where
  hashRing : List UInt32
  nodes : UInt32 → Option ServiceInstance
  virtualNodes : Nat
  instances : Instances

def defaultVirtualNodes : Nat := 150

def newConsistentHash : ConsistentHash := ⟨[], fun _ => none, defaultVirtualNodes, []⟩

def isSameInstances (ch : ConsistentHash) (instances : Instances) : Bool :=
  if ch.instances.length = 0 then false
  else if instances.length ≠ ch.instances.length then false
  else if instances.any Option.isNone then false
  else ch.instances.all fun inst =>
    match inst with
    | none => false
    | some inst => (ids instances).contains inst.id

section Hash
variable (hashKey : String → UInt32)

/-- The key of a virtual node, `fmt.Sprintf("%s-%d", inst.ID, i)`. -/
def virtualKey (id : String) (i : Nat) : String := id ++ "-" ++ toString i

/-- The body of the inner loop of `rebuild`. -/
def addNode (inst : ServiceInstance) (ch : ConsistentHash) (i : Nat) : ConsistentHash :=
  { ch with
    hashRing := ch.hashRing ++ [hashKey (virtualKey inst.id i)]
    nodes := Function.update ch.nodes (hashKey (virtualKey inst.id i)) (some inst) }

/-- The inner loop of `rebuild`; `none` is the panic of `inst.ID` on nil. -/
def addInstance (ch : ConsistentHash) : Option ServiceInstance → Option ConsistentHash
  | none => if ch.virtualNodes = 0 then some ch else none
  | some inst => some ((List.range ch.virtualNodes).foldl (addNode hashKey inst) ch)

def sortRing (ch : ConsistentHash) : ConsistentHash :=
  { ch with hashRing := ch.hashRing.insertionSort (· ≤ ·) }

def rebuild (ch : ConsistentHash) (instances : Instances) : Option ConsistentHash :=
  (instances.foldlM (addInstance hashKey)
    { ch with instances := instances, hashRing := [], nodes := fun _ => none }).map sortRing

/-- The key that a call hashes; `now` is the clock in nanoseconds. -/
def pickKey (opts : Option PickOptions) (now : Int) : String :=
  match opts with
  | some o => if o.key ≠ "" then o.key else toString now
  | none => toString now

/-- Position on the ring of the first value not below `hash`, or the first of all. -/
def ringIndex (ring : List UInt32) (hash : UInt32) : Nat :=
  if search ring.length (fun i => ring[i]?.any (hash ≤ ·)) = ring.length then 0
  else search ring.length (fun i => ring[i]?.any (hash ≤ ·))

/-- The read-locked section of `PickWithOptions`; `none` is the panic of an
index out of range. -/
def lookup (ch : ConsistentHash) (key : String) : Option (Option ServiceInstance) :=
  ch.hashRing[ringIndex ch.hashRing (hashKey key)]?.map ch.nodes

end Hash

/-! ## Keys of virtual nodes -/

theorem dash_notMem_toString (n : Nat) : '-' ∉ (toString n).toList := by
  intro h
  rw [show toString n = String.ofList (Nat.toDigits 10 n) from rfl, String.toList_ofList] at h
  exact absurd (Nat.isDigit_of_mem_toDigits (by decide) (by decide) h) (by decide)

/-- The ID is what stands before the last dash. -/
theorem virtualKey_id {id id' : String} {i j : Nat} (h : virtualKey id i = virtualKey id' j) :
    id = id' := by
  have hdrop : ∀ (id : String) (i : Nat),
      (virtualKey id i).toList.reverse.dropWhile (· != '-') = '-' :: id.toList.reverse := by
    intro id i
    have hdigits : ∀ c ∈ (toString i).toList.reverse, (c != '-') = true := by
      intro c hc
      rw [bne_iff_ne]
      rintro rfl
      exact dash_notMem_toString i (List.mem_reverse.mp hc)
    simp only [virtualKey, String.toList_append, List.reverse_append]
    rw [List.dropWhile_append_of_pos hdigits]
    rfl
  have hkeys := hdrop id i
  rw [h, hdrop id' j] at hkeys
  exact String.toList_inj.mp (List.reverse_inj.mp (List.cons_inj_right _ |>.mp hkeys)).symm

theorem virtualKey_inj {id id' : String} {i j : Nat} (h : virtualKey id i = virtualKey id' j) :
    id = id' ∧ i = j := by
  obtain rfl := virtualKey_id h
  refine ⟨rfl, ?_⟩
  have hdigits : Nat.toDigits 10 i = Nat.toDigits 10 j := by
    have hkeys := congrArg String.toList h
    simp only [virtualKey, String.toList_append] at hkeys
    simpa [Nat.repr_eq_ofList_toDigits] using List.append_cancel_left hkeys
  have hnum := congrArg (Nat.ofDigitChars 10 · 0) hdigits
  simpa [Nat.ofDigitChars_ten_toDigits] using hnum

/-! ## What a rebuild leaves -/

/-- Every ring value has a node, and every node is an instance of the list. -/
structure Covers (instances : Instances) (ch : ConsistentHash) : Prop where
  noded : ∀ h ∈ ch.hashRing, ∃ inst, ch.nodes h = some inst
  owned : ∀ h inst, ch.nodes h = some inst → some inst ∈ instances

/-- What the loops of `rebuild` do to the balancer while they add `k` values
for instances of the list. -/
structure Extends (instances : Instances) (k : Nat) (ch ch' : ConsistentHash) : Prop where
  covers : Covers instances ch → Covers instances ch'
  instances_eq : ch'.instances = ch.instances
  virtualNodes_eq : ch'.virtualNodes = ch.virtualNodes
  length_eq : ch'.hashRing.length = ch.hashRing.length + k

section Loops
variable {hashKey : String → UInt32} {instances : Instances} {ch ch' ch'' : ConsistentHash}

theorem Extends.refl : Extends instances 0 ch ch := ⟨id, rfl, rfl, rfl⟩

theorem Extends.trans {k k' : Nat} (h : Extends instances k ch ch')
    (h' : Extends instances k' ch' ch'') : Extends instances (k + k') ch ch'' where
  covers hc := h'.covers (h.covers hc)
  instances_eq := h'.instances_eq.trans h.instances_eq
  virtualNodes_eq := h'.virtualNodes_eq.trans h.virtualNodes_eq
  length_eq := by rw [h'.length_eq, h.length_eq, Nat.add_assoc]

theorem addNode_covers {inst : ServiceInstance} (hi : some inst ∈ instances) (i : Nat)
    (hc : Covers instances ch) : Covers instances (addNode hashKey inst ch i) := by
  constructor
  · intro h hh
    by_cases heq : h = hashKey (virtualKey inst.id i)
    · exact ⟨inst, by simp [addNode, heq]⟩
    · have hold : h ∈ ch.hashRing := by simpa [addNode, heq] using hh
      simpa [addNode, heq] using hc.noded h hold
  · intro h inst' hn
    by_cases heq : h = hashKey (virtualKey inst.id i)
    · obtain rfl : inst = inst' := by simpa [addNode, heq] using hn
      exact hi
    · exact hc.owned h inst' (by simpa [addNode, heq] using hn)

theorem addNode_extends {inst : ServiceInstance} (hi : some inst ∈ instances) (i : Nat) :
    Extends instances 1 ch (addNode hashKey inst ch i) :=
  ⟨addNode_covers hi i, rfl, rfl, by simp [addNode]⟩

theorem addNodes_extends {inst : ServiceInstance} (hi : some inst ∈ instances) (n : Nat) :
    Extends instances n ch ((List.range n).foldl (addNode hashKey inst) ch) := by
  induction n with
  | zero => exact .refl
  | succ n ih =>
    rw [List.range_succ, List.foldl_append]
    exact ih.trans (addNode_extends hi n)

theorem addInstance_extends {inst : Option ServiceInstance} (hi : inst ∈ instances)
    (h : addInstance hashKey ch inst = some ch') :
    Extends instances ch.virtualNodes ch ch' := by
  cases inst with
  | none =>
    simp only [addInstance, Option.ite_none_right_eq_some, Option.some.injEq] at h
    obtain ⟨hv, rfl⟩ := h
    rw [hv]
    exact .refl
  | some inst =>
    cases h
    exact addNodes_extends hi ch.virtualNodes

theorem addInstances_extends {rest : Instances} (hsub : rest ⊆ instances)
    (h : rest.foldlM (addInstance hashKey) ch = some ch') :
    Extends instances (rest.length * ch.virtualNodes) ch ch' := by
  induction rest generalizing ch with
  | nil =>
    obtain rfl : ch = ch' := by simpa using h
    rw [List.length_nil, Nat.zero_mul]
    exact .refl
  | cons inst rest ih =>
    rw [List.foldlM_cons, Option.bind_eq_bind, Option.bind_eq_some_iff] at h
    obtain ⟨mid, hmid, hrest⟩ := h
    obtain ⟨hi, hsub⟩ := List.cons_subset.mp hsub
    have hfirst := addInstance_extends hi hmid
    have hlast := ih hsub hrest
    rw [hfirst.virtualNodes_eq] at hlast
    rw [List.length_cons, Nat.add_mul, Nat.one_mul, Nat.add_comm]
    exact hfirst.trans hlast

theorem sortRing_covers (hc : Covers instances ch) : Covers instances (sortRing ch) :=
  ⟨fun h hh => hc.noded h (by simpa [sortRing] using hh), hc.owned⟩

/-- The balancer after a rebuild. -/
structure Rebuilt (instances : Instances) (ch ch' : ConsistentHash) : Prop where
  covers : Covers instances ch'
  instances_eq : ch'.instances = instances
  virtualNodes_eq : ch'.virtualNodes = ch.virtualNodes
  length_eq : ch'.hashRing.length = instances.length * ch.virtualNodes

theorem rebuild_rebuilt (h : rebuild hashKey ch instances = some ch') :
    Rebuilt instances ch ch' := by
  obtain ⟨mid, hmid, rfl⟩ := Option.map_eq_some_iff.mp h
  have hext := addInstances_extends (List.Subset.refl instances) hmid
  have hempty : Covers instances
      { ch with instances := instances, hashRing := [], nodes := fun _ => none } :=
    ⟨by simp, by simp⟩
  refine ⟨sortRing_covers (hext.covers hempty), hext.instances_eq, hext.virtualNodes_eq, ?_⟩
  simpa [sortRing] using hext.length_eq

/-- `rebuild` dereferences every pointer of the list, and no other. -/
theorem rebuild_isSome (h : none ∉ instances) : (rebuild hashKey ch instances).isSome := by
  suffices hloop : ∀ rest : Instances, none ∉ rest → ∀ ch,
      (rest.foldlM (addInstance hashKey) ch).isSome by
    rw [rebuild, Option.isSome_map]
    exact hloop instances h _
  intro rest
  induction rest with
  | nil => simp
  | cons inst rest ih =>
    intro hn ch
    obtain ⟨hi, hrest⟩ := not_or.mp (mt List.mem_cons.mpr hn)
    obtain ⟨inst, rfl⟩ := Option.ne_none_iff_exists'.mp (Ne.symm hi)
    exact ih hrest _

/-! ## Lookups -/

theorem ringIndex_lt {ring : List UInt32} (h : ring ≠ []) (hash : UInt32) :
    ringIndex ring hash < ring.length := by
  have hpos := List.length_pos_of_ne_nil h
  have hle := search_le ring.length (fun i => ring[i]?.any (hash ≤ ·))
  unfold ringIndex
  split <;> omega

theorem lookup_mem (hc : Covers instances ch) (hne : ch.hashRing ≠ []) (key : String) :
    ∃ inst, lookup hashKey ch key = some (some inst) ∧ some inst ∈ instances := by
  have hlt := ringIndex_lt hne (hashKey key)
  obtain ⟨inst, hinst⟩ := hc.noded _ (List.getElem_mem hlt)
  refine ⟨inst, ?_, hc.owned _ _ hinst⟩
  simp only [lookup, List.getElem?_eq_getElem hlt, Option.map_some, hinst]

end Loops

end RpcInGo.Balancer.HashRing
