import Mathlib.Data.List.ReduceOption
import RpcInGo.Balancer.HashRing
import RpcInGo.Lib.Circle

/-!
What ring and node map say together. After a rebuild the ring holds, in order,
the hashes of the virtual nodes of the list; a hash that several instances share
leads to the last of them in the list.

* `addInstances_eq`, `rebuild_built`: a rebuild leaves such a ring;
* `lookup_next`: a lookup goes to the first point of the ring at or after the
  hash of the key, going round.
-/

namespace RpcInGo.Balancer.RingPoints
open Lib.Search Lib.Circle Registry.Instance HashRing

section Points
variable (hashKey : String → UInt32) (virtualNodes : Nat)

def owns (h : UInt32) (inst : ServiceInstance) : Bool :=
  (List.range virtualNodes).any fun i => hashKey (virtualKey inst.id i) = h

/-- The instances of the list with a virtual node at `h`, in the order of the list. -/
def owners (instances : Instances) (h : UInt32) : List ServiceInstance :=
  instances.reduceOption.filter (owns hashKey virtualNodes h)

/-- The strings that `rebuild` hashes, in the order of its loops. -/
def virtualKeys (instances : Instances) : List String :=
  instances.reduceOption.flatMap fun inst => (List.range virtualNodes).map (virtualKey inst.id)

def points (instances : Instances) : Set UInt32 :=
  {h | owners hashKey virtualNodes instances h ≠ []}

/-- A ring filled with the virtual nodes of these instances, sorted or not. -/
structure Filled (instances : Instances) (ch : ConsistentHash) : Prop where
  ring_mem : ∀ h, h ∈ ch.hashRing ↔ h ∈ points hashKey virtualNodes instances
  nodes_eq : ∀ h, ch.nodes h = (owners hashKey virtualNodes instances h).getLast?

structure Built (instances : Instances) (ch : ConsistentHash) : Prop
    extends Filled hashKey virtualNodes instances ch where
  sorted : ch.hashRing.Pairwise (· ≤ ·)

end Points

section Rebuild
variable {hashKey : String → UInt32} {virtualNodes : Nat} {instances : Instances}
  {ch ch' : ConsistentHash}

theorem mem_points {h : UInt32} : h ∈ points hashKey virtualNodes instances ↔
    ∃ inst, some inst ∈ instances ∧ ∃ i < virtualNodes, hashKey (virtualKey inst.id i) = h := by
  simp only [points, owners, Set.mem_ofPred_eq, ne_eq, List.filter_eq_nil_iff, not_forall,
    List.reduceOption_mem_iff, owns, List.any_eq_true, List.mem_range, decide_eq_true_eq,
    not_not, exists_prop]

theorem owners_append (l l' : Instances) (h : UInt32) :
    owners hashKey virtualNodes (l ++ l') h =
      owners hashKey virtualNodes l h ++ owners hashKey virtualNodes l' h := by
  simp [owners, List.reduceOption_append]

theorem owners_singleton (inst : ServiceInstance) (h : UInt32) :
    owners hashKey virtualNodes [some inst] h =
      if owns hashKey virtualNodes h inst then [inst] else [] := by
  simp [owners, List.reduceOption, List.filter_singleton]

/-- The inner loop of `rebuild`, all at once. -/
theorem addNodes_eq (inst : ServiceInstance) (ch : ConsistentHash) (n : Nat) :
    (List.range n).foldl (addNode hashKey inst) ch =
      { ch with
        hashRing := ch.hashRing ++ (List.range n).map fun i => hashKey (virtualKey inst.id i)
        nodes := fun h => if owns hashKey n h inst then some inst else ch.nodes h } := by
  induction n with
  | zero => simp [owns]
  | succ n ih =>
    rw [List.range_succ, List.foldl_append, ih]
    simp only [List.foldl_cons, List.foldl_nil, addNode, List.map_append, List.map_cons,
      List.map_nil, List.append_assoc]
    congr 1
    funext h
    by_cases heq : h = hashKey (virtualKey inst.id n)
    · simp [owns, heq, List.range_succ]
    · simp [owns, heq, Ne.symm heq, List.range_succ]

/-- The loops of `rebuild` on a list without nil pointers, all at once. -/
theorem addInstances_eq {rest : Instances} (hn : none ∉ rest) (ch : ConsistentHash) :
    rest.foldlM (addInstance hashKey) ch = some { ch with
      hashRing := ch.hashRing ++ (virtualKeys ch.virtualNodes rest).map hashKey
      nodes := fun h => (owners hashKey ch.virtualNodes rest h).getLast?.or (ch.nodes h) } := by
  induction rest generalizing ch with
  | nil => simp [virtualKeys, owners, List.reduceOption]
  | cons inst rest ih =>
    obtain ⟨hi, hnr⟩ := not_or.mp (mt List.mem_cons.mpr hn)
    obtain ⟨inst, rfl⟩ := Option.ne_none_iff_exists'.mp (Ne.symm hi)
    rw [List.foldlM_cons]
    simp only [addInstance, Option.bind_eq_bind, Option.bind_some]
    rw [ih hnr, addNodes_eq]
    have hnodes : ∀ h, owners hashKey ch.virtualNodes (some inst :: rest) h =
        owners hashKey ch.virtualNodes [some inst] h ++ owners hashKey ch.virtualNodes rest h :=
      owners_append [some inst] rest
    simp only [virtualKeys, List.reduceOption_cons_of_some, List.flatMap_cons, List.map_append,
      List.map_map, List.append_assoc, hnodes, owners_singleton, List.getLast?_append,
      Option.or_assoc]
    congr 2
    funext h
    congr 1
    split <;> rfl

theorem mem_virtualKeys_map {h : UInt32} :
    h ∈ (virtualKeys virtualNodes instances).map hashKey ↔
      h ∈ points hashKey virtualNodes instances := by
  rw [mem_points]
  simp only [virtualKeys, List.mem_map, List.mem_flatMap, List.reduceOption_mem_iff,
    List.mem_range]
  constructor
  · rintro ⟨_, ⟨inst, hinst, i, hi, rfl⟩, rfl⟩
    exact ⟨inst, hinst, i, hi, rfl⟩
  · rintro ⟨inst, hinst, i, hi, rfl⟩
    exact ⟨_, ⟨inst, hinst, i, hi, rfl⟩, rfl⟩

/-- The ring has the hash of each virtual node, as often as it occurs. -/
theorem rebuild_ring (hn : none ∉ instances) (h : rebuild hashKey ch instances = some ch') :
    ch'.hashRing.Perm ((virtualKeys ch.virtualNodes instances).map hashKey) := by
  rw [rebuild, addInstances_eq hn, Option.map_some, Option.some.injEq] at h
  rw [← h]
  exact List.perm_insertionSort _ _

theorem rebuild_built (hn : none ∉ instances) (h : rebuild hashKey ch instances = some ch') :
    Built hashKey ch.virtualNodes instances ch' := by
  refine ⟨⟨fun p => ?_, fun p => ?_⟩, ?_⟩
  · rw [(rebuild_ring hn h).mem_iff, mem_virtualKeys_map]
  all_goals
    rw [rebuild, addInstances_eq hn, Option.map_some, Option.some.injEq] at h
    rw [← h]
  · exact Option.or_none
  · exact List.pairwise_insertionSort _ _

end Rebuild

/-! ## Lookups -/

theorem ringIndex_next {ring : List UInt32} (hs : ring.Pairwise (· ≤ ·)) (hne : ring ≠ [])
    (hash : UInt32) :
    ∃ p, ring[ringIndex ring hash]? = some p ∧ IsNext {h | h ∈ ring} hash p := by
  have hle : ∀ i j (hj : j < ring.length) (hij : i ≤ j), ring[i] ≤ ring[j] := by
    intro i j hj hij
    rcases Nat.lt_or_eq_of_le hij with hlt | rfl
    · exact List.pairwise_iff_getElem.mp hs i j _ hj hlt
    · exact Std.le_refl _
  have hmono : ∀ i j, i ≤ j → j < ring.length → ring[i]?.any (hash ≤ ·) = true →
      ring[j]?.any (hash ≤ ·) = true := by
    intro i j hij hj hi
    rw [List.getElem?_eq_getElem hj]
    rw [List.getElem?_eq_getElem (by omega)] at hi
    simp only [Option.any_some, decide_eq_true_eq] at hi ⊢
    exact Std.le_trans hi (hle i j hj hij)
  obtain ⟨hbefore, hfound⟩ := search_spec hmono
  have hlt := ringIndex_lt hne hash
  refine ⟨ring[ringIndex ring hash], List.getElem?_eq_getElem hlt, ?_⟩
  unfold ringIndex at hlt ⊢
  split
  · -- every value of the ring is below the hash
    rename_i hend
    refine .around (List.getElem_mem _) ?_ ?_
    · intro q hq hle'
      obtain ⟨i, hi, rfl⟩ := List.getElem_of_mem hq
      have := hbefore i (by omega)
      simp [List.getElem?_eq_getElem hi, hle'] at this
    · intro q hq
      obtain ⟨i, hi, rfl⟩ := List.getElem_of_mem hq
      exact hle 0 i hi (Nat.zero_le i)
  · rename_i hend
    have hin := search_le ring.length (fun i => ring[i]?.any (hash ≤ ·))
    have hpos : search ring.length (fun i => ring[i]?.any (hash ≤ ·)) < ring.length := by omega
    refine .ahead (List.getElem_mem _) ?_ ?_
    · have := hfound hpos
      rw [List.getElem?_eq_getElem hpos] at this
      simpa using this
    · intro q hq hle'
      obtain ⟨i, hi, rfl⟩ := List.getElem_of_mem hq
      apply hle _ _ hi
      by_contra hlow
      have := hbefore i (by omega)
      simp [List.getElem?_eq_getElem hi, hle'] at this

/-- A lookup returns the last instance of the list at the next point. -/
theorem lookup_next {hashKey : String → UInt32} {virtualNodes : Nat} {instances : Instances}
    {ch : ConsistentHash} (hb : Built hashKey virtualNodes instances ch)
    (hne : ch.hashRing ≠ []) (key : String) :
    ∃ p, IsNext (points hashKey virtualNodes instances) (hashKey key) p ∧
      lookup hashKey ch key = some (owners hashKey virtualNodes instances p).getLast? := by
  obtain ⟨p, hp, hnext⟩ := ringIndex_next hb.sorted hne (hashKey key)
  have hpoints : {h | h ∈ ch.hashRing} = points hashKey virtualNodes instances :=
    Set.ext hb.ring_mem
  rw [hpoints] at hnext
  exact ⟨p, hnext, by rw [lookup, hp, Option.map_some, hb.nodes_eq]⟩

end RpcInGo.Balancer.RingPoints
