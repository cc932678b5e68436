import RpcInGo.Balancer.ConcurrentPick
import RpcInGo.Balancer.RingPoints

/-!
The ring against the list of virtual nodes it stands for.

* `virtualKeys_nodup`: no two virtual nodes of a list have the same string;
* `lookup_scan`: the binary search finds what a scan of the virtual nodes finds;
* `rebuilds_scan`: all of this for the last of any number of rebuilds.
-/

namespace RpcInGo.Balancer.RingScan
open Lib.Circle Registry.Instance HashRing ConcurrentPick RingPoints

section VirtualNodes
variable (hashKey : String → UInt32) (virtualNodes : Nat)

/-- The hashes of the virtual nodes, with the instances they stand for. -/
def ringNodes (instances : Instances) : List (UInt32 × ServiceInstance) :=
  instances.reduceOption.flatMap fun inst =>
    (List.range virtualNodes).map fun i => (hashKey (virtualKey inst.id i), inst)

end VirtualNodes

section Rebuild
variable {hashKey : String → UInt32} {virtualNodes : Nat} {instances : Instances}
  {ch ch' : ConsistentHash}

theorem ringNodes_fst (instances : Instances) :
    (ringNodes hashKey virtualNodes instances).map Prod.fst =
      (virtualKeys virtualNodes instances).map hashKey := by
  simp [ringNodes, virtualKeys, List.map_flatMap, Function.comp_def]

theorem ids_eq (instances : Instances) : ids instances = instances.reduceOption.map (·.id) := by
  rw [ids, List.reduceOption, List.map_filterMap]
  rfl

theorem virtualKeys_nodup (h : (ids instances).Nodup) :
    (virtualKeys virtualNodes instances).Nodup := by
  rw [ids_eq, List.Nodup, List.pairwise_map] at h
  rw [virtualKeys, List.nodup_flatMap]
  constructor
  · intro inst _
    exact List.nodup_range.map fun i j hij => (virtualKey_inj hij).2
  · refine h.imp fun hne => ?_
    intro key hkey hkey'
    obtain ⟨i, -, rfl⟩ := List.mem_map.mp hkey
    obtain ⟨j, -, hj⟩ := List.mem_map.mp hkey'
    exact hne (virtualKey_inj hj).1.symm

/-! ## Lookups -/

/-- All virtual nodes of an instance lead to it. -/
theorem getLast?_nodes (inst : ServiceInstance) (h : UInt32) :
    (((List.range virtualNodes).map fun i => (hashKey (virtualKey inst.id i), inst)).filter
        fun n => n.1 = h).getLast?.map Prod.snd =
      if owns hashKey virtualNodes h inst then some inst else none := by
  rw [List.filter_map, List.getLast?_map, Option.map_map]
  by_cases ho : owns hashKey virtualNodes h inst = true
  · obtain ⟨i, hi, hh⟩ := List.any_eq_true.mp ho
    have hne : (List.range virtualNodes).filter
        (fun i => decide (hashKey (virtualKey inst.id i) = h)) ≠ [] :=
      List.ne_nil_of_mem (List.mem_filter.mpr ⟨hi, hh⟩)
    obtain ⟨j, hj⟩ := Option.ne_none_iff_exists'.mp (mt List.getLast?_eq_none_iff.mp hne)
    rw [if_pos ho]
    exact congrArg (Option.map _) hj
  · have hnil : (List.range virtualNodes).filter
        (fun i => decide (hashKey (virtualKey inst.id i) = h)) = [] := by
      rw [List.filter_eq_nil_iff]
      exact fun i hi hh => ho (List.any_eq_true.mpr ⟨i, hi, hh⟩)
    rw [if_neg ho]
    exact congrArg (fun l => Option.map _ (List.getLast? l)) hnil

/-- The last instance with a virtual node at `h` is the one of the last virtual node at `h`. -/
theorem owners_getLast? (instances : Instances) (h : UInt32) :
    (owners hashKey virtualNodes instances h).getLast? =
      ((ringNodes hashKey virtualNodes instances).filter fun n => n.1 = h).getLast?.map
        Prod.snd := by
  induction instances with
  | nil => simp [owners, ringNodes, List.reduceOption]
  | cons inst rest ih =>
    cases inst with
    | none => exact ih
    | some inst =>
      have howners : owners hashKey virtualNodes (some inst :: rest) h =
          owners hashKey virtualNodes [some inst] h ++ owners hashKey virtualNodes rest h :=
        owners_append [some inst] rest h
      have hnodes : ringNodes hashKey virtualNodes (some inst :: rest) =
          ((List.range virtualNodes).map fun i => (hashKey (virtualKey inst.id i), inst)) ++
            ringNodes hashKey virtualNodes rest := by
        rw [ringNodes, List.reduceOption_cons_of_some, List.flatMap_cons]
        rfl
      rw [howners, hnodes, List.filter_append, List.getLast?_append, List.getLast?_append, ih,
        owners_singleton, Option.map_or, getLast?_nodes]
      congr 1
      split <;> rfl

theorem mem_ringNodes_fst {h : UInt32} :
    h ∈ (ringNodes hashKey virtualNodes instances).map Prod.fst ↔
      h ∈ points hashKey virtualNodes instances := by
  rw [ringNodes_fst, mem_virtualKeys_map]

theorem lookup_scan (hb : Built hashKey virtualNodes instances ch) (hne : ch.hashRing ≠ [])
    (key : String) :
    ∃ p inst, scan (ringNodes hashKey virtualNodes instances) (hashKey key) = some (p, inst) ∧
      lookup hashKey ch key = some (some inst) := by
  obtain ⟨p, hnext, hlook⟩ := lookup_next hb hne key
  have hnodes : ringNodes hashKey virtualNodes instances ≠ [] := by
    intro hnil
    have hmem := mem_ringNodes_fst.mpr hnext.mem
    rw [hnil] at hmem
    cases hmem
  obtain ⟨⟨q, inst⟩, hscan, hnext', hlast⟩ := scan_isNext hnodes (hashKey key)
  have hpoints : {p | p ∈ (ringNodes hashKey virtualNodes instances).map Prod.fst} =
      points hashKey virtualNodes instances := Set.ext fun _ => mem_ringNodes_fst
  rw [hpoints] at hnext'
  obtain rfl := hnext.unique hnext'
  refine ⟨p, inst, hscan, ?_⟩
  rw [hlook, owners_getLast?, hlast, Option.map_some]

/-! ## Successive rebuilds -/

theorem rebuilds_isSome (hashKey : String → UInt32) {lists : List Instances}
    (hl : ∀ l ∈ lists, Listed l) (ch : ConsistentHash) :
    ∃ ch', lists.foldlM (rebuild hashKey) ch = some ch' ∧ ch'.virtualNodes = ch.virtualNodes := by
  induction lists generalizing ch with
  | nil => exact ⟨ch, rfl, rfl⟩
  | cons l lists ih =>
    obtain ⟨hfirst, hrest⟩ := List.forall_mem_cons.mp hl
    obtain ⟨mid, hmid⟩ := Option.isSome_iff_exists.mp
      (rebuild_isSome hfirst.non_nil : (rebuild hashKey ch l).isSome)
    obtain ⟨ch', hch', hv⟩ := ih hrest mid
    refine ⟨ch', ?_, hv.trans (rebuild_rebuilt hmid).virtualNodes_eq⟩
    rw [List.foldlM_cons, hmid]
    exact hch'

end Rebuild

/-- After any number of rebuilds the ring is sorted, has the hashes of the virtual nodes of the
current instances and no others, and each of them has a node. The binary search goes to the next
point of the ring, which makes a lookup the scan of the virtual nodes. -/
theorem rebuilds_scan (hashKey : String → UInt32) {ch : ConsistentHash} (hv : 0 < ch.virtualNodes)
    {lists : List Instances} {current : Instances} (hl : ∀ l ∈ lists ++ [current], Listed l) :
    ∃ ch', (lists ++ [current]).foldlM (rebuild hashKey) ch = some ch' ∧
      ch'.hashRing.Pairwise (· ≤ ·) ∧
      (∀ h ∈ ch'.hashRing, ∃ inst, ch'.nodes h = some inst ∧ some inst ∈ current) ∧
      ch'.hashRing.Perm ((virtualKeys ch.virtualNodes current).map hashKey) ∧
      (virtualKeys ch.virtualNodes current).Nodup ∧
      (∀ id id' i j, virtualKey id i = virtualKey id' j → id = id' ∧ i = j) ∧
      ∀ key,
        (∃ p, ch'.hashRing[ringIndex ch'.hashRing (hashKey key)]? = some p ∧
          IsNext {h | h ∈ (virtualKeys ch.virtualNodes current).map hashKey} (hashKey key) p) ∧
        ∃ p inst,
          scan (ringNodes hashKey ch.virtualNodes current) (hashKey key) = some (p, inst) ∧
          lookup hashKey ch' key = some (some inst) := by
  have hcurrent : Listed current := hl current (by simp)
  obtain ⟨mid, hmid, hmv⟩ := rebuilds_isSome hashKey
    (fun l hm => hl l (List.mem_append_left _ hm)) ch
  obtain ⟨ch', hre⟩ := Option.isSome_iff_exists.mp
    (rebuild_isSome hcurrent.non_nil : (rebuild hashKey mid current).isSome)
  have hbuilt := rebuild_built hcurrent.non_nil hre
  have hperm := rebuild_ring hcurrent.non_nil hre
  rw [hmv] at hbuilt hperm
  have hring : ch'.hashRing ≠ [] := by
    apply List.ne_nil_of_length_pos
    rw [(rebuild_rebuilt hre).length_eq, hmv]
    exact Nat.mul_pos (List.length_pos_of_ne_nil hcurrent.nonempty) hv
  refine ⟨ch', ?_, hbuilt.sorted, ?_, hperm, virtualKeys_nodup hcurrent.distinct,
    fun _ _ _ _ => virtualKey_inj, fun key => ⟨?_, lookup_scan hbuilt hring key⟩⟩
  · rw [List.foldlM_append, hmid]
    simpa using hre
  · intro h hh
    obtain ⟨inst, hinst⟩ := (rebuild_rebuilt hre).covers.noded h hh
    exact ⟨inst, hinst, (rebuild_rebuilt hre).covers.owned h inst hinst⟩
  · obtain ⟨p, hp, hnext⟩ := ringIndex_next hbuilt.sorted hring (hashKey key)
    have hvalues : {h | h ∈ ch'.hashRing} =
        {h | h ∈ (virtualKeys ch.virtualNodes current).map hashKey} :=
      Set.ext fun _ => hperm.mem_iff
    rw [hvalues] at hnext
    exact ⟨p, hp, hnext⟩

/-- All virtual nodes collide, and the second rebuild leaves out the first instance. -/
theorem rebuilds_scan_users :
    ∃ ch', ([users] ++ [usersLeft]).foldlM (rebuild fun _ => 0) newConsistentHash = some ch' ∧
      ∃ p inst, scan (ringNodes (fun _ => 0) defaultVirtualNodes usersLeft) 0 = some (p, inst) ∧
        lookup (fun _ => 0) ch' "alice" = some (some inst) := by
  have hl : ∀ l ∈ [users] ++ [usersLeft], Listed l := by
    intro l hm
    rcases List.mem_pair.mp hm with rfl | rfl
    · exact ⟨by decide, by decide, by decide⟩
    · exact ⟨by decide, by decide, by decide⟩
  have hv : 0 < newConsistentHash.virtualNodes := by decide
  obtain ⟨ch', hch', -, -, -, -, -, hkeys⟩ := rebuilds_scan (fun _ => 0) hv hl
  exact ⟨ch', hch', (hkeys "alice").2⟩

end RpcInGo.Balancer.RingScan
