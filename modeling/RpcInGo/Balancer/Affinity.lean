import Mathlib.Data.List.Perm.Subperm
import RpcInGo.Balancer.Stability

/-!
Calls of `PickWithOptions` that do not overlap. The ring in use belongs to the
instances that were passed, if not to the list itself: it may have been built for
the same IDs in another order.

* `Ring`: what ring and remembered list have in common after every call;
* `pick_by_ids`: where no two virtual nodes collide, the ID that a call picks is a
  function of its key and of the set of IDs that it passes, in any two histories.
-/

namespace RpcInGo.Balancer.Affinity
open Lib.Circle Lib.Goroutine Registry.Instance HashRing ConcurrentPick RingPoints Stability

def outside : Pc → Bool
  | .between _ _ => false
  | _ => true

/-- No call begins while another is between its two sections. -/
def alone (s : Config Shared Pc) (i : Nat) : Bool :=
  match s.threads[i]? with
  | some (.called _ _) => s.threads.all outside
  | _ => true

def Alone (s : Config Shared Pc) (i : Nat) (_ : Int) : Prop := alone s i = true

instance (s : Config Shared Pc) (i : Nat) (now : Int) : Decidable (Alone s i now) :=
  inferInstanceAs (Decidable (alone s i = true))

def idSet (l : Instances) : Set String := {id | id ∈ ids l}

section Chosen
variable (hashKey : String → UInt32) (virtualNodes : Nat)

/-- The points of a set of IDs. -/
def idPoints (S : Set String) : Set UInt32 :=
  {h | ∃ id ∈ S, ∃ i < virtualNodes, hashKey (virtualKey id i) = h}

/-- `id` has a virtual node at the next point of the set. -/
def Chosen (S : Set String) (key id : String) : Prop :=
  ∃ p, IsNext (idPoints hashKey virtualNodes S) (hashKey key) p ∧ id ∈ S ∧
    ∃ i < virtualNodes, hashKey (virtualKey id i) = p

/-- Different virtual nodes of these IDs have different hashes. -/
def CollisionFree (S : Set String) : Prop :=
  ∀ id ∈ S, ∀ id' ∈ S, ∀ i < virtualNodes, ∀ j < virtualNodes,
    hashKey (virtualKey id i) = hashKey (virtualKey id' j) → virtualKey id i = virtualKey id' j

end Chosen

section Keys
variable {hashKey : String → UInt32} {virtualNodes : Nat} {S : Set String} {key id id' : String}

theorem Chosen.unique (hfree : CollisionFree hashKey virtualNodes S)
    (h : Chosen hashKey virtualNodes S key id) (h' : Chosen hashKey virtualNodes S key id') :
    id = id' := by
  obtain ⟨p, hp, hid, i, hi, rfl⟩ := h
  obtain ⟨p', hp', hid', j, hj, rfl⟩ := h'
  exact virtualKey_id (hfree id hid id' hid' i hi j hj (hp.unique hp'))

theorem points_eq (instances : Instances) :
    points hashKey virtualNodes instances =
      idPoints hashKey virtualNodes (idSet instances) := by
  ext h
  rw [mem_points]
  constructor
  · rintro ⟨inst, hmem, hi⟩
    exact ⟨inst.id, id_mem_ids hmem, hi⟩
  · rintro ⟨id, hid, hi⟩
    obtain ⟨inst, hmem, hinst⟩ := List.mem_filterMap.mp hid
    obtain ⟨inst, rfl, rfl⟩ := Option.map_eq_some_iff.mp hinst
    exact ⟨inst, hmem, hi⟩

/-- A lookup on the ring of a list picks an ID chosen for the IDs of the list. -/
theorem lookup_chosen {instances : Instances} {ch : ConsistentHash}
    (hb : Built hashKey virtualNodes instances ch) (hne : ch.hashRing ≠ []) (key : String) :
    ∃ inst, lookup hashKey ch key = some (some inst) ∧
      Chosen hashKey virtualNodes (idSet instances) key inst.id := by
  obtain ⟨p, hnext, hlook⟩ := lookup_next hb hne key
  obtain ⟨inst, hinst⟩ := Option.ne_none_iff_exists'.mp (mt List.getLast?_eq_none_iff.mp hnext.mem)
  have hmem := List.mem_of_getLast? hinst
  simp only [owners, List.mem_filter, List.reduceOption_mem_iff, owns, List.any_eq_true,
    List.mem_range, decide_eq_true_eq] at hmem
  rw [hinst] at hlook
  rw [points_eq] at hnext
  exact ⟨inst, hlook, p, hnext, id_mem_ids hmem.1, hmem.2⟩

end Keys

/-! ## The ring between calls -/

section Calls
variable {hashKey : String → UInt32} {virtualNodes : Nat} {ch ch' : ConsistentHash}
  {l : Instances}

/-- The ring is the one of the remembered list. -/
structure Ring (hashKey : String → UInt32) (virtualNodes : Nat) (ch : ConsistentHash) : Prop where
  nodes_eq : ch.virtualNodes = virtualNodes
  listed : ch.instances ≠ [] → Listed ch.instances
  built : ch.instances ≠ [] → Built hashKey virtualNodes ch.instances ch ∧ ch.hashRing ≠ []

theorem rebuild_ring (hv : 0 < virtualNodes) (hr : Ring hashKey virtualNodes ch) (hl : Listed l)
    (h : rebuild hashKey ch l = some ch') :
    Ring hashKey virtualNodes ch' ∧ ch'.instances = l := by
  have hre := rebuild_rebuilt h
  have hb := rebuild_built hl.non_nil h
  rw [hr.nodes_eq] at hb
  have hring : ch'.hashRing ≠ [] := by
    apply List.ne_nil_of_length_pos
    rw [hre.length_eq, hr.nodes_eq]
    exact Nat.mul_pos (List.length_pos_of_ne_nil hl.nonempty) hv
  refine ⟨⟨hre.virtualNodes_eq.trans hr.nodes_eq, fun _ => ?_, fun _ => ⟨?_, hring⟩⟩,
    hre.instances_eq⟩
  · rwa [hre.instances_eq]
  · rwa [hre.instances_eq]

theorem ids_length (h : none ∉ l) : (ids l).length = l.length := by
  induction l with
  | nil => rfl
  | cons inst l ih =>
    obtain ⟨hi, hl⟩ := not_or.mp (mt List.mem_cons.mpr h)
    obtain ⟨inst, rfl⟩ := Option.ne_none_iff_exists'.mp (Ne.symm hi)
    simpa [ids] using ih hl

/-- The comparison of the lists is a comparison of their sets of IDs. -/
theorem ids_eq_of_isSameInstances (hl : Listed l) (hch : Listed ch.instances)
    (h : isSameInstances ch l = true) : idSet ch.instances = idSet l := by
  have hsub := (ids_subset_of_isSameInstances h).2
  have hlen : l.length = ch.instances.length := by
    by_contra hne
    simp [isSameInstances, hne] at h
  have hperm : (ids ch.instances).Perm (ids l) := by
    apply (List.subperm_of_subset hch.distinct hsub).perm_of_length_le
    rw [ids_length hl.non_nil, ids_length hch.non_nil, hlen]
  exact Set.ext fun _ => hperm.mem_iff

/-- A call that stands between its sections finds the ring of its own IDs. -/
def Ready (ch : ConsistentHash) (l : Instances) : Prop :=
  ch.instances ≠ [] ∧ idSet ch.instances = idSet l

/-- What holds of a call with these options at each point. -/
def Answers (hashKey : String → UInt32) (virtualNodes : Nat) (ch : ConsistentHash)
    (opts : Option PickOptions) : Pc → Prop
  | .called l o => o = opts ∧ Listed l
  | .between l o => o = opts ∧ Ready ch l
  | .returned l r => ∀ key, opts = some ⟨key⟩ → key ≠ "" → ∃ inst, r = .ok (some inst) ∧
      Chosen hashKey virtualNodes (idSet l) key inst.id
  | .panicked _ => False

theorem pickStep_answers {g g' : Shared} {pc pc' : Pc} {now : Int} {opts : Option PickOptions}
    (hv : 0 < virtualNodes) (hr : Ring hashKey virtualNodes g.ch)
    (ha : Answers hashKey virtualNodes g.ch opts pc)
    (h : pickStep hashKey g pc now = some (g', pc')) :
    Ring hashKey virtualNodes g'.ch ∧ Answers hashKey virtualNodes g'.ch opts pc' ∧
    (g'.ch = g.ch ∨ ∃ l o, pc = .called l o) := by
  revert h
  fun_cases pickStep hashKey g pc now <;> intro h <;> cases h
  case case1 l o hempty => exact absurd (List.eq_nil_of_length_eq_zero hempty) ha.2.nonempty
  case case3 l o _ _ hsame =>
    have hne := (ids_subset_of_isSameInstances hsame).1
    exact ⟨hr, ⟨ha.1, hne, ids_eq_of_isSameInstances ha.2 (hr.listed hne) hsame⟩, .inl rfl⟩
  case case4 l o _ _ _ ch hre =>
    obtain ⟨hr', hinst⟩ := rebuild_ring hv hr ha.2 hre
    refine ⟨hr', ⟨ha.1, ?_, by rw [hinst]⟩, .inr ⟨l, o, rfl⟩⟩
    rw [hinst]
    exact ha.2.nonempty
  case case5 l o _ _ _ hre =>
    have hsome : (rebuild hashKey g.ch l).isSome := rebuild_isSome ha.2.non_nil
    rw [hre] at hsome
    cases hsome
  case case7 l o _ r hlook =>
    obtain ⟨rfl, hne, hids⟩ := ha
    refine ⟨hr, ?_, .inl rfl⟩
    rintro key rfl hkey
    obtain ⟨inst, hinst, hchosen⟩ := lookup_chosen (hr.built hne).1 (hr.built hne).2 key
    have hk : pickKey (some ⟨key⟩) now = key := by simp [pickKey, hkey]
    rw [hk, hinst] at hlook
    cases hlook
    refine ⟨inst, rfl, ?_⟩
    rwa [hids] at hchosen
  case case8 l o _ hlook =>
    obtain ⟨rfl, hne, -⟩ := ha
    obtain ⟨inst, hinst, -⟩ := lookup_chosen (hr.built hne).1 (hr.built hne).2 (pickKey o now)
    rw [hlook] at hinst
    cases hinst

end Calls

/-! ## Whole histories -/

section Histories
variable {hashKey : String → UInt32} {calls : List Call} {s t : Config Shared Pc}
  {tr : List (Nat × Int)} {i : Nat} {now : Int}

structure Sound (hashKey : String → UInt32) (calls : List Call) (s : Config Shared Pc) : Prop where
  ring : Ring hashKey defaultVirtualNodes s.shared.ch
  answers : ∀ (i : Nat) pc, s.threads[i]? = some pc → ∃ opts,
    calls[i]? = some (pc.passed, opts) ∧
    Answers hashKey defaultVirtualNodes s.shared.ch opts pc

theorem start_sound (h : ∀ c ∈ calls, Listed c.1) : Sound hashKey calls (start calls) := by
  refine ⟨⟨rfl, fun hne => absurd rfl hne, fun hne => absurd rfl hne⟩, ?_⟩
  intro i pc hi
  simp only [start, List.getElem?_map, Option.map_eq_some_iff] at hi
  obtain ⟨c, hc, rfl⟩ := hi
  exact ⟨c.2, hc, rfl, h c (List.mem_of_getElem? hc)⟩

theorem fire_sound (hS : Sound hashKey calls s) (hok : Alone s i now)
    (h : (balancer hashKey).fire s i now = some t) : Sound hashKey calls t := by
  obtain ⟨pc, g', pc', hpc, hstep, rfl⟩ := fire_pick h
  obtain ⟨opts, hcall, ha⟩ := hS.answers i pc hpc
  obtain ⟨hring, ha', htouch⟩ := pickStep_answers (by decide) hS.ring ha hstep
  refine ⟨hring, fun j q hq => ?_⟩
  by_cases hij : i = j
  · subst hij
    obtain ⟨hlt, -⟩ := List.getElem?_eq_some_iff.mp hpc
    rw [List.getElem?_set_self hlt, Option.some.injEq] at hq
    subst hq
    exact ⟨opts, by rw [pickStep_passed hstep, hcall], ha'⟩
  rw [List.getElem?_set_ne hij] at hq
  obtain ⟨opts', hcall', hq'⟩ := hS.answers j q hq
  refine ⟨opts', hcall', ?_⟩
  rcases htouch with heq | ⟨l, o, rfl⟩
  · rwa [heq]
  -- the ring was replaced by a call that began, so no other call is in between
  · cases q with
    | between l' o' =>
      simp only [Alone, alone, hpc, List.all_eq_true] at hok
      exact absurd (hok _ (List.mem_of_getElem? hq)) (by simp [outside])
    | _ => exact hq'

theorem run_sound (hcalls : ∀ c ∈ calls, Listed c.1)
    (h : Run (balancer hashKey) Alone (start calls) tr s) : Sound hashKey calls s :=
  h.invariant (start_sound hcalls) fun _ _ _ _ hs ho hf => fire_sound hs ho hf

end Histories

/-- Two histories of calls that do not overlap, and a call in each for the same
key and the same set of IDs: both pick the same ID, in whatever order the lists
are and whatever was called before. -/
theorem pick_by_ids {hashKey : String → UInt32} {calls calls' : List Call}
    {tr tr' : List (Nat × Int)} {s s' : Config Shared Pc} {i i' : Nat} {l l' : Instances}
    {key : String} {r r' : Except PickError (Option ServiceInstance)}
    (hcalls : ∀ c ∈ calls, Listed c.1) (hcalls' : ∀ c ∈ calls', Listed c.1)
    (h : Run (balancer hashKey) Alone (start calls) tr s)
    (h' : Run (balancer hashKey) Alone (start calls') tr' s')
    (hi : calls[i]? = some (l, some ⟨key⟩)) (hi' : calls'[i']? = some (l', some ⟨key⟩))
    (hr : s.threads[i]? = some (.returned l r)) (hr' : s'.threads[i']? = some (.returned l' r'))
    (hkey : key ≠ "") (hids : idSet l = idSet l')
    (hfree : CollisionFree hashKey defaultVirtualNodes (idSet l)) :
    ∃ inst inst', r = .ok (some inst) ∧ r' = .ok (some inst') ∧ inst.id = inst'.id := by
  obtain ⟨opts, hopts, ha⟩ := (run_sound hcalls h).answers i _ hr
  obtain ⟨opts', hopts', ha'⟩ := (run_sound hcalls' h').answers i' _ hr'
  rw [hi] at hopts
  rw [hi'] at hopts'
  cases hopts
  cases hopts'
  obtain ⟨inst, hinst, hchosen⟩ := ha key rfl hkey
  obtain ⟨inst', hinst', hchosen'⟩ := ha' key rfl hkey
  rw [← hids] at hchosen'
  exact ⟨inst, inst', hinst, hinst', hchosen.unique hfree hchosen'⟩

/-- A hash that numbers the virtual nodes of a list. -/
def numbered (keys : List String) (key : String) : UInt32 := UInt32.ofNat (keys.idxOf key)

def userKeys : List String :=
  (ids users).flatMap fun id => (List.range defaultVirtualNodes).map (virtualKey id)

theorem numbered_collisionFree :
    CollisionFree (numbered userKeys) defaultVirtualNodes (idSet users) := by
  have hmem : ∀ id ∈ idSet users, ∀ i < defaultVirtualNodes, virtualKey id i ∈ userKeys :=
    fun id hid i hi => List.mem_flatMap.mpr
      ⟨id, hid, List.mem_map.mpr ⟨i, List.mem_range.mpr hi, rfl⟩⟩
  have hlen : userKeys.length = 300 := by simp [userKeys, ids, users, defaultVirtualNodes]
  have hsmall : ∀ key ∈ userKeys, (numbered userKeys key).toNat = userKeys.idxOf key := by
    intro key hkey
    have := List.idxOf_lt_length_of_mem hkey
    exact UInt32.toNat_ofNat_of_lt (by simp only [UInt32.size]; omega)
  intro id hid id' hid' i hi j hj heq
  have h := hmem id hid i hi
  have hnat := congrArg UInt32.toNat heq
  rw [hsmall _ h, hsmall _ (hmem id' hid' j hj)] at hnat
  exact (List.idxOf_inj h).mp hnat

/-- A call that begins while no other is in progress may run to its end. -/
theorem pickWithOptions_alone {hashKey : String → UInt32} {ch ch' : ConsistentHash}
    {l : Instances} {opts : Option PickOptions} {now : Int}
    {r : Except PickError (Option ServiceInstance)} (ts : List Pc) (i : Nat)
    (h : pickWithOptions hashKey ch l opts now = some (ch', r))
    (hi : ts[i]? = some (.called l opts)) (hts : ts.all outside = true) :
    ∃ tr, Run (balancer hashKey) Alone ⟨⟨ch, false⟩, ts⟩ tr
      ⟨⟨ch', false⟩, ts.set i (.returned l r)⟩ := by
  apply pickWithOptions_run h hi
  · simp only [Alone, alone, hi, hts]
  · obtain ⟨hlt, -⟩ := List.getElem?_eq_some_iff.mp hi
    simp only [Alone, alone, List.getElem?_set_self hlt]

/-- A new balancer on the two users, and one that has served a shorter list
before and gets them the other way round. -/
theorem pick_by_ids_users :
    ∃ tr tr' s s' r r',
      Run (balancer (numbered userKeys)) Alone (start [(users, some ⟨"alice"⟩)]) tr s ∧
      Run (balancer (numbered userKeys)) Alone
        (start [(usersLeft, none), (users.reverse, some ⟨"alice"⟩)]) tr' s' ∧
      s.threads[0]? = some (.returned users r) ∧
      s'.threads[1]? = some (.returned users.reverse r') ∧
      ∃ inst inst', r = .ok (some inst) ∧ r' = .ok (some inst') ∧ inst.id = inst'.id := by
  have husers : Listed users := ⟨by decide, by decide, by decide⟩
  have hleft : Listed usersLeft := ⟨by decide, by decide, by decide⟩
  have hback : Listed users.reverse := ⟨by decide, by decide, by decide⟩
  obtain ⟨_, p, hpick, -, -⟩ := pick_next husers
    (show 0 < newConsistentHash.virtualNodes by decide)
    (newConsistentHash_current (numbered userKeys) users)
    (some ⟨"alice"⟩) 0
  obtain ⟨tr, hrun⟩ := pickWithOptions_alone [.called users (some ⟨"alice"⟩)] 0
    hpick rfl rfl
  obtain ⟨ch, q, hfirst, hre, -⟩ := pick_next hleft
    (show 0 < newConsistentHash.virtualNodes by decide)
    (newConsistentHash_current (numbered userKeys) usersLeft) none 0
  have hch := rebuild_rebuilt hre
  have hother : Current (numbered userKeys) ch users.reverse := by
    intro hsame
    simp [isSameInstances, hch.instances_eq, usersLeft, users] at hsame
  obtain ⟨_, q', hsecond, -, -⟩ := pick_next hback
    (by rw [hch.virtualNodes_eq]; decide) hother (some ⟨"alice"⟩) 0
  obtain ⟨tr₁, hrun₁⟩ := pickWithOptions_alone
    [.called usersLeft none, .called users.reverse (some ⟨"alice"⟩)] 0
    hfirst rfl rfl
  obtain ⟨tr₂, hrun₂⟩ := pickWithOptions_alone
    [.returned usersLeft _, .called users.reverse (some ⟨"alice"⟩)] 1
    hsecond rfl rfl
  have hcall : ([(users, some ⟨"alice"⟩)] : List Call)[0]? = some (users, some ⟨"alice"⟩) := rfl
  have hcall' : ([(usersLeft, none), (users.reverse, some ⟨"alice"⟩)] : List Call)[1]? =
      some (users.reverse, some ⟨"alice"⟩) := rfl
  refine ⟨tr, _, _, _, _, _, hrun, hrun₁.trans hrun₂, rfl, rfl, ?_⟩
  refine pick_by_ids ?_ ?_ hrun (hrun₁.trans hrun₂) hcall hcall' rfl rfl (by decide) ?_
    numbered_collisionFree
  · simpa using husers
  · simp [hleft, hback]
  · exact Set.ext fun id => by simp [idSet, ids]

end RpcInGo.Balancer.Affinity
