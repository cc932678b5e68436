import RpcInGo.Balancer.HashRing
import RpcInGo.Lib.Goroutine

/-!
Concurrent `PickWithOptions` calls on one consistent-hash balancer. A call
takes two atomic steps: under the write lock it compares its list with the
remembered one and rebuilds the ring if they differ; under the read lock it
looks its key up. Between the two it holds no lock.

* `pick_own_instance`: as long as no call rebuilds the ring with instances that
  a call between its two sections did not pass, every call returns an instance
  whose ID is in its own list;
* `pick_foreign_instance`: without that condition a call returns an instance
  that it did not pass, whatever the hash function.
-/

namespace RpcInGo.Balancer.ConcurrentPick
open Lib.Goroutine Registry.Instance HashRing

inductive PickError
  | noInstances
  deriving DecidableEq, Repr

/-- The balancer, and whether its mutex is held for good by a call that
panicked in the write-locked section (which has no deferred unlock). -/
structure Shared where
  ch : ConsistentHash
  held : Bool

/-- Where a call stands; every point keeps the list that was passed. -/
inductive Pc
  | called (instances : Instances) (opts : Option PickOptions)
  | between (instances : Instances) (opts : Option PickOptions)
  | returned (instances : Instances) (r : Except PickError (Option ServiceInstance))
  | panicked (instances : Instances)
  deriving DecidableEq

def Pc.passed : Pc → Instances
  | .called l _ | .between l _ | .returned l _ | .panicked l => l

/-- One section of `PickWithOptions`; `now` is the clock in nanoseconds. -/
def pickStep (hashKey : String → UInt32) (g : Shared) : Pc → Int → Option (Shared × Pc)
  | .called instances opts, _ =>
    if instances.length = 0 then some (g, .returned instances (.error .noInstances))
    else if g.held then none
    else if isSameInstances g.ch instances then some (g, .between instances opts)
    else
      match rebuild hashKey g.ch instances with
      | some ch => some (⟨ch, false⟩, .between instances opts)
      | none => some (⟨g.ch, true⟩, .panicked instances)
  | .between instances opts, now =>
    if g.held then none
    else
      match lookup hashKey g.ch (pickKey opts now) with
      | some r => some (g, .returned instances (.ok r))
      -- the read lock is released by the deferred unlock
      | none => some (g, .panicked instances)
  | .returned _ _, _ => none
  | .panicked _, _ => none

def balancer (hashKey : String → UInt32) : Program Shared Pc Int where
  step g pc now := (pickStep hashKey g pc now).map fun r => (r.1, r.2, [])

abbrev Call := Instances × Option PickOptions

/-- A new balancer and calls that have not started. -/
def start (calls : List Call) : Config Shared Pc :=
  ⟨⟨newConsistentHash, false⟩, calls.map fun c => .called c.1 c.2⟩

/-- A non-empty list of instances with pairwise distinct IDs. -/
structure Listed (instances : Instances) : Prop where
  nonempty : instances ≠ []
  non_nil : none ∉ instances
  distinct : (ids instances).Nodup

def allows (instances : Instances) : Pc → Bool
  | .between l _ => (ids instances).all (ids l).contains
  | _ => true

/-- A call replaces the ring only by instances that every call between its two
sections has passed too. -/
def undisturbed (s : Config Shared Pc) (i : Nat) : Bool :=
  match s.threads[i]? with
  | some (.called l _) => isSameInstances s.shared.ch l || s.threads.all (allows l)
  | _ => true

def Undisturbed (s : Config Shared Pc) (i : Nat) (_ : Int) : Prop := undisturbed s i = true

instance (s : Config Shared Pc) (i : Nat) (now : Int) : Decidable (Undisturbed s i now) :=
  inferInstanceAs (Decidable (undisturbed s i = true))

/-! ## One section -/

section Sections
variable {hashKey : String → UInt32} {g g' : Shared} {pc pc' : Pc} {now : Int}

/-- The ring belongs to the remembered list. -/
structure Consistent (ch : ConsistentHash) : Prop where
  covers : Covers ch.instances ch
  filled : ch.instances ≠ [] → ch.hashRing ≠ []
  nodes_pos : 0 < ch.virtualNodes

theorem newConsistentHash_consistent : Consistent newConsistentHash :=
  ⟨⟨by simp [newConsistentHash], by simp [newConsistentHash]⟩, fun h => absurd rfl h, by decide⟩

theorem rebuild_consistent {ch ch' : ConsistentHash} {instances : Instances} (hc : Consistent ch)
    (h : rebuild hashKey ch instances = some ch') : Consistent ch' := by
  have hr := rebuild_rebuilt h
  refine ⟨?_, ?_, ?_⟩
  · rw [hr.instances_eq]
    exact hr.covers
  · intro hne
    rw [hr.instances_eq] at hne
    apply List.ne_nil_of_length_pos
    rw [hr.length_eq]
    exact Nat.mul_pos (List.length_pos_of_ne_nil hne) hc.nodes_pos
  · rw [hr.virtualNodes_eq]
    exact hc.nodes_pos

theorem ids_subset_of_isSameInstances {ch : ConsistentHash} {instances : Instances}
    (h : isSameInstances ch instances = true) :
    ch.instances ≠ [] ∧ ids ch.instances ⊆ ids instances := by
  unfold isSameInstances at h
  split at h
  · cases h
  rename_i hne
  split at h
  · cases h
  split at h
  · cases h
  refine ⟨by simpa using hne, fun id hid => ?_⟩
  obtain ⟨inst, hmem, hinst⟩ := List.mem_filterMap.mp hid
  have hin := List.all_eq_true.mp h inst hmem
  cases inst with
  | none => cases hin
  | some inst =>
    cases hinst
    simpa using hin

/-- What holds of a call at each point: between its sections, the ring then
present has only IDs of its own list. -/
def Good (ch : ConsistentHash) : Pc → Prop
  | .called l _ => Listed l
  | .between l _ => ch.instances ≠ [] ∧ ids ch.instances ⊆ ids l
  | .returned l r => ∃ inst, r = .ok (some inst) ∧ inst.id ∈ ids l
  | .panicked _ => False

/-- What a step of a call does to the balancer. -/
inductive Touches (ch : ConsistentHash) (pc : Pc) (ch' : ConsistentHash) : Prop
  | kept : ch' = ch → Touches ch pc ch'
  | rebuilt {l opts} : pc = .called l opts → isSameInstances ch l = false → l ≠ [] →
      ch'.instances = l → Touches ch pc ch'

theorem pickStep_passed (h : pickStep hashKey g pc now = some (g', pc')) :
    pc'.passed = pc.passed := by
  revert h
  fun_cases pickStep hashKey g pc now <;> intro h <;> cases h <;> rfl

theorem pickStep_good (hc : Consistent g.ch) (hg : Good g.ch pc)
    (h : pickStep hashKey g pc now = some (g', pc')) :
    Consistent g'.ch ∧ Good g'.ch pc' ∧ Touches g.ch pc g'.ch := by
  revert h
  fun_cases pickStep hashKey g pc now <;> intro h <;> cases h
  case case1 l opts hl => exact absurd (List.eq_nil_of_length_eq_zero hl) hg.nonempty
  case case3 l opts _ _ hsame => exact ⟨hc, ids_subset_of_isSameInstances hsame, .kept rfl⟩
  case case4 l opts hl _ hsame ch hre =>
    have hr := rebuild_rebuilt hre
    refine ⟨rebuild_consistent hc hre, ⟨?_, ?_⟩,
      .rebuilt rfl (by simpa using hsame) ?_ hr.instances_eq⟩
    · rw [hr.instances_eq]
      exact hg.nonempty
    · rw [hr.instances_eq]
      exact List.Subset.refl _
    · exact hg.nonempty
  case case5 l opts _ _ _ hre =>
    have hsome : (rebuild hashKey g.ch l).isSome := rebuild_isSome hg.non_nil
    rw [hre] at hsome
    cases hsome
  case case7 l opts _ r hlook =>
    obtain ⟨inst, hinst, hmem⟩ := lookup_mem hc.covers (hc.filled hg.1) (pickKey opts now)
    rw [hlook] at hinst
    cases hinst
    exact ⟨hc, ⟨inst, rfl, hg.2 (id_mem_ids hmem)⟩, .kept rfl⟩
  case case8 l opts _ hlook =>
    obtain ⟨inst, hinst, -⟩ := lookup_mem hc.covers (hc.filled hg.1) (pickKey opts now)
    rw [hlook] at hinst
    cases hinst

/-- The other calls stand as well as before when they allow the list. -/
theorem Good.touched {ch ch' : ConsistentHash} {p : Pc} (hp : Good ch p)
    (ht : Touches ch pc ch') (hok : ∀ l opts, pc = .called l opts →
      isSameInstances ch l = false → allows l p = true) : Good ch' p := by
  cases ht with
  | kept heq => rwa [heq]
  | rebuilt hpc hsame hne hinst =>
    have hallow := hok _ _ hpc hsame
    cases p with
    | between l' _ =>
      rw [allows, List.all_eq_true] at hallow
      refine ⟨by rwa [hinst], fun id hid => ?_⟩
      rw [hinst] at hid
      simpa using hallow id hid
    | _ => exact hp

end Sections

/-! ## Whole runs -/

section Runs
variable {hashKey : String → UInt32} {calls : List Call} {s t : Config Shared Pc}
  {tr : List (Nat × Int)} {i : Nat} {now : Int}

structure Inv (calls : List Call) (s : Config Shared Pc) : Prop where
  consistent : Consistent s.shared.ch
  good : ∀ p ∈ s.threads, Good s.shared.ch p
  passed : s.threads.map Pc.passed = calls.map Prod.fst

theorem fire_pick (h : (balancer hashKey).fire s i now = some t) :
    ∃ pc g' pc', s.threads[i]? = some pc ∧ pickStep hashKey s.shared pc now = some (g', pc') ∧
      t = ⟨g', s.threads.set i pc'⟩ :=
  fire_alone (fun _ _ _ => rfl) h

theorem start_inv (h : ∀ c ∈ calls, Listed c.1) : Inv calls (start calls) := by
  refine ⟨newConsistentHash_consistent, ?_, ?_⟩
  · intro p hp
    obtain ⟨c, hc, rfl⟩ := List.mem_map.mp hp
    exact h c hc
  · simp [start, Pc.passed, Function.comp_def]

theorem fire_inv (hI : Inv calls s) (hok : Undisturbed s i now)
    (h : (balancer hashKey).fire s i now = some t) : Inv calls t := by
  obtain ⟨pc, g', pc', hpc, hstep, rfl⟩ := fire_pick h
  obtain ⟨hc, hg, ht⟩ := pickStep_good hI.consistent (hI.good pc (List.mem_of_getElem? hpc)) hstep
  have hallow : ∀ l opts, pc = .called l opts → isSameInstances s.shared.ch l = false →
      ∀ p ∈ s.threads, allows l p = true := by
    rintro l opts rfl hsame
    unfold Undisturbed undisturbed at hok
    rw [hpc] at hok
    simpa [hsame] using hok
  refine ⟨hc, ?_, ?_⟩
  · intro p hp
    rcases List.mem_or_eq_of_mem_set hp with hp | rfl
    · exact (hI.good p hp).touched ht fun l opts heq hsame => hallow l opts heq hsame p hp
    · exact hg
  · exact (map_set_same hpc (pickStep_passed hstep)).trans hI.passed

/-- If a call replaces the ring only by instances that every call between its
two sections passed as well, a call returns an instance whose ID is in the list
it passed, and no call panics. -/
theorem pick_own_instance (hcalls : ∀ c ∈ calls, Listed c.1)
    (h : Run (balancer hashKey) Undisturbed (start calls) tr s) :
    (∀ (i : Nat) l r, s.threads[i]? = some (.returned l r) →
      ∃ (opts : Option PickOptions) (inst : ServiceInstance),
        calls[i]? = some (l, opts) ∧ r = .ok (some inst) ∧ inst.id ∈ ids l) ∧
    ∀ l, Pc.panicked l ∉ s.threads := by
  have hI : Inv calls s := h.invariant (start_inv hcalls) fun _ _ _ _ hs ho hf => fire_inv hs ho hf
  constructor
  · intro i l r hi
    obtain ⟨inst, hr, hmem⟩ := hI.good _ (List.mem_of_getElem? hi)
    have hpassed : (calls.map Prod.fst)[i]? = some l := by
      rw [← hI.passed, List.getElem?_map, hi]
      rfl
    rw [List.getElem?_map] at hpassed
    obtain ⟨⟨l', opts⟩, hcall, rfl⟩ := Option.map_eq_some_iff.mp hpassed
    exact ⟨opts, inst, hcall, hr, hmem⟩
  · intro l hl
    exact hI.good _ hl

end Runs

def anInstance (id service : String) : ServiceInstance :=
  ⟨id, service, "v1", "127.0.0.1", 8080, [], 100, .up⟩

def users : Instances := [some (anInstance "users-1" "users"), some (anInstance "users-2" "users")]

def usersLeft : Instances := [some (anInstance "users-2" "users")]

/-- While the first call is between its sections, a second call that no longer
sees one of the instances rebuilds the ring. -/
def instanceLeaves : List (Nat × Int) := [(0, 0), (1, 0), (0, 1), (1, 2)]

def twoPicks : List Call := [(users, none), (usersLeft, some ⟨"alice"⟩)]

theorem instanceLeaves_runs :
    (exec (balancer fun _ => 0) Undisturbed (start twoPicks) instanceLeaves).isSome := by
  decide +kernel

theorem pick_own_instance_instanceLeaves :
    let s := (exec (balancer fun _ => 0) Undisturbed (start twoPicks) instanceLeaves).get
      instanceLeaves_runs
    s.threads[0]? = some (.returned users (.ok (some (anInstance "users-2" "users")))) ∧
    "users-2" ∈ ids users := by
  have hlisted : ∀ c ∈ twoPicks, Listed c.1 := by
    intro c hc
    rcases List.mem_pair.mp hc with rfl | rfl
    · exact ⟨by decide, by decide, by decide⟩
    · exact ⟨by decide, by decide, by decide⟩
  have hfirst : (((exec (balancer fun _ => 0) Undisturbed (start twoPicks) instanceLeaves).get
      instanceLeaves_runs).threads[0]?) =
        some (.returned users (.ok (some (anInstance "users-2" "users")))) := by
    decide +kernel
  obtain ⟨-, inst, -, hinst, hmem⟩ :=
    (pick_own_instance hlisted (run_exec instanceLeaves_runs)).1 0 _ _ hfirst
  cases hinst
  exact ⟨hfirst, hmem⟩

def orders : Instances := [some (anInstance "orders-1" "orders")]

def twoServices : List Call := [(users, none), (orders, none)]

theorem fire_of_pickStep {hashKey : String → UInt32} {g g' : Shared} {ts : List Pc} {i : Nat}
    {pc pc' : Pc} {now : Int} (hpc : ts[i]? = some pc)
    (h : pickStep hashKey g pc now = some (g', pc')) :
    (balancer hashKey).fire ⟨g, ts⟩ i now = some ⟨g', ts.set i pc'⟩ := by
  simp [Program.fire, balancer, hpc, h]

theorem pickStep_rebuild {hashKey : String → UInt32} {ch ch' : ConsistentHash} {l : Instances}
    {opts : Option PickOptions} {now : Int} (hne : l ≠ []) (hsame : isSameInstances ch l = false)
    (hre : rebuild hashKey ch l = some ch') :
    pickStep hashKey ⟨ch, false⟩ (.called l opts) now = some (⟨ch', false⟩, .between l opts) := by
  simp [pickStep, hne, hsame, hre]

/-- Two calls for different services: the second rebuilds the ring while the
first is between its sections, and the first returns an instance of the other
service. -/
theorem pick_foreign_instance :
    ¬ ∃ hashKey : String → UInt32, ∀ (calls : List Call) (tr : List (Nat × Int))
      (s : Config Shared Pc), (∀ c ∈ calls, Listed c.1) →
      Run (balancer hashKey) Any (start calls) tr s → ∀ l inst,
      .returned l (.ok (some inst)) ∈ s.threads → inst.id ∈ ids l := by
  rintro ⟨hashKey, h⟩
  have husers : Listed users := ⟨by decide, by decide, by decide⟩
  have horders : Listed orders := ⟨by decide, by decide, by decide⟩
  obtain ⟨ch, hre⟩ := Option.isSome_iff_exists.mp
    (rebuild_isSome husers.non_nil : (rebuild hashKey newConsistentHash users).isSome)
  obtain ⟨ch', hre'⟩ := Option.isSome_iff_exists.mp
    (rebuild_isSome horders.non_nil : (rebuild hashKey ch orders).isSome)
  have hc' := rebuild_consistent (rebuild_consistent newConsistentHash_consistent hre) hre'
  have hinst' := (rebuild_rebuilt hre').instances_eq
  have hother : isSameInstances ch orders = false := by
    rw [Bool.eq_false_iff]
    intro hsame
    have hsub := (ids_subset_of_isSameInstances hsame).2
    rw [(rebuild_rebuilt hre).instances_eq] at hsub
    exact absurd hsub (by decide)
  obtain ⟨inst, hlook, hmem⟩ : ∃ inst, lookup hashKey ch' (pickKey none 0) = some (some inst) ∧
      some inst ∈ ch'.instances :=
    lookup_mem hc'.covers (hc'.filled (by rw [hinst']; exact horders.nonempty)) _
  have hfirst : Run (balancer hashKey) Any (start twoServices) [(0, 0)]
      ⟨⟨ch, false⟩, [.between users none, .called orders none]⟩ :=
    Run.refl.step trivial (fire_of_pickStep rfl (pickStep_rebuild husers.nonempty rfl hre))
  have hsecond := hfirst.step (i := 1) (e := 0) trivial
    (fire_of_pickStep rfl (pickStep_rebuild horders.nonempty hother hre'))
  have hlast := hsecond.step (i := 0) (e := 0) (u := ⟨⟨ch', false⟩,
      [.returned users (.ok (some inst)), .between orders none]⟩) trivial
    (fire_of_pickStep rfl (by simp [pickStep, hlook]))
  have hbad := h twoServices _ _ (by simp [twoServices, husers, horders]) hlast users inst (by simp)
  rw [hinst'] at hmem
  obtain rfl : inst = anInstance "orders-1" "orders" := by simpa [orders] using hmem
  exact absurd hbad (by decide)

end RpcInGo.Balancer.ConcurrentPick
