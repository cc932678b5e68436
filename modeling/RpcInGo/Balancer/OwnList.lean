import RpcInGo.Balancer.RoundRobin
import RpcInGo.Balancer.Stability
import RpcInGo.Balancer.Weighted

/-!
Whether a pick comes from the list it was given. Two of the four balancers keep the list
of an earlier call: the weighted one as long as IDs and weights are the same, the
consistent-hash one as long as the set of IDs is. They return an entry of the list they
keep, whatever else may have changed about the instance since.

* `weighted_remembered`, `consistentHash_remembered`: where a pick comes from;
* `own_list`: it is an element of the list passed, if the kept list has no other ones;
* `changed_returned`, `not_staysInList`: otherwise an instance that the caller no longer
  lists comes back.
-/

namespace RpcInGo.Balancer.OwnList
open Lib.Calls Lib.Cycle Registry.Instance RoundRobin HashRing ConcurrentPick Stability Weighted

/-! ## The balancers -/

/-- A call of `Pick` or `PickWithOptions`, with what the clock and the random numbers
contribute to it. -/
structure PickCall where
  instances : List ServiceInstance
  opts : Option PickOptions
  now : Int
  draw : Nat

/-- `Random.Pick`; `draw % n` stands for `Intn(n)`. -/
def randomPick (draw : Nat) (instances : List ServiceInstance) :
    Option (Except PickError ServiceInstance) :=
  if instances.length = 0 then some (.error .noInstances)
  else
    match instances[draw % instances.length]? with
    | none => none
    | some inst => some (.ok inst)

inductive LoadBalancer where
  | roundRobin (rb : RoundRobinBalancer)
  | random
  | weighted (wrr : WeightedRoundRobin)
  | consistentHash (ch : ConsistentHash)

inductive Kind where
  | roundRobin
  | random
  | weighted
  | consistentHash
  deriving DecidableEq, Repr

def newBalancer : Kind → LoadBalancer
  | .roundRobin => .roundRobin newRoundRobin
  | .random => .random
  | .weighted => .weighted newWeightedRoundRobin
  | .consistentHash => .consistentHash newConsistentHash

/-- What a call returns; a nil pointer without an error is `picked none`. -/
inductive Outcome where
  | failed
  | picked (inst : Option ServiceInstance)
  deriving DecidableEq

def outcome {ε : Type} : Except ε ServiceInstance → Outcome
  | .error _ => .failed
  | .ok inst => .picked (some inst)

def hashOutcome : Except PickError (Option ServiceInstance) → Outcome
  | .error _ => .failed
  | .ok inst => .picked inst

def LoadBalancer.pick (hashKey : String → UInt32) (b : LoadBalancer) (c : PickCall) :
    Option (Outcome × LoadBalancer) :=
  match b with
  | .roundRobin rb => (rb.pick c.instances).map fun r => (outcome r.1, .roundRobin r.2)
  | .random => (randomPick c.draw c.instances).map fun r => (outcome r, .random)
  | .weighted wrr => (wrr.pick c.instances).map fun r => (outcome r.1, .weighted r.2)
  | .consistentHash ch =>
    (pickWithOptions hashKey ch (c.instances.map some) c.opts c.now).map fun r =>
      (hashOutcome r.2, .consistentHash r.1)

/-- Some instances, with pairwise distinct IDs. -/
structure Lists (c : PickCall) : Prop where
  nonempty : c.instances ≠ []
  distinct : (c.instances.map (·.id)).Nodup

/-- When the balancer takes a list for the one it keeps, all instances that it keeps are
in the list. -/
def unchanged (b : LoadBalancer) (instances : List ServiceInstance) : Bool :=
  match b with
  | .weighted wrr => !wrr.isSameInstances instances || wrr.instances.all (instances.contains ·)
  | .consistentHash ch => !isSameInstances ch (instances.map some) ||
      ch.instances.all ((instances.map some).contains ·)
  | _ => true

def Unchanged (b : LoadBalancer) (c : PickCall) : Prop := Lists c ∧ unchanged b c.instances = true

/-! ## Where a pick comes from -/

section Picks
variable {l : List ServiceInstance}

theorem mem_expand {x : ServiceInstance} : x ∈ expand l ↔ x ∈ l := by
  simp only [expand, List.mem_flatMap, List.mem_replicate]
  constructor
  · rintro ⟨y, hy, -, rfl⟩
    exact hy
  · intro hx
    exact ⟨x, hx, (effectiveWeight_pos x).ne', rfl⟩

theorem weighted_remembered {wrr : WeightedRoundRobin} (hs : Scheduled wrr) (hne : l ≠ []) :
    ∃ inst wrr', wrr.pick l = some (.ok inst, wrr') ∧ inst ∈ (wrr.prepare l).instances := by
  obtain ⟨inst, hinst, hpick⟩ := pick_scheduled hs hne
  exact ⟨inst, _, hpick, mem_expand.mp (List.mem_of_getElem? hinst)⟩

theorem not_none_mem_some : none ∉ l.map some := by
  intro h
  obtain ⟨x, -, hx⟩ := List.mem_map.mp h
  cases hx

theorem prepare_consistent (hashKey : String → UInt32) {ch : ConsistentHash}
    (hc : Consistent ch) (hne : l ≠ []) :
    ∃ ch', prepare hashKey ch (l.map some) = some ch' ∧ Consistent ch' ∧ ch'.instances ≠ [] := by
  unfold prepare
  split
  · rename_i hsame
    exact ⟨ch, rfl, hc, (ids_subset_of_isSameInstances hsame).1⟩
  · obtain ⟨ch', hre⟩ := Option.isSome_iff_exists.mp
      (rebuild_isSome not_none_mem_some : (rebuild hashKey ch (l.map some)).isSome)
    refine ⟨ch', hre, rebuild_consistent hc hre, ?_⟩
    rw [(rebuild_rebuilt hre).instances_eq]
    exact fun hnil => hne (List.map_eq_nil_iff.mp hnil)

theorem consistentHash_remembered (hashKey : String → UInt32) {ch : ConsistentHash}
    (hc : Consistent ch) (hne : l ≠ []) (opts : Option PickOptions) (now : Int) :
    ∃ inst ch', pickWithOptions hashKey ch (l.map some) opts now = some (ch', .ok (some inst)) ∧
      prepare hashKey ch (l.map some) = some ch' ∧ some inst ∈ ch'.instances := by
  obtain ⟨ch', hprep, hc', hfull⟩ := prepare_consistent hashKey hc hne
  obtain ⟨inst, hlook, hmem⟩ : ∃ inst, lookup hashKey ch' (pickKey opts now) = some (some inst) ∧
      some inst ∈ ch'.instances := lookup_mem hc'.covers (hc'.filled hfull) _
  have hlen : (l.map some).length ≠ 0 := by
    rw [List.length_map]
    exact fun h => hne (List.eq_nil_of_length_eq_zero h)
  refine ⟨inst, ch', ?_, hprep, hmem⟩
  simp only [pickWithOptions, if_neg hlen, hprep, hlook, Option.map_some]

theorem roundRobin_pick (rb : RoundRobinBalancer) (hne : l ≠ []) :
    ∃ inst rb', rb.pick l = some (.ok inst, rb') ∧ inst ∈ l := by
  have hpos : 0 < l.length := List.length_pos_of_ne_nil hne
  have hlt : (rb.index + 1).toNat % l.length < l.length := Nat.mod_lt _ hpos
  refine ⟨l[(rb.index + 1).toNat % l.length], ⟨rb.index + 1⟩, ?_, List.getElem_mem hlt⟩
  simp only [RoundRobinBalancer.pick, if_neg hpos.ne', List.getElem?_eq_getElem hlt]

theorem randomPick_mem (draw : Nat) (hne : l ≠ []) :
    ∃ inst, randomPick draw l = some (.ok inst) ∧ inst ∈ l := by
  have hpos : 0 < l.length := List.length_pos_of_ne_nil hne
  have hlt : draw % l.length < l.length := Nat.mod_lt _ hpos
  refine ⟨l[draw % l.length], ?_, List.getElem_mem hlt⟩
  simp only [randomPick, if_neg hpos.ne', List.getElem?_eq_getElem hlt]

end Picks

/-! ## Sequences of calls -/

/-- What holds of a balancer between calls. -/
def Sound : LoadBalancer → Prop
  | .weighted wrr => Scheduled wrr
  | .consistentHash ch => Consistent ch
  | _ => True

theorem newBalancer_sound (k : Kind) : Sound (newBalancer k) := by
  cases k with
  | roundRobin => trivial
  | random => trivial
  | weighted => exact new_scheduled
  | consistentHash => exact newConsistentHash_consistent

/-- One call that lists instances succeeds, and it stays within its list when nothing has
changed unnoticed. -/
theorem pick_sound (hashKey : String → UInt32) {b : LoadBalancer} {c : PickCall} (hb : Sound b)
    (hne : c.instances ≠ []) :
    ∃ inst b', b.pick hashKey c = some (.picked (some inst), b') ∧ Sound b' ∧
      (unchanged b c.instances = true → inst ∈ c.instances) := by
  cases b with
  | roundRobin rb =>
    obtain ⟨inst, rb', hpick, hmem⟩ := roundRobin_pick rb hne
    exact ⟨inst, .roundRobin rb', by simp [LoadBalancer.pick, hpick, outcome], trivial,
      fun _ => hmem⟩
  | random =>
    obtain ⟨inst, hpick, hmem⟩ := randomPick_mem c.draw hne
    exact ⟨inst, .random, by simp [LoadBalancer.pick, hpick, outcome], trivial, fun _ => hmem⟩
  | weighted wrr =>
    obtain ⟨inst, wrr', hpick, hmem⟩ := weighted_remembered hb hne
    refine ⟨inst, .weighted wrr', by simp [LoadBalancer.pick, hpick, outcome], pick_keeps hb hpick,
      fun hun => ?_⟩
    unfold WeightedRoundRobin.prepare at hmem
    split at hmem
    · rename_i hsame
      simp only [unchanged, hsame, Bool.not_true, Bool.false_or, List.all_eq_true,
        List.contains_iff_mem] at hun
      exact hun inst hmem
    · exact hmem
  | consistentHash ch =>
    obtain ⟨inst, ch', hpick, hprep, hmem⟩ :=
      consistentHash_remembered hashKey hb hne c.opts c.now
    obtain ⟨ch'', hprep', hc', -⟩ := prepare_consistent hashKey hb hne
    obtain rfl := Option.some.inj (hprep.symm.trans hprep')
    refine ⟨inst, .consistentHash ch', by simp [LoadBalancer.pick, hpick, hashOutcome], hc',
      fun hun => ?_⟩
    unfold prepare at hprep
    split at hprep
    · rename_i hsame
      cases hprep
      simp only [unchanged, hsame, Bool.not_true, Bool.false_or, List.all_eq_true,
        List.contains_iff_mem] at hun
      simpa using hun _ hmem
    · rw [(rebuild_rebuilt hprep).instances_eq] at hmem
      simpa using hmem

theorem reached_sound {hashKey : String → UInt32} {k : Kind} {b : LoadBalancer}
    {ok : LoadBalancer → PickCall → Prop} (hok : ∀ b c, ok b c → Lists c)
    (h : Reached (LoadBalancer.pick hashKey) ok (newBalancer k) b) : Sound b := by
  refine h.invariant (newBalancer_sound k) fun b c r b' hb hc hpick => ?_
  obtain ⟨inst, b'', hpick', hb', -⟩ := pick_sound hashKey hb (hok b c hc).nonempty
  rw [hpick] at hpick'
  cases hpick'
  exact hb'

/-- In every sequence of calls on a balancer: a call that lists instances returns one of
them, if no list is taken for the kept one while an instance kept is not in it. The
round-robin and the random balancer keep no list. -/
theorem own_list {hashKey : String → UInt32} {k : Kind} {b : LoadBalancer} {c : PickCall}
    (h : Reached (LoadBalancer.pick hashKey) Unchanged (newBalancer k) b) (hc : Unchanged b c) :
    ∃ inst b', b.pick hashKey c = some (.picked (some inst), b') ∧ inst ∈ c.instances := by
  have hb := reached_sound (fun _ _ hc => hc.1) h
  obtain ⟨inst, b', hpick, -, hmem⟩ := pick_sound hashKey hb hc.1.nonempty
  exact ⟨inst, b', hpick, hmem hc.2⟩

def secondOnly : PickCall := ⟨[weighing "u2" 1], none, 0, 0⟩

/-- A list that the balancer does not take for the one of the call before. -/
theorem own_list_secondOnly :
    ∃ b, Reached (LoadBalancer.pick fun _ => 0) Unchanged (newBalancer .weighted) b ∧
      Unchanged b secondOnly ∧
      ∃ inst b', b.pick (fun _ => 0) secondOnly = some (.picked (some inst), b') ∧
        inst ∈ secondOnly.instances := by
  have hfirst : Unchanged (newBalancer .weighted) ⟨twoAndOne, none, 0, 0⟩ :=
    ⟨⟨by decide, by decide⟩, by decide⟩
  have hreach : Reached (LoadBalancer.pick fun _ => 0) Unchanged (newBalancer .weighted)
      (.weighted { Weighted.rebuild twoAndOne with current := 0 }) := .step .refl hfirst rfl
  have hsecond : Unchanged (.weighted { Weighted.rebuild twoAndOne with current := 0 })
      secondOnly := ⟨⟨by decide, by decide⟩, by decide⟩
  exact ⟨_, hreach, hsecond, own_list hreach hsecond⟩

/-- For the weighted balancer the condition cannot be weakened: an instance that it keeps
and that is not in the list comes back within one round of calls. -/
theorem changed_returned {wrr : WeightedRoundRobin} (hs : Scheduled wrr)
    {l : List ServiceInstance} (hsame : wrr.isSameInstances l = true) {x : ServiceInstance}
    (hx : x ∈ wrr.instances) :
    ∃ rs wrr', serve WeightedRoundRobin.pick wrr (List.replicate (totalWeight l) l) =
      some (rs, wrr') ∧ Except.ok x ∈ rs := by
  have hkeys := isSameInstances_iff.mp hsame
  have hne : wrr.instances ≠ [] := List.ne_nil_of_mem hx
  have hall : ∀ l' ∈ List.replicate (totalWeight l) l, l'.map key = wrr.instances.map key := by
    intro l' hl'
    rw [List.eq_of_mem_replicate hl', hkeys]
  obtain ⟨wrr', hserve, -, -⟩ := serve_same hs hne hall
  rw [List.length_replicate, totalWeight_of_keys hkeys, ← expand_length] at hserve
  refine ⟨_, wrr', by rw [totalWeight_of_keys hkeys, ← expand_length]; exact hserve, ?_⟩
  exact List.mem_map_of_mem ((visit_lap _ _).mem_iff.mpr (mem_expand.mpr hx))

/-! ## An instance that moves -/

/-- Every pick comes from the list of its own call, whatever was listed before. -/
def StaysInList (hashKey : String → UInt32) (k : Kind) : Prop :=
  ∀ b c r b', Reached (LoadBalancer.pick hashKey) (fun _ c => Lists c) (newBalancer k) b → Lists c →
    b.pick hashKey c = some (.picked r, b') → ∃ inst ∈ c.instances, r = some inst

def located (address : String) : ServiceInstance :=
  ⟨"u1", "users", "v1", address, 8080, [], 100, .up⟩

def listing (inst : ServiceInstance) : PickCall := ⟨[inst], none, 0, 0⟩

theorem listing_lists (inst : ServiceInstance) : Lists (listing inst) :=
  ⟨List.cons_ne_nil _ _, List.nodup_singleton _⟩

theorem located_ne : located "10.0.0.1" ≠ located "10.0.0.2" := by decide

/-- The one instance of the service gets a new address between two calls, and the second
call returns the old one. -/
theorem not_staysInList (hashKey : String → UInt32) :
    ¬ StaysInList hashKey .weighted ∧ ¬ StaysInList hashKey .consistentHash := by
  have hold := listing_lists (located "10.0.0.1")
  have hnew := listing_lists (located "10.0.0.2")
  constructor
  · intro h
    obtain ⟨inst, hinst, heq⟩ :=
      h _ _ _ _ (.step .refl hold rfl) hnew (rfl : (LoadBalancer.weighted _).pick hashKey _ = _)
    cases heq
    exact located_ne (List.mem_singleton.mp hinst)
  · intro h
    obtain ⟨x, ch, hfirst, hprep, -⟩ :=
      consistentHash_remembered hashKey newConsistentHash_consistent hold.nonempty none 0
    have hbuilt : HashRing.rebuild hashKey newConsistentHash [some (located "10.0.0.1")] =
      some ch := hprep
    have hkept : ch.instances = [some (located "10.0.0.1")] := (rebuild_rebuilt hbuilt).instances_eq
    have hc : Consistent ch := rebuild_consistent newConsistentHash_consistent hbuilt
    -- the second list has the ID that is kept
    have hsame : prepare hashKey ch [some (located "10.0.0.2")] = some ch :=
      if_pos (by rw [isSameInstances, hkept]; decide)
    obtain ⟨y, ch', hsecond, hprep', hy⟩ :=
      consistentHash_remembered hashKey hc hnew.nonempty none 0
    obtain rfl := Option.some.inj (hsame.symm.trans hprep')
    have hpick : (LoadBalancer.consistentHash ch).pick hashKey (listing (located "10.0.0.2")) =
        some (.picked (some y), .consistentHash ch) := by
      rw [LoadBalancer.pick]
      exact congrArg (Option.map _) hsecond
    have hstart : (newBalancer .consistentHash).pick hashKey (listing (located "10.0.0.1")) =
        some (.picked (some x), .consistentHash ch) := by
      rw [newBalancer, LoadBalancer.pick]
      exact congrArg (Option.map _) hfirst
    obtain ⟨inst, hinst, heq⟩ := h _ _ _ _ (.step .refl hold hstart) hnew hpick
    rw [hkept, List.mem_singleton] at hy
    cases heq
    cases hy
    exact located_ne (List.mem_singleton.mp hinst)

theorem moved_unnoticed : (¬ ∀ hashKey, StaysInList hashKey .weighted) ∧
    ¬ ∀ hashKey, StaysInList hashKey .consistentHash :=
  ⟨fun h => (not_staysInList fun _ => 0).1 (h _), fun h => (not_staysInList fun _ => 0).2 (h _)⟩

end RpcInGo.Balancer.OwnList
