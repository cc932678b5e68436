import RpcInGo.Balancer.ConcurrentPick
import RpcInGo.Balancer.RingPoints
import RpcInGo.Lib.Calls

/-!
Which keys move when an instance joins or leaves, for an arbitrary hash function.

* `pickWithOptions_run`: a call made alone is the two sections of the concurrent
  model, one after the other;
* `pick_stable`: a key that was not on the instance that leaves stays where it
  was, collisions of virtual nodes included, if both picks are on rings of their lists;
* `reordered_list_moves`: a ring that is reused for a list in another order may
  lose that.
-/

namespace RpcInGo.Balancer.Stability
open Lib.Circle Lib.Goroutine Registry.Instance HashRing ConcurrentPick RingPoints

section Calls
variable (hashKey : String → UInt32)

/-- The write-locked section: the balancer with the ring for these instances. -/
def prepare (ch : ConsistentHash) (instances : Instances) : Option ConsistentHash :=
  if isSameInstances ch instances then some ch else rebuild hashKey ch instances

/-- `PickWithOptions` while no other call is in progress; `none` is a panic. -/
def pickWithOptions (ch : ConsistentHash) (instances : Instances) (opts : Option PickOptions)
    (now : Int) : Option (ConsistentHash × Except PickError (Option ServiceInstance)) :=
  if instances.length = 0 then some (ch, .error .noInstances)
  else
    match prepare hashKey ch instances with
    | none => none
    | some ch => (lookup hashKey ch (pickKey opts now)).map fun r => (ch, .ok r)

/-- A ring that is reused for a list was built for this very list, and not for
the same instances in another order. A new balancer reuses none. -/
def Current (ch : ConsistentHash) (instances : Instances) : Prop :=
  isSameInstances ch instances = true → rebuild hashKey ch instances = some ch

end Calls

section Alone
variable {hashKey : String → UInt32} {ch ch' : ConsistentHash} {instances : Instances}
  {opts : Option PickOptions} {now : Int}

/-- In a run that allows the two sections of the call, they may follow each other. -/
theorem pickWithOptions_run {r : Except PickError (Option ServiceInstance)} {ts : List Pc} {i : Nat}
    {ok : Config Shared Pc → Nat → Int → Prop}
    (h : pickWithOptions hashKey ch instances opts now = some (ch', r))
    (hi : ts[i]? = some (.called instances opts)) (hok : ok ⟨⟨ch, false⟩, ts⟩ i now)
    (hok' : ok ⟨⟨ch', false⟩, ts.set i (.between instances opts)⟩ i now) :
    ∃ tr, Run (balancer hashKey) ok ⟨⟨ch, false⟩, ts⟩ tr
      ⟨⟨ch', false⟩, ts.set i (.returned instances r)⟩ := by
  unfold pickWithOptions at h
  split at h
  · rename_i hempty
    cases h
    exact ⟨_, Run.refl.step hok (fire_of_pickStep hi (by simp [pickStep, hempty]))⟩
  split at h
  · cases h
  rename_i hmid
  obtain ⟨r, hlook, heq⟩ := Option.map_eq_some_iff.mp h
  cases heq
  have hfirst : pickStep hashKey ⟨ch, false⟩ (.called instances opts) now =
      some (⟨ch', false⟩, .between instances opts) := by
    unfold prepare at hmid
    split at hmid
    · cases hmid
      simp [pickStep, *]
    · simp [pickStep, *]
  have hi' : (ts.set i (.between instances opts))[i]? = some (.between instances opts) := by
    obtain ⟨hlt, -⟩ := List.getElem?_eq_some_iff.mp hi
    simp [hlt]
  have hlast : pickStep hashKey ⟨ch', false⟩ (.between instances opts) now =
      some (⟨ch', false⟩, .returned instances (.ok r)) := by
    simp [pickStep, hlook]
  have hboth : Run (balancer hashKey) ok ⟨⟨ch, false⟩, ts⟩ _ _ :=
    (Run.refl.step hok (fire_of_pickStep hi hfirst)).step hok' (fire_of_pickStep hi' hlast)
  rw [List.set_set] at hboth
  exact ⟨_, hboth⟩

/-- The pick on a list of instances: the last of those at the next point. -/
theorem pick_next (hl : Listed instances) (hv : 0 < ch.virtualNodes)
    (hc : Current hashKey ch instances) (opts : Option PickOptions) (now : Int) :
    ∃ ch' p, pickWithOptions hashKey ch instances opts now =
        some (ch', .ok (owners hashKey ch.virtualNodes instances p).getLast?) ∧
      rebuild hashKey ch instances = some ch' ∧
      IsNext (points hashKey ch.virtualNodes instances) (hashKey (pickKey opts now)) p := by
  obtain ⟨ch', hre⟩ := Option.isSome_iff_exists.mp
    (rebuild_isSome hl.non_nil : (rebuild hashKey ch instances).isSome)
  have hring : ch'.hashRing ≠ [] := by
    apply List.ne_nil_of_length_pos
    rw [(rebuild_rebuilt hre).length_eq]
    exact Nat.mul_pos (List.length_pos_of_ne_nil hl.nonempty) hv
  obtain ⟨p, hnext, hlook⟩ := lookup_next (rebuild_built hl.non_nil hre) hring (pickKey opts now)
  have hprep : prepare hashKey ch instances = some ch' := by
    unfold prepare
    split
    · rename_i hsame
      rw [← hre, hc hsame]
    · exact hre
  refine ⟨ch', p, ?_, hre, hnext⟩
  simp [pickWithOptions, hl.nonempty, hprep, hlook]

/-- The points of the remaining instances are points of the longer list. -/
theorem points_subset {l l' : Instances} {v : Nat} (h : l ⊆ l') :
    points hashKey v l ⊆ points hashKey v l' := by
  intro q hq
  obtain ⟨inst, hmem, hi⟩ := mem_points.mp hq
  exact mem_points.mpr ⟨inst, h hmem, hi⟩

/-- Without an instance that is not the last one at a point, the last one is
the same. -/
theorem getLast?_owners_remove {v : Nat} {before after : Instances} {x y : ServiceInstance}
    {p : UInt32} (hxy : y ≠ x)
    (h : (owners hashKey v (before ++ some x :: after) p).getLast? = some y) :
    (owners hashKey v (before ++ after) p).getLast? = some y := by
  rw [← List.singleton_append, owners_append, owners_append, owners_singleton] at h
  rw [owners_append]
  simp only [List.getLast?_append] at h ⊢
  cases hafter : (owners hashKey v after p).getLast? with
  | some z => rwa [hafter] at h
  | none =>
    rw [hafter] at h
    split at h
    · exact absurd (by simpa using h.symm) hxy
    · simpa using h

end Alone

/-- When an instance leaves a list, every key that was not on it stays where it
was; an instance that joins takes keys for itself only. -/
theorem pick_stable {hashKey : String → UInt32} {ch ch' : ConsistentHash}
    {before after : Instances} {x : ServiceInstance} {key : String}
    (hl : Listed (before ++ some x :: after)) (hne : before ++ after ≠ [])
    (hv : 0 < ch.virtualNodes) (hv' : ch'.virtualNodes = ch.virtualNodes)
    (hc : Current hashKey ch (before ++ some x :: after))
    (hc' : Current hashKey ch' (before ++ after)) (hkey : key ≠ "") (now now' : Int) :
    ∃ y y', (pickWithOptions hashKey ch (before ++ some x :: after) (some ⟨key⟩) now).map Prod.snd =
        some (.ok (some y)) ∧
      (pickWithOptions hashKey ch' (before ++ after) (some ⟨key⟩) now').map Prod.snd =
        some (.ok (some y')) ∧
      (y ≠ x → y' = y) := by
  have hl' : Listed (before ++ after) := by
    refine ⟨hne, fun hn => hl.non_nil ?_, ?_⟩
    · simp only [List.mem_append, List.mem_cons] at hn ⊢
      tauto
    · have hsub : (before ++ after).Sublist (before ++ some x :: after) :=
        (List.sublist_cons_self _ _).append_left before
      exact hl.distinct.sublist (hsub.filterMap _)
  have hkeys : ∀ now, pickKey (some ⟨key⟩) now = key := by simp [pickKey, hkey]
  obtain ⟨_, p, hpick, -, hnext⟩ := pick_next hl hv hc (some ⟨key⟩) now
  obtain ⟨_, p', hpick', -, hnext'⟩ := pick_next hl' (by omega) hc' (some ⟨key⟩) now'
  rw [hkeys] at hnext hnext'
  rw [hv'] at hpick' hnext'
  -- both points have an instance
  have howner : ∀ {l : Instances} {q}, q ∈ points hashKey ch.virtualNodes l →
      ∃ y, (owners hashKey ch.virtualNodes l q).getLast? = some y := fun hq =>
    Option.ne_none_iff_exists'.mp (mt List.getLast?_eq_none_iff.mp hq)
  obtain ⟨y, hy⟩ := howner hnext.mem
  obtain ⟨y', hy'⟩ := howner hnext'.mem
  refine ⟨y, y', by rw [hpick, hy]; rfl, by rw [hpick', hy']; rfl, fun hxy => ?_⟩
  have hstay := getLast?_owners_remove hxy hy
  have hmem : p ∈ points hashKey ch.virtualNodes (before ++ after) := by
    intro hnil
    rw [hnil] at hstay
    cases hstay
  have hsub : before ++ after ⊆ before ++ some x :: after :=
    ((List.sublist_cons_self _ _).append_left before).subset
  obtain rfl := hnext'.unique (hnext.of_subset (points_subset hsub) hmem)
  rw [hstay] at hy'
  cases hy'
  rfl

theorem newConsistentHash_current (hashKey : String → UInt32) (instances : Instances) :
    Current hashKey newConsistentHash instances := by
  intro h
  cases h

/-- All virtual nodes collide, and the instance that leaves is the first. -/
theorem pick_stable_users :
    ∃ y y', (pickWithOptions (fun _ => 0) newConsistentHash users (some ⟨"alice"⟩) 0).map Prod.snd =
        some (.ok (some y)) ∧
      (pickWithOptions (fun _ => 0) newConsistentHash usersLeft (some ⟨"alice"⟩) 0).map Prod.snd =
        some (.ok (some y')) ∧
      (y ≠ anInstance "users-1" "users" → y' = y) := by
  have hl : Listed ([] ++ some (anInstance "users-1" "users") :: usersLeft) :=
    ⟨by decide, by decide, by decide⟩
  exact pick_stable hl (by decide) (by decide) rfl (newConsistentHash_current _ _)
    (newConsistentHash_current _ _) (by decide) 0 0

/-! ## A list in another order -/

/-- The balancers that calls made one after the other lead to. -/
def ReachedAlone (hashKey : String → UInt32) : ConsistentHash → Prop :=
  Lib.Calls.Reached (fun ch (c : Instances × Option PickOptions × Int) =>
    (pickWithOptions hashKey ch c.1 c.2.1 c.2.2).map Prod.swap) (fun _ _ => True) newConsistentHash

/-- Where all virtual nodes collide, the last instance of the list that the ring was built from
has every key. -/
theorem pick_collided {ch : ConsistentHash} {instances : Instances} (hl : Listed instances)
    (hv : 0 < ch.virtualNodes) (hc : Current (fun _ => 0) ch instances)
    (opts : Option PickOptions) (now : Int) :
    ∃ ch', pickWithOptions (fun _ => 0) ch instances opts now =
        some (ch', .ok instances.reduceOption.getLast?) ∧
      rebuild (fun _ => 0) ch instances = some ch' := by
  obtain ⟨ch', p, hpick, hre, hnext⟩ := pick_next hl hv hc opts now
  obtain ⟨_, _, _, _, rfl⟩ := mem_points.mp hnext.mem
  have howners : owners (fun _ => 0) ch.virtualNodes instances 0 = instances.reduceOption := by
    refine List.filter_eq_self.mpr fun inst _ => ?_
    simpa [owns] using ⟨0, hv⟩
  exact ⟨ch', by rw [hpick, howners], hre⟩

/-- A ring that is reused for another list answers as it did. -/
theorem pick_reused {hashKey : String → UInt32} {ch ch' : ConsistentHash} {l l' : Instances}
    {opts : Option PickOptions} {now : Int} {r : Except PickError (Option ServiceInstance)}
    (hl : l ≠ []) (h : pickWithOptions hashKey ch l opts now = some (ch', r))
    (hl' : l' ≠ []) (hsame : isSameInstances ch' l' = true) :
    pickWithOptions hashKey ch' l' opts now = some (ch', r) := by
  rw [pickWithOptions, if_neg (mt List.length_eq_zero_iff.mp hl)] at h
  rw [pickWithOptions, if_neg (mt List.length_eq_zero_iff.mp hl'), prepare, if_pos hsame]
  split at h
  · cases h
  · obtain ⟨r', hlook, heq⟩ := Option.map_eq_some_iff.mp h
    cases heq
    simp [hlook]

theorem reordered_list_moves :
    ¬ ∀ (hashKey : String → UInt32) (ch ch' : ConsistentHash) (before after : Instances)
      (x y : ServiceInstance) (key : String) (now now' : Int),
      ReachedAlone hashKey ch → Listed (before ++ some x :: after) → before ++ after ≠ [] →
      key ≠ "" →
      pickWithOptions hashKey ch (before ++ some x :: after) (some ⟨key⟩) now =
        some (ch', .ok (some y)) → y ≠ x →
      (pickWithOptions hashKey ch' (before ++ after) (some ⟨key⟩) now').map Prod.snd =
        some (.ok (some y)) := by
  intro h
  have hl : Listed (some (anInstance "users-3" "users") :: users.reverse) :=
    ⟨by decide, by decide, by decide⟩
  have hl' : Listed ([] ++ some (anInstance "users-3" "users") :: users) :=
    ⟨by decide, by decide, by decide⟩
  have hleft : Listed users := ⟨by decide, by decide, by decide⟩
  -- the ring is built with the users in one order, and reused for the other
  obtain ⟨ch, hpick, hre⟩ := pick_collided hl (by decide)
    (newConsistentHash_current (fun _ => 0) _) (some ⟨"alice"⟩) 0
  have hinst := (rebuild_rebuilt hre).instances_eq
  have hsame : isSameInstances ch (some (anInstance "users-3" "users") :: users) = true := by
    rw [isSameInstances, hinst]
    decide
  have hreused := pick_reused hl.nonempty hpick hl'.nonempty hsame
  -- without the third user it is built again
  have hc : Current (fun _ => 0) ch users := by
    intro hsame'
    rw [isSameInstances, hinst] at hsame'
    exact absurd hsame' (by decide)
  have hv : 0 < ch.virtualNodes := by
    rw [(rebuild_rebuilt hre).virtualNodes_eq]
    decide
  obtain ⟨ch', hleaves, -⟩ := pick_collided hleft hv hc (some ⟨"alice"⟩) 0
  have hreached : ReachedAlone (fun _ => 0) ch :=
    .step (a := (some (anInstance "users-3" "users") :: users.reverse, some ⟨"alice"⟩, 0)) .refl
      trivial (by rw [hpick]; rfl)
  have hstays := h (fun _ => 0) ch ch [] users (anInstance "users-3" "users")
    (anInstance "users-1" "users") "alice" 0 0 hreached hl' (by decide) (by decide) hreused
    (by decide)
  rw [List.nil_append, hleaves] at hstays
  have hlast : users.reduceOption.getLast? ≠ some (anInstance "users-1" "users") := by decide
  exact hlast (Except.ok.inj (Option.some.inj hstays))

end RpcInGo.Balancer.Stability
