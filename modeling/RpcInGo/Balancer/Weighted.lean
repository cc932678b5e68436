import RpcInGo.Balancer.ConcurrentPick
import RpcInGo.Lib.Calls
import RpcInGo.Lib.Cycle

/-!
The weighted round-robin balancer. It keeps the list it was last given and a schedule in
which the position of every instance stands as often as its weight says, and builds both
anew when IDs or weights differ from those of the list before.

* `schedule_expand`: what the schedule says, read through the remembered list;
* `pick_scheduled`: one call takes the next entry of the schedule of a list with the IDs
  and weights of its own;
* `window_exact`: in a stretch of calls with the same IDs and weights, as many consecutive
  calls as the weights sum up to return each instance as often as its weight says.
-/

namespace RpcInGo.Balancer.Weighted
open Lib.Calls Lib.Cycle Registry.Instance ConcurrentPick

structure WeightedRoundRobin where
  instances : List ServiceInstance
  weights : List Nat
  current : Int
  deriving DecidableEq, Repr

def newWeightedRoundRobin : WeightedRoundRobin := ⟨[], [], 0⟩

/-- The weight that `rebuild` gives an instance. -/
def effectiveWeight (inst : ServiceInstance) : Nat :=
  if inst.weight ≤ 0 then 100 else inst.weight.toNat

/-- The loops of `rebuild`, from position `i` of the list on. -/
def schedule (i : Nat) : List ServiceInstance → List Nat
  | [] => []
  | inst :: rest => List.replicate (effectiveWeight inst) i ++ schedule (i + 1) rest

def rebuild (instances : List ServiceInstance) : WeightedRoundRobin :=
  ⟨instances, schedule 0 instances, -1⟩

/-- The loop of `isSameInstances` over two lists of one length. -/
def sameEntries : List ServiceInstance → List ServiceInstance → Bool
  | inst :: rest, known :: others =>
    if inst.id ≠ known.id then false
    else if inst.weight ≠ known.weight then false
    else sameEntries rest others
  | _, _ => true

/-- A slice read at an index; `none` is the panic of an index out of range. -/
def readAt {α : Type} (l : List α) (i : Int) : Option α := if i < 0 then none else l[i.toNat]?

theorem readAt_natCast {α : Type} (l : List α) (k : Nat) : readAt l k = l[k]? :=
  if_neg (Int.not_lt.mpr (Int.natCast_nonneg k))

namespace WeightedRoundRobin

def isSameInstances (wrr : WeightedRoundRobin) (instances : List ServiceInstance) : Bool :=
  if instances.length ≠ wrr.instances.length then false else sameEntries instances wrr.instances

def prepare (wrr : WeightedRoundRobin) (instances : List ServiceInstance) : WeightedRoundRobin :=
  if wrr.isSameInstances instances then wrr else rebuild instances

/-- The end of `Pick`, on a schedule that is not empty. -/
def advance (wrr : WeightedRoundRobin) : Option (ServiceInstance × WeightedRoundRobin) :=
  let current := (wrr.current + 1).tmod wrr.weights.length
  match readAt wrr.weights current with
  | none => none
  | some idx =>
    match readAt wrr.instances idx with
    | none => none
    | some inst => some (inst, { wrr with current := current })

/-- `Pick`, which holds the mutex throughout. -/
def pick (wrr : WeightedRoundRobin) (instances : List ServiceInstance) :
    Option (Except PickError ServiceInstance × WeightedRoundRobin) :=
  if instances.length = 0 then some (.error .noInstances, wrr)
  else if (wrr.prepare instances).weights.length = 0 then
    match readAt instances 0 with
    | none => none
    | some inst => some (.ok inst, wrr.prepare instances)
  else
    match (wrr.prepare instances).advance with
    | none => none
    | some (inst, wrr) => some (.ok inst, wrr)

end WeightedRoundRobin

/-! ## The schedule -/

/-- What the balancer compares of an instance. -/
def key (inst : ServiceInstance) : String × Int := (inst.id, inst.weight)

/-- Every instance as often as its weight says. -/
def expand (l : List ServiceInstance) : List ServiceInstance :=
  l.flatMap fun inst => List.replicate (effectiveWeight inst) inst

def totalWeight (l : List ServiceInstance) : Nat := (l.map effectiveWeight).sum

theorem effectiveWeight_pos (inst : ServiceInstance) : 0 < effectiveWeight inst := by
  unfold effectiveWeight
  split
  · decide
  · omega

theorem sameEntries_iff {l m : List ServiceInstance} (h : l.length = m.length) :
    sameEntries l m = true ↔ l.map key = m.map key := by
  induction l generalizing m with
  | nil =>
    cases m with
    | nil => simp [sameEntries]
    | cons y ys => cases h
  | cons x xs ih =>
    cases m with
    | nil => cases h
    | cons y ys =>
      have hlen : xs.length = ys.length := by simpa using h
      rw [sameEntries]
      split
      · rename_i hid
        simp [key, hid]
      · split
        · rename_i hweight
          simp [key, hweight]
        · rename_i hid hweight
          rw [not_not] at hid hweight
          simp [ih hlen, key, hid, hweight]

theorem isSameInstances_iff {wrr : WeightedRoundRobin} {l : List ServiceInstance} :
    wrr.isSameInstances l = true ↔ l.map key = wrr.instances.map key := by
  unfold WeightedRoundRobin.isSameInstances
  split
  · rename_i hlen
    refine iff_of_false Bool.false_ne_true fun h => hlen ?_
    simpa using congrArg List.length h
  · rename_i hlen
    exact sameEntries_iff (not_not.mp hlen)

theorem le_of_mem_schedule {l : List ServiceInstance} {i j : Nat} (h : j ∈ schedule i l) :
    i ≤ j := by
  induction l generalizing i with
  | nil => cases h
  | cons x xs ih =>
    rcases List.mem_append.mp h with h | h
    · exact (List.eq_of_mem_replicate h).ge
    · exact Nat.le_of_succ_le (ih h)

/-- The schedule, read through the list it was made for. -/
theorem schedule_expand (l : List ServiceInstance) (i : Nat) :
    (schedule i l).map (fun j => l[j - i]?) = (expand l).map some := by
  induction l generalizing i with
  | nil => rfl
  | cons x xs ih =>
    have hrest : (schedule (i + 1) xs).map (fun j => (x :: xs)[j - i]?) =
        (schedule (i + 1) xs).map (fun j => xs[j - (i + 1)]?) := by
      apply List.map_congr_left
      intro j hj
      have hle := le_of_mem_schedule hj
      obtain ⟨d, rfl⟩ := Nat.exists_eq_add_of_le hle
      have h1 : i + 1 + d - i = d + 1 := by omega
      have h2 : i + 1 + d - (i + 1) = d := by omega
      rw [h1, h2, List.getElem?_cons_succ]
    rw [schedule, List.map_append, hrest, ih]
    simp [expand]

theorem expand_length (l : List ServiceInstance) : (expand l).length = totalWeight l := by
  induction l with
  | nil => rfl
  | cons x xs ih =>
    have hrest : (expand xs).length = totalWeight xs := ih
    simp only [expand, totalWeight, List.flatMap_cons, List.length_append, List.length_replicate,
      List.map_cons, List.sum_cons] at hrest ⊢
    rw [hrest]

theorem schedule_length (l : List ServiceInstance) : (schedule 0 l).length = totalWeight l := by
  have h := congrArg List.length (schedule_expand l 0)
  rwa [List.length_map, List.length_map, expand_length] at h

theorem totalWeight_pos {l : List ServiceInstance} (h : l ≠ []) : 0 < totalWeight l := by
  cases l with
  | nil => exact absurd rfl h
  | cons x xs =>
    have := effectiveWeight_pos x
    simp only [totalWeight, List.map_cons, List.sum_cons]
    omega

/-- The weight is one of the things compared. -/
theorem effectiveWeight_of_key {x y : ServiceInstance} (h : key x = key y) :
    effectiveWeight x = effectiveWeight y := by
  have hweight : x.weight = y.weight := congrArg Prod.snd h
  rw [effectiveWeight, effectiveWeight, hweight]

theorem expand_ids_of_keys {l m : List ServiceInstance} (h : l.map key = m.map key) :
    (expand l).map (·.id) = (expand m).map (·.id) := by
  induction l generalizing m with
  | nil =>
    cases m with
    | nil => rfl
    | cons y ys => cases h
  | cons x xs ih =>
    cases m with
    | nil => cases h
    | cons y ys =>
      obtain ⟨hxy, hrest⟩ := List.cons.inj h
      have hid : x.id = y.id := congrArg Prod.fst hxy
      have htail := ih hrest
      simp only [expand, List.flatMap_cons, List.map_append, List.map_replicate] at htail ⊢
      rw [htail, effectiveWeight_of_key hxy, hid]

theorem ne_nil_of_keys {l m : List ServiceInstance} (h : l.map key = m.map key) (hm : m ≠ []) :
    l ≠ [] := by
  rintro rfl
  exact hm (List.map_eq_nil_iff.mp h.symm)

theorem totalWeight_of_keys {l m : List ServiceInstance} (h : l.map key = m.map key) :
    totalWeight l = totalWeight m := by
  have hlen := congrArg List.length (expand_ids_of_keys h)
  rwa [List.length_map, List.length_map, expand_length, expand_length] at hlen

/-! ## One call -/

/-- The schedule is that of the remembered list, and the cursor stands on it or before
its first entry. -/
structure Scheduled (wrr : WeightedRoundRobin) : Prop where
  weights : wrr.weights = schedule 0 wrr.instances
  lower : -1 ≤ wrr.current
  upper : wrr.instances ≠ [] → wrr.current < totalWeight wrr.instances

/-- Where the next call will read the schedule. -/
def cursor (wrr : WeightedRoundRobin) : Nat := (wrr.current + 1).toNat

section Calls
variable {wrr wrr' : WeightedRoundRobin} {l : List ServiceInstance}

theorem new_scheduled : Scheduled newWeightedRoundRobin := ⟨rfl, by decide, fun h => absurd rfl h⟩

theorem rebuild_scheduled (l : List ServiceInstance) : Scheduled (rebuild l) :=
  ⟨rfl, le_refl _, fun _ => by simp only [rebuild]; omega⟩

theorem prepare_scheduled (hs : Scheduled wrr) (l : List ServiceInstance) :
    Scheduled (wrr.prepare l) := by
  unfold WeightedRoundRobin.prepare
  split
  · exact hs
  · exact rebuild_scheduled l

theorem prepare_keys (wrr : WeightedRoundRobin) (l : List ServiceInstance) :
    (wrr.prepare l).instances.map key = l.map key := by
  unfold WeightedRoundRobin.prepare
  split
  · rename_i hsame
    exact (isSameInstances_iff.mp hsame).symm
  · rfl

theorem prepare_same (h : l.map key = wrr.instances.map key) : wrr.prepare l = wrr :=
  if_pos (isSameInstances_iff.mpr h)

theorem pick_prepared {r : Except PickError ServiceInstance} (hne : l ≠ [])
    (h : wrr.pick l = some (r, wrr')) :
    wrr'.instances = (wrr.prepare l).instances ∧ wrr'.weights = (wrr.prepare l).weights := by
  have hlen : l.length ≠ 0 := fun h => hne (List.eq_nil_of_length_eq_zero h)
  simp only [WeightedRoundRobin.pick, if_neg hlen, WeightedRoundRobin.advance] at h
  split at h
  · split at h
    · cases h
    · cases h
      exact ⟨rfl, rfl⟩
  · split at h
    · cases h
    · rename_i hadv
      cases h
      split at hadv
      · cases hadv
      · split at hadv
        · cases hadv
        · cases hadv
          exact ⟨rfl, rfl⟩

theorem advance_eq (hs : Scheduled wrr) (hne : wrr.instances ≠ []) :
    ∃ inst, (expand wrr.instances)[cursor wrr % (expand wrr.instances).length]? = some inst ∧
      wrr.advance = some (inst,
        { wrr with current := (cursor wrr % (expand wrr.instances).length : Nat) }) := by
  have hpos := totalWeight_pos hne
  have hlow := hs.lower
  rw [expand_length]
  have hlt : cursor wrr % totalWeight wrr.instances < totalWeight wrr.instances :=
    Nat.mod_lt _ hpos
  have hlen : wrr.weights.length = totalWeight wrr.instances := by
    rw [hs.weights, schedule_length]
  have hcast : wrr.current + 1 = (cursor wrr : Int) := (Int.toNat_of_nonneg (by omega)).symm
  have hcur : (wrr.current + 1).tmod wrr.weights.length =
      ((cursor wrr % totalWeight wrr.instances : Nat) : Int) := by
    rw [hlen, hcast, Int.ofNat_tmod]
  generalize cursor wrr % totalWeight wrr.instances = k at hlt hcur
  -- what the schedule holds at the new position
  have hread := congrArg (·[k]?) (schedule_expand wrr.instances 0)
  simp only [List.getElem?_map, Nat.sub_zero, ← hs.weights] at hread
  obtain ⟨idx, hidx⟩ : ∃ idx, wrr.weights[k]? = some idx :=
    ⟨_, List.getElem?_eq_getElem (hlen ▸ hlt)⟩
  obtain ⟨inst, hinst⟩ : ∃ inst, (expand wrr.instances)[k]? = some inst :=
    ⟨_, List.getElem?_eq_getElem (by rwa [expand_length])⟩
  rw [hidx, hinst, Option.map_some, Option.map_some, Option.some.injEq] at hread
  refine ⟨inst, hinst, ?_⟩
  simp only [WeightedRoundRobin.advance, hcur, readAt_natCast, hidx, hread]

/-- A call with instances takes the next entry of the schedule, and fails in no state. -/
theorem pick_scheduled (hs : Scheduled wrr) (hne : l ≠ []) :
    ∃ inst, (expand (wrr.prepare l).instances)[cursor (wrr.prepare l) %
        (expand (wrr.prepare l).instances).length]? = some inst ∧
      wrr.pick l = some (.ok inst, { wrr.prepare l with
        current :=
          (cursor (wrr.prepare l) % (expand (wrr.prepare l).instances).length : Nat) }) := by
  have hprep := prepare_scheduled hs l
  have hfull : (wrr.prepare l).instances ≠ [] := ne_nil_of_keys (prepare_keys wrr l) hne
  obtain ⟨inst, hinst, hadv⟩ := advance_eq hprep hfull
  refine ⟨inst, hinst, ?_⟩
  have hlist : l.length ≠ 0 := fun h => hne (List.eq_nil_of_length_eq_zero h)
  have hweights : (wrr.prepare l).weights.length ≠ 0 := by
    rw [hprep.weights, schedule_length]
    exact (totalWeight_pos hfull).ne'
  simp only [WeightedRoundRobin.pick, if_neg hlist, if_neg hweights, hadv]

theorem cursor_moved (wrr : WeightedRoundRobin) (k : Nat) :
    cursor { wrr with current := (k : Int) } = k + 1 := rfl

theorem moved_scheduled (hs : Scheduled wrr) (hne : wrr.instances ≠ []) (k : Nat) :
    Scheduled { wrr with current := (k % (expand wrr.instances).length : Nat) } := by
  refine ⟨hs.weights, by simp only; omega, fun _ => ?_⟩
  have hlt : k % totalWeight wrr.instances < totalWeight wrr.instances :=
    Nat.mod_lt _ (totalWeight_pos hne)
  rw [expand_length]
  exact Int.ofNat_lt.mpr hlt

theorem pick_keeps {r : Except PickError ServiceInstance} (hs : Scheduled wrr)
    (h : wrr.pick l = some (r, wrr')) : Scheduled wrr' := by
  by_cases hne : l = []
  · subst hne
    cases h
    exact hs
  · obtain ⟨inst, -, heq⟩ := pick_scheduled hs hne
    rw [heq] at h
    cases h
    exact moved_scheduled (prepare_scheduled hs l) (ne_nil_of_keys (prepare_keys wrr l) hne) _

end Calls

/-! ## Stretches of calls -/

/-- The states of a balancer. -/
def Reachable (wrr : WeightedRoundRobin) : Prop :=
  Reached WeightedRoundRobin.pick (fun _ _ => True) newWeightedRoundRobin wrr

theorem Reachable.scheduled {wrr : WeightedRoundRobin} (h : Reachable wrr) : Scheduled wrr :=
  Reached.invariant h new_scheduled fun _ _ _ _ hs _ hp => pick_keeps hs hp

/-- Calls whose lists have the IDs and weights of the remembered one go through its
schedule, round after round. -/
theorem serve_same {wrr : WeightedRoundRobin} (hs : Scheduled wrr) (hne : wrr.instances ≠ [])
    {lists : List (List ServiceInstance)}
    (hsame : ∀ l ∈ lists, l.map key = wrr.instances.map key) :
    ∃ wrr', serve WeightedRoundRobin.pick wrr lists =
        some ((visit (expand wrr.instances) (cursor wrr) lists.length).map .ok, wrr') ∧
      Scheduled wrr' ∧ wrr'.instances = wrr.instances := by
  induction lists generalizing wrr with
  | nil => exact ⟨wrr, rfl, hs, rfl⟩
  | cons l lists ih =>
    obtain ⟨hl, hlists⟩ := List.forall_mem_cons.mp hsame
    obtain ⟨inst, hinst, hpick⟩ := pick_scheduled hs (ne_nil_of_keys hl hne)
    rw [prepare_same hl] at hinst hpick
    obtain ⟨wrr', hserve, hs', hinst'⟩ := ih (moved_scheduled hs hne (cursor wrr)) hne hlists
    refine ⟨wrr', serve_cons.mpr ⟨_, _, _, hpick, hserve, ?_⟩, hs', hinst'⟩
    rw [List.length_cons, visit_succ hinst, List.map_cons]
    congr 2
    apply visit_congr
    rw [cursor_moved, Nat.mod_add_mod]

/-- Calls with instances do not fail. -/
theorem serve_nonempty {wrr : WeightedRoundRobin} (hs : Scheduled wrr)
    {lists : List (List ServiceInstance)} (hne : ∀ l ∈ lists, l ≠ []) :
    ∃ rs wrr', serve WeightedRoundRobin.pick wrr lists = some (rs, wrr') ∧ Scheduled wrr' := by
  have hstep : ∀ wrr l, Scheduled wrr → l ≠ [] → ∃ r wrr',
      wrr.pick l = some (r, wrr') ∧ Scheduled wrr' ∧ True := by
    intro wrr l hs hl
    obtain ⟨inst, -, hpick⟩ := pick_scheduled hs hl
    exact ⟨_, _, hpick, pick_keeps hs hpick, trivial⟩
  obtain ⟨rs, wrr', hserve, hs', -⟩ := serve_rule hs hstep hne
  exact ⟨rs, wrr', hserve, hs'⟩

/-- The first call of a stretch finds the schedule as it would leave it. -/
theorem pick_prepare (wrr : WeightedRoundRobin) {l : List ServiceInstance} (hne : l ≠ []) :
    (wrr.prepare l).pick l = wrr.pick l := by
  have htwice : (wrr.prepare l).prepare l = wrr.prepare l := prepare_same (prepare_keys wrr l).symm
  have hlen : l.length ≠ 0 := fun h => hne (List.eq_nil_of_length_eq_zero h)
  simp only [WeightedRoundRobin.pick, if_neg hlen, htwice]

theorem serve_prepare (wrr : WeightedRoundRobin) {l : List ServiceInstance} (hne : l ≠ [])
    (rest : List (List ServiceInstance)) :
    serve WeightedRoundRobin.pick (wrr.prepare l) (l :: rest) =
      serve WeightedRoundRobin.pick wrr (l :: rest) := by
  simp only [serve, pick_prepare wrr hne]

/-- The calls of a window go through the schedule of a list with their IDs and weights. -/
theorem serve_window {wrr : WeightedRoundRobin} (hs : Scheduled wrr) {l : List ServiceInstance}
    (hne : l ≠ []) {lists : List (List ServiceInstance)}
    (hsame : ∀ l' ∈ lists, l'.map key = l.map key) :
    ∃ m k wrr', m.map key = l.map key ∧ serve WeightedRoundRobin.pick wrr lists =
      some ((visit (expand m) k lists.length).map .ok, wrr') := by
  cases lists with
  | nil => exact ⟨l, 0, wrr, rfl, rfl⟩
  | cons l₁ rest =>
    have hl₁ : l₁.map key = l.map key := hsame l₁ List.mem_cons_self
    have hkeys : (wrr.prepare l₁).instances.map key = l.map key := (prepare_keys wrr l₁).trans hl₁
    have hkept : ∀ l' ∈ l₁ :: rest, l'.map key = (wrr.prepare l₁).instances.map key :=
      fun l' hl' => (hsame l' hl').trans hkeys.symm
    obtain ⟨wrr', hserve, -, -⟩ :=
      serve_same (prepare_scheduled hs l₁) (ne_nil_of_keys hkeys hne) hkept
    refine ⟨(wrr.prepare l₁).instances, cursor (wrr.prepare l₁), wrr', hkeys, ?_⟩
    rw [← serve_prepare wrr (ne_nil_of_keys hl₁ hne), hserve]

/-- Instances that `f` tells apart are counted by it. -/
theorem count_expand {β : Type} [DecidableEq β] {f : ServiceInstance → β}
    {l : List ServiceInstance} (hd : (l.map f).Nodup) {inst : ServiceInstance} (hi : inst ∈ l) :
    ((expand l).map f).count (f inst) = effectiveWeight inst := by
  induction l with
  | nil => cases hi
  | cons x xs ih =>
    obtain ⟨hfresh, hd⟩ := List.nodup_cons.mp hd
    have hsplit : (expand (x :: xs)).map f =
        List.replicate (effectiveWeight x) (f x) ++ (expand xs).map f := by
      simp [expand]
    have hmem : ∀ b ∈ (expand xs).map f, b ∈ xs.map f := by
      intro b hb
      obtain ⟨y, hy, rfl⟩ := List.mem_map.mp hb
      obtain ⟨z, hz, hyz⟩ := List.mem_flatMap.mp hy
      rw [List.eq_of_mem_replicate hyz]
      exact List.mem_map_of_mem hz
    rw [hsplit, List.count_append, List.count_replicate]
    rcases List.mem_cons.mp hi with rfl | hi
    · have hzero := List.count_eq_zero.mpr fun h => hfresh (hmem _ h)
      simp [hzero]
    · have hne : f x ≠ f inst := by
        intro heq
        exact hfresh (List.mem_map.mpr ⟨inst, hi, heq.symm⟩)
      simp [hne, ih hd hi]

/-- In any state of the balancer, and anywhere in a stretch of calls whose lists have the
IDs and weights of `l`: as many calls as the weights of `l` sum up to return every ID as
often as its weight says. -/
theorem window_exact {wrr : WeightedRoundRobin} (hreach : Reachable wrr)
    {l : List ServiceInstance} (hne : l ≠ []) {before window : List (List ServiceInstance)}
    (hsame : ∀ l' ∈ before ++ window, l'.map key = l.map key)
    (hlen : window.length = totalWeight l) :
    ∃ rs mid wrr', ∃ picked : List ServiceInstance,
      serve WeightedRoundRobin.pick wrr before = some (rs, mid) ∧
      serve WeightedRoundRobin.pick mid window = some (picked.map .ok, wrr') ∧
      (picked.map (·.id)).Perm
        (l.flatMap fun inst => List.replicate (effectiveWeight inst) inst.id) ∧
      ((l.map (·.id)).Nodup →
        ∀ inst ∈ l, (picked.map (·.id)).count inst.id = effectiveWeight inst) := by
  obtain ⟨hbefore, hwindow⟩ := List.forall_mem_append.mp hsame
  obtain ⟨rs, mid, hserve, hmid⟩ := serve_nonempty hreach.scheduled
    fun l' hl' => ne_nil_of_keys (hbefore l' hl') hne
  obtain ⟨m, k, wrr', hm, hpicked⟩ := serve_window hmid hne hwindow
  have hlap : window.length = (expand m).length := by
    rw [hlen, expand_length, totalWeight_of_keys hm]
  rw [hlap] at hpicked
  have hperm : ((visit (expand m) k (expand m).length).map (·.id)).Perm
      ((expand l).map (·.id)) := by
    rw [← expand_ids_of_keys hm]
    exact (visit_lap (expand m) k).map _
  refine ⟨rs, mid, wrr', _, hserve, hpicked, ?_, fun hd inst hi => ?_⟩
  · have hids : (expand l).map (·.id) =
        l.flatMap fun inst => List.replicate (effectiveWeight inst) inst.id := by
      simp [expand, List.map_flatMap]
    rwa [← hids]
  · rw [hperm.count_eq, count_expand hd hi]

def weighing (id : String) (weight : Int) : ServiceInstance :=
  ⟨id, "users", "v1", "10.0.0.1", 8080, [], weight, .up⟩

def twoAndOne : List ServiceInstance := [weighing "u1" 2, weighing "u2" 1]

/-- A window that begins in the middle of a round. -/
theorem window_exact_twoAndOne :
    ∃ rs mid wrr', ∃ picked : List ServiceInstance,
      serve WeightedRoundRobin.pick newWeightedRoundRobin [twoAndOne] = some (rs, mid) ∧
      serve WeightedRoundRobin.pick mid [twoAndOne, twoAndOne, twoAndOne] =
        some (picked.map .ok, wrr') ∧
      (picked.map (·.id)).count "u1" = 2 ∧ (picked.map (·.id)).count "u2" = 1 := by
  have hsame : ∀ l' ∈ [twoAndOne] ++ [twoAndOne, twoAndOne, twoAndOne],
      l'.map key = twoAndOne.map key := by simp
  obtain ⟨rs, mid, wrr', picked, hbefore, hwindow, -, hcount⟩ :=
    window_exact .refl (by decide) hsame rfl
  exact ⟨rs, mid, wrr', picked, hbefore, hwindow,
    hcount (by decide) (weighing "u1" 2) (by decide),
    hcount (by decide) (weighing "u2" 1) (by decide)⟩

end RpcInGo.Balancer.Weighted
