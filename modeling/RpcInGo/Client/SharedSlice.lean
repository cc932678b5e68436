import RpcInGo.Balancer.Weighted
import RpcInGo.Client.Source
import RpcInGo.Lib.Slices

/-!
The cached list of one service and the list that a weighted round-robin balancer keeps,
as the slices they are. The balancer keeps the slice it is given, so an Update event that
is written into the cache is also written into the list with which the balancer compares
the next one, and a new weight goes unnoticed.

* `pick_balancer`: read through the slices, a pick does what it does to lists;
* `window_after_updates`: one round of picks, if no event gives an entry that the balancer
  keeps another weight.
-/

namespace RpcInGo.Client.SharedSlice
open Lib.Calls Lib.Cycle Lib.Slices Registry.Instance Balancer.ConcurrentPick Balancer.Weighted

/-! ## The model -/

/-- `WeightedRoundRobin`, with the slice it keeps. -/
structure SliceBalancer where
  instances : Slice
  weights : List Nat
  current : Int

/-- The part of a `discoverySource` that belongs to one service. A service that was not
looked up yet has the nil slice. -/
structure Cache where
  heap : Heap ServiceInstance
  instanceCache : Slice
  loadBalancer : SliceBalancer

def newCache : Cache := ⟨[], Slice.nil, ⟨Slice.nil, [], 0⟩⟩

def Cache.cached (s : Cache) : List ServiceInstance := values s.heap s.instanceCache

def Cache.remembered (s : Cache) : List ServiceInstance := values s.heap s.loadBalancer.instances

/-- The balancer, with its slice read. -/
def Cache.balancer (s : Cache) : WeightedRoundRobin :=
  ⟨s.remembered, s.loadBalancer.weights, s.loadBalancer.current⟩

/-- Where an Update event finds its ID. -/
def Cache.position (s : Cache) (inst : ServiceInstance) : Option Nat :=
  s.cached.findIdx? (·.id = inst.id)

/-- `handleWatchEvent`; `spare` is the room that `append` leaves in a new array. -/
def Cache.handle (s : Cache) (event : Event) (spare : Nat) : Cache :=
  match event.type with
  | .add =>
    let appended := append s.heap s.instanceCache event.inst spare
    { s with heap := appended.2, instanceCache := appended.1 }
  | .delete =>
    let filtered := s.cached.filter (·.id ≠ event.inst.id)
    let copied := make s.heap filtered (s.cached.length - filtered.length)
    { s with heap := copied.2, instanceCache := copied.1 }
  | .update =>
    match s.position event.inst with
    | none => s
    | some i => { s with heap := write s.heap s.instanceCache i event.inst }

/-- The registry's answer, stored as the slice it is. -/
def Cache.store (s : Cache) (l : List ServiceInstance) (spare : Nat) : Cache :=
  let result := make s.heap l spare
  { s with heap := result.2, instanceCache := result.1 }

inductive AcquireError where
  | discovery
  | noAvailable
  | pick (e : PickError)
  deriving DecidableEq, Repr

/-- `getInstances`; `found` is what the registry would return, `none` its error. -/
def Cache.getInstances (s : Cache) (found : Option (List ServiceInstance)) (spare : Nat) :
    Option Cache :=
  if 0 < s.cached.length then some s
  else
    match found with
    | none => none
    | some l => some (s.store l spare)

/-- The slice that the balancer has after a `Pick`: `rebuild` keeps the one it is given. -/
def Cache.kept (s : Cache) : Slice :=
  if s.balancer.isSameInstances s.cached then s.loadBalancer.instances else s.instanceCache

/-- `Pick` on the cached slice. -/
def Cache.pick (s : Cache) : Option (Except PickError ServiceInstance × Cache) :=
  match s.balancer.pick s.cached with
  | none => none
  | some (r, wrr) => some (r, { s with loadBalancer := ⟨s.kept, wrr.weights, wrr.current⟩ })

/-- `acquire`, up to the instance picked. -/
def Cache.acquire (s : Cache) (found : Option (List ServiceInstance)) (spare : Nat) :
    Option (Except AcquireError ServiceInstance × Cache) :=
  match s.getInstances found spare with
  | none => some (.error .discovery, s)
  | some s =>
    if s.cached.length = 0 then some (.error .noAvailable, s)
    else
      match s.pick with
      | none => none
      | some (.error e, s) => some (.error (.pick e), s)
      | some (.ok inst, s) => some (.ok inst, s)

inductive Op where
  | acquire (found : Option (List ServiceInstance)) (spare : Nat)
  | watch (event : Event) (spare : Nat)

def Op.isAcquire : Op → Bool
  | .acquire _ _ => true
  | .watch _ _ => false

/-- One operation; a watch event has no result. -/
def Cache.step (s : Cache) : Op → Option (Option (Except AcquireError ServiceInstance) × Cache)
  | .acquire found spare => (s.acquire found spare).map fun r => (some r.1, r.2)
  | .watch event spare => some (none, s.handle event spare)

/-! ## What is read through the slices -/

/-- Both slices lie in their arrays, and on one array the balancer's is not the longer. -/
structure Linked (s : Cache) : Prop where
  cached : Valid s.heap s.instanceCache
  kept : Valid s.heap s.loadBalancer.instances
  shorter : s.loadBalancer.instances.array = s.instanceCache.array →
    s.loadBalancer.instances.len ≤ s.instanceCache.len

theorem newCache_linked : Linked newCache := ⟨nil_valid _, nil_valid _, fun _ => Nat.le_refl _⟩

section Handle
variable {s : Cache} {event : Event} {spare : Nat}

/-- On the list that the balancer keeps, only an Update does anything, and only if the
array is the same. -/
theorem handle_remembered (hs : Linked s) :
    (s.handle event spare).remembered = s.remembered ∨
    event.type = .update ∧ s.loadBalancer.instances.array = s.instanceCache.array ∧
      ∃ i, s.position event.inst = some i ∧
        (s.handle event spare).remembered = s.remembered.set i event.inst := by
  unfold Cache.handle
  split
  · exact .inl (values_append hs.cached hs.kept hs.shorter _ _)
  · exact .inl (values_make hs.kept _ _)
  · rename_i htype
    split
    · exact .inl rfl
    · rename_i i hpos
      simp only [Cache.remembered, values_write]
      split
      · rename_i hshared
        exact .inr ⟨htype, hshared, i, hpos, rfl⟩
      · exact .inl rfl

theorem handle_linked (hs : Linked s) : Linked (s.handle event spare) := by
  unfold Cache.handle
  split
  · exact ⟨append_valid hs.cached _ _, hs.kept.append _ _ _,
      fun ha => len_le_append hs.kept hs.shorter _ _ ha⟩
  · exact ⟨make_valid _ _ _, hs.kept.make _ _, fun ha => absurd ha (hs.kept.array_ne_make _ 0)⟩
  · split
    · exact hs
    · exact ⟨hs.cached.write _ _ _, hs.kept.write _ _ _, hs.shorter⟩

theorem handle_loadBalancer : (s.handle event spare).loadBalancer = s.loadBalancer := by
  unfold Cache.handle
  split
  · rfl
  · rfl
  · split <;> rfl

end Handle

/-- The state after a pick that leaves the balancer as `wrr`. -/
def Cache.picked (s : Cache) (wrr : WeightedRoundRobin) : Cache :=
  { s with loadBalancer := ⟨s.kept, wrr.weights, wrr.current⟩ }

theorem picked_balancer {s : Cache} (hne : s.cached ≠ []) {r : Except PickError ServiceInstance}
    {wrr : WeightedRoundRobin} (h : s.balancer.pick s.cached = some (r, wrr)) :
    (s.picked wrr).balancer = wrr := by
  have hkept : values s.heap s.kept = wrr.instances := by
    rw [(pick_prepared hne h).1, Cache.kept, WeightedRoundRobin.prepare]
    split <;> rfl
  simp only [Cache.balancer, Cache.remembered, Cache.picked, hkept]

/-- Read through the slices, a pick is one of the balancer on lists. -/
theorem pick_balancer {s s' : Cache} (hne : s.cached ≠ []) {r : Except PickError ServiceInstance} :
    s.pick = some (r, s') ↔
      s.balancer.pick s.cached = some (r, s'.balancer) ∧ s' = s.picked s'.balancer := by
  cases hpick : s.balancer.pick s.cached with
  | none => simp [Cache.pick, hpick]
  | some result =>
    obtain ⟨r', wrr⟩ := result
    have hwrr := picked_balancer hne hpick
    have hs : s.pick = some (r', s.picked wrr) := by simp only [Cache.pick, hpick, Cache.picked]
    rw [hs]
    constructor
    · intro h
      cases h
      rw [hwrr]
      exact ⟨rfl, rfl⟩
    · rintro ⟨h, hs'⟩
      cases h
      rw [← hs']

theorem acquire_cached {s : Cache} (hne : s.cached ≠ []) (found : Option (List ServiceInstance))
    (spare : Nat) {inst : ServiceInstance} {s' : Cache} (h : s.pick = some (.ok inst, s')) :
    s.step (.acquire found spare) = some (some (.ok inst), s') := by
  have hpos : 0 < s.cached.length := List.length_pos_of_ne_nil hne
  simp only [Cache.step, Cache.acquire, Cache.getInstances, if_pos hpos, if_neg hpos.ne', h,
    Option.map_some]

/-! ## A stretch of picks -/

/-- Picks without an event in between are calls of the balancer with the cached list. -/
theorem serve_acquires {s : Cache} (hne : s.cached ≠ []) {ops : List Op}
    (hops : ∀ op ∈ ops, op.isAcquire = true) {picked : List ServiceInstance}
    {wrr : WeightedRoundRobin}
    (h : serve WeightedRoundRobin.pick s.balancer (List.replicate ops.length s.cached) =
      some (picked.map .ok, wrr)) :
    ∃ s', serve Cache.step s ops = some (picked.map fun inst => some (.ok inst), s') := by
  induction ops generalizing s picked with
  | nil =>
    cases picked with
    | nil => exact ⟨s, rfl⟩
    | cons inst picked => cases h
  | cons op ops ih =>
    obtain ⟨hop, hops⟩ := List.forall_mem_cons.mp hops
    rw [List.length_cons, List.replicate_succ] at h
    obtain ⟨r, wrr₁, rs, hpick, hrest, heq⟩ := serve_cons.mp h
    obtain ⟨inst, picked, rfl, rfl, rfl⟩ := List.map_eq_cons_iff.mp heq
    have hwrr := picked_balancer hne hpick
    have hs₁ : s.pick = some (.ok inst, s.picked wrr₁) :=
      (pick_balancer hne).mpr ⟨by rw [hwrr]; exact hpick, by rw [hwrr]⟩
    have hne₁ : (s.picked wrr₁).cached ≠ [] := hne
    rw [← hwrr] at hrest
    obtain ⟨s', hs'⟩ := ih hne₁ hops hrest
    cases op with
    | watch event spare => cases hop
    | acquire found spare =>
      exact ⟨s', serve_cons.mpr ⟨_, _, _, acquire_cached hne found spare hs₁, hs', rfl⟩⟩

/-- One round of picks goes through the list that the balancer then keeps. -/
theorem round_perm {s : Cache} (hs : Scheduled s.balancer) (hne : s.cached ≠ []) {ops : List Op}
    (hops : ∀ op ∈ ops, op.isAcquire = true) (hlen : ops.length = totalWeight s.cached) :
    ∃ picked : List ServiceInstance, ∃ s',
      serve Cache.step s ops = some (picked.map fun inst => some (.ok inst), s') ∧
      picked.Perm (expand (s.balancer.prepare s.cached).instances) := by
  have hkeys := prepare_keys s.balancer s.cached
  have hall : ∀ l ∈ List.replicate ops.length s.cached,
      l.map key = (s.balancer.prepare s.cached).instances.map key := by
    intro l hl
    rw [List.eq_of_mem_replicate hl, hkeys]
  obtain ⟨wrr', hserve, -, -⟩ :=
    serve_same (prepare_scheduled hs s.cached) (ne_nil_of_keys hkeys hne) hall
  obtain ⟨n, hn⟩ : ∃ n, ops.length = n + 1 :=
    Nat.exists_eq_add_one.mpr (hlen ▸ totalWeight_pos hne)
  have hround : (List.replicate ops.length s.cached).length =
      (expand (s.balancer.prepare s.cached).instances).length := by
    rw [List.length_replicate, hlen, expand_length, totalWeight_of_keys hkeys]
  rw [hround] at hserve
  rw [hn, List.replicate_succ, serve_prepare _ hne, ← List.replicate_succ, ← hn] at hserve
  obtain ⟨s', hs'⟩ := serve_acquires hne hops hserve
  exact ⟨_, s', hs', visit_lap _ _⟩

/-! ## Weights that stay -/

/-- The event does not give an entry that the balancer keeps another weight behind its
back. -/
def keepsWeight (s : Cache) (event : Event) : Bool :=
  match event.type, s.position event.inst with
  | .update, some i =>
    s.loadBalancer.instances.array ≠ s.instanceCache.array ||
      s.remembered[i]?.all (effectiveWeight · = effectiveWeight event.inst)
  | _, _ => true

def Calm (s : Cache) : Op → Prop
  | .acquire _ _ => True
  | .watch event _ => keepsWeight s event = true

/-- Writing over an entry with one that has the same image. -/
theorem map_set_of_eq {f : ServiceInstance → Nat} {l : List ServiceInstance} {i : Nat}
    {x : ServiceInstance} (h : ∀ old, l[i]? = some old → f old = f x) :
    (l.set i x).map f = l.map f := by
  cases hold : l[i]? with
  | none => rw [List.set_eq_of_length_le (List.getElem?_eq_none_iff.mp hold)]
  | some old => exact Lib.Goroutine.map_set_same hold (h old hold).symm

theorem schedule_of_weights {l m : List ServiceInstance}
    (h : l.map effectiveWeight = m.map effectiveWeight) (i : Nat) :
    schedule i l = schedule i m := by
  induction l generalizing m i with
  | nil =>
    cases m with
    | nil => rfl
    | cons y ys => cases h
  | cons x xs ih =>
    cases m with
    | nil => cases h
    | cons y ys =>
      obtain ⟨hxy, hrest⟩ := List.cons.inj h
      rw [schedule, schedule, hxy, ih hrest]

theorem Scheduled.of_weights {wrr wrr' : WeightedRoundRobin} (hs : Scheduled wrr)
    (hw : wrr'.weights = wrr.weights) (hc : wrr'.current = wrr.current)
    (h : wrr'.instances.map effectiveWeight = wrr.instances.map effectiveWeight) :
    Scheduled wrr' := by
  refine ⟨?_, hc ▸ hs.lower, fun hne => ?_⟩
  · rw [hw, hs.weights, schedule_of_weights h]
  · have hne' : wrr.instances ≠ [] := by
      intro hnil
      rw [hnil] at h
      exact hne (List.map_eq_nil_iff.mp h)
    have hup := hs.upper hne'
    rw [hc, totalWeight, h]
    exact hup

/-- What holds between operations. -/
structure Fair (s : Cache) : Prop where
  linked : Linked s
  scheduled : Scheduled s.balancer

theorem newCache_fair : Fair newCache := ⟨newCache_linked, new_scheduled⟩

section Steps
variable {s s' : Cache}

theorem handle_fair (hs : Fair s) {event : Event} (hk : keepsWeight s event = true) (spare : Nat) :
    Fair (s.handle event spare) := by
  refine ⟨handle_linked hs.linked, ?_⟩
  have hkeep : (s.handle event spare).loadBalancer = s.loadBalancer := handle_loadBalancer
  refine Scheduled.of_weights hs.scheduled (congrArg SliceBalancer.weights hkeep)
    (congrArg SliceBalancer.current hkeep) ?_
  change (s.handle event spare).remembered.map _ = s.remembered.map _
  rcases handle_remembered hs.linked with heq | ⟨htype, hshared, i, hpos, heq⟩
  · rw [heq]
  · rw [heq]
    simp only [keepsWeight, htype, hpos, hshared, ne_eq, not_true_eq_false, decide_false,
      Bool.false_or] at hk
    exact map_set_of_eq fun old hold => by simpa [hold] using hk

theorem pick_fair (hs : Fair s) (hne : s.cached ≠ []) {r : Except PickError ServiceInstance}
    (h : s.pick = some (r, s')) : Fair s' := by
  obtain ⟨hpick, heq⟩ := (pick_balancer hne).mp h
  refine ⟨?_, pick_keeps hs.scheduled hpick⟩
  rw [heq]
  by_cases hsame : s.balancer.isSameInstances s.cached = true
  · have hkept : s.kept = s.loadBalancer.instances := if_pos hsame
    exact ⟨hs.linked.cached, by rw [Cache.picked, hkept]; exact hs.linked.kept,
      by rw [Cache.picked, hkept]; exact hs.linked.shorter⟩
  · have hkept : s.kept = s.instanceCache := if_neg hsame
    exact ⟨hs.linked.cached, by rw [Cache.picked, hkept]; exact hs.linked.cached,
      by rw [Cache.picked, hkept]; exact fun _ => Nat.le_refl _⟩

theorem store_fair (hs : Fair s) (l : List ServiceInstance) (spare : Nat) :
    Fair (s.store l spare) := by
  refine ⟨⟨make_valid _ _ _, hs.linked.kept.make _ _,
    fun ha => absurd ha (hs.linked.kept.array_ne_make l spare)⟩, ?_⟩
  have hremembered : (s.store l spare).remembered = s.remembered :=
    values_make hs.linked.kept l spare
  exact Scheduled.of_weights hs.scheduled rfl rfl (congrArg _ hremembered)

/-- An `acquire` may store what the registry returns, and then picks. -/
theorem acquire_inv {found : Option (List ServiceInstance)} {spare : Nat}
    {r : Except AcquireError ServiceInstance} (h : s.acquire found spare = some (r, s')) :
    ∃ s₁, (s₁ = s ∨ s.cached = [] ∧ ∃ l, s₁ = s.store l spare) ∧
      (s' = s₁ ∨ s₁.cached ≠ [] ∧ ∃ r', s₁.pick = some (r', s')) := by
  unfold Cache.acquire at h
  split at h
  · cases h
    exact ⟨s, .inl rfl, .inl rfl⟩
  · rename_i s₁ hget
    refine ⟨s₁, ?_, ?_⟩
    · unfold Cache.getInstances at hget
      split at hget
      · cases hget
        exact .inl rfl
      · rename_i hpos
        split at hget
        · cases hget
        · cases hget
          exact .inr ⟨List.eq_nil_of_length_eq_zero (Nat.eq_zero_of_not_pos hpos), _, rfl⟩
    · split at h
      · cases h
        exact .inl rfl
      · rename_i hlen
        have hne : s₁.cached ≠ [] := fun hnil => hlen (by rw [hnil]; rfl)
        split at h
        · cases h
        · rename_i hpick
          cases h
          exact .inr ⟨hne, _, hpick⟩
        · rename_i hpick
          cases h
          exact .inr ⟨hne, _, hpick⟩

theorem step_fair {op : Op} {r : Option (Except AcquireError ServiceInstance)} (hs : Fair s)
    (hop : Calm s op) (h : s.step op = some (r, s')) : Fair s' := by
  cases op with
  | watch event spare =>
    cases h
    exact handle_fair hs hop spare
  | acquire found spare =>
    obtain ⟨⟨r, s''⟩, hacq, heq⟩ := Option.map_eq_some_iff.mp h
    cases heq
    obtain ⟨s₁, hs₁, hs'⟩ := acquire_inv hacq
    have hfair : Fair s₁ := by
      rcases hs₁ with rfl | ⟨-, l, rfl⟩
      · exact hs
      · exact store_fair hs l spare
    rcases hs' with rfl | ⟨hne, r', hpick⟩
    · exact hfair
    · exact pick_fair hfair hne hpick

end Steps

/-! ## Without Delete events -/

/-- The balancer keeps a slice of the cached list's array, or one that is too short to be
taken for it. -/
def Behind (s : Cache) : Prop :=
  s.loadBalancer.instances.array = s.instanceCache.array ∨
    s.loadBalancer.instances.len < s.instanceCache.len ∨ s.loadBalancer.instances.len = 0

def Growing (s : Cache) : Op → Prop
  | .acquire _ _ => True
  | .watch event _ => event.type ≠ .delete ∧ keepsWeight s event = true

theorem Growing.calm {s : Cache} {op : Op} (h : Growing s op) : Calm s op := by
  cases op with
  | acquire found spare => trivial
  | watch event spare => exact h.2

section Growing
variable {s s' : Cache}

theorem handle_behind (hs : Linked s) (hb : Behind s) {event : Event} (htype : event.type ≠ .delete)
    (spare : Nat) : Behind (s.handle event spare) := by
  obtain ⟨type, inst⟩ := event
  cases type with
  | delete => exact absurd rfl htype
  | update =>
    simp only [Cache.handle]
    split
    · exact hb
    · exact hb
  | add =>
    have hlb : (s.handle ⟨.add, inst⟩ spare).loadBalancer = s.loadBalancer := rfl
    have hlen : (append s.heap s.instanceCache inst spare).1.len = s.instanceCache.len + 1 := by
      have hvalues := congrArg List.length (values_append_self hs.cached inst spare)
      rw [(append_valid hs.cached inst spare).length, List.length_append, hs.cached.length]
        at hvalues
      exact hvalues
    have hcache : (s.handle ⟨.add, inst⟩ spare).instanceCache.len = s.instanceCache.len + 1 := hlen
    rw [Behind, hlb, hcache]
    rcases hb with hshared | hshort | hzero
    · exact .inr (.inl (Nat.lt_succ_of_le (hs.shorter hshared)))
    · exact .inr (.inl (Nat.lt_succ_of_lt hshort))
    · exact .inr (.inr hzero)

theorem store_behind (hs : Linked s) (hb : Behind s) (hnil : s.cached = [])
    (l : List ServiceInstance) (spare : Nat) : Behind (s.store l spare) := by
  have hlen : s.instanceCache.len = 0 := by
    rw [← hs.cached.length]
    exact congrArg List.length hnil
  refine .inr (.inr ?_)
  change s.loadBalancer.instances.len = 0
  rcases hb with hshared | hshort | hzero
  · exact Nat.le_zero.mp (hlen ▸ hs.shorter hshared)
  · rw [hlen] at hshort
    exact absurd hshort (Nat.not_lt_zero _)
  · exact hzero

theorem pick_behind (hb : Behind s) (hne : s.cached ≠ []) {r : Except PickError ServiceInstance}
    (h : s.pick = some (r, s')) : Behind s' := by
  obtain ⟨-, heq⟩ := (pick_balancer hne).mp h
  rw [heq, Behind]
  simp only [Cache.picked, Cache.kept]
  split
  · exact hb
  · exact .inl rfl

theorem step_behind {op : Op} {r : Option (Except AcquireError ServiceInstance)} (hs : Linked s)
    (hb : Behind s) (hop : Growing s op) (h : s.step op = some (r, s')) : Behind s' := by
  cases op with
  | watch event spare =>
    cases h
    exact handle_behind hs hb hop.1 spare
  | acquire found spare =>
    obtain ⟨⟨r, s''⟩, hacq, heq⟩ := Option.map_eq_some_iff.mp h
    cases heq
    obtain ⟨s₁, hs₁, hs'⟩ := acquire_inv hacq
    have hbehind : Behind s₁ := by
      rcases hs₁ with rfl | ⟨hnil, l, rfl⟩
      · exact hb
      · exact store_behind hs hb hnil l spare
    rcases hs' with rfl | ⟨hne, r', hpick⟩
    · exact hbehind
    · exact pick_behind hbehind hne hpick

/-- What the balancer keeps after the next pick is the cached list itself. -/
theorem prepare_cached (hs : Linked s) (hb : Behind s) (hne : s.cached ≠ []) :
    (s.balancer.prepare s.cached).instances = s.cached := by
  rw [WeightedRoundRobin.prepare]
  split
  · rename_i hsame
    have hlen := congrArg List.length (isSameInstances_iff.mp hsame)
    rw [List.length_map, List.length_map] at hlen
    change s.cached.length = s.remembered.length at hlen
    have hpos := List.length_pos_of_ne_nil hne
    rw [Cache.cached, hs.cached.length] at hlen hpos
    rw [Cache.remembered, hs.kept.length] at hlen
    have hshared : s.loadBalancer.instances.array = s.instanceCache.array := by
      rcases hb with hshared | hshort | hzero
      · exact hshared
      · omega
      · omega
    change s.remembered = s.cached
    rw [Cache.remembered, values_of_shared hshared hlen.ge, ← hlen, Cache.cached, values,
      List.take_take, Nat.min_self]
  · rfl

theorem reached_growing (h : Reached Cache.step Growing newCache s) : Fair s ∧ Behind s :=
  h.invariant (I := fun s => Fair s ∧ Behind s) ⟨newCache_fair, .inl rfl⟩
    fun _ _ _ _ hs hop hstep =>
      ⟨step_fair hs.1 hop.calm hstep, step_behind hs.1.linked hs.2 hop hstep⟩

end Growing

/-- After picks and events that keep the weights, none of them a Delete: one round of picks
returns the cached instances themselves, each as often as its weight says. -/
theorem window_after_updates {s : Cache} (h : Reached Cache.step Growing newCache s)
    (hne : s.cached ≠ []) {ops : List Op} (hops : ∀ op ∈ ops, op.isAcquire = true)
    (hlen : ops.length = totalWeight s.cached) :
    ∃ picked : List ServiceInstance, ∃ s',
      serve Cache.step s ops = some (picked.map fun inst => some (.ok inst), s') ∧
      picked.Perm (expand s.cached) ∧ ((s.cached.map (·.id)).Nodup → ∀ inst ∈ s.cached,
        picked.count inst = effectiveWeight inst) := by
  obtain ⟨hfair, hbehind⟩ := reached_growing h
  obtain ⟨picked, s', hserve, hperm⟩ := round_perm hfair.scheduled hne hops hlen
  rw [prepare_cached hfair.linked hbehind hne] at hperm
  refine ⟨picked, s', hserve, hperm, fun hd inst hinst => ?_⟩
  have hcount := count_expand (f := id) (by rw [List.map_id]; exact hd.of_map _) hinst
  rwa [List.map_id, ← hperm.count_eq] at hcount

def picks (n : Nat) : List Op := List.replicate n (.acquire none 0)

theorem picks_acquire (n : Nat) : ∀ op ∈ picks n, op.isAcquire = true := by
  intro op hop
  rw [List.eq_of_mem_replicate hop]
  rfl

/-- After a first pick, from the list that the registry returned. -/
def picked (l : List ServiceInstance) (spare : Nat) : Cache :=
  (newCache.store l spare).picked { rebuild l with current := 0 }

def moved : ServiceInstance := { weighing "u1" 2 with address := "10.0.0.9" }

def afterMove : Cache := (picked twoAndOne 1).handle ⟨.update, moved⟩ 0

/-- An Update event that moves an instance, between picks. -/
theorem window_after_updates_moved :
    Reached Cache.step Growing newCache afterMove ∧ ∃ picked : List ServiceInstance, ∃ s',
      serve Cache.step afterMove (picks 3) = some (picked.map fun inst => some (.ok inst), s') ∧
      picked.count moved = 2 ∧ picked.count (weighing "u2" 1) = 1 := by
  have hfirst : Reached Cache.step Growing newCache (picked twoAndOne 1) :=
    .step (a := .acquire (some twoAndOne) 1) .refl trivial rfl
  have hreach : Reached Cache.step Growing newCache afterMove :=
    .step (a := .watch ⟨.update, moved⟩ 0) hfirst ⟨by decide, by decide⟩ rfl
  obtain ⟨picked, s', hserve, -, hcount⟩ :=
    window_after_updates hreach (by decide) (picks_acquire 3) (by decide)
  exact ⟨hreach, picked, s', hserve, hcount (by decide) _ (by decide),
    hcount (by decide) _ (by decide)⟩

/-! ## Weights that change -/

/-- Picks, and Update events for IDs in the cache. -/
def KnownUpdate (s : Cache) : Op → Prop
  | .acquire _ _ => True
  | .watch event _ => event.type = .update ∧ (s.position event.inst).isSome

def oneEach : List ServiceInstance := [weighing "u1" 1, weighing "u2" 1]

def afterRaise : Cache := (picked oneEach 0).handle ⟨.update, weighing "u1" 3⟩ 0

/-- The weight of the first instance goes from one to three, and the two still take
turns. -/
theorem weight_unnoticed : ¬ ∀ s ops, Reached Cache.step KnownUpdate newCache s → s.cached ≠ [] →
    (∀ op ∈ ops, op.isAcquire = true) → ops.length = totalWeight s.cached →
    ∃ picked : List ServiceInstance, ∃ s',
      serve Cache.step s ops = some (picked.map fun inst => some (.ok inst), s') ∧
      picked.Perm (expand s.cached) := by
  intro h
  have hfirst : Reached Cache.step KnownUpdate newCache (picked oneEach 0) :=
    .step (a := .acquire (some oneEach) 0) .refl trivial rfl
  have hreach : Reached Cache.step KnownUpdate newCache afterRaise :=
    .step (a := .watch ⟨.update, weighing "u1" 3⟩ 0) hfirst ⟨rfl, by decide⟩ rfl
  obtain ⟨picked, s', hserve, hperm⟩ :=
    h afterRaise (picks 4) hreach (by decide) (picks_acquire 4) (by decide)
  have hruns : (serve Cache.step afterRaise (picks 4)).map (·.1) =
      some ([weighing "u2" 1, weighing "u1" 3, weighing "u2" 1, weighing "u1" 3].map
        fun inst => some (.ok inst)) := rfl
  rw [hserve] at hruns
  have hpicked : picked = [weighing "u2" 1, weighing "u1" 3, weighing "u2" 1, weighing "u1" 3] :=
    List.map_injective_iff.mpr (fun _ _ heq => by cases heq; rfl) (Option.some.inj hruns)
  have hcount := hperm.count_eq (weighing "u1" 3)
  rw [hpicked] at hcount
  revert hcount
  decide

end RpcInGo.Client.SharedSlice
