import Mathlib.Data.List.Perm.Subperm
import RpcInGo.Lib.Goroutine
import RpcInGo.Protocol.Message
import RpcInGo.Registry.Instance

/-!
The round-robin balancer under the calls of a discovery client. The client has
one balancer for all services, so one counter goes through lists of different
lengths.

* `run_numbered`: the pick number `k` of the client takes entry `k % n` of the
  list of its service, whatever service the other picks were for;
* `fair_iff`: `n` consecutive picks of a service with `n` instances take each of
  them once exactly when no two of them are a multiple of `n` apart in the
  sequence of all picks;
* `alternating_unfair`: two services called in turn always get the same instance.
-/

namespace RpcInGo.Balancer.RoundRobin
open Lib.Goroutine Protocol.Message Registry.Instance

structure RoundRobinBalancer where
  index : UInt64
  deriving DecidableEq, Repr

def newRoundRobin : RoundRobinBalancer := ⟨0⟩

/-- `Pick`, whose counter is incremented atomically. The length of a slice fits
in 64 bits, so `none`, an index out of range, does not occur. -/
def RoundRobinBalancer.pick (rb : RoundRobinBalancer) (instances : List ServiceInstance) :
    Option (Except GoError ServiceInstance × RoundRobinBalancer) :=
  if instances.length = 0 then some (.error (.errorf "no available instances" []), rb)
  else
    match instances[(rb.index + 1).toNat % instances.length]? with
    | none => none
    | some inst => some (.ok inst, ⟨rb.index + 1⟩)

/-! ## Calls of the client -/

structure Pick where
  service : String
  inst : ServiceInstance
  deriving DecidableEq, Repr

/-- `picks` is bookkeeping of the model: what the balancer has picked, in order. -/
structure Shared where
  loadBalancer : RoundRobinBalancer
  picks : List Pick
  deriving DecidableEq, Repr

/-- Where `acquire` stands; the connection to the picked endpoint is left out. -/
inductive Pc
  | called (service : String)
  | listed (service : String) (instances : List ServiceInstance)
  | picked (service : String) (inst : ServiceInstance)
  | failed (err : GoError)
  | panicked
  deriving DecidableEq, Repr

/-- `discovered` is the answer of a registry that has no instances of a service
which is not in the cache either. -/
inductive Ev
  | step
  | discovered (err : Option GoError)
  deriving DecidableEq, Repr

/-- `acquire` with the cached list of every service; a list that is not empty is
used as it is. -/
def acquireStep (instanceCache : String → List ServiceInstance) (g : Shared) :
    Pc → Ev → Option (Shared × Pc)
  | .called service, .step =>
    if (instanceCache service).length > 0 then some (g, .listed service (instanceCache service))
    else none
  | .called service, .discovered err =>
    if (instanceCache service).length > 0 then none
    else
      match err with
      | some err => some (g, .failed (.wrapf "get instances: %w" []
          (.wrapf "discovery get instances: %w" [] err)))
      | none => some (g, .failed (.errorf "no available instances for %s" [.str service]))
  | .listed service instances, .step =>
    match g.loadBalancer.pick instances with
    | none => some (g, .panicked)
    | some (.error err, rb) =>
      some ({ g with loadBalancer := rb }, .failed (.wrapf "pick instance: %w" [] err))
    | some (.ok inst, rb) => some (⟨rb, g.picks ++ [⟨service, inst⟩]⟩, .picked service inst)
  | _, _ => none

def client (instanceCache : String → List ServiceInstance) : Program Shared Pc Ev where
  step g pc e := (acquireStep instanceCache g pc e).map fun r => (r.1, r.2, [])

/-- A new client and calls of these services. -/
def start (services : List String) : Config Shared Pc :=
  ⟨⟨newRoundRobin, []⟩, services.map .called⟩

/-- The picks for one service, in order, each with its number among all picks. -/
def picksFor (service : String) (picks : List Pick) : List (Pick × Nat) :=
  (picks.zipIdx 1).filter (·.1.service = service)

/-! ## One step -/

section Steps
variable {instanceCache : String → List ServiceInstance} {g g' : Shared} {pc pc' : Pc} {e : Ev}

/-- The counter and the log of the picks. -/
structure Numbered (instanceCache : String → List ServiceInstance) (g : Shared) : Prop where
  counted : g.loadBalancer.index = UInt64.ofNat g.picks.length
  taken : ∀ (k : Nat) p, g.picks[k]? = some p →
    (instanceCache p.service)[(k + 1) % 2 ^ 64 % (instanceCache p.service).length]? = some p.inst

/-- A call that has its list has the cached one. -/
def Listing (instanceCache : String → List ServiceInstance) : Pc → Prop
  | .listed service instances => instances = instanceCache service
  | _ => True

theorem pick_ok {rb rb' : RoundRobinBalancer} {instances : List ServiceInstance}
    {inst : ServiceInstance} (h : rb.pick instances = some (.ok inst, rb')) :
    rb'.index = rb.index + 1 ∧ instances[(rb.index + 1).toNat % instances.length]? = some inst := by
  unfold RoundRobinBalancer.pick at h
  split at h
  · simp at h
  split at h
  · cases h
  · rename_i hinst
    cases h
    exact ⟨rfl, hinst⟩

theorem pick_error {rb rb' : RoundRobinBalancer} {instances : List ServiceInstance} {err : GoError}
    (h : rb.pick instances = some (.error err, rb')) : rb' = rb := by
  unfold RoundRobinBalancer.pick at h
  split at h
  · cases h
    rfl
  · split at h <;> simp at h

theorem Numbered.snoc {rb : RoundRobinBalancer} {p : Pick} (hN : Numbered instanceCache g)
    (hrb : rb.index = g.loadBalancer.index + 1)
    (hp : (instanceCache p.service)[(g.loadBalancer.index + 1).toNat %
      (instanceCache p.service).length]? = some p.inst) :
    Numbered instanceCache ⟨rb, g.picks ++ [p]⟩ := by
  have hindex : rb.index = UInt64.ofNat (g.picks.length + 1) := by
    rw [hrb, hN.counted, UInt64.ofNat_add]
    rfl
  refine ⟨by simpa using hindex, ?_⟩
  intro k q hq
  by_cases hk : k < g.picks.length
  · rw [List.getElem?_append_left hk] at hq
    exact hN.taken k q hq
  · obtain ⟨hlt, -⟩ := List.getElem?_eq_some_iff.mp hq
    rw [List.length_append, List.length_singleton] at hlt
    obtain rfl : k = g.picks.length := by omega
    rw [List.getElem?_append_right (Nat.le_refl _), Nat.sub_self, List.getElem?_cons_zero,
      Option.some.injEq] at hq
    subst hq
    rwa [← hrb, hindex, UInt64.toNat_ofNat'] at hp

theorem acquireStep_numbered (hN : Numbered instanceCache g) (hl : Listing instanceCache pc)
    (h : acquireStep instanceCache g pc e = some (g', pc')) :
    Numbered instanceCache g' ∧ Listing instanceCache pc' := by
  revert h
  fun_cases acquireStep instanceCache g pc e <;> intro h <;> try contradiction
  all_goals cases h
  case case1 service _ => exact ⟨hN, rfl⟩
  case case7 service instances err rb hpick =>
    rw [pick_error hpick]
    exact ⟨hN, trivial⟩
  case case8 service instances inst rb hpick =>
    obtain ⟨hrb, hinst⟩ := pick_ok hpick
    obtain rfl : instances = instanceCache service := hl
    exact ⟨hN.snoc hrb hinst, trivial⟩
  all_goals exact ⟨hN, trivial⟩

end Steps

/-! ## Whole runs -/

section Runs
variable {instanceCache : String → List ServiceInstance} {services : List String}
  {s : Config Shared Pc} {tr : List (Nat × Ev)}

theorem run_numbered (h : Run (client instanceCache) Any (start services) tr s) :
    Numbered instanceCache s.shared := by
  have hI : Numbered instanceCache s.shared ∧ ∀ pc ∈ s.threads, Listing instanceCache pc := by
    refine h.invariant (I := fun s => Numbered instanceCache s.shared ∧
      ∀ pc ∈ s.threads, Listing instanceCache pc) ?_ ?_
    · refine ⟨⟨rfl, by simp [start]⟩, ?_⟩
      intro pc hpc
      obtain ⟨service, -, rfl⟩ := List.mem_map.mp hpc
      trivial
    · rintro s i e t ⟨hN, hl⟩ _ hf
      obtain ⟨pc, g', pc', hpc, hstep, rfl⟩ := fire_alone (fun _ _ _ => rfl) hf
      obtain ⟨hN', hl'⟩ := acquireStep_numbered hN (hl pc (List.mem_of_getElem? hpc)) hstep
      exact ⟨hN', forall_set hl' hl fun _ => id⟩
  exact hI.1

/-- Entries of a list without repetitions, as many as it has, are a rearrangement
of it exactly when they stand at different positions. -/
theorem perm_iff_nodup {α β : Type} {xs : List α} {block : List β} {f : β → Nat} {g : β → α}
    (hxs : xs.Nodup) (hlen : block.length = xs.length)
    (h : ∀ q ∈ block, xs[f q]? = some (g q)) :
    (block.map g).Perm xs ↔ (block.map f).Nodup := by
  have hsame : ∀ q ∈ block, ∀ q' ∈ block, f q = f q' ↔ g q = g q' := by
    intro q hq q' hq'
    have hfq := h q hq
    have hfq' := h q' hq'
    constructor
    · intro heq
      rw [heq, hfq', Option.some.injEq] at hfq
      exact hfq.symm
    · intro heq
      obtain ⟨hlt, -⟩ := List.getElem?_eq_some_iff.mp hfq
      exact (List.getElem?_inj hlt hxs).mp (by rw [hfq, hfq', heq])
  have hnodup : (block.map g).Nodup ↔ (block.map f).Nodup := by
    unfold List.Nodup
    rw [List.pairwise_map, List.pairwise_map]
    exact List.Pairwise.iff_of_mem fun hq hq' => not_congr (hsame _ hq _ hq').symm
  rw [← hnodup]
  constructor
  · intro hperm
    exact hperm.nodup_iff.mpr hxs
  · intro hnd
    refine (List.subperm_of_subset hnd ?_).perm_of_length_le (by simp [hlen])
    intro x hx
    obtain ⟨q, hq, rfl⟩ := List.mem_map.mp hx
    exact List.mem_of_getElem? (h q hq)

/-- Among `n` consecutive picks for a service with `n` instances each instance is
picked once exactly when no two of these picks are a multiple of `n` apart in
the sequence of all picks of the client. -/
theorem fair_iff {service : String} {earlier block later : List (Pick × Nat)}
    (h : Run (client instanceCache) Any (start services) tr s)
    (hwrap : s.shared.picks.length < 2 ^ 64) (hdistinct : (instanceCache service).Nodup)
    (hblock : picksFor service s.shared.picks = earlier ++ block ++ later)
    (hlen : block.length = (instanceCache service).length) :
    (block.map (·.1.inst)).Perm (instanceCache service) ↔
      (block.map (·.2 % (instanceCache service).length)).Nodup := by
  apply perm_iff_nodup hdistinct hlen
  intro q hq
  have hmem : q ∈ picksFor service s.shared.picks := by simp [hblock, hq]
  obtain ⟨hq, hservice⟩ := List.mem_filter.mp hmem
  obtain rfl : q.1.service = service := by simpa using hservice
  obtain ⟨hpos, hget⟩ := List.mk_mem_zipIdx_iff_le_and_getElem?_sub.mp hq
  obtain ⟨hlt, -⟩ := List.getElem?_eq_some_iff.mp hget
  have htaken := (run_numbered h).taken _ _ hget
  have hsmall : (q.2 - 1 + 1) % 2 ^ 64 = q.2 := by omega
  rwa [hsmall] at htaken

end Runs

def replica (id service : String) : ServiceInstance :=
  ⟨id, service, "v1", "127.0.0.1", 8080, [], 100, .up⟩

/-- Every service has two instances. -/
def twoEach (service : String) : List ServiceInstance :=
  [replica "1" service, replica "2" service]

/-- Two calls of one service. -/
def usersTwice : List (Nat × Ev) := [(0, .step), (0, .step), (1, .step), (1, .step)]

theorem usersTwice_runs :
    (exec (client twoEach) Any (start ["users", "users"]) usersTwice).isSome := by decide

theorem fair_iff_usersTwice :
    let s := (exec (client twoEach) Any (start ["users", "users"]) usersTwice).get usersTwice_runs
    (picksFor "users" s.shared.picks).map (·.2) = [1, 2] ∧
    ((picksFor "users" s.shared.picks).map (·.1.inst)).Perm (twoEach "users") := by
  intro s
  have hblock : picksFor "users" s.shared.picks = [] ++ picksFor "users" s.shared.picks ++ [] :=
    (List.append_nil _).symm
  exact ⟨by decide, (fair_iff (run_exec usersTwice_runs) (by decide) (by decide) hblock
    (by decide)).mpr (by decide)⟩

/-- Two services called in turn, twice. -/
def inTurn : List (Nat × Ev) :=
  [(0, .step), (0, .step), (1, .step), (1, .step), (2, .step), (2, .step), (3, .step), (3, .step)]

theorem inTurn_runs :
    (exec (client twoEach) Any (start ["users", "orders", "users", "orders"]) inTurn).isSome := by
  decide

theorem alternating_unfair :
    ¬ ∀ (instanceCache : String → List ServiceInstance) (services : List String)
      (tr : List (Nat × Ev)) (s : Config Shared Pc) (service : String)
      (earlier block later : List (Pick × Nat)),
      Run (client instanceCache) Any (start services) tr s → s.shared.picks.length < 2 ^ 64 →
      (instanceCache service).Nodup →
      picksFor service s.shared.picks = earlier ++ block ++ later →
      block.length = (instanceCache service).length →
      (block.map (·.1.inst)).Perm (instanceCache service) := by
  intro h
  have hbad := h twoEach ["users", "orders", "users", "orders"] inTurn _ "users" [] _ []
    (run_exec inTurn_runs) (by decide) (by decide) (List.append_nil _).symm (by decide)
  exact absurd hbad (by decide)

end RpcInGo.Balancer.RoundRobin
