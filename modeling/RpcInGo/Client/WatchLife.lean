import RpcInGo.Client.CacheSync

/-!
The watches of `discoverySource` over any `registry.Discovery`: `GetInstances` answers
anything, `Watch` and `Watcher.Next` may fail. An entry of `watchers` outlives the
goroutine it stands for, and so does a cached list.

* `step_shape`: what one step does to one service;
* `run_served`: while neither `Watch` nor `Next` fails for a service, its cached list has
  a goroutine that delivers events to it, or the start of one is pending;
* `source_refines`: the model over the in-memory registry is an instance.
-/

namespace RpcInGo.Client.WatchLife
open Lib.Goroutine Protocol.Message Registry.Instance Source CacheSync

/-- The maps `instanceCache` and `watchers`, the latter by its keys. -/
structure Maps where
  instanceCache : String → Option (List ServiceInstance)
  watched : String → Bool

/-- Program points of `getInstances` and `watchService`; `other` is a goroutine that uses
neither map. -/
inductive Point
  | called (service : String)
  | missed (service : String)
  | holding (service : String) (instances : List ServiceInstance)
  | stored (service : String) (instances : List ServiceInstance)
  | returned (instances : List ServiceInstance) (err : Option GoError)
  | starting (service : String)
  | watching (service : String)
  | handling (service : String) (event : Event)
  | stopped
  | other
  deriving DecidableEq

/-- The answers of the discovery and of the watcher. -/
inductive Answer
  | read
  | discover (result : Except GoError (List ServiceInstance))
  | store
  | spawn
  | start (err : Option GoError)
  | next (result : Except GoError Event)
  | handle

def Maps.store (g : Maps) (service : String) (instances : List ServiceInstance) : Maps :=
  { g with instanceCache := Function.update g.instanceCache service (some instances) }

def Maps.subscribe (g : Maps) (service : String) : Maps :=
  { g with watched := Function.update g.watched service true }

def watchStep (cfg : SourceConfig) (g : Maps) :
    Point → Answer → Option (Maps × Point × List Point)
  | .called service, .read =>
    match g.instanceCache service with
    | some (x :: xs) => some (g, .returned (x :: xs) none, [])
    | _ => some (g, .missed service, [])
  | .missed service, .discover result =>
    if cfg.hasDiscovery then
      match result with
      | .ok instances => some (g, .holding service instances, [])
      | .error e =>
        some (g, .returned [] (some (.wrapf "discovery get instances: %w" [] e)), [])
    else some (g, .returned [] (some (.errorf "no discovery configured" [])), [])
  | .holding service instances, .store =>
    some (g.store service instances, .stored service instances, [])
  | .stored service instances, .spawn =>
    some (g, .returned instances none, if cfg.enableWatch then [.starting service] else [])
  | .starting service, .start err =>
    if g.watched service then some (g, .stopped, [])
    else
      match err with
      | some _ => some (g, .stopped, [])
      | none => some (g.subscribe service, .watching service, [])
  | .watching service, .next result =>
    match result with
    | .ok event => some (g, .handling service event, [])
    | .error _ => some (g, .stopped, [])
  | .handling service event, .handle =>
    some (g.store service (handleWatchEvent ((g.instanceCache service).getD []) event).1,
      .watching service, [])
  | _, _ => none

def watchSource (cfg : SourceConfig) : Program Maps Point Answer := ⟨watchStep cfg⟩

def noneYet : Maps := ⟨fun _ => none, fun _ => false⟩

/-- Calls of `getInstances` for the listed services, beside other goroutines. -/
def calls (services : List String) (others : Nat) : Config Maps Point :=
  ⟨noneYet, services.map .called ++ List.replicate others .other⟩

/-! ## The property -/

/-- The goroutine delivers the events of the service to the cache. -/
def delivers (service : String) : Point → Int
  | .watching sv | .handling sv _ => if sv = service then 1 else 0
  | _ => 0

/-- The goroutine is about to start a watch of the service. -/
def startsWatch (service : String) : Point → Int
  | .stored sv _ | .starting sv => if sv = service then 1 else 0
  | _ => 0

/-- If `getInstances` would serve the service from the cache and no start of a watch is
pending, some goroutine delivers its events. -/
def Served (s : Config Maps Point) (service : String) : Prop :=
  (∃ x xs, s.shared.instanceCache service = some (x :: xs)) →
    (∀ pc ∈ s.threads, startsWatch service pc = 0) → ∃ pc ∈ s.threads, delivers service pc = 1

inductive Condition where
  /-- `Watch` does not fail for the service. -/
  | subscribes
  /-- `Next` does not fail for the service. -/
  | receives
  deriving DecidableEq

def asks (service : String) (c : Condition) (s : Config Maps Point) (i : Nat) (e : Answer) : Bool :=
  match c, s.threads[i]?, e with
  | .subscribes, some (.starting sv), .start (some _) => sv ≠ service || s.shared.watched service
  | .receives, some (.watching sv), .next (.error _) => sv ≠ service
  | _, _, _ => true

/-! ## One step -/

theorem delivers_nonneg (service : String) (pc : Point) : 0 ≤ delivers service pc := by
  unfold delivers
  split
  · split <;> decide
  · split <;> decide
  · decide

theorem startsWatch_nonneg (service : String) (pc : Point) : 0 ≤ startsWatch service pc := by
  unfold startsWatch
  split
  · split <;> decide
  · split <;> decide
  · decide

/-- What a step means for one service: how many more goroutines deliver its events and how
many more starts are pending, and what becomes of its entries in the maps. -/
inductive Shape (service : String) (g : Maps) (pc : Point) (e : Answer) (g' : Maps) :
    Int → Int → Prop
  | idle (hw : g'.watched service = g.watched service)
      (hc : g'.instanceCache service = g.instanceCache service) : Shape service g pc e g' 0 0
  | stores (hw : g'.watched service = g.watched service) : Shape service g pc e g' 0 1
  | handled (hpc : delivers service pc = 1) (hw : g'.watched service = g.watched service) :
      Shape service g pc e g' 0 0
  | already (hw : g.watched service = true) (hg : g' = g) : Shape service g pc e g' 0 (-1)
  | begins (hw : g.watched service = false) (hw' : g'.watched service = true) :
      Shape service g pc e g' 1 (-1)
  | watchFails (err : GoError) (hpc : pc = .starting service) (he : e = .start (some err))
      (hw : g.watched service = false) (hg : g' = g) : Shape service g pc e g' 0 (-1)
  | nextFails (err : GoError) (hpc : pc = .watching service) (he : e = .next (.error err))
      (hg : g' = g) : Shape service g pc e g' (-1) 0

section Steps
variable {cfg : SourceConfig} {g g' : Maps} {pc pc' : Point} {e : Answer} {new : List Point}

theorem step_shape (hon : cfg.enableWatch = true) (service : String)
    (h : watchStep cfg g pc e = some (g', pc', new)) :
    ∃ d p, delivers service pc' + total (delivers service) new = delivers service pc + d ∧
      startsWatch service pc' + total (startsWatch service) new = startsWatch service pc + p ∧
      Shape service g pc e g' d p := by
  revert h
  fun_cases watchStep cfg g pc e <;> intro h <;> try contradiction
  all_goals cases h
  case case1 | case2 | case3 | case4 | case5 => exact ⟨0, 0, rfl, rfl, .idle rfl rfl⟩
  case case6 sv instances =>
    by_cases hsv : sv = service
    · refine ⟨0, 1, rfl, by simp [startsWatch, hsv], .stores rfl⟩
    · refine ⟨0, 0, rfl, by simp [startsWatch, hsv], .idle rfl ?_⟩
      exact Function.update_of_ne (Ne.symm hsv) _ _
  case case7 sv instances =>
    refine ⟨0, 0, by simp [hon, delivers], ?_, .idle rfl rfl⟩
    simp [hon, startsWatch]
  case case8 sv err hw =>
    by_cases hsv : sv = service
    · subst hsv
      exact ⟨0, -1, rfl, by simp [startsWatch], .already hw rfl⟩
    · exact ⟨0, 0, rfl, by simp [startsWatch, hsv], .idle rfl rfl⟩
  case case9 sv hw err =>
    by_cases hsv : sv = service
    · subst hsv
      exact ⟨0, -1, rfl, by simp [startsWatch], .watchFails err rfl rfl (by simpa using hw) rfl⟩
    · exact ⟨0, 0, rfl, by simp [startsWatch, hsv], .idle rfl rfl⟩
  case case10 sv hw =>
    by_cases hsv : sv = service
    · subst hsv
      refine ⟨1, -1, by simp [delivers], by simp [startsWatch], .begins (by simpa using hw) ?_⟩
      simp [Maps.subscribe]
    · refine ⟨0, 0, by simp [delivers, hsv], by simp [startsWatch, hsv], .idle ?_ rfl⟩
      exact Function.update_of_ne (Ne.symm hsv) _ _
  case case11 sv event => exact ⟨0, 0, by simp [delivers], rfl, .idle rfl rfl⟩
  case case12 sv err =>
    by_cases hsv : sv = service
    · subst hsv
      exact ⟨-1, 0, by simp [delivers], rfl, .nextFails err rfl rfl rfl⟩
    · exact ⟨0, 0, by simp [delivers, hsv], rfl, .idle rfl rfl⟩
  case case13 sv event =>
    by_cases hsv : sv = service
    · exact ⟨0, 0, by simp [delivers], rfl, .handled (by simp [delivers, hsv]) rfl⟩
    · refine ⟨0, 0, by simp [delivers], rfl, .idle rfl ?_⟩
      exact Function.update_of_ne (Ne.symm hsv) _ _

end Steps

/-! ## Runs -/

section Runs
variable {cfg : SourceConfig} {service : String} {s t : Config Maps Point} {i : Nat} {e : Answer}

theorem fire_shape (hon : cfg.enableWatch = true) (service : String)
    (h : (watchSource cfg).fire s i e = some t) :
    ∃ pc d p, s.threads[i]? = some pc ∧
      total (delivers service) t.threads = total (delivers service) s.threads + d ∧
      total (startsWatch service) t.threads = total (startsWatch service) s.threads + p ∧
      Shape service s.shared pc e t.shared d p := by
  obtain ⟨pc, g', pc', new, hi, hs, rfl⟩ := fire_cases h
  obtain ⟨d, p, hd, hp, hshape⟩ := step_shape hon service hs
  refine ⟨pc, d, p, hi, ?_, ?_, hshape⟩
  · rw [total_append, total_set _ _ hi]
    omega
  · rw [total_append, total_set _ _ hi]
    omega

/-- One goroutine at most delivers the events of a service, and only if there is an entry
for it. -/
structure Lone (s : Config Maps Point) (service : String) : Prop where
  entry : s.shared.watched service = false → total (delivers service) s.threads = 0
  one : total (delivers service) s.threads ≤ 1

theorem fire_lone (hon : cfg.enableWatch = true) (hl : Lone s service)
    (h : (watchSource cfg).fire s i e = some t) : Lone t service := by
  obtain ⟨pc, d, p, hi, hd, -, hshape⟩ := fire_shape hon service h
  have hone := hl.one
  have hnn : 0 ≤ total (delivers service) t.threads :=
    total_nonneg fun q _ => delivers_nonneg service q
  cases hshape with
  | idle hw | stores hw | handled _ hw =>
    refine ⟨fun hf => ?_, by omega⟩
    have := hl.entry (hw.symm.trans hf)
    omega
  | already _ hg | watchFails _ _ _ _ hg | nextFails _ _ _ hg =>
    refine ⟨fun hf => ?_, by omega⟩
    rw [hg] at hf
    have := hl.entry hf
    omega
  | begins hw hw' =>
    have hzero := hl.entry hw
    refine ⟨fun hf => ?_, by omega⟩
    rw [hw'] at hf
    cases hf

/-- An entry has its goroutine, and a cached list an entry or a pending start. -/
structure Tended (s : Config Maps Point) (service : String) : Prop where
  lone : Lone s service
  entry : s.shared.watched service = true → 1 ≤ total (delivers service) s.threads
  cached : (s.shared.instanceCache service).isSome = true →
    s.shared.watched service = true ∨ 1 ≤ total (startsWatch service) s.threads

theorem fire_tended (hon : cfg.enableWatch = true) (ht : Tended s service)
    (hok : Meets (asks service) [.subscribes, .receives] s i e)
    (h : (watchSource cfg).fire s i e = some t) : Tended t service := by
  have hlone := fire_lone hon ht.lone h
  obtain ⟨pc, d, p, hi, hd, hp, hshape⟩ := fire_shape hon service h
  have hnn : 0 ≤ total (startsWatch service) s.threads :=
    total_nonneg fun q _ => startsWatch_nonneg service q
  cases hshape with
  | idle hw hc =>
    refine ⟨hlone, fun hf => ?_, fun hf => ?_⟩
    · have := ht.entry (hw.symm.trans hf)
      omega
    · rw [hc] at hf
      rw [hw]
      exact (ht.cached hf).imp_right fun _ => by omega
  | stores hw =>
    refine ⟨hlone, fun hf => ?_, fun _ => Or.inr (by omega)⟩
    have := ht.entry (hw.symm.trans hf)
    omega
  | handled hpc hw =>
    -- only here a list is cached without a start to come, by a goroutine that is alive
    have hlive : delivers service pc ≤ total (delivers service) s.threads :=
      le_total_of_mem (delivers_nonneg service) (List.mem_of_getElem? hi)
    have hwatched : s.shared.watched service = true := by
      by_contra hne
      have := ht.lone.entry (by simpa using hne)
      omega
    refine ⟨hlone, fun _ => ?_, fun _ => Or.inl (hw.trans hwatched)⟩
    have := ht.entry hwatched
    omega
  | already hw hg =>
    have := ht.entry hw
    exact ⟨hlone, fun _ => by omega, fun _ => Or.inl (hg ▸ hw)⟩
  | begins hw hw' =>
    have := ht.lone.entry hw
    exact ⟨hlone, fun _ => by omega, fun _ => Or.inl hw'⟩
  | watchFails err hpc he hw =>
    have hasks := hok .subscribes (by decide)
    subst he
    simp [asks, hi, hpc, hw] at hasks
  | nextFails err hpc he =>
    have hasks := hok .receives (by decide)
    subst he
    simp [asks, hi, hpc] at hasks

theorem calls_lone (services : List String) (others : Nat) (service : String) :
    Lone (calls services others) service := by
  have hzero : total (delivers service) (calls services others).threads = 0 := by
    apply total_eq_zero
    intro pc hpc
    rcases List.mem_append.mp hpc with hpc | hpc
    · obtain ⟨sv, -, rfl⟩ := List.mem_map.mp hpc
      rfl
    · rw [List.eq_of_mem_replicate hpc]
      rfl
  exact ⟨fun _ => hzero, by omega⟩

theorem calls_tended (services : List String) (others : Nat) (service : String) :
    Tended (calls services others) service :=
  ⟨calls_lone services others service, nofun, nofun⟩

theorem Tended.served (ht : Tended s service) : Served s service := by
  rintro ⟨x, xs, hcache⟩ hnone
  have hzero : total (startsWatch service) s.threads = 0 := total_eq_zero hnone
  have hwatched : s.shared.watched service = true := by
    refine (ht.cached (by simp [hcache])).resolve_right fun hpos => ?_
    omega
  have hlive := ht.entry hwatched
  by_contra hdead
  push Not at hdead
  have : total (delivers service) s.threads = 0 := by
    apply total_eq_zero
    intro pc hpc
    have := hdead pc hpc
    have hle := le_total_of_mem (delivers_nonneg service) hpc
    have := ht.lone.one
    have := delivers_nonneg service pc
    omega
  omega

end Runs

/-- While neither `Watch` nor `Next` fails for a service, a list of it that is served from
the cache has a goroutine that delivers events to it, or the start of one is pending. -/
theorem run_served {cfg : SourceConfig} {services : List String} {others : Nat} {service : String}
    {tr : List (Nat × Answer)} {s : Config Maps Point} (hon : cfg.enableWatch = true)
    (hr : Run (watchSource cfg) (Meets (asks service) [.subscribes, .receives])
      (calls services others) tr s) : Served s service := by
  have ht : Tended s service :=
    hr.invariant (I := fun s => Tended s service) (calls_tended services others service)
      fun _ _ _ _ ht hok h => fire_tended hon ht hok h
  exact ht.served

/-- An instance is cached, its service is watched, and the instance leaves. -/
def leaves : List (Nat × Answer) :=
  [(0, .read), (0, .discover (.ok [user "u1", user "u2"])), (0, .store), (0, .spawn),
    (1, .start none), (1, .next (.ok ⟨.delete, user "u1"⟩)), (1, .handle)]

theorem leaves_runs : (exec (watchSource watchingSource) (Meets (asks "users")
    [.subscribes, .receives]) (calls ["users"] 0) leaves).isSome := by
  decide +kernel

theorem run_served_leaves :
    (Option.get _ leaves_runs).shared.instanceCache "users" = some [user "u2"] ∧
      Served (Option.get _ leaves_runs) "users" :=
  ⟨by decide +kernel, run_served rfl (run_exec leaves_runs)⟩

/-! ## Failures -/

def compacted : GoError := .foreign "mvcc: required revision has been compacted"

/-- An instance is cached, its service is watched, and `Next` fails. -/
def watchLost : List (Nat × Answer) :=
  [(0, .read), (0, .discover (.ok [user "u1"])), (0, .store), (0, .spawn), (1, .start none),
    (1, .next (.error compacted))]

theorem watchLost_runs : (exec (watchSource watchingSource) (Meets (asks "users") [.subscribes])
    (calls ["users"] 0) watchLost).isSome := by
  decide +kernel

/-- The goroutines of a run at its end, when none delivers events and none starts a watch. -/
theorem not_served {s : Config Maps Point} {service : String} (x : ServiceInstance)
    (xs : List ServiceInstance) (hcache : s.shared.instanceCache service = some (x :: xs))
    (hnone : ∀ pc ∈ s.threads, startsWatch service pc = 0 ∧ delivers service pc = 0) :
    ¬ Served s service := by
  intro hserved
  obtain ⟨pc, hpc, hlive⟩ := hserved ⟨x, xs, hcache⟩ fun pc hpc => (hnone pc hpc).1
  rw [(hnone pc hpc).2] at hlive
  cases hlive

/-- The cached list is served for ever without anybody to change it. -/
theorem next_error_unserved :
    ¬ ∀ (cfg : SourceConfig) (services : List String) (others : Nat) (service : String)
      (tr : List (Nat × Answer)) (s : Config Maps Point), cfg.enableWatch = true →
      Run (watchSource cfg) Any (calls services others) tr s → Served s service := by
  intro h
  have hserved := h watchingSource ["users"] 0 "users" watchLost _ rfl
    ((run_exec watchLost_runs).mono fun _ _ _ _ => trivial)
  exact not_served (user "u1") [] (by decide +kernel) (by decide +kernel) hserved

/-! ## The in-memory registry -/

/-- The maps and the goroutines of the model over the in-memory registry. -/
def mapsOf (g : Shared) : Maps := ⟨g.instanceCache, fun service => (g.watchers service).isSome⟩

def pointOf : Pc → Point
  | .called service => .called service
  | .missed service => .missed service
  | .holding service instances _ => .holding service instances
  | .stored service instances => .stored service instances
  | .returned instances err => .returned instances err
  | .starting service => .starting service
  | .watching service _ => .watching service
  | .handling service _ event => .handling service event
  | .stopped => .stopped
  | .operator => .other

def viewOf (s : Config Shared Pc) : Config Maps Point := ⟨mapsOf s.shared, s.threads.map pointOf⟩

/-- Callers of the registry do not touch the maps. -/
theorem operate_maps {g g' : Shared} {e : Ev} (h : operate g e = some g') :
    mapsOf g' = mapsOf g := by
  revert h
  fun_cases operate g e <;> intro h <;> try contradiction
  all_goals cases h
  all_goals rfl

theorem update_isSome (f : String → Option Nat) (service : String) (ch : Nat) :
    (fun sv => (Function.update f service (some ch) sv).isSome) =
      Function.update (fun sv => (f sv).isSome) service true := by
  funext sv
  by_cases h : sv = service
  · subst h
    simp
  · simp [Function.update_of_ne h]

/-- A step of the model over the in-memory registry is one here, or changes nothing here. -/
theorem stepped_view {cfg : SourceConfig} {g g' : Shared} {pc pc' : Pc} {e : Ev} {new : List Pc}
    (h : Stepped cfg g pc e g' pc' new) :
    (mapsOf g' = mapsOf g ∧ pointOf pc' = pointOf pc ∧ new = []) ∨
      ∃ a, watchStep cfg (mapsOf g) (pointOf pc) a =
        some (mapsOf g', pointOf pc', new.map pointOf) := by
  cases h with
  | hit hc => exact Or.inr ⟨.read, by simp [watchStep, mapsOf, pointOf, hc]⟩
  | @miss service hc =>
    refine Or.inr ⟨.read, ?_⟩
    simp only [watchStep, mapsOf, pointOf]
    rfl
  | noDiscovery hd => exact Or.inr ⟨.discover (.ok []), by simp [watchStep, pointOf, hd]⟩
  | @snapshot service order hd =>
    exact Or.inr ⟨.discover (.ok order), by simp [watchStep, pointOf, hd]⟩
  | store => exact Or.inr ⟨.store, rfl⟩
  | spawn =>
    refine Or.inr ⟨.spawn, ?_⟩
    simp only [watchStep, pointOf]
    split <;> rfl
  | already hw => exact Or.inr ⟨.start none, by simp [watchStep, mapsOf, pointOf, hw]⟩
  | @subscribe service hw =>
    refine Or.inr ⟨.start none, ?_⟩
    simp only [watchStep, mapsOf, pointOf, Shared.subscribe, update_isSome, hw]
    rfl
  | @received service ch r event _ => exact Or.inr ⟨.next (.ok event), rfl⟩
  | @ended service ch r err _ => exact Or.inr ⟨.next (.error err), rfl⟩
  | failed => exact Or.inr ⟨.next (.error compacted), rfl⟩
  | handled => exact Or.inr ⟨.handle, rfl⟩
  | operated hop => exact Or.inl ⟨operate_maps hop, rfl, rfl⟩

theorem fire_view {cfg : SourceConfig} {s t : Config Shared Pc} {i : Nat} {e : Ev}
    (h : (source cfg).fire s i e = some t) :
    ∃ tr, Run (watchSource cfg) Any (viewOf s) tr (viewOf t) := by
  obtain ⟨pc, g', pc', new, hi, hs, rfl⟩ := fire_cases h
  have hi' : (s.threads.map pointOf)[i]? = some (pointOf pc) := by
    rw [List.getElem?_map, hi, Option.map_some]
  obtain ⟨hg, hp, rfl⟩ | ⟨a, ha⟩ := stepped_view (step_stepped hs)
  · have hsame : viewOf ⟨g', s.threads.set i pc' ++ []⟩ = viewOf s := by
      simp only [viewOf, hg, List.append_nil, List.map_set, hp, set_same hi']
    rw [hsame]
    exact ⟨[], .refl⟩
  · refine ⟨[(i, a)], .step .refl trivial ?_⟩
    simp only [Program.fire, viewOf, hi', watchSource, ha, List.map_append, List.map_set]

theorem view_start (services : List String) (operators : Nat) :
    viewOf (start services operators) = calls services operators := by
  simp [viewOf, start, calls, mapsOf, noneYet, pointOf]

/-- Every run of the model over the in-memory registry is a run over a discovery. -/
theorem source_refines {cfg : SourceConfig} {ok : Config Shared Pc → Nat → Ev → Prop}
    {services : List String} {operators : Nat} {t : Config Shared Pc} {tr : List (Nat × Ev)}
    (hr : Run (source cfg) ok (start services operators) tr t) :
    ∃ tr', Run (watchSource cfg) Any (calls services operators) tr' (viewOf t) := by
  rw [← view_start]
  exact hr.view viewOf fun _ _ _ _ hf => fire_view hf

end RpcInGo.Client.WatchLife
