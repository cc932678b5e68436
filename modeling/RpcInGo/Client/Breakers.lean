import Mathlib.Logic.Function.Basic
import RpcInGo.Breaker.Model
import RpcInGo.Lib.Objects

/-!
The circuit breakers of a client. `getCircuitBreaker` finds the breaker of a service in a map
under a read lock, and looks again under the write lock before it makes one; `CallResponse` then
runs the attempt on it. Breakers are named by the order of their creation.

* `run_owned`: the map names the breakers of the calls that have got one;
* `service_breaker_runs`: however the calls of a client interleave, all calls of a service use
  one breaker, and what happens to it is a run of a single breaker under the calls of that
  service alone.
-/

namespace RpcInGo.Client.Breakers
open Lib.Goroutine Lib.Objects Breaker.Model

variable {A : Type}

/-- The map of the client, and the breakers it has made. -/
structure ClientBreakers where
  breakers : String → Option Nat
  made : List Shared

def noBreakers : ClientBreakers := ⟨fun _ => none, []⟩

/-- A call: in `getCircuitBreaker` of its service, or in `CallResponse` of the breaker it got. -/
inductive Pc (A : Type)
  | lookup (service : String)
  | lock (service : String)
  | calling (service : String) (n : Nat) (pc : Breaker.Model.Pc A)

inductive Ev (A : Type)
  | read
  | create (now : Int)
  | breaker (e : Breaker.Model.Ev A)

def newShared (now : Int) : Shared := ⟨newCircuitBreaker defaultConfig now, now, 0, false, 0⟩

def clientStep (g : ClientBreakers) : Pc A → Ev A → Option (ClientBreakers × Pc A)
  | .lookup service, .read =>
    match g.breakers service with
    | some n => some (g, .calling service n .called)
    | none => some (g, .lock service)
  | .lock service, .create now =>
    match g.breakers service with
    | some n => some (g, .calling service n .called)
    | none =>
      some (⟨Function.update g.breakers service (some g.made.length), g.made ++ [newShared now]⟩,
        .calling service g.made.length .called)
  | .calling service n pc, .breaker e =>
    match g.made[n]? with
    | none => none
    | some cb =>
      (callStep defaultConfig cb pc e).map fun r =>
        (⟨g.breakers, g.made.set n r.1⟩, .calling service n r.2)
  | _, _ => none

def clientCalls : Program ClientBreakers (Pc A) (Ev A) where
  step g q e := (clientStep g q e).map fun r => (r.1, r.2, [])

/-- A new client, and calls to come for the services in `services`. -/
def clientStart (services : List String) : Config ClientBreakers (Pc A) :=
  ⟨noBreakers, services.map .lookup⟩

/-! ## One breaker -/

/-- Where a call is in the program of the breaker `n`; it has not come there if it has another
breaker or none yet. -/
def Pc.on (n : Nat) : Pc A → Breaker.Model.Pc A
  | .calling _ k pc => if k = n then pc else .called
  | _ => .called

/-- What a step of a call is for the breaker `n`. -/
def breakerEvent (n : Nat) : Pc A → Ev A → Option (Breaker.Model.Ev A)
  | .calling _ k _, .breaker e => if k = n then some e else none
  | _, _ => none

def breakerFamily : Family ClientBreakers (Pc A) (Ev A) Shared (Breaker.Model.Pc A)
    (Breaker.Model.Ev A) where
  object g n := g.made[n]?
  place n q pc := q.on n = pc
  event n _ q e := breakerEvent n q e

/-- The steps of a schedule on the breaker `n`. -/
def breakerTrace (services : List String) (n : Nat) (tr : List (Nat × Ev A)) :
    List (Nat × Breaker.Model.Ev A) :=
  breakerFamily.trace clientCalls n (clientStart services) tr

inductive Stepped (g : ClientBreakers) : Pc A → Ev A → ClientBreakers → Pc A → Prop
  | found {q : Pc A} {e : Ev A} {service : String} {n : Nat} :
      q = .lookup service ∨ q = .lock service → g.breakers service = some n →
      Stepped g q e g (.calling service n .called)
  | missed {service : String} : Stepped g (.lookup service) .read g (.lock service)
  | made {service : String} {now : Int} : g.breakers service = none →
      Stepped g (.lock service) (.create now)
        ⟨Function.update g.breakers service (some g.made.length), g.made ++ [newShared now]⟩
        (.calling service g.made.length .called)
  | called {service : String} {n : Nat} {cb cb' : Shared} {pc pc' : Breaker.Model.Pc A}
      {e : Breaker.Model.Ev A} : g.made[n]? = some cb →
      callStep defaultConfig cb pc e = some (cb', pc') →
      Stepped g (.calling service n pc) (.breaker e) ⟨g.breakers, g.made.set n cb'⟩
        (.calling service n pc')

section Steps
variable {g g' : ClientBreakers} {q q' : Pc A} {e : Ev A}

theorem clientStep_stepped (h : clientStep g q e = some (g', q')) : Stepped g q e g' q' := by
  revert h
  fun_cases clientStep g q e <;> intro h
  case case1 service n hn => cases h; exact .found (.inl rfl) hn
  case case2 service hn => cases h; exact .missed
  case case3 service now n hn => cases h; exact .found (.inr rfl) hn
  case case4 service now hn => cases h; exact .made hn
  case case6 service n pc e cb hcb =>
    obtain ⟨⟨cb', pc'⟩, hstep, heq⟩ := Option.map_eq_some_iff.mp h
    cases heq
    exact .called hcb hstep
  all_goals cases h

theorem on_found {service : String} (n k : Nat) (h : q = .lookup service ∨ q = .lock service) :
    (Pc.calling service k .called : Pc A).on n = q.on n := by
  rcases h with rfl | rfl <;> simp [Pc.on]

theorem stepped_touches (h : Stepped g q e g' q') (n : Nat) :
    Touches breakerFamily (calls (A := A) defaultConfig) (fun cb => ∃ now, cb = newShared now) n
      g q e g' q' := by
  cases h with
  | found hq hn =>
    have hev : breakerEvent n q e = none := by rcases hq with rfl | rfl <;> rfl
    exact .keeps hev rfl fun pc hpc => (on_found n _ hq).trans hpc
  | missed => exact .keeps rfl rfl fun pc hpc => hpc
  | @made service now hnone =>
    have hplace : ∀ pc, breakerFamily.place n (Pc.lock service) pc →
        breakerFamily.place n (Pc.calling service g.made.length .called : Pc A) pc :=
      fun pc hpc => (on_found n _ (.inr rfl)).trans hpc
    by_cases hn : n = g.made.length
    · subst hn
      exact .creates rfl (List.getElem?_eq_none (Nat.le_refl _)) List.getElem?_concat_length
        ⟨now, rfl⟩ hplace
    · refine .keeps rfl ?_ hplace
      change (g.made ++ [newShared now])[n]? = g.made[n]?
      rw [List.getElem?_append]
      split
      · rfl
      · rw [List.getElem?_eq_none (by simp; omega), List.getElem?_eq_none (by omega)]
  | @called service k cb cb' pc pc' e hcb hstep =>
    by_cases hk : k = n
    · subst hk
      have hlt := (List.getElem?_eq_some_iff.mp hcb).1
      refine .steps (if_pos rfl) hcb (List.getElem?_set_self hlt) fun p hp => ?_
      obtain rfl : pc = p := (if_pos rfl).symm.trans hp
      exact ⟨pc', by simp [calls, hstep], if_pos rfl⟩
    · refine .keeps (if_neg hk) (List.getElem?_set_ne hk) fun p hp => ?_
      exact (if_neg hk).trans ((if_neg hk).symm.trans hp)

end Steps

/-! ## One service -/

/-- Where a call is as seen from a service: calls of other services have not come. -/
def Pc.forService (service : String) : Pc A → Breaker.Model.Pc A
  | .calling s _ pc => if s = service then pc else .called
  | _ => .called

/-- A breaker belongs to one service, whose calls have it; one of them has made it. -/
structure Owned (t : Config ClientBreakers (Pc A)) : Prop where
  made : ∀ service n, t.shared.breakers service = some n → n < t.shared.made.length
  one : ∀ service service' n, t.shared.breakers service = some n →
    t.shared.breakers service' = some n → service = service'
  held : ∀ service n pc, .calling service n pc ∈ t.threads → t.shared.breakers service = some n
  used : ∀ service n, t.shared.breakers service = some n → ∃ pc, .calling service n pc ∈ t.threads

section Runs
variable {services : List String} {tr : List (Nat × Ev A)} {t u : Config ClientBreakers (Pc A)}

/-- A call that has got its breaker keeps it. -/
theorem calling_set {q q' : Pc A} {i n : Nat} {service : String} {pc : Breaker.Model.Pc A}
    (hi : t.threads[i]? = some q)
    (hq : ∀ pc, q = .calling service n pc → ∃ pc', q' = .calling service n pc')
    (hmem : .calling service n pc ∈ t.threads) :
    ∃ pc', .calling service n pc' ∈ t.threads.set i q' := by
  obtain ⟨j, hj⟩ := List.getElem?_of_mem hmem
  by_cases hij : i = j
  · subst hij
    obtain ⟨pc', rfl⟩ := hq pc (Option.some.inj (hi.symm.trans hj))
    exact ⟨pc', List.mem_set (List.getElem?_eq_some_iff.mp hi).1 _⟩
  · exact ⟨pc, List.mem_of_getElem? (i := j) (by rw [List.getElem?_set_ne hij, hj])⟩

/-- A step that makes no breaker. -/
theorem Owned.keep {g' : ClientBreakers} {q q' : Pc A} {i : Nat} (hO : Owned t)
    (hi : t.threads[i]? = some q) (hmap : g'.breakers = t.shared.breakers)
    (hlen : g'.made.length = t.shared.made.length)
    (hgot : ∀ service n pc, q' = .calling service n pc → t.shared.breakers service = some n)
    (hkeeps : ∀ service n pc, q = .calling service n pc → ∃ pc', q' = .calling service n pc') :
    Owned ⟨g', t.threads.set i q'⟩ := by
  refine ⟨?_, ?_, fun s n pc hmem => ?_, fun s n hn => ?_⟩
  · rw [hmap, hlen]
    exact hO.made
  · rw [hmap]
    exact hO.one
  · rw [hmap]
    rcases List.mem_or_eq_of_mem_set hmem with hmem | heq
    · exact hO.held s n pc hmem
    · exact hgot s n pc heq.symm
  · rw [hmap] at hn
    obtain ⟨pc, hmem⟩ := hO.used s n hn
    exact calling_set hi (hkeeps s n) hmem

theorem Owned.step {g' : ClientBreakers} {q q' : Pc A} {e : Ev A} {i : Nat} (hO : Owned t)
    (hi : t.threads[i]? = some q) (h : Stepped t.shared q e g' q') :
    Owned ⟨g', t.threads.set i q'⟩ := by
  cases h with
  | found hq hn =>
    refine hO.keep hi rfl rfl (fun s k pc heq => ?_) (fun s k pc heq => ?_)
    · cases heq
      exact hn
    · rcases hq with rfl | rfl <;> cases heq
  | missed =>
    refine hO.keep hi rfl rfl (fun s k pc heq => ?_) (fun s k pc heq => ?_) <;> cases heq
  | @made service now hnone =>
    refine ⟨fun s n hn => ?_, fun s s' n hs hs' => ?_, fun s n pc hmem => ?_, fun s n hn => ?_⟩
    · simp only [Function.update_apply] at hn
      rw [List.length_append, List.length_singleton]
      split at hn
      · cases hn
        exact Nat.lt_succ_self _
      · exact Nat.lt_succ_of_lt (hO.made s n hn)
    · simp only [Function.update_apply] at hs hs'
      split at hs <;> split at hs'
      · rename_i h₁ h₂
        exact h₁.trans h₂.symm
      · cases hs
        exact absurd (hO.made s' _ hs') (Nat.lt_irrefl _)
      · cases hs'
        exact absurd (hO.made s _ hs) (Nat.lt_irrefl _)
      · exact hO.one s s' n hs hs'
    · rcases List.mem_or_eq_of_mem_set hmem with hmem | heq
      · have hs := hO.held s n pc hmem
        have hne : s ≠ service := by
          rintro rfl
          rw [hnone] at hs
          cases hs
        exact (Function.update_of_ne hne ..).trans hs
      · cases heq
        exact Function.update_self ..
    · simp only [Function.update_apply] at hn
      split at hn
      · rename_i hs
        subst hs
        cases hn
        exact ⟨.called, List.mem_set (List.getElem?_eq_some_iff.mp hi).1 _⟩
      · obtain ⟨pc, hmem⟩ := hO.used s n hn
        exact calling_set hi (fun pc heq => by cases heq) hmem
  | called hcb hstep =>
    refine hO.keep hi rfl List.length_set (fun s k pc heq => ?_) (fun s k pc heq => ?_)
    · cases heq
      exact hO.held _ _ _ (List.mem_of_getElem? hi)
    · cases heq
      exact ⟨_, rfl⟩

theorem run_owned (h : Run clientCalls Any (clientStart services) tr t) : Owned t := by
  refine h.invariant ⟨nofun, nofun, fun s n pc hmem => ?_, nofun⟩ fun s i e u hO _ hf => ?_
  · obtain ⟨_, -, heq⟩ := List.mem_map.mp hmem
    cases heq
  · obtain ⟨q, g', q', hi, hstep, rfl⟩ := fire_alone (fun _ _ _ => rfl) hf
    exact hO.step hi (clientStep_stepped hstep)

/-- Seen from the breaker of a service or from the service, a call is at the same point. -/
theorem Owned.on_eq (hO : Owned t) {service : String} {n : Nat}
    (hn : t.shared.breakers service = some n) {q : Pc A} (hq : q ∈ t.threads) :
    q.on n = q.forService service := by
  cases q with
  | lookup | lock => rfl
  | calling s k pc =>
    have hk := hO.held s k pc hq
    by_cases hs : s = service
    · subst hs
      obtain rfl : k = n := Option.some.inj (hk.symm.trans hn)
      simp [Pc.on, Pc.forService]
    · have hne : k ≠ n := by
        rintro rfl
        exact hs (hO.one _ _ _ hk hn)
      simp [Pc.on, Pc.forService, hs, hne]

/-- The breaker of a service is the one of all its calls that have got one, and what happens to
it is a run of a new breaker under the calls of that service: calls of other services leave no
trace. -/
theorem service_breaker_runs (h : Run clientCalls Any (clientStart services) tr t)
    (service : String) (n : Nat) :
    (t.shared.breakers service = some n ↔ ∃ pc, .calling service n pc ∈ t.threads) ∧
    ∀ pc, .calling service n pc ∈ t.threads →
      (∀ k pc', .calling service k pc' ∈ t.threads → k = n) ∧
      ∃ cb now, t.shared.made[n]? = some cb ∧
        Run (calls defaultConfig) Any (start defaultConfig now services.length)
          (breakerTrace services n tr) ⟨cb, t.threads.map (·.forService service)⟩ := by
  have hO := run_owned h
  refine ⟨⟨hO.used service n, fun ⟨pc, hmem⟩ => hO.held service n pc hmem⟩, fun pc hmem => ?_⟩
  have hn := hO.held service n pc hmem
  refine ⟨fun k pc' hk => Option.some.inj ((hO.held service k pc' hk).symm.trans hn), ?_⟩
  have hlt := hO.made _ _ hn
  have hget : t.shared.made[n]? = some t.shared.made[n] := List.getElem?_eq_getElem hlt
  have hidle : ∀ q ∈ (clientStart services : Config ClientBreakers (Pc A)).threads,
      breakerFamily.place n q .called := by
    intro q hq
    obtain ⟨s, -, rfl⟩ := List.mem_map.mp hq
    rfl
  obtain ⟨cb₀, c, ⟨now, rfl⟩, hrun, hview⟩ :=
    run_object (fun _ _ _ => rfl) (fun _ _ _ _ _ hs => stepped_touches (clientStep_stepped hs) n)
      h rfl hidle hget
  refine ⟨c.shared, now, hview.shared, ?_⟩
  have hon : t.threads.map (·.on n) = c.threads := by
    rw [← List.forall₂_eq_eq_eq]
    exact List.forall₂_map_left_iff.mpr hview.threads
  rw [← List.map_congr_left fun q hq => hO.on_eq hn hq, hon]
  simpa [clientStart, start, newShared, breakerTrace] using hrun

end Runs

/-- Two calls of `a` and one of `b`, all of which miss their breaker at first. -/
def threeMiss : List (Nat × Ev Unit) :=
  [(0, .read), (1, .read), (2, .read), (1, .create 0), (2, .create 1), (0, .create 2),
   (1, .breaker (.before 3)), (2, .breaker (.before 3)),
   (2, .breaker (.finish (none, some (.foreign "refused")) 4 4)), (0, .breaker (.before 5))]

theorem threeMiss_runs : (exec clientCalls Any (clientStart ["a", "a", "b"]) threeMiss).isSome := by
  decide

def afterThree : Config ClientBreakers (Pc Unit) :=
  (exec clientCalls Any (clientStart ["a", "a", "b"]) threeMiss).get threeMiss_runs

theorem service_breaker_runs_threeMiss :
    (∀ k pc, .calling "a" k pc ∈ afterThree.threads → k = 0) ∧
    ∃ cb now, afterThree.shared.made[0]? = some cb ∧
      Run (calls (A := Unit) defaultConfig) Any (start defaultConfig now 3)
        [(1, .before 3), (0, .before 5)]
        ⟨cb, [.running ⟨.closed, 0⟩, .running ⟨.closed, 0⟩, .called]⟩ :=
  (service_breaker_runs (run_exec threeMiss_runs) "a" 0).2 (.running ⟨.closed, 0⟩)
    List.mem_cons_self

end RpcInGo.Client.Breakers
