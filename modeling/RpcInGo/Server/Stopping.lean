import RpcInGo.Server.Registered

/-!
What `Stop` does to the transport.

* `stop_drained`: when a `Stop` returns that was called once and after `Start` had registered, the
  instance is out of the registry, the listener is closed and nothing of any connection runs;
* `starts_on`: a `Start` that finds no listener can go on to serve;
* `unstoppable`: a `Stop` that is over before `Start` listens does not keep it from serving, and
  makes every later one useless.
-/

namespace RpcInGo.Server.Stopping
open Lib.Goroutine Protocol.Message Registry.Instance Registry.Interface Lifecycle Registered

variable {R A Value : Type}

section Runs
variable {o : Options} {reg : Registrar R A} {g g' : ServerState R Value} {pc pc' : Pc Value}
  {e : Ev R A Value} {new : List (Pc Value)} {s t : Config (ServerState R Value) (Pc Value)}
  {tr : List (Nat × Ev R A Value)} {i n m : Nat} {r : R}

/-! ## The transport in a run of the server -/

/-- Where a goroutine is in the transport; who is outside counts as one that has returned. -/
def inTransport : Pc Value → Tcp.ServerModel.Pc Value
  | .transport pc => pc
  | _ => .watched

def view (s : Config (ServerState R Value) (Pc Value)) :
    Config (Tcp.ServerModel.Server Value) (Tcp.ServerModel.Pc Value) :=
  ⟨s.shared.transport, s.threads.map inTransport⟩

/-- Works for no connection and holds no slot. -/
def apart : Tcp.ServerModel.Pc Value → Bool
  | .watched | .watching | .accepting | .closeCall | .closeListener | .closeWait | .context => true
  | _ => false

theorem apart_conn {p : Tcp.ServerModel.Pc Value} (h : apart p = true) :
    p.conn = none ∧ Tcp.Drain.admitted p = 0 ∧ Tcp.Drain.inWg p = 0 := by
  cases p <;> first | exact ⟨rfl, rfl, rfl⟩ | cases h

theorem view_cancelling :
    (view s).threads.any Tcp.CloseReturn.cancelling = s.threads.any cancelling := by
  rw [view, List.any_map]
  congr 1
  funext pc
  cases pc <;> rfl

/-- A step of the server is one of its transport, or takes place outside of it. -/
theorem fire_view (h : (lifecycle o reg).fire s i e = some t) :
    (∃ e', (Tcp.ServerModel.server o.transport).fire (view s) i e' = some (view t)) ∨
      ∃ p p' new, (view s).threads[i]? = some p ∧
        view t = ⟨(view s).shared, (view s).threads.set i p' ++ new⟩ ∧ apart p = true ∧
        apart p' = true ∧ ∀ q ∈ new, apart q = true := by
  obtain ⟨pc, g', pc', new, hi, rfl, hs⟩ := fire_life h
  have hat : (view s).threads[i]? = some (inTransport pc) := by
    rw [view, List.getElem?_map, hi, Option.map_some]
  have hview : view ⟨g', s.threads.set i pc' ++ new⟩ =
      ⟨g'.transport, (view s).threads.set i (inTransport pc') ++ new.map inTransport⟩ := by
    simp [view]
  rw [hview]
  cases hs with
  | @transport p p' e' tr new _ hserver =>
    have hnew : (new.map Pc.transport).map inTransport = new := by
      rw [List.map_map]
      exact List.map_id new
    refine .inl ⟨e', ?_⟩
    have hp : (view s).threads[i]? = some p := hat
    have hstep : Tcp.ServerModel.serverStep o.transport (view s).shared p e' =
      some (tr, p', new) := hserver
    simp only [Program.fire, hp, Tcp.ServerModel.server, hstep, hnew, inTransport]
  | ends hout hover =>
    refine .inr ⟨_, _, _, hat, rfl, ?_, ?_, by simp⟩
    · cases pc <;> first | rfl | cases hout
    · cases pc' <;> first | rfl | cases hover
  | listened =>
    refine .inr ⟨_, _, _, hat, rfl, rfl, ?_, by simp⟩
    split <;> rfl
  | serves => exact .inr ⟨_, _, _, hat, rfl, rfl, rfl, by simp [inTransport, apart]⟩
  | named | refused | registered | beats | stops | found | unfound | kept | withdrawn
  | unbound | elsewhere => exact .inr ⟨_, _, _, hat, rfl, rfl, rfl, by simp [inTransport, apart]⟩

section Lifted
open Tcp.ConnLife (Alive fire_alive)
open Tcp.Drain (Enrolled fire_enrolled)
open Tcp.ServerModel (localTo localTo_eq_zero semaphore)

/-- Goroutines that are apart from the connections add nothing to what is counted of them. -/
theorem total_apart {w : Tcp.ServerModel.Pc Value → Int} {ts new : List (Tcp.ServerModel.Pc Value)}
    {p p' : Tcp.ServerModel.Pc Value} (hw : ∀ q, apart q = true → w q = 0) (hi : ts[i]? = some p)
    (hp : apart p = true) (hp' : apart p' = true) (hnew : ∀ q ∈ new, apart q = true) :
    total w (ts.set i p' ++ new) = total w ts := by
  rw [total_append, total_set _ _ hi, hw p hp, hw p' hp',
    total_eq_zero fun q hq => hw q (hnew q hq)]
  omega

theorem start_view : Alive (view (start o r n m : Config (ServerState R Value) (Pc Value))) ∧
    Enrolled (view (start o r n m : Config (ServerState R Value) (Pc Value))) := by
  have hall : ∀ q ∈ (view (start o r n m : Config (ServerState R Value) (Pc Value))).threads,
      apart q = true := by
    intro q hq
    obtain ⟨pc, hpc, rfl⟩ := List.mem_map.mp hq
    obtain rfl | rfl | rfl | rfl := start_threads hpc <;> rfl
  refine ⟨⟨fun q hq k hk => ?_, fun k c hc => ?_⟩, ⟨fun sem hsem => ?_, ?_⟩⟩
  · cases (apart_conn (hall q hq)).1.symm.trans hk
  · simp [view, start, newServer, Tcp.ServerModel.newServer] at hc
  · rw [total_eq_zero fun q hq => (apart_conn (hall q hq)).2.1]
    simp only [view, start, newServer, Tcp.ServerModel.newServer, semaphore] at hsem
    split at hsem <;> cases hsem
    rfl
  · rw [total_eq_zero fun q hq => (apart_conn (hall q hq)).2.2]
    rfl

/-- Connections and their goroutines are in the order that `Tcp.ConnLife` and `Tcp.Drain`
describe. -/
theorem run_view {ok : Config (ServerState R Value) (Pc Value) → Nat → Ev R A Value → Prop}
    (h : Run (lifecycle o reg) ok (start o r n m) tr s) :
    Alive (view s) ∧ Enrolled (view s) := by
  refine h.invariant (I := fun s => Alive (view s) ∧ Enrolled (view s)) start_view ?_
  · rintro s i e t ⟨ha, hn⟩ - hf
    obtain ⟨e', hfire⟩ | ⟨p, p', new, hi, ht, hp, hp', hnew⟩ := fire_view hf
    · exact ⟨fire_alive ha hfire, fire_enrolled ha hn hfire⟩
    · rw [ht]
      have hall : ∀ q ∈ (view s).threads.set i p' ++ new,
          q ∈ (view s).threads ∨ apart q = true := by
        intro q hq
        rcases List.mem_append.mp hq with hq | hq
        · rcases List.mem_or_eq_of_mem_set hq with hq | rfl
          · exact .inl hq
          · exact .inr hp'
        · exact .inr (hnew q hq)
      refine ⟨⟨?_, ?_⟩, ⟨?_, ?_⟩⟩
      · intro q hq k hk
        rcases hall q hq with hq | hq
        · exact ha.placed q hq k hk
        · cases (apart_conn hq).1.symm.trans hk
      · intro k c hc
        have hsame : (fun w => total (localTo k w) ((view s).threads.set i p' ++ new)) =
            fun w => total (localTo k w) (view s).threads := by
          funext w
          refine total_apart (fun q hq => localTo_eq_zero fun hk => ?_) hi hp hp' hnew
          cases (apart_conn hq).1.symm.trans hk
        rw [hsame]
        exact ha.conns k c hc
      · rw [total_apart (fun q hq => (apart_conn hq).2.1) hi hp hp' hnew]
        exact hn.slot
      · rw [total_apart (fun q hq => (apart_conn hq).2.2) hi hp hp' hnew]
        exact hn.wg

end Lifted

/-! ## One `Stop` -/

/-- The conditions for `stop_drained`. -/
abbrev Careful (o : Options) (reg : Registrar R A) :
    Config (ServerState R Value) (Pc Value) → Nat → Ev R A Value → Prop :=
  Meets (asks o reg) [.startedFirst, .listenerKept, .notAdded, .calledOnce, .deferredOver]

theorem Careful.ordered (h : Careful o reg s i e) : Ordered o reg s i e := by
  intro c hc
  refine h c ?_
  simp only [List.mem_cons, List.not_mem_nil, or_false] at hc ⊢
  tauto

/-- `Stop` on its way to the transport. -/
def calling : Pc Value → Int
  | .stopCheck | .deregistering _ | .transport .closeCall => 1
  | _ => 0

/-- `Stop` on its way to the listener. -/
def approaching : Pc Value → Int
  | .stopCheck | .deregistering _ | .transport .closeCall | .transport .closeListener => 1
  | _ => 0

theorem calling_nonneg (pc : Pc Value) : 0 ≤ calling pc := by
  unfold calling
  split <;> decide

theorem approaching_nonneg (pc : Pc Value) : 0 ≤ approaching pc := by
  unfold approaching
  split <;> decide

/-- There is one `Stop`, and it finds the transport as `Start` has left it. -/
structure Once (s : Config (ServerState R Value) (Pc Value)) : Prop where
  calls : total calling s.threads + s.shared.transport.closed.toNat ≤
    s.shared.heartbeatStopped.toNat
  finds : total approaching s.threads + s.shared.transport.listenerClosed.toNat ≤
    s.shared.heartbeatStopped.toNat
  waits : .transport .closeWait ∈ s.threads → s.shared.transport.listenerClosed = true

theorem Once.step (hO : Once s) (hi : s.threads[i]? = some pc)
    (hcalls : calling pc' + g'.transport.closed.toNat - calling pc -
      s.shared.transport.closed.toNat ≤
        (g'.heartbeatStopped.toNat : Int) - s.shared.heartbeatStopped.toNat)
    (hfinds : approaching pc' + g'.transport.listenerClosed.toNat - approaching pc -
      s.shared.transport.listenerClosed.toNat ≤
        (g'.heartbeatStopped.toNat : Int) - s.shared.heartbeatStopped.toNat)
    (hnew : ∀ q ∈ new, calling q = 0 ∧ approaching q = 0 ∧ q ≠ .transport .closeWait)
    (hwait : pc' = .transport .closeWait → g'.transport.listenerClosed = true)
    (hlistener : s.shared.transport.listenerClosed = true → g'.transport.listenerClosed = true) :
    Once ⟨g', s.threads.set i pc' ++ new⟩ where
  calls := by
    have := hO.calls
    simp only [total_append, total_set _ _ hi, total_eq_zero fun q hq => (hnew q hq).1]
    omega
  finds := by
    have := hO.finds
    simp only [total_append, total_set _ _ hi, total_eq_zero fun q hq => (hnew q hq).2.1]
    omega
  waits hmem := by
    rcases List.mem_append.mp hmem with hmem | hmem
    · rcases List.mem_or_eq_of_mem_set hmem with hmem | heq
      · exact hlistener (hO.waits hmem)
      · exact hwait heq.symm
    · exact absurd rfl (hnew _ hmem).2.2

/-- The `Stop` that is on its way to the listener finds it open. -/
theorem Once.found_open (hO : Once s) (hi : s.threads[i]? = some pc) (hpc : approaching pc = 1) :
    s.shared.transport.listenerClosed = false := by
  have hle := le_total_of_mem approaching_nonneg (List.mem_of_getElem? hi)
  have hfinds := hO.finds
  have hstop : s.shared.heartbeatStopped.toNat ≤ 1 := Bool.toNat_le _
  cases hclosed : s.shared.transport.listenerClosed with
  | false => rfl
  | true =>
    rw [hclosed, Bool.toNat_true] at hfinds
    omega

theorem Once.called_first (hO : Once s) (hi : s.threads[i]? = some (.transport .closeCall)) :
    s.shared.transport.closed = false := by
  have hle := le_total_of_mem calling_nonneg (List.mem_of_getElem? hi)
  have hcalls := hO.calls
  have hstop : s.shared.heartbeatStopped.toNat ≤ 1 := Bool.toNat_le _
  cases hclosed : s.shared.transport.closed with
  | false => rfl
  | true =>
    rw [hclosed, Bool.toNat_true] at hcalls
    simp only [calling] at hle
    omega

/-- Who is not in `Close` of the transport is not on the way to it. -/
theorem aside_counts {p : Tcp.ServerModel.Pc Value} (h : closing p = false) :
    calling (.transport p) = 0 ∧ approaching (.transport p) = 0 ∧
      (.transport p : Pc Value) ≠ .transport .closeWait := by
  revert h
  cases p <;> simp [closing, calling, approaching]

theorem ended_counts (h : ended pc = true) :
    calling pc = 0 ∧ approaching pc = 0 ∧ pc ≠ .transport .closeWait := by
  revert h
  cases pc <;> simp [ended, calling, approaching]

theorem transport_once {p p' : Tcp.ServerModel.Pc Value} {tr : Tcp.ServerModel.Server Value}
    {new : List (Tcp.ServerModel.Pc Value)} (hO : Once s) (hok : Careful o reg s i e)
    (hi : s.threads[i]? = some (.transport p)) (hmoves : Moves s.shared.transport p tr p')
    (hnew : ∀ q ∈ new, ∃ k, q.conn = some k) :
    Once ⟨{ s.shared with transport := tr },
      s.threads.set i (.transport p') ++ new.map .transport⟩ := by
  have hspawned : ∀ q ∈ new.map Pc.transport,
      calling q = 0 ∧ approaching q = 0 ∧ q ≠ .transport .closeWait := by
    intro q hq
    obtain ⟨p, hp, rfl⟩ := List.mem_map.mp hq
    obtain ⟨k, hk⟩ := hnew p hp
    exact aside_counts (closing_of_conn hk)
  cases hmoves with
  | aside hp hp' _ hclosed hlistener =>
    obtain ⟨h1, h2, -⟩ := aside_counts hp
    obtain ⟨h1', h2', hne⟩ := aside_counts hp'
    exact hO.step hi (by simp [h1, h1', hclosed]) (by simp [h2, h2', hlistener]) hspawned
      (fun heq => absurd heq hne) fun h => hlistener.trans h
  | watched hp hp' _ hclosed hlistener =>
    subst hp hp'
    have hkept := hok .listenerKept (by decide)
    have hwas : s.shared.transport.listenerClosed = true := by simpa [asks, hi] using hkept
    exact hO.step hi (by simp [calling, hclosed]) (by simp [approaching, hlistener, hwas]) hspawned
      (by simp) fun _ => hlistener
  | again hp _ hclosed =>
    subst hp
    cases (hO.called_first hi).symm.trans hclosed
  | called hp hp' hclosed hg =>
    subst hp hp' hg
    exact hO.step hi (by simp [calling, hclosed]) (by simp [approaching]) hspawned (by simp) id
  | listener hp hp' hopen hg =>
    subst hp hp' hg
    exact hO.step hi (by simp [calling]) (by simp [approaching, hopen]) hspawned (fun _ => rfl)
      fun _ => rfl
  | refused hp _ hclosed =>
    subst hp
    cases (hO.found_open hi rfl).symm.trans hclosed
  | waited hp hp' _ hg =>
    subst hp hp' hg
    exact hO.step hi (by simp [calling]) (by simp [approaching]) hspawned (by simp) id

theorem fire_once (hO : Once s) (hG : Guarded o reg s) (hok : Careful o reg s i e)
    (h : (lifecycle o reg).fire s i e = some t) : Once t := by
  obtain ⟨pc, g', pc', new, hi, rfl, hs⟩ := fire_life h
  cases hs with
  | ends _ hover =>
    obtain ⟨h1, h2, hne⟩ := ended_counts hover
    have h1' := calling_nonneg pc
    have h2' := approaching_nonneg pc
    exact hO.step hi (by omega) (by omega) (by simp) (fun heq => absurd heq hne) id
  | listened =>
    cases o.enableRegistry <;>
      exact hO.step hi (by simp [calling]) (by simp [approaching]) (by simp) (by simp) id
  | named | refused | registered | found | unfound | kept | withdrawn | elsewhere =>
    exact hO.step hi (by simp [calling]) (by simp [approaching]) (by simp) (by simp) id
  | beats | serves =>
    exact hO.step hi (by simp [calling]) (by simp [approaching]) (by simp [calling, approaching])
      (by simp) id
  | stops =>
    have hcalled := hok .calledOnce (by decide)
    have hfirst : s.shared.heartbeatStopped = false := by simpa [asks, hi] using hcalled
    exact hO.step hi (by simp [calling, hfirst]) (by simp [approaching, hfirst]) (by simp) (by simp)
      id
  | unbound hnone =>
    -- `Stop` comes after `Listen`
    have hw : Withdrawn o reg s.shared := hG.points _ (List.mem_of_getElem? hi) rfl
    have hsome := hG.bound hw.stopped
    rw [hnone] at hsome
    cases hsome
  | transport _ hserver =>
    obtain ⟨hmoves, hnew⟩ := serverStep_moves hserver
    exact transport_once hO hok hi hmoves hnew

theorem start_once : Once (start o r n m : Config (ServerState R Value) (Pc Value)) where
  calls := by
    rw [total_eq_zero]
    · rfl
    · intro pc hpc
      obtain rfl | rfl | rfl | rfl := start_threads hpc <;> rfl
  finds := by
    rw [total_eq_zero]
    · rfl
    · intro pc hpc
      obtain rfl | rfl | rfl | rfl := start_threads hpc <;> rfl
  waits h := by
    obtain h | h | h | h := start_threads h <;> cases h

/-- When `Stop` comes back from the transport, having been called once and after `Start` had
registered, it reports success, the instance is not in the registry, the listener is closed, and
nothing of any connection runs any more. -/
theorem stop_drained {err : Option GoError}
    (h : Run (lifecycle o reg) (Careful o reg) (start o r n m) tr s) (hok : Careful o reg s i e)
    (hf : (lifecycle o reg).fire s i e = some t)
    (hafter : t.threads[i]? = some (.transport (.closeReturned err))) :
    err = none ∧ present o reg t.shared = false ∧ t.shared.transport.listenerClosed = true ∧
      ∀ p k, .transport p ∈ t.threads → p.conn = some k → Tcp.Drain.finished p = true := by
  have hinv : Guarded o reg s ∧ Once s := by
    refine h.invariant (I := fun s => Guarded o reg s ∧ Once s) ⟨start_guarded, start_once⟩ ?_
    rintro s i e t ⟨hG, hO⟩ hok hf
    exact ⟨fire_guarded hG hok.ordered hf, fire_once hO hG hok hf⟩
  obtain ⟨hG, hO⟩ := hinv
  obtain ⟨halive, henrolled⟩ := run_view h
  obtain ⟨pc, g', pc', new, hi, rfl, hs⟩ := fire_life hf
  rw [getElem?_fired_self pc' hi, Option.some.injEq] at hafter
  cases hs with
  | ends _ hover =>
    subst hafter
    cases hover
  | listened => split at hafter <;> cases hafter
  | named | refused | registered | beats | serves | stops | found | unfound | kept | withdrawn
  | unbound | elsewhere => cases hafter
  | @transport p p' e' g' new _ hserver =>
    cases hafter
    cases (serverStep_moves hserver).1 with
    | aside _ hout => cases hout
    | watched _ hp' => cases hp'
    | called _ hp' | listener _ hp' => cases hp'
    | again hp _ hclosed =>
      subst hp
      cases (hO.called_first hi).symm.trans hclosed
    | refused hp _ hclosed =>
      subst hp
      cases (hO.found_open hi rfl).symm.trans hclosed
    | waited hp herr hwg hg =>
      subst hp hg
      cases herr
      have hmem := List.mem_of_getElem? hi
      have hw : Withdrawn o reg s.shared := hG.points _ hmem rfl
      refine ⟨rfl, hw.absent, hO.waits hmem, fun q k hq hk => ?_⟩
      have hnew : new = [] := by
        obtain ⟨-, hfree⟩ | ⟨j, c, hj, -⟩ := Tcp.ServerModel.serverStep_cases hserver
        · obtain ⟨hp, -⟩ | ⟨hp, -⟩ | ⟨-, -, -, -, hnew⟩ :=
            Tcp.CloseReturn.closeReturned_cases rfl hfree
          · cases hp
          · cases hp
          · exact hnew
        · cases hj
      have hover := hok .deferredOver (by decide)
      have hcancel : s.threads.any cancelling = false := by simpa [asks, hi] using hover
      rw [← view_cancelling] at hcancel
      have hfinished := Tcp.CloseReturn.finished_of_wg halive henrolled hwg hcancel k
      rw [hnew, List.map_nil, List.append_nil] at hq
      rcases List.mem_or_eq_of_mem_set hq with hq | heq
      · exact hfinished q (List.mem_map.mpr ⟨_, hq, rfl⟩) hk
      · cases heq
        cases hk

/-- A connection comes and goes, then `Stop` is called. -/
def drains : List (Nat × Ev Registry.Memory.MemoryRegistry Unit Unit) :=
  starts ++ [(2, .transport .accepted), (2, .transport .step), (2, .transport .step),
    (6, .transport .setupOk), (6, .transport .step), (6, .transport .readFailed),
    (6, .transport .step), (7, .transport .step), (6, .transport .step), (6, .transport .step),
    (6, .transport .step), (6, .transport .step), (6, .transport .step), (3, .step), (3, .step),
    (3, .answer ()), (3, .transport .step), (3, .transport .step)]

theorem drains_runs :
    (exec (lifecycle echo memory) (Careful echo memory)
      (start echo Registry.Memory.newRegistry 1 1) drains).isSome := by
  decide +kernel

theorem drains_returns :
    ((lifecycle echo memory).fire ((exec (lifecycle echo memory) (Careful echo memory)
      (start echo Registry.Memory.newRegistry 1 1) drains).get drains_runs) 3
      (.transport .step)).isSome := by
  decide +kernel

theorem drains_returned :
    (((lifecycle echo memory).fire ((exec (lifecycle echo memory) (Careful echo memory)
      (start echo Registry.Memory.newRegistry 1 1) drains).get drains_runs) 3
      (.transport .step)).get drains_returns).threads[3]? =
        some (.transport (.closeReturned none)) := by
  decide +kernel

theorem stop_drained_drains :
    let s := (exec (lifecycle echo memory) (Careful echo memory)
      (start echo Registry.Memory.newRegistry 1 1) drains).get drains_runs
    let t := ((lifecycle echo memory).fire s 3 (.transport .step)).get drains_returns
    t.shared.transport.totalConnections = 1 ∧ present echo memory t.shared = false ∧
      t.shared.transport.listenerClosed = true ∧
      ∀ p k, .transport p ∈ t.threads → p.conn = some k → Tcp.Drain.finished p = true :=
  ⟨by decide +kernel, (stop_drained (run_exec drains_runs) (by decide +kernel)
    (Option.some_get drains_returns).symm drains_returned).2⟩

/-! ## `Stop` before `Start` -/

/-- Before `Listen` nobody serves or waits for the context of `Serve`. -/
def Unserved (s : Config (ServerState R Value) (Pc Value)) : Prop :=
  s.shared.listener = none → s.shared.serving = false ∧
    s.shared.transport.listenerClosed = false ∧ ∀ pc ∈ s.threads, pc ≠ .transport .watching

theorem Unserved.step (hU : Unserved s)
    (hlistener : g'.listener = none → s.shared.listener = none ∧ pc' ≠ .transport .watching ∧
      (∀ q ∈ new, q ≠ .transport .watching) ∧ g'.serving = s.shared.serving ∧
      g'.transport.listenerClosed = s.shared.transport.listenerClosed) :
    Unserved ⟨g', s.threads.set i pc' ++ new⟩ := by
  intro hnone
  obtain ⟨hnone, hpc', hnew, hserving, hclosed⟩ := hlistener hnone
  obtain ⟨hidle, hopen, hothers⟩ := hU hnone
  refine ⟨hserving.trans hidle, hclosed.trans hopen, fun q hq => ?_⟩
  rcases List.mem_append.mp hq with hq | hq
  · exact forall_set (R := fun q => q ≠ .transport .watching) hpc' hothers (fun _ h => h) q hq
  · exact hnew q hq

theorem fire_unserved (hU : Unserved s) (h : (lifecycle o reg).fire s i e = some t) :
    Unserved t := by
  obtain ⟨pc, g', pc', new, hi, rfl, hs⟩ := fire_life h
  cases hs with
  | ends _ hover =>
    refine hU.step fun hnone => ⟨hnone, ?_, by simp, rfl, rfl⟩
    rintro rfl
    cases hover
  | listened => exact hU.step fun hnone => by cases hnone
  | named | refused | registered | beats | stops | found | unfound | kept | withdrawn
  | unbound | elsewhere => exact hU.step fun hnone => ⟨hnone, by simp, by simp, rfl, rfl⟩
  | serves hsome =>
    refine hU.step fun hnone => ?_
    have hnone : s.shared.listener = none := hnone
    rw [hnone] at hsome
    cases hsome
  | transport hat hserver =>
    obtain ⟨hmoves, hnew⟩ := serverStep_moves hserver
    refine hU.step fun hnone => ?_
    have hnone : s.shared.listener = none := hnone
    have hspawned := spawned_ne (p := .watching) hnew rfl
    cases hmoves with
    | aside _ _ hne _ hsame => exact ⟨hnone, by simpa using hne, hspawned, rfl, hsame⟩
    | watched hpc =>
      subst hpc
      exact absurd rfl ((hU hnone).2.2 _ (List.mem_of_getElem? hi))
    | listener hpc => exact absurd hpc (hat hnone)
    | again _ hpc' _ hg | called _ hpc' _ hg | refused _ hpc' _ hg | waited _ hpc' _ hg =>
      subst hpc' hg
      exact ⟨hnone, by simp, hspawned, rfl, rfl⟩

/-- A transport that was closed, with nobody on the way to the listener. -/
structure Spent (s : Config (ServerState R Value) (Pc Value)) : Prop where
  closed : s.shared.transport.closed = true
  nobody : ∀ pc ∈ s.threads, pc ≠ .transport .closeListener
  kept : s.shared.transport.listenerClosed = true → s.shared.transport.ctxDone.isSome

theorem Spent.step (hS : Spent s) (hpc' : pc' ≠ .transport .closeListener)
    (hnew : ∀ q ∈ new, q ≠ .transport .closeListener)
    (hclosed : g'.transport.closed = s.shared.transport.closed)
    (hkept : g'.transport.listenerClosed = true → g'.transport.ctxDone.isSome) :
    Spent ⟨g', s.threads.set i pc' ++ new⟩ where
  closed := hclosed.trans hS.closed
  nobody q hq := by
    rcases List.mem_append.mp hq with hq | hq
    · exact forall_set (R := fun q => q ≠ .transport .closeListener) hpc' hS.nobody
        (fun _ h => h) q hq
    · exact hnew q hq
  kept := hkept

theorem fire_spent (hS : Spent s) (h : (lifecycle o reg).fire s i e = some t) : Spent t := by
  obtain ⟨pc, g', pc', new, hi, rfl, hs⟩ := fire_life h
  cases hs with
  | ends _ hover =>
    refine hS.step ?_ (by simp) rfl hS.kept
    rintro rfl
    cases hover
  | listened =>
    refine hS.step ?_ (by simp) rfl hS.kept
    split <;> simp
  | named | refused | registered | beats | stops | found | unfound | kept | withdrawn
  | unbound | elsewhere | serves => exact hS.step (by simp) (by simp) rfl hS.kept
  | transport _ hserver =>
    obtain ⟨hmoves, hnew⟩ := serverStep_moves hserver
    have hspawned := spawned_ne (p := .closeListener) hnew rfl
    have hnobody := hS.nobody _ (List.mem_of_getElem? hi)
    cases hmoves with
    | aside _ hout _ hclosed hlistener hctx =>
      refine hS.step ?_ hspawned hclosed fun h => hctx (hS.kept (hlistener.symm.trans h))
      rintro heq
      cases heq
      cases hout
    | watched _ hpc' hdone hclosed _ hctx =>
      subst hpc'
      exact hS.step (by simp) hspawned hclosed fun _ => hctx ▸ hdone
    | called _ _ hopen => cases hopen.symm.trans hS.closed
    | listener hpc | refused hpc =>
      subst hpc
      exact absurd rfl hnobody
    | again _ hpc' _ hg | waited _ hpc' _ hg =>
      subst hpc' hg
      exact hS.step (by simp) hspawned rfl hS.kept

/-- A step of `Start`, and where its goroutine is then. -/
theorem fire_start (hi : s.threads[i]? = some pc)
    (hs : startStep o reg s.shared pc e = some (g', pc', new)) :
    ∃ t, (lifecycle o reg).fire s i e = some t ∧ t.shared = g' ∧ t.threads[i]? = some pc' := by
  have hlife : lifeStep o reg s.shared pc e = some (g', pc', new) := by
    rw [lifeStep, hs, Option.some_or]
  refine ⟨⟨g', s.threads.set i pc' ++ new⟩, ?_, rfl, getElem?_fired_self pc' hi⟩
  simp only [Program.fire, hi, lifecycle, hlife]

theorem serve_on (o : Options) (reg : Registrar R A) (addr : String)
    (hi : s.threads[i]? = some .startServe) (hlistener : s.shared.listener = some addr)
    (hserving : s.shared.serving = false) :
    ∃ tr u, Run (lifecycle o reg) Any s tr u ∧ u.shared = { s.shared with serving := true } ∧
      u.threads[i]? = some (.transport .accepting) := by
  have hserve : startStep o reg s.shared .startServe .step = some
      ({ s.shared with serving := true }, .transport .accepting, [.transport .watching]) := by
    simp only [startStep, hlistener, hserving]
  obtain ⟨u, hf, hu, hat⟩ := fire_start hi hserve
  exact ⟨_, u, .step .refl trivial hf, hu, hat⟩

/-- What a `Start` needs of its registry, if it has one. -/
structure Enrols (o : Options) (reg : Registrar R A) (g : ServerState R Value) (addr : String)
    (inst : ServiceInstance) : Prop where
  named : ∃ now, Registration.registerService o.serviceName o.serviceVersion addr now
    (fun _ => none) = .ok inst
  accepted : ∃ a r, reg.register g.registry inst a = some (none, r)

/-- `Start` without a listener before it: it can go on to serve, and shows itself. -/
theorem starts_on {addr : String} {inst : ServiceInstance}
    (hi : s.threads[i]? = some .startListen) (hlistener : s.shared.listener = none)
    (hserving : s.shared.serving = false)
    (henrols : o.enableRegistry = true → Enrols o reg s.shared addr inst) :
    ∃ tr u, Run (lifecycle o reg) Any s tr u ∧ u.shared.listener = some addr ∧
      u.shared.serving = true ∧ u.threads[i]? = some (.transport .accepting) ∧
      (o.enableRegistry = true → u.shared.serviceInstance = some inst ∧
        present o reg u.shared = true) := by
  have hlisten : startStep o reg s.shared .startListen (.bound (.ok addr)) =
      some ({ s.shared with listener := some addr },
        if o.enableRegistry then .startRegister else .startServe, []) := by
    simp only [startStep, Lifecycle.listen, hlistener]
  obtain ⟨s₁, hf₁, hs₁, hat₁⟩ := fire_start hi hlisten
  have hrun₁ : Run (lifecycle o reg) Any s _ s₁ := .step .refl trivial hf₁
  cases henable : o.enableRegistry with
  | false =>
    rw [henable] at hat₁
    obtain ⟨tr, u, hrun, hu, hat⟩ := serve_on o reg addr hat₁
      (by rw [hs₁]) (by rw [hs₁]; exact hserving)
    exact ⟨_, u, hrun₁.trans hrun, by rw [hu, hs₁], by rw [hu], hat, nofun⟩
  | true =>
    obtain ⟨⟨now, hinst⟩, a, r, hreg⟩ := henrols henable
    rw [henable] at hat₁
    have hname : startStep o reg s₁.shared .startRegister (.now now) =
        some ({ s₁.shared with serviceInstance := some inst }, .registering inst, []) := by
      rw [startStep, hs₁]
      simp only [hinst]
    obtain ⟨s₂, hf₂, hs₂, hat₂⟩ := fire_start hat₁ hname
    have hregister : startStep o reg s₂.shared (.registering inst) (.answer a) =
        some ({ s₂.shared with registry := r }, .startHeartbeat, []) := by
      rw [startStep, hs₂, hs₁]
      simp only [hreg]
    obtain ⟨s₃, hf₃, hs₃, hat₃⟩ := fire_start hat₂ hregister
    have hbeat : startStep o reg s₃.shared .startHeartbeat .step =
        some (s₃.shared, .startServe, [.newTicker]) := rfl
    obtain ⟨s₄, hf₄, hs₄, hat₄⟩ := fire_start hat₃ hbeat
    have hrun₄ : Run (lifecycle o reg) Any s₁ _ s₄ :=
      .step (.step (.step .refl trivial hf₂) trivial hf₃) trivial hf₄
    obtain ⟨tr, u, hrun, hu, hat⟩ := serve_on o reg addr hat₄
      (by rw [hs₄, hs₃, hs₂, hs₁]) (by rw [hs₄, hs₃, hs₂, hs₁]; exact hserving)
    have hshared : u.shared = { s.shared with
        listener := some addr, serviceInstance := some inst, registry := r, serving := true } := by
      rw [hu, hs₄, hs₃, hs₂, hs₁]
    refine ⟨_, u, (hrun₁.trans hrun₄).trans hrun, by rw [hshared], by rw [hshared], hat,
      fun _ => ⟨by rw [hshared], ?_⟩⟩
    rw [present, hshared, ← registerService_service hinst]
    exact reg.registered hreg

/-- A `Stop` that has closed the transport before `Start` listens does not keep `Start` from
listening, registering and serving, and no `Stop` after it closes the listener, though each reports
success as soon as it comes to the transport. -/
theorem unstoppable {tr' : List (Nat × Ev R A Value)}
    (h : Run (lifecycle o reg) Any (start o r n m) tr s)
    (hclosed : s.shared.transport.closed = true) (hunbound : s.shared.listener = none)
    (hnobody : ∀ pc ∈ s.threads, pc ≠ .transport .closeListener)
    (h' : Run (lifecycle o reg) Any s tr' t) :
    (∀ (i : Nat) addr inst, t.threads[i]? = some .startListen → t.shared.listener = none →
      (o.enableRegistry = true → Enrols o reg t.shared addr inst) →
      ∃ tr'' u, Run (lifecycle o reg) Any t tr'' u ∧ u.shared.listener = some addr ∧
        u.shared.serving = true ∧ u.threads[i]? = some (.transport .accepting) ∧
        (o.enableRegistry = true → u.shared.serviceInstance = some inst ∧
          present o reg u.shared = true)) ∧
    (t.shared.transport.listenerClosed = true → t.shared.transport.ctxDone.isSome) ∧
      ∀ i, t.threads[i]? = some (.transport .closeCall) →
        (lifecycle o reg).fire t i (.transport .step) =
          some ⟨t.shared, t.threads.set i (.transport (.closeReturned none))⟩ := by
  have hU {u : Config (ServerState R Value) (Pc Value)} {tr : List (Nat × Ev R A Value)}
      (h : Run (lifecycle o reg) Any (start o r n m) tr u) : Unserved u := by
    refine h.invariant (fun _ => ⟨rfl, rfl, fun pc hpc => ?_⟩)
      fun _ _ _ _ hU _ hf => fire_unserved hU hf
    obtain rfl | rfl | rfl | rfl := start_threads hpc <;> simp
  have hS : Spent t := by
    refine h'.invariant ⟨hclosed, hnobody, fun hc => ?_⟩ fun _ _ _ _ hS _ hf => fire_spent hS hf
    cases (hU h hunbound).2.1.symm.trans hc
  refine ⟨fun i addr inst hi hnone henrols => ?_, hS.kept, fun i hi => ?_⟩
  · exact starts_on hi hnone (hU (h.trans h') hnone).1 henrols
  have hstep : Tcp.ServerModel.serverStep o.transport t.shared.transport .closeCall .step =
      some (t.shared.transport, .closeReturned none, []) := by
    simp [Tcp.ServerModel.serverStep, Tcp.ServerModel.Pc.conn, Tcp.ServerModel.serveStep,
      Tcp.ServerModel.closeStep, hS.closed]
  have hlife : lifeStep o reg t.shared (.transport .closeCall) (.transport .step) =
      some (t.shared, .transport (.closeReturned none), []) := by
    cases hl : t.shared.listener <;>
      simp [lifeStep, startStep, heartbeatStep, stopStep, transportStep, hl, hstep] <;> rw [← hl]
  simp [Program.fire, hi, lifecycle, hlife]

/-- `Stop` is over before `Start` is called, and is called again when the server serves. -/
def stopsEarly : List (Nat × Ev Registry.Memory.MemoryRegistry Unit Unit) :=
  [(3, .step), (3, .step), (3, .transport .step), (3, .transport .step), (3, .transport .step)]

def servesOn : List (Nat × Ev Registry.Memory.MemoryRegistry Unit Unit) :=
  starts ++ [(4, .step), (4, .step), (4, .answer ())]

theorem stopsEarly_runs :
    (exec (lifecycle echo memory) Any (start echo Registry.Memory.newRegistry 1 2)
      stopsEarly).isSome := by
  decide +kernel

theorem servesOn_runs :
    (exec (lifecycle echo memory) Any
      ((exec (lifecycle echo memory) Any (start echo Registry.Memory.newRegistry 1 2)
        stopsEarly).get stopsEarly_runs) servesOn).isSome := by
  decide +kernel

def started : ServiceInstance := newServiceInstance "echo" "10.0.0.1" 8080 1700000000

theorem unstoppable_servesOn :
    let s := (exec (lifecycle echo memory) Any (start echo Registry.Memory.newRegistry 1 2)
      stopsEarly).get stopsEarly_runs
    let t := (exec (lifecycle echo memory) Any s servesOn).get servesOn_runs
    (∃ tr u, Run (lifecycle echo memory) Any s tr u ∧ u.shared.serving = true ∧
      present echo memory u.shared = true) ∧
    t.shared.serving = true ∧ t.threads[4]? = some (.transport .closeCall) ∧
      (t.shared.transport.listenerClosed = true → t.shared.transport.ctxDone.isSome) ∧
      ∀ i, t.threads[i]? = some (.transport .closeCall) →
        (lifecycle echo memory).fire t i (.transport .step) =
          some ⟨t.shared, t.threads.set i (.transport (.closeReturned none))⟩ := by
  intro s t
  have hclosed : s.shared.transport.closed = true := by decide +kernel
  have hunbound : s.shared.listener = none := by decide +kernel
  have hnobody : ∀ pc ∈ s.threads, pc ≠ .transport .closeListener := by decide +kernel
  have hstopped : Run (lifecycle echo memory) Any _ stopsEarly s := run_exec stopsEarly_runs
  have hserved : Run (lifecycle echo memory) Any s servesOn t := run_exec servesOn_runs
  have henrols : Enrols echo memory s.shared "10.0.0.1:8080" started :=
    ⟨⟨1700000000, rfl⟩, (), _, rfl⟩
  obtain ⟨tr, u, hrun, -, hserving, -, hshown⟩ :=
    (unstoppable hstopped hclosed hunbound hnobody .refl).1 2 "10.0.0.1:8080" started
      (by decide +kernel) hunbound fun _ => henrols
  exact ⟨⟨tr, u, hrun, hserving, (hshown rfl).2⟩, by decide +kernel, by decide +kernel,
    (unstoppable hstopped hclosed hunbound hnobody hserved).2⟩

end Runs

end RpcInGo.Server.Stopping
