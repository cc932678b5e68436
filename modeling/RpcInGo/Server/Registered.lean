import RpcInGo.Server.Lifecycle

/-!
What the registry says about a server, under every interleaving of `Start`, `Stop`, the context
and the other users of the registry.

* `registered_open`: who is found in the registry listens, if `Stop` is called only once `Start`
  has registered and the context does not close the listener;
* `serving_registered`: one `Start` gets past `Listen`, and who serves is found in the registry
  until `Stop` is called.
-/

namespace RpcInGo.Server.Registered
open Lib.Goroutine Protocol.Message Registry.Instance Registry.Interface Lifecycle

variable {R A Value : Type}

section Runs
variable {o : Options} {reg : Registrar R A} {g g' : ServerState R Value} {pc pc' : Pc Value}
  {e : Ev R A Value} {new : List (Pc Value)} {s t : Config (ServerState R Value) (Pc Value)}
  {tr : List (Nat × Ev R A Value)} {i n m : Nat} {r : R}

/-! ## Registered, therefore listening -/

/-- `Stop` has been called, and the instance is not in the registry. -/
structure Withdrawn (o : Options) (reg : Registrar R A) (g : ServerState R Value) : Prop where
  stopped : g.heartbeatStopped = true
  absent : present o reg g = false

/-- What holds of the server while a goroutine is at a point. -/
def At (o : Options) (reg : Registrar R A) (g : ServerState R Value) : Pc Value → Prop
  | .startRegister => g.heartbeatStopped = false ∧ o.enableRegistry = true
  | .registering _ => g.heartbeatStopped = false
  | .stopCheck => g.heartbeatStopped = true
  | .deregistering id => g.heartbeatStopped = true ∧
      ∃ inst, g.serviceInstance = some inst ∧ inst.id = id
  | .transport pc => closing pc = true → Withdrawn o reg g
  | _ => True

/-- The listener that is registered is the one the instance names. -/
def Named (o : Options) (g : ServerState R Value) : Prop :=
  ∀ inst, g.serviceInstance = some inst → o.enableRegistry = true ∧
    ∃ addr t, g.listener = some addr ∧ Registration.registerService o.serviceName
      o.serviceVersion addr t (fun _ => none) = .ok inst

structure Guarded (o : Options) (reg : Registrar R A)
    (s : Config (ServerState R Value) (Pc Value)) : Prop where
  bound : s.shared.heartbeatStopped = true → s.shared.listener.isSome = true
  points : ∀ pc ∈ s.threads, At o reg s.shared pc
  closed : s.shared.transport.listenerClosed = true → Withdrawn o reg s.shared
  named : Named o s.shared

theorem at_of_ended (h : ended pc = true) : At o reg g pc := by
  cases pc <;> trivial

/-- While no `Stop` has been called nobody is past one. -/
theorem At.running (h : At o reg g pc) (hg : g.heartbeatStopped = false)
    (hg' : g'.heartbeatStopped = false) : At o reg g' pc := by
  cases pc with
  | startRegister => exact ⟨hg', h.2⟩
  | registering => exact hg'
  | stopCheck => cases hg.symm.trans h
  | deregistering => cases hg.symm.trans h.1
  | transport => exact fun hc => by cases hg.symm.trans (h hc).stopped
  | _ => trivial

theorem Withdrawn.keep (h : Withdrawn o reg g) (hstop : g'.heartbeatStopped = g.heartbeatStopped)
    (habsent : present o reg g = false → present o reg g' = false) : Withdrawn o reg g' :=
  ⟨hstop.trans h.stopped, habsent h.absent⟩

theorem At.keep (h : At o reg g pc) (hstop : g'.heartbeatStopped = g.heartbeatStopped)
    (hinst : g'.serviceInstance = g.serviceInstance)
    (habsent : present o reg g = false → present o reg g' = false) : At o reg g' pc := by
  cases pc with
  | startRegister => exact ⟨hstop.trans h.1, h.2⟩
  | registering | stopCheck => exact hstop.trans h
  | deregistering => exact ⟨hstop.trans h.1, by rw [hinst]; exact h.2⟩
  | transport => exact fun hc => (h hc).keep hstop habsent
  | _ => trivial

/-- A step that leaves the flag of the heartbeats and the instance, and puts nothing into the
registry. -/
theorem Guarded.keep (hG : Guarded o reg s)
    (hstop : g'.heartbeatStopped = s.shared.heartbeatStopped)
    (hinst : g'.serviceInstance = s.shared.serviceInstance)
    (habsent : present o reg s.shared = false → present o reg g' = false)
    (hlistener : g'.listener = s.shared.listener)
    (hclosed : g'.transport.listenerClosed = true → Withdrawn o reg s.shared)
    (hat : At o reg g' pc') (hnew : ∀ q ∈ new, At o reg g' q) :
    Guarded o reg ⟨g', s.threads.set i pc' ++ new⟩ where
  bound h := by
    rw [hlistener]
    exact hG.bound (hstop.symm.trans h)
  points q hq := by
    rcases List.mem_append.mp hq with hq | hq
    · exact forall_set hat hG.points (fun _ h => h.keep hstop hinst habsent) q hq
    · exact hnew q hq
  closed h := (hclosed h).keep hstop habsent
  named inst h := by
    rw [hlistener]
    exact hG.named inst (hinst.symm.trans h)

/-- A step before any `Stop` is called. -/
theorem Guarded.running (hG : Guarded o reg s) (hstop : s.shared.heartbeatStopped = false)
    (hstop' : g'.heartbeatStopped = false)
    (hclosed : g'.transport = s.shared.transport) (hnamed : Named o g')
    (hat : At o reg g' pc') : Guarded o reg ⟨g', s.threads.set i pc'⟩ where
  bound h := by cases hstop'.symm.trans h
  points q hq := forall_set hat hG.points (fun _ h => h.running hstop hstop') q hq
  closed h := by
    rw [hclosed] at h
    cases hstop.symm.trans (hG.closed h).stopped
  named := hnamed

/-- The server after the first step of a `Stop` that comes when nobody is registering. -/
theorem At.stop (h : At o reg g pc) (hpc : enrolling pc = false) :
    At o reg { g with heartbeatStopped := true } pc := by
  cases pc with
  | startRegister | registering => cases hpc
  | stopCheck => rfl
  | deregistering => exact ⟨rfl, h.2⟩
  | transport => exact fun hc => ⟨rfl, (h hc).absent⟩
  | _ => trivial

theorem present_registry {r : R} {id : String} {a : A} {err : Option GoError}
    (h : reg.deregister g.registry o.serviceName id a = some (err, r))
    (habsent : present o reg g = false) : present o reg { g with registry := r } = false := by
  unfold present at habsent ⊢
  split
  · rfl
  · rename_i inst hinst
    have hinst : g.serviceInstance = some inst := hinst
    rw [hinst] at habsent
    exact reg.only_removes h habsent

/-- The conditions for `registered_open`. -/
abbrev Ordered (o : Options) (reg : Registrar R A) :
    Config (ServerState R Value) (Pc Value) → Nat → Ev R A Value → Prop :=
  Meets (asks o reg) [.startedFirst, .listenerKept, .notAdded]

theorem transport_guarded {p p' : Tcp.ServerModel.Pc Value} {tr : Tcp.ServerModel.Server Value}
    {new : List (Tcp.ServerModel.Pc Value)} (hG : Guarded o reg s) (hok : Ordered o reg s i e)
    (hi : s.threads[i]? = some (.transport p)) (hmoves : Moves s.shared.transport p tr p')
    (hnew : ∀ q ∈ new, ∃ k, q.conn = some k) :
    Guarded o reg ⟨{ s.shared with transport := tr },
      s.threads.set i (.transport p') ++ new.map .transport⟩ := by
  have hp : At o reg s.shared (.transport p) := hG.points _ (List.mem_of_getElem? hi)
  have hspawned : ∀ q ∈ new.map Pc.transport, At o reg { s.shared with transport := tr } q := by
    intro q hq
    obtain ⟨p, hp, rfl⟩ := List.mem_map.mp hq
    obtain ⟨k, hk⟩ := hnew p hp
    intro hc
    cases (closing_of_conn hk).symm.trans hc
  have hkept := hok .listenerKept (by decide)
  refine hG.keep rfl rfl id rfl ?_ ?_ hspawned
  · intro hclosed
    cases hmoves with
    | aside _ _ _ _ hsame => exact hG.closed (hsame.symm.trans hclosed)
    | watched hpc => exact hG.closed (by simpa [asks, hi, hpc] using hkept)
    | listener hpc => exact hp (by rw [hpc]; rfl)
    | again _ _ _ hg | refused _ _ _ hg | waited _ _ _ hg =>
      subst hg
      exact hG.closed hclosed
    | called _ _ _ hg =>
      subst hg
      exact hG.closed hclosed
  · intro hc
    have hw : closing p = true → Withdrawn o reg { s.shared with transport := tr } :=
      fun h => (hp h).keep rfl id
    cases hmoves with
    | aside _ h => cases h.symm.trans hc
    | watched _ h =>
      subst h
      cases hc
    | again h | called h | listener h | refused h | waited h => exact hw (by rw [h]; rfl)

theorem fire_guarded (hG : Guarded o reg s) (hok : Ordered o reg s i e)
    (h : (lifecycle o reg).fire s i e = some t) : Guarded o reg t := by
  obtain ⟨pc, g', pc', new, hi, rfl, hs⟩ := fire_life h
  have hp : At o reg s.shared pc := hG.points pc (List.mem_of_getElem? hi)
  cases hs with
  | ends _ hended => exact hG.keep rfl rfl id rfl hG.closed (at_of_ended hended) (by simp)
  | listened hnone =>
    have hrun : s.shared.heartbeatStopped = false := by
      cases hstop : s.shared.heartbeatStopped with
      | false => rfl
      | true =>
        have := hG.bound hstop
        rw [hnone] at this
        cases this
    rw [List.append_nil]
    refine hG.running hrun hrun rfl ?_ ?_
    · intro inst hinst
      obtain ⟨-, addr, t, haddr, -⟩ := hG.named inst hinst
      cases hnone.symm.trans haddr
    · cases henable : o.enableRegistry with
      | true => exact ⟨hrun, henable⟩
      | false => trivial
  | named haddr hinst =>
    rw [List.append_nil]
    refine hG.running hp.1 hp.1 rfl ?_ hp.1
    intro inst' heq
    cases heq
    exact ⟨hp.2, _, _, haddr, hinst⟩
  | refused =>
    rw [List.append_nil]
    exact hG.running hp hp rfl hG.named trivial
  | registered =>
    rw [List.append_nil]
    exact hG.running hp hp rfl hG.named trivial
  | beats => exact hG.keep rfl rfl id rfl hG.closed trivial (by simp [At])
  | serves =>
    refine hG.keep rfl rfl id rfl (fun h => hG.closed h) ?_ ?_
    · exact fun hc => by cases hc
    · simp [At, closing]
  | stops =>
    have hfirst := hok .startedFirst (by decide)
    simp only [asks, hi, Bool.and_eq_true, Bool.not_eq_true'] at hfirst
    have hnobody : ∀ q ∈ s.threads, enrolling q = false := by
      simpa using List.any_eq_false.mp hfirst.2
    rw [List.append_nil]
    refine ⟨fun _ => hfirst.1, ?_, fun hc => ⟨rfl, (hG.closed hc).absent⟩, hG.named⟩
    intro q hq
    rcases List.mem_or_eq_of_mem_set hq with hq | rfl
    · exact (hG.points q hq).stop (hnobody q hq)
    · rfl
  | found hinst =>
    exact hG.keep rfl rfl id rfl hG.closed ⟨hp, _, hinst, rfl⟩ (by simp)
  | unfound hnone =>
    refine hG.keep rfl rfl id rfl hG.closed (fun _ => ⟨hp, ?_⟩) (by simp)
    cases hinst : s.shared.serviceInstance with
    | none => simp [present, hinst]
    | some inst => cases (hnone (hG.named inst hinst).1).symm.trans hinst
  | kept hreg =>
    exact hG.keep rfl rfl (present_registry hreg) rfl hG.closed trivial (by simp)
  | withdrawn hreg =>
    obtain ⟨hstop, inst, hinst, rfl⟩ := hp
    refine hG.keep rfl rfl (present_registry hreg) rfl hG.closed (fun _ => ⟨hstop, ?_⟩) (by simp)
    simp only [present, hinst]
    exact reg.withdrawn hreg
  | unbound hnone =>
    refine hG.keep rfl rfl id rfl hG.closed (fun _ => hp rfl) (by simp)
  | transport _ hserver =>
    obtain ⟨hmoves, hnew⟩ := serverStep_moves hserver
    exact transport_guarded hG hok hi hmoves hnew
  | elsewhere =>
    have hadd := hok .notAdded (by decide)
    simp only [asks, Bool.or_eq_true, Bool.not_eq_true'] at hadd
    refine hG.keep rfl rfl (fun habsent => ?_) rfl hG.closed trivial (by simp)
    rcases hadd with hpresent | hadd
    · cases habsent.symm.trans hpresent
    · exact hadd

theorem start_guarded : Guarded o reg (start o r n m : Config (ServerState R Value) _) where
  bound h := by cases h
  points pc hpc := by
    obtain rfl | rfl | rfl | rfl := start_threads hpc
    · intro hc
      cases hc
    all_goals trivial
  closed h := by cases h
  named inst h := by cases h

/-- If `Stop` is called only once `Start` has registered, and the context does not close the
listener, then a server found in the registry listens, at the host and the port that the registry
shows. -/
theorem registered_open
    (h : Run (lifecycle o reg) (Ordered o reg) (start o r n m) tr s)
    (hpresent : present o reg s.shared = true) :
    s.shared.transport.listenerClosed = false ∧
      ∃ inst addr host portStr, s.shared.serviceInstance = some inst ∧
        s.shared.listener = some addr ∧ Registration.splitHostPort addr = .ok (host, portStr) ∧
        inst.address = host ∧ Registration.atoi portStr = .ok inst.port := by
  have hG : Guarded o reg s :=
    h.invariant start_guarded fun _ _ _ _ hG hok hf => fire_guarded hG hok hf
  constructor
  · cases hclosed : s.shared.transport.listenerClosed with
    | false => rfl
    | true => cases hpresent.symm.trans (hG.closed hclosed).absent
  · cases hinst : s.shared.serviceInstance with
    | none => simp [present, hinst] at hpresent
    | some inst =>
      obtain ⟨-, addr, t, haddr, hreg⟩ := hG.named inst hinst
      obtain ⟨⟨host, portStr⟩, hsplit⟩ := registerService_splits hreg
      obtain ⟨hhost, hport⟩ := Registration.registerService_ok hreg hsplit
      exact ⟨inst, addr, host, portStr, rfl, haddr, hsplit, hhost, hport⟩

/-- A server on the registry in memory. -/
def echo : Options := ⟨":8080", "echo", "", true, 5000000000, ⟨1, 4, 2⟩⟩

/-- `Start`, up to the accept loop. -/
def starts : List (Nat × Ev Registry.Memory.MemoryRegistry Unit Unit) :=
  [(2, .bound (.ok "10.0.0.1:8080")), (2, .now 1700000000), (2, .answer ()), (2, .step), (2, .step)]

theorem starts_ordered :
    (exec (lifecycle echo memory) (Ordered echo memory)
      (start echo Registry.Memory.newRegistry 1 1) starts).isSome := by
  decide +kernel

theorem registered_open_starts :
    let s := (exec (lifecycle echo memory) (Ordered echo memory)
      (start echo Registry.Memory.newRegistry 1 1) starts).get starts_ordered
    present echo memory s.shared = true ∧ s.shared.transport.listenerClosed = false ∧
      ∃ inst addr host portStr, s.shared.serviceInstance = some inst ∧
        s.shared.listener = some addr ∧ Registration.splitHostPort addr = .ok (host, portStr) ∧
        inst.address = host ∧ Registration.atoi portStr = .ok inst.port :=
  ⟨by decide +kernel, registered_open (run_exec starts_ordered) (by decide +kernel)⟩

/-! ## Serving, therefore registered -/

/-- Between `Listen` and `Serve`. -/
def preparing : Pc Value → Int
  | .startRegister | .registering _ | .startHeartbeat | .startServe => 1
  | _ => 0

theorem preparing_nonneg (pc : Pc Value) : 0 ≤ preparing pc := by
  cases pc <;> simp [preparing]

/-- Until `Stop` is called the instance is in the registry. -/
def Shows (o : Options) (reg : Registrar R A) (g : ServerState R Value) : Prop :=
  o.enableRegistry = true → g.heartbeatStopped = false → present o reg g = true

def Ready (o : Options) (reg : Registrar R A) (g : ServerState R Value) : Pc Value → Prop
  | .registering inst => g.serviceInstance = some inst ∧ inst.service = o.serviceName
  | .startHeartbeat | .startServe => Shows o reg g
  | .stopCheck | .deregistering _ => g.heartbeatStopped = true
  | _ => True

/-- At most one goroutine gets past `Listen`. -/
structure Shown (o : Options) (reg : Registrar R A)
    (s : Config (ServerState R Value) (Pc Value)) : Prop where
  one : total preparing s.threads + s.shared.serving.toNat ≤ s.shared.listener.isSome.toNat
  points : ∀ pc ∈ s.threads, Ready o reg s.shared pc
  served : s.shared.serving = true → Shows o reg s.shared

theorem Shows.keep (h : Shows o reg g)
    (hstop : g'.heartbeatStopped = false → g.heartbeatStopped = false)
    (hpresent : g'.heartbeatStopped = false → present o reg g = true → present o reg g' = true) :
    Shows o reg g' :=
  fun henable hrun => hpresent hrun (h henable (hstop hrun))

theorem Ready.keep (h : Ready o reg g pc) (hinst : g'.serviceInstance = g.serviceInstance)
    (hstop : g'.heartbeatStopped = false → g.heartbeatStopped = false)
    (hpresent : g'.heartbeatStopped = false → present o reg g = true → present o reg g' = true) :
    Ready o reg g' pc := by
  have hstopped : g.heartbeatStopped = true → g'.heartbeatStopped = true := by
    intro ht
    cases hf : g'.heartbeatStopped with
    | true => rfl
    | false => cases (hstop hf).symm.trans ht
  cases pc with
  | registering => exact ⟨hinst.trans h.1, h.2⟩
  | startHeartbeat | startServe => exact Shows.keep h hstop hpresent
  | stopCheck | deregistering => exact hstopped h
  | _ => trivial

theorem ready_of_ended (h : ended pc = true) : Ready o reg g pc ∧ preparing pc = 0 := by
  cases pc <;> first | exact ⟨trivial, rfl⟩ | cases h

/-- Who is not between `Listen` and `Serve` does not mind what happens there. -/
theorem Ready.aside (h : Ready o reg g pc) (hpc : preparing pc = 0)
    (hstop : g'.heartbeatStopped = g.heartbeatStopped) : Ready o reg g' pc := by
  cases pc with
  | registering | startHeartbeat | startServe => cases hpc
  | stopCheck | deregistering => exact hstop.trans h
  | _ => trivial

theorem Shown.step (hS : Shown o reg s) (hi : s.threads[i]? = some pc)
    (hone : preparing pc' + total preparing new + g'.serving.toNat - preparing pc -
      s.shared.serving.toNat ≤ (g'.listener.isSome.toNat : Int) - s.shared.listener.isSome.toNat)
    (hready : Ready o reg g' pc') (hnew : ∀ q ∈ new, Ready o reg g' q)
    (hothers : ∀ j q, j ≠ i → s.threads[j]? = some q → Ready o reg s.shared q → Ready o reg g' q)
    (hserved : g'.serving = true → Shows o reg g') :
    Shown o reg ⟨g', s.threads.set i pc' ++ new⟩ where
  one := by
    have := hS.one
    simp only [total_append, total_set _ _ hi]
    omega
  points q hq := by
    obtain ⟨j, hj⟩ := List.mem_iff_getElem?.mp hq
    obtain ⟨rfl, rfl⟩ | ⟨hji, hj⟩ | hmem := getElem?_fired hj
    · exact hready
    · exact hothers j q hji hj (hS.points q (List.mem_of_getElem? hj))
    · exact hnew q hmem
  served := hserved

/-- A step that has nothing to do with `Start`. -/
theorem Shown.keep (hS : Shown o reg s) (hi : s.threads[i]? = some pc)
    (hpc' : preparing pc' ≤ preparing pc) (hready : Ready o reg g' pc')
    (hnew : ∀ q ∈ new, Ready o reg g' q ∧ preparing q = 0)
    (hinst : g'.serviceInstance = s.shared.serviceInstance)
    (hlistener : g'.listener = s.shared.listener) (hserving : g'.serving = s.shared.serving)
    (hstop : g'.heartbeatStopped = false → s.shared.heartbeatStopped = false)
    (hpresent : g'.heartbeatStopped = false → present o reg s.shared = true →
      present o reg g' = true) :
    Shown o reg ⟨g', s.threads.set i pc' ++ new⟩ := by
  refine hS.step hi ?_ hready (fun q hq => (hnew q hq).1) ?_ ?_
  · rw [total_eq_zero fun q hq => (hnew q hq).2, hlistener, hserving]
    omega
  · exact fun _ _ _ _ hq => hq.keep hinst hstop hpresent
  · exact fun h => (hS.served (hserving ▸ h)).keep hstop hpresent

/-- The goroutine between `Listen` and `Serve` is the only one. -/
theorem Shown.alone (hS : Shown o reg s) (hi : s.threads[i]? = some pc) (hpc : preparing pc = 1) :
    s.shared.serving = false ∧ s.shared.listener.isSome = true ∧
      ∀ j q, j ≠ i → s.threads[j]? = some q → preparing q = 0 := by
  have hle := le_total_of_mem preparing_nonneg (List.mem_of_getElem? hi)
  have hone := hS.one
  have hlistener : s.shared.listener.isSome.toNat ≤ 1 := Bool.toNat_le _
  refine ⟨?_, ?_, fun j q hji hj => ?_⟩
  · cases hserving : s.shared.serving with
    | false => rfl
    | true =>
      rw [hserving, Bool.toNat_true] at hone
      omega
  · cases hsome : s.shared.listener.isSome with
    | true => rfl
    | false =>
      rw [hsome, Bool.toNat_false] at hone
      omega
  · have := add_le_total preparing_nonneg (Ne.symm hji) hi hj
    have := preparing_nonneg q
    omega

theorem fire_shown (hS : Shown o reg s) (hok : Meets (asks o reg) [.notRemoved] s i e)
    (h : (lifecycle o reg).fire s i e = some t) : Shown o reg t := by
  obtain ⟨pc, g', pc', new, hi, rfl, hs⟩ := fire_life h
  have hp : Ready o reg s.shared pc := hS.points pc (List.mem_of_getElem? hi)
  cases hs with
  | ends _ hended =>
    obtain ⟨hready, hprep⟩ := ready_of_ended hended
    exact hS.keep hi (by rw [hprep]; exact preparing_nonneg _) hready (by simp) rfl rfl rfl id
      fun _ => id
  | listened hnone =>
    have hprep : preparing (if o.enableRegistry then .startRegister else .startServe :
        Pc Value) = 1 := by
      split <;> rfl
    refine hS.step hi ?_ ?_ (by simp) (fun _ _ _ _ hq => hq.keep rfl id fun _ => id)
      fun hserving => (hS.served hserving).keep id fun _ => id
    · rw [hprep, hnone]
      simp [preparing]
    · cases henable : o.enableRegistry with
      | true => trivial
      | false =>
        intro ht
        cases henable.symm.trans ht
  | named _ hinst =>
    obtain ⟨hserving, -, hothers⟩ := hS.alone hi rfl
    refine hS.step hi (by simp [preparing]) ⟨rfl, registerService_service hinst⟩ (by simp) ?_ ?_
    · exact fun j q hji hj hq => hq.aside (hothers j q hji hj) rfl
    · exact fun ht => by cases hserving.symm.trans ht
  | refused =>
    obtain ⟨hserving, -, hothers⟩ := hS.alone hi rfl
    refine hS.step hi (by simp [preparing]) trivial (by simp) ?_ ?_
    · exact fun j q hji hj hq => hq.aside (hothers j q hji hj) rfl
    · exact fun ht => by cases hserving.symm.trans ht
  | registered hreg =>
    obtain ⟨hserving, -, hothers⟩ := hS.alone hi rfl
    obtain ⟨hinst, hservice⟩ := hp
    refine hS.step hi (by simp [preparing]) (fun _ _ => ?_) (by simp) ?_ ?_
    · simp only [present, hinst]
      rw [← hservice]
      exact reg.registered hreg
    · exact fun j q hji hj hq => hq.aside (hothers j q hji hj) rfl
    · exact fun ht => by cases hserving.symm.trans ht
  | beats =>
    exact hS.keep hi (by simp [preparing]) hp (by simp [Ready, preparing]) rfl rfl rfl id
      fun _ => id
  | serves _ hserving =>
    refine hS.step hi ?_ trivial (by simp [Ready]) (fun _ _ _ _ hq => hq.keep rfl id fun _ => id)
      fun _ => Shows.keep hp id fun _ => id
    simp [preparing, hserving]
  | stops =>
    exact hS.keep hi (by simp [preparing]) rfl (by simp) rfl rfl rfl (by simp) (by simp)
  | found => exact hS.keep hi (by simp [preparing]) hp (by simp) rfl rfl rfl id fun _ => id
  | unfound => exact hS.keep hi (by simp [preparing]) trivial (by simp) rfl rfl rfl id fun _ => id
  | kept =>
    refine hS.keep hi (by simp [preparing]) trivial (by simp) rfl rfl rfl id fun hrun => ?_
    cases hrun.symm.trans hp
  | withdrawn =>
    refine hS.keep hi (by simp [preparing]) trivial (by simp) rfl rfl rfl id fun hrun => ?_
    cases hrun.symm.trans hp
  | unbound => exact hS.keep hi (by simp [preparing]) trivial (by simp) rfl rfl rfl id fun _ => id
  | transport =>
    refine hS.keep hi (by simp [preparing]) trivial ?_ rfl rfl rfl id fun _ => id
    intro q hq
    obtain ⟨p, -, rfl⟩ := List.mem_map.mp hq
    exact ⟨trivial, rfl⟩
  | elsewhere =>
    have hrem := hok .notRemoved (by decide)
    simp only [asks, Bool.or_eq_true, Bool.not_eq_true'] at hrem
    refine hS.keep hi (by simp [preparing]) trivial (by simp) rfl rfl rfl id fun _ hpresent => ?_
    rcases hrem with habsent | hrem
    · cases habsent.symm.trans hpresent
    · exact hrem

theorem start_shown : Shown o reg (start o r n m : Config (ServerState R Value) _) where
  one := by
    have hzero : total preparing (start o r n m : Config (ServerState R Value) _).threads = 0 := by
      refine total_eq_zero fun pc hpc => ?_
      obtain rfl | rfl | rfl | rfl := start_threads hpc <;> rfl
    rw [hzero]
    rfl
  points pc hpc := by
    obtain rfl | rfl | rfl | rfl := start_threads hpc <;> trivial
  served h := by cases h

/-- However often `Start` is called, one call at most gets past `Listen`, it comes to `Serve` when
it has registered, and from then on the server is found in the registry until `Stop` is called,
unless somebody else takes it out. -/
theorem serving_registered
    (h : Run (lifecycle o reg) (Meets (asks o reg) [.notRemoved]) (start o r n m) tr s) :
    (∀ (i j : Nat) p q, s.threads[i]? = some p → s.threads[j]? = some q → preparing p = 1 →
      preparing q = 1 → i = j) ∧
    (s.shared.serving = true → ∀ pc ∈ s.threads, preparing pc = 0) ∧
    (o.enableRegistry = true → s.shared.heartbeatStopped = false →
      s.shared.serving = true ∨ .startServe ∈ s.threads → present o reg s.shared = true) := by
  have hS : Shown o reg s :=
    h.invariant start_shown fun _ _ _ _ hS hok hf => fire_shown hS hok hf
  refine ⟨fun i j p q hi hj hp hq => ?_, fun hserving pc hpc => ?_, fun henable hrun hat => ?_⟩
  · by_contra hij
    cases hq.symm.trans ((hS.alone hi hp).2.2 j q (Ne.symm hij) hj)
  · have hle := le_total_of_mem preparing_nonneg hpc
    have hone := hS.one
    have hlistener : s.shared.listener.isSome.toNat ≤ 1 := Bool.toNat_le _
    have hpos := preparing_nonneg pc
    rw [hserving, Bool.toNat_true] at hone
    omega
  · rcases hat with hserving | hmem
    · exact hS.served hserving henable hrun
    · exact hS.points _ hmem henable hrun

theorem starts_kept :
    (exec (lifecycle echo memory) (Meets (asks echo memory) [.notRemoved])
      (start echo Registry.Memory.newRegistry 1 1) starts).isSome := by
  decide +kernel

theorem serving_registered_starts :
    let s := (exec (lifecycle echo memory) (Meets (asks echo memory) [.notRemoved])
      (start echo Registry.Memory.newRegistry 1 1) starts).get starts_kept
    s.shared.serving = true ∧ present echo memory s.shared = true ∧
      ∀ pc ∈ s.threads, preparing pc = 0 := by
  intro s
  have hserving : s.shared.serving = true := by decide +kernel
  obtain ⟨-, hidle, hpresent⟩ := serving_registered (run_exec starts_kept)
  exact ⟨hserving, hpresent rfl (by decide +kernel) (.inl hserving), hidle hserving⟩

end Runs

end RpcInGo.Server.Registered
