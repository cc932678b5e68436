import RpcInGo.Pool.Sweep

/-!
`cleanup` and `healthCheck` from their call to their return, on an open pool that nobody
uses meanwhile.

* `sweeping_rank`, `sweeping_go`: every step brings a routine closer to its end, and no
  send blocks it;
* `routines_alone`: what is idle afterwards, in which order, what was closed and what
  `currentSize` is.
-/

namespace RpcInGo.Pool.Routines
open Lib.Channel Lib.Goroutine Lib.Observe Lib.Solo Protocol.Message Options Model Closing
  Accounting Handout Refill Sweep
open GetAlone (Settled Shut Objects closesAt poolStep_isSome recvStep_or_emptyStep program_steps)

section Steps
variable {k : Kind} {o : PoolOptions} {p₀ p p' : ConnectionPool} {pc pc' : Pc} {e : Ev}
  {es : List Ev} {closes : List ConnId} {vs : List (ConnId × Bool)}

/-! ## Steps to go -/

/-- The steps of a refill, and of what comes after the sweep. -/
def refillSteps (o : PoolOptions) : Nat := 5 * o.minSize.toNat + 2

def rank (o : PoolOptions) (p : ConnectionPool) : Pc → Nat
  | .cleanupDrain l | .healthDrain l =>
    6 * p.pool.buf.length + 5 * l.length + refillSteps o + 2
  | .cleanupCheck l | .healthCheck l => 5 * l.length + refillSteps o + 1
  | .cleanupSend _ l | .healthSend _ l => 5 * l.length + refillSteps o + 2
  | .discardClose _ (.cleanup l) | .discardClose _ (.healthCheck l) =>
    5 * l.length + refillSteps o + 4
  | .discardStat (.cleanup l) | .discardStat (.healthCheck l) => 5 * l.length + refillSteps o + 3
  | .discardSize (.cleanup l) | .discardSize (.healthCheck l) => 5 * l.length + refillSteps o + 2
  | .refillSize => refillSteps o
  | .refillDial n => 5 * n + 1
  | .refillSend _ n => 5 * n + 4
  | .refillGrow n => 5 * n + 3
  | .refillStat n => 5 * n + 2
  | _ => 0

theorem recvStep_rank {f : Option ConnId → Pc} {l : List (Option ConnId)}
    (h : recvStep p f = some (p', pc')) (hchan : p.pool.closed = false)
    (hf : ∀ p c, rank o p (f c) =
      6 * p.pool.buf.length + 5 * (l ++ [c]).length + refillSteps o + 2) :
    rank o p' pc' < 6 * p.pool.buf.length + 5 * l.length + refillSteps o + 2 := by
  obtain ⟨c, ch, hb, -, -, rfl, rfl⟩ | ⟨hcl, -, -⟩ := recvStep_cases h
  · simp only [hf, hb, List.length_append, List.length_cons, List.length_nil]
    omega
  · rw [hchan] at hcl
    cases hcl

theorem cleanupStep_rank (hs : Sweeping k o p₀ p pc es closes vs)
    (h : cleanupStep o p pc e = some (p', pc')) : rank o p' pc' < rank o p pc := by
  revert hs h
  fun_cases cleanupStep o p pc e <;> intro hs h <;> try contradiction
  case case1 l => exact recvStep_rank h hs.chan (fun _ _ => rfl)
  case case2 l =>
    obtain ⟨-, -, rfl, rfl⟩ := emptyStep_cases h
    simp only [rank]
    omega
  case case7 | case14 =>
    rw [(sendStep_sent h hs.chan).1]
    simp only [rank]
    omega
  case case9 hfree hshort =>
    cases h
    have hsize := hs.size
    simp only [hand, drift, List.length_nil] at hsize
    simp only [rank, refillSteps]
    omega
  all_goals
    cases h
    simp only [rank, refillSteps, List.length_cons]
    omega

theorem healthStep_rank (hs : Sweeping k o p₀ p pc es closes vs)
    (h : healthStep p pc e = some (p', pc')) : rank o p' pc' < rank o p pc := by
  revert hs h
  fun_cases healthStep p pc e <;> intro hs h <;> try contradiction
  case case1 l => exact recvStep_rank h hs.chan (fun _ _ => rfl)
  case case2 l =>
    obtain ⟨-, -, rfl, rfl⟩ := emptyStep_cases h
    simp only [rank]
    omega
  case case7 =>
    rw [(sendStep_sent h hs.chan).1]
    simp only [rank]
    omega
  all_goals
    cases h
    simp only [rank, refillSteps, List.length_cons]
    omega

theorem discardStep_rank (hs : Sweeping k o p₀ p pc es closes vs)
    (h : discardStep p pc e = some (p', pc')) : rank o p' pc' < rank o p pc := by
  revert hs h
  fun_cases discardStep p pc e <;> intro hs h <;> try contradiction
  case case1 c a =>
    cases h
    cases a with
    | cleanup l | healthCheck l => simp [rank]
    | _ => exact hs.stage.elim
  case case2 a =>
    cases h
    cases a with
    | cleanup l | healthCheck l => simp [rank]
    | _ => exact hs.stage.elim
  case case4 a hfree =>
    cases h
    cases a with
    | cleanup l | healthCheck l => simp [rank, After.pc]
    | _ => exact hs.stage.elim

theorem sweeping_rank (hs : Sweeping k o p₀ p pc es closes vs) (hok : k.allows pc e = true)
    (h : poolStep o p pc e = some (p', pc')) : rank o p' pc' < rank o p pc := by
  rcases hs.stage.step_cases (allows_not_idle hok h) h with h | h | h
  · exact discardStep_rank hs h
  · exact cleanupStep_rank hs h
  · exact healthStep_rank hs h

/-! ## Never stuck -/

theorem sendStep_isSome (hchan : p.pool.closed = false) (hroom : p.pool.buf.length < p.pool.cap)
    (c : ConnId) (q : Pc) : (sendStep p c q).isSome := by
  rw [sendStep, send_of_room c hchan hroom]
  rfl

/-- What was drained fits back into the channel. -/
theorem sweeping_room (hs : Sweeping k o p₀ p pc es closes vs) {c : ConnId}
    {l : List (Option ConnId)} (h : Judged p₀ vs l (p.pool.buf ++ [c]) closes) :
    p.pool.buf.length < p.pool.cap := by
  obtain ⟨⟨ids, -, hbuf⟩, hkept, -⟩ := h
  have hlen := congrArg List.length hkept
  have hlen₀ := congrArg List.length hbuf
  have hsum := length_keptOf_add vs
  have hbound := p₀.pool.bounded
  simp only [List.length_append, List.length_cons, List.length_nil, List.length_map] at hlen hlen₀
  rw [hs.cap]
  omega

/-- A refill stays below `MinSize`. -/
theorem refill_room (hset : Settled o p₀) (hmin : o.minSize ≤ o.maxSize)
    {c : ConnId} {n : Nat} (hs : Sweeping k o p₀ p (.refillSend c n) es closes vs) :
    p.pool.buf.length < p.pool.cap := by
  have hst : Refilled o p₀ p vs (p.pool.buf ++ [c]) closes (n + 1) := hs.stage
  have htoGo := hst.toGo
  have hsize := hs.size
  simp only [hand, drift, List.length_cons, List.length_nil] at hsize
  rw [hs.cap, hset.cap]
  omega

theorem allows_step (k : Kind) (pc : Pc) : k.allows pc .step = true := by
  cases k <;> cases pc <;> rfl

/-- The routine is never stuck. -/
theorem sweeping_go (hset : Settled o p₀) (hmin : o.minSize ≤ o.maxSize)
    (hs : Sweeping k o p₀ p pc es closes vs) :
    pc.idle = true ∨ ∃ e p' pc', k.allows pc e = true ∧ poolStep o p pc e = some (p', pc') := by
  have hgo (e : Ev) (hok : k.allows pc e = true) (hsome : (poolStep o p pc e).isSome) :
      pc.idle = true ∨ ∃ e p' pc', k.allows pc e = true ∧ poolStep o p pc e = some (p', pc') := by
    obtain ⟨⟨p', pc'⟩, h⟩ := Option.isSome_iff_exists.mp hsome
    exact Or.inr ⟨e, p', pc', hok, h⟩
  have hst := hs.stage
  have hmine := hs.mine
  have hlocked := hs.locked
  have hstep := allows_step k pc
  unfold Stage at hst
  split at hst
  case h_1 l =>
    rcases recvStep_or_emptyStep p (fun c => .cleanupDrain (l ++ [c])) (.cleanupCheck l) with h | h
    · exact hgo .recv (by cases k <;> rfl) (poolStep_isSome rfl (.inr (.inr (.inl h))))
    · exact hgo .otherwise (by cases k <;> rfl) (poolStep_isSome rfl (.inr (.inr (.inl h))))
  case h_2 l =>
    rcases recvStep_or_emptyStep p (fun c => .healthDrain (l ++ [c])) (.healthCheck l) with h | h
    · exact hgo .recv (by cases k <;> rfl) (poolStep_isSome rfl (.inr (.inr (.inr h))))
    · exact hgo .otherwise (by cases k <;> rfl) (poolStep_isSome rfl (.inr (.inr (.inr h))))
  case h_3 l =>
    obtain ⟨⟨ids, rfl, -⟩, -, -⟩ := hst
    cases ids with
    | nil => exact hgo .step hstep (poolStep_isSome rfl (.inr (.inr (.inl rfl))))
    | cons c ids =>
      refine hgo (.now 0) (by cases k <;> rfl) (poolStep_isSome rfl (.inr (.inr (.inl ?_))))
      rw [List.map_cons, cleanupStep]
      split <;> rfl
  case h_4 l =>
    obtain ⟨⟨ids, rfl, -⟩, -, -⟩ := hst
    cases ids with
    | nil => exact hgo .step hstep (poolStep_isSome rfl (.inr (.inr (.inr rfl))))
    | cons c ids =>
      cases k with
      | cleanup => cases hmine
      | healthCheck connected =>
        refine hgo (.connected (connected c)) (by simp [Kind.allows])
          (poolStep_isSome rfl (.inr (.inr (.inr ?_))))
        rw [List.map_cons, healthStep]
        split <;> rfl
  case h_5 c l =>
    exact hgo .step hstep (poolStep_isSome rfl (.inr (.inr (.inl
      (sendStep_isSome hs.chan (sweeping_room hs hst) c _)))))
  case h_6 c l =>
    exact hgo .step hstep (poolStep_isSome rfl (.inr (.inr (.inr
      (sendStep_isSome hs.chan (sweeping_room hs hst) c _)))))
  case h_7 | h_8 | h_9 | h_10 => exact hgo .step hstep (poolStep_isSome rfl (.inr (.inl rfl)))
  case h_11 | h_12 =>
    exact hgo .step hstep (poolStep_isSome rfl (.inr (.inl
      (by simp [discardStep, hlocked, holding]))))
  case h_13 =>
    refine hgo .step hstep (poolStep_isSome rfl (.inr (.inr (.inl ?_))))
    rw [cleanupStep, show p.locked = false from hlocked]
    simp only [Bool.false_eq_true, ↓reduceIte]
    split <;> rfl
  case h_14 n =>
    cases n with
    | zero => exact hgo .step hstep (poolStep_isSome rfl (.inr (.inr (.inl rfl))))
    | succ n =>
      exact hgo (.created 0) (by cases k <;> rfl) (poolStep_isSome rfl (.inr (.inr (.inl rfl))))
  case h_15 | h_16 => exact hgo .step hstep (poolStep_isSome rfl (.inr (.inr (.inl rfl))))
  case h_17 c n =>
    exact hgo .step hstep (poolStep_isSome rfl (.inr (.inr (.inl
      (sendStep_isSome hs.chan (refill_room hset hmin hs) c _)))))
  case h_18 => exact Or.inl rfl
  case h_19 => exact hst.elim

theorem settled_sweeping (hset : Settled o p) (k : Kind) : Sweeping k o p p k.start [] [] [] := by
  have hsize : p.currentSize =
      p.pool.buf.length + p.checkedOut.length + (hand k.start).length + drift k.start := by
    cases k <;> simpa [Kind.start, hand, drift] using hset.size
  have htied : k.Tied o p [] [] := by
    cases k with
    | cleanup => exact ⟨[], rfl, rfl⟩
    | healthCheck connected => simp [Kind.Tied]
  have hlocked : p.locked = decide (holding k.start = 1) := by
    rw [hset.free]
    cases k <;> rfl
  refine ⟨by cases k <;> rfl, hset.opened, hset.chan, rfl, hlocked, rfl, hsize, ?_,
    fun _ _ => rfl, .refl p, htied, ?_⟩
  · cases k <;> simp [Kind.start, uncounted]
  · cases k <;> exact ⟨⟨[], rfl, rfl⟩, rfl, rfl⟩

end Steps

/-! ## The whole routine -/

def expired (o : PoolOptions) (p : ConnectionPool) (l : ConnId × Int) : Bool :=
  (p.conn l.1).isExpired o.maxIdleTime o.maxLifetime l.2

/-- What `cleanup` makes of the pool `p`: each idle connection is looked at once, in order,
at the times in `looked`; the expired ones are closed, and no other object changes. -/
structure Cleaned (o : PoolOptions) (p p' : ConnectionPool) (looked : List (ConnId × Int))
    (closes : List ConnId) (es : List Ev) : Prop where
  all : looked.map Prod.fst = p.pool.buf
  times : looked.map Prod.snd = readings es
  idle : ∃ m, p'.pool.buf = (looked.filter (!expired o p ·)).map Prod.fst ++
    List.range' p.conns.length m
  closed : closes = (looked.filter (expired o p)).map Prod.fst
  shut : Shut p p' closes
  counted : p'.closeCount = p.closeCount + closes.length
  out : p'.checkedOut = p.checkedOut
  size : p'.currentSize = p'.pool.buf.length + p'.checkedOut.length
  least : p.currentSize - closes.length ≤ p'.currentSize
  most : p'.currentSize ≤ max o.minSize (p.currentSize - closes.length)
  filled : (∀ err, .createFailed err ∉ es) →
    p'.currentSize = max o.minSize (p.currentSize - closes.length)

def healthy (p : ConnectionPool) (connected : ConnId → Bool) (c : ConnId) : Bool :=
  (p.conn c).isHealthy (connected c)

/-- What `healthCheck` makes of the pool `p`. -/
structure Checked (p p' : ConnectionPool) (connected : ConnId → Bool) (closes : List ConnId) :
    Prop where
  idle : p'.pool.buf = p.pool.buf.filter (healthy p connected)
  closed : closes = p.pool.buf.filter (!healthy p connected ·)
  shut : Shut p p' closes
  counted : p'.closeCount = p.closeCount + closes.length
  out : p'.checkedOut = p.checkedOut
  size : p'.currentSize = p'.pool.buf.length + p'.checkedOut.length
  lost : p'.currentSize = p.currentSize - closes.length

section Ends
variable {k : Kind} {o : PoolOptions} {p₀ p : ConnectionPool} {pc : Pc} {es : List Ev}
  {closes : List ConnId} {vs : List (ConnId × Bool)} {r : Result}

/-- What was dropped had been idle. -/
theorem sweeping_shut (hset : Settled o p₀) (hs : Sweeping k o p₀ p pc es closes vs)
    (hall : p₀.pool.buf = vs.map Prod.fst) (hdropped : closes = droppedOf vs) :
    Shut p₀ p closes := by
  refine hs.objects.shut fun c hc => hset.known c ?_
  rw [hdropped, droppedOf, List.mem_map] at hc
  obtain ⟨v, hv, rfl⟩ := hc
  rw [hall]
  exact List.mem_map_of_mem (List.mem_filter.mp hv).1

theorem sweeping_cleaned (hset : Settled o p₀)
    (hs : Sweeping .cleanup o p₀ p (.returned r) es closes vs) :
    r = .done ∧ ∃ looked, Cleaned o p₀ p looked closes es := by
  obtain ⟨hr, hall, ⟨m, hbuf, -⟩, hdropped, hfilled⟩ := hs.stage
  obtain ⟨looked, htimes, rfl⟩ := hs.tied
  have hlen := congrArg List.length hbuf
  rw [List.length_append, List.length_range'] at hlen
  have hsize := hs.size_eq hset hall hdropped hlen rfl
  have hcount := hs.counted
  have haccount := hs.size
  have hfill := hfilled rfl
  simp only [hand, drift, uncounted, List.length_nil] at hcount haccount
  refine ⟨hr, looked, ?_, htimes, ⟨m, ?_⟩, ?_, sweeping_shut hset hs hall hdropped, by omega,
    hs.out, by omega, by omega, by omega, fun hnone => ?_⟩
  · rw [hall, List.map_map]
    rfl
  · rw [hbuf, keptOf, List.filter_map, List.map_map]
    rfl
  · rw [hdropped, droppedOf, List.filter_map, List.map_map]
    simp only [Function.comp_def, Bool.not_not]
    rfl
  · rcases hfill with hfull | ⟨-, err, herr⟩
    · exact hfull
    · exact absurd herr (hnone err)

theorem verdicts_eq {f : ConnId → Bool} (h : ∀ v ∈ vs, v.2 = f v.1) :
    vs = (vs.map Prod.fst).map fun c => (c, f c) := by
  rw [List.map_map]
  conv_lhs => rw [← List.map_id vs]
  refine List.map_congr_left fun v hv => ?_
  exact Prod.ext rfl (h v hv)

theorem sweeping_checked {connected : ConnId → Bool} (hset : Settled o p₀)
    (hs : Sweeping (.healthCheck connected) o p₀ p (.returned r) es closes vs) :
    r = .done ∧ Checked p₀ p connected closes := by
  obtain ⟨hr, hall, ⟨m, hbuf, hm⟩, hdropped, -⟩ := hs.stage
  obtain rfl := hm rfl
  rw [List.range'_zero, List.append_nil] at hbuf
  have hvs := verdicts_eq (f := healthy p₀ connected) hs.tied
  rw [← hall] at hvs
  have hsize := hs.size_eq hset (m := 0) hall hdropped (by rw [hbuf]; rfl) rfl
  have hcount := hs.counted
  have haccount := hs.size
  simp only [hand, drift, uncounted, List.length_nil] at hcount haccount
  refine ⟨hr, ?_, ?_, sweeping_shut hset hs hall hdropped, by omega, hs.out, by omega,
    by omega⟩
  · rw [hbuf, hvs, keptOf, List.filter_map, List.map_map]
    simp [Function.comp_def]
  · rw [hdropped, hvs, droppedOf, List.filter_map, List.map_map]
    simp [Function.comp_def]

end Ends

/-- Either routine comes to its end, however long the factory and the clock go on as they
like. -/
theorem run_sweeping {k : Kind} {o : PoolOptions} {s t : Config ConnectionPool Pc} {i : Nat}
    {tr : List (Nat × Ev)} (hv : validate o = none) (hset : Settled o s.shared)
    (hi : s.threads[i]? = some k.start) (h : Run (program o) (Only i k.allows) s tr t) :
    (∃ tr' u r, Run (program o) (Only i k.allows) t tr' u ∧ u.threads[i]? = some (.returned r)) ∧
    tr.length ≤ rank o s.shared k.start ∧
    ∀ r, t.threads[i]? = some (.returned r) → ∃ vs, Sweeping k o s.shared t.shared (.returned r)
      (tr.map Prod.snd) (observe (program o) (seen closesAt) s tr) vs := by
  obtain ⟨-, -, hmin⟩ := validate_sizes hv
  have hsteps := program_steps o
  have hstep : ∀ p pc e p' pc', (∃ es closes vs, Sweeping k o s.shared p pc es closes vs) →
      k.allows pc e = true → poolStep o p pc e = some (p', pc') →
      (∃ es closes vs, Sweeping k o s.shared p' pc' es closes vs) ∧
        rank o p' pc' < rank o p pc := by
    rintro p pc e p' pc' ⟨es, closes, vs, hs⟩ hok hp
    exact ⟨⟨_, _, sweeping_step hset hs hok hp⟩, sweeping_rank hs hok hp⟩
  obtain ⟨q, hq, vs, hs⟩ := run_only closesAt
    (I := fun p pc es closes => ∃ vs, Sweeping k o s.shared p pc es closes vs) hsteps h hi
    ⟨[], settled_sweeping hset k⟩
    (fun _ _ _ _ _ _ _ ⟨_, hs⟩ hok hp => sweeping_step hset hs hok hp)
  have hti : t.threads[i]? = some q := by
    rw [hq]
    exact getElem?_set_of_some hi q
  refine ⟨?_, ?_, ?_⟩
  · obtain ⟨tr', u, q', hrun, hq', hdone⟩ : ∃ tr' u q',
        Run (program o) (Only i k.allows) t tr' u ∧ u.threads[i]? = some q' ∧ q'.idle = true :=
      finishes hsteps hstep (fun _ _ ⟨_, _, _, hs⟩ => sweeping_go hset hmin hs) hti
        ⟨_, _, _, hs⟩
    cases q' with
    | returned r => exact ⟨tr', u, r, hrun, hq'⟩
    | _ => cases hdone
  · obtain ⟨_, _, hle⟩ := length_add_rank_le hsteps h hi ⟨[], [], [], settled_sweeping hset k⟩
      hstep
    exact le_trans (Nat.le_add_right _ _) hle
  · intro r hr
    rw [hti] at hr
    cases hr
    exact ⟨vs, hs⟩

/-- On an open pool that nobody else uses, at whatever times `cleanup` looks at the clock
and whatever the factory answers, it can always go on until it returns, and has then done
what `Cleaned` says; and so `healthCheck`, whatever `IsConnected` answers. -/
theorem routines_alone {o : PoolOptions} {s t : Config ConnectionPool Pc} {i : Nat}
    {tr : List (Nat × Ev)} (hv : validate o = none) (hset : Settled o s.shared) :
    (s.threads[i]? = some (.cleanupDrain []) →
      Run (program o) (Only i Kind.cleanup.allows) s tr t →
      (∃ tr' u r, Run (program o) (Only i Kind.cleanup.allows) t tr' u ∧
        u.threads[i]? = some (.returned r)) ∧
      ∀ r, t.threads[i]? = some (.returned r) → r = .done ∧
        ∃ looked, Cleaned o s.shared t.shared looked
          (observe (program o) (seen closesAt) s tr) (tr.map Prod.snd)) ∧
    ∀ connected, s.threads[i]? = some (.healthDrain []) →
      Run (program o) (Only i (Kind.healthCheck connected).allows) s tr t →
      (∃ tr' u r, Run (program o) (Only i (Kind.healthCheck connected).allows) t tr' u ∧
        u.threads[i]? = some (.returned r)) ∧
      ∀ r, t.threads[i]? = some (.returned r) → r = .done ∧
        Checked s.shared t.shared connected (observe (program o) (seen closesAt) s tr) := by
  refine ⟨fun hi h => ?_, fun connected hi h => ?_⟩
  · obtain ⟨hend, -, hdone⟩ := run_sweeping (k := .cleanup) hv hset hi h
    refine ⟨hend, fun r hr => ?_⟩
    obtain ⟨vs, hs⟩ := hdone r hr
    exact sweeping_cleaned hset hs
  · obtain ⟨hend, -, hdone⟩ := run_sweeping (k := .healthCheck connected) hv hset hi h
    refine ⟨hend, fun r hr => ?_⟩
    obtain ⟨vs, hs⟩ := hdone r hr
    exact sweeping_checked hset hs

/-- The idle connection has expired: it is closed, and the refill makes another. -/
def replacesExpired : List (Nat × Ev) :=
  [(0, .recv), (0, .otherwise), (0, .now (91 * second)), (0, .step), (0, .step), (0, .step),
   (0, .step), (0, .step), (0, .created (91 * second)), (0, .step), (0, .step), (0, .step),
   (0, .step)]

def cleaning : Config ConnectionPool Pc := ⟨smallStart.shared, [.cleanupDrain []]⟩

theorem replacesExpired_runs :
    (exec (program smallPool) (Only 0 Kind.cleanup.allows) cleaning replacesExpired).isSome := by
  decide

/-- The idle connection is healthy and is sent back. -/
def keepsHealthy : List (Nat × Ev) :=
  [(0, .recv), (0, .otherwise), (0, .connected true), (0, .step), (0, .step)]

def checking : Config ConnectionPool Pc := ⟨smallStart.shared, [.healthDrain []]⟩

theorem keepsHealthy_runs :
    (exec (program smallPool) (Only 0 (Kind.healthCheck fun _ => true).allows) checking
      keepsHealthy).isSome := by
  decide

theorem routines_alone_smallPool :
    (∃ looked, Cleaned smallPool cleaning.shared
      ((exec (program smallPool) (Only 0 Kind.cleanup.allows) cleaning replacesExpired).get
        replacesExpired_runs).shared looked [0] (replacesExpired.map Prod.snd)) ∧
    Checked checking.shared
      ((exec (program smallPool) (Only 0 (Kind.healthCheck fun _ => true).allows) checking
        keepsHealthy).get keepsHealthy_runs).shared (fun _ => true) [] :=
  ⟨(((routines_alone (by decide) ⟨rfl, rfl, rfl, rfl, rfl, by decide, by decide⟩).1 rfl
      (run_exec replacesExpired_runs)).2 .done (by decide)).2,
    (((routines_alone (by decide) ⟨rfl, rfl, rfl, rfl, rfl, by decide, by decide⟩).2 _ rfl
      (run_exec keepsHealthy_runs)).2 .done (by decide)).2⟩

end RpcInGo.Pool.Routines
