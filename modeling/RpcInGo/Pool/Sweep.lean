import RpcInGo.Pool.GetAlone

/-!
The background routines of an open pool that nobody uses meanwhile. `cleanup` and
`healthCheck` both drain the idle channel, look at each connection they have taken and
send back those they keep; `cleanup` then fills the pool up to `MinSize`. `Sweeping` is what
holds at every program point of either routine, and `sweeping_step` that every step keeps it.
-/

namespace RpcInGo.Pool.Sweep
open Lib.Channel Lib.Goroutine Lib.Observe Lib.Solo Protocol.Message Options Model Closing
  Accounting Handout Refill GetAlone

/-! ## Verdicts -/

/-- Of the connections looked at, those that were kept. -/
def keptOf (vs : List (ConnId × Bool)) : List ConnId := (vs.filter Prod.snd).map Prod.fst

def droppedOf (vs : List (ConnId × Bool)) : List ConnId := (vs.filter (!·.2)).map Prod.fst

@[simp] theorem keptOf_keep (vs : List (ConnId × Bool)) (c : ConnId) :
    keptOf (vs ++ [(c, true)]) = keptOf vs ++ [c] := by
  simp [keptOf]

@[simp] theorem keptOf_drop (vs : List (ConnId × Bool)) (c : ConnId) :
    keptOf (vs ++ [(c, false)]) = keptOf vs := by
  simp [keptOf]

@[simp] theorem droppedOf_keep (vs : List (ConnId × Bool)) (c : ConnId) :
    droppedOf (vs ++ [(c, true)]) = droppedOf vs := by
  simp [droppedOf]

@[simp] theorem droppedOf_drop (vs : List (ConnId × Bool)) (c : ConnId) :
    droppedOf (vs ++ [(c, false)]) = droppedOf vs ++ [c] := by
  simp [droppedOf]

theorem length_keptOf_add (vs : List (ConnId × Bool)) :
    (keptOf vs).length + (droppedOf vs).length = vs.length := by
  induction vs with
  | nil => rfl
  | cons v vs ih =>
    obtain ⟨c, keep⟩ := v
    cases keep <;> simp [keptOf, droppedOf] at ih ⊢ <;> omega

/-! ## The two routines -/

/-- The routine that runs; for `healthCheck`, with what `IsConnected` answers. -/
inductive Kind
  | cleanup
  | healthCheck (connected : ConnId → Bool)

def Kind.cleans : Kind → Bool
  | .cleanup => true
  | .healthCheck _ => false

/-- The program points of the routine. -/
def Kind.mine (k : Kind) : Pc → Bool
  | .cleanupDrain _ | .cleanupCheck _ | .cleanupSend _ _ => k.cleans
  | .discardClose _ (.cleanup _) | .discardStat (.cleanup _) | .discardSize (.cleanup _) =>
    k.cleans
  | .refillSize | .refillDial _ | .refillSend _ _ | .refillGrow _ | .refillStat _ => k.cleans
  | .healthDrain _ | .healthCheck _ | .healthSend _ _ => !k.cleans
  | .discardClose _ (.healthCheck _) | .discardStat (.healthCheck _)
  | .discardSize (.healthCheck _) => !k.cleans
  | .returned _ => true
  | _ => false

def Kind.start : Kind → Pc
  | .cleanup => .cleanupDrain []
  | .healthCheck _ => .healthDrain []

/-- The answers the routine can have. -/
def Kind.allows (k : Kind) (pc : Pc) (e : Ev) : Bool :=
  match k, pc, e with
  | _, _, .call _ => false
  | .healthCheck connected, .healthCheck (some c :: _), .connected b => b = connected c
  | _, _, _ => true

/-- The clock readings among the answers. -/
def readings (es : List Ev) : List Int :=
  es.filterMap fun e => match e with
    | .now t => some t
    | _ => none

/-- Where the verdicts come from: `cleanup` looks at the clock once for each connection. -/
def Kind.Tied (k : Kind) (o : PoolOptions) (p₀ : ConnectionPool) (vs : List (ConnId × Bool))
    (es : List Ev) : Prop :=
  match k with
  | .cleanup => ∃ looked : List (ConnId × Int), looked.map Prod.snd = readings es ∧
      vs = looked.map fun l => (l.1, !(p₀.conn l.1).isExpired o.maxIdleTime o.maxLifetime l.2)
  | .healthCheck connected => ∀ v ∈ vs, v.2 = (p₀.conn v.1).isHealthy (connected v.1)

/-! ## At every program point -/

/-- `l` was received, and nothing was looked at. -/
structure Drained (p₀ : ConnectionPool) (vs : List (ConnId × Bool)) (l : List (Option ConnId))
    (buf closes : List ConnId) : Prop where
  left : ∃ ids : List ConnId, l = ids.map some ∧ p₀.pool.buf = ids ++ buf
  none : vs = []
  closed : closes = []

/-- The connections `l` are still to be looked at; with `buf` idle and `closes` closed, the
verdicts `vs` on the others have been carried out. -/
structure Judged (p₀ : ConnectionPool) (vs : List (ConnId × Bool)) (l : List (Option ConnId))
    (buf closes : List ConnId) : Prop where
  left : ∃ ids : List ConnId, l = ids.map some ∧ p₀.pool.buf = vs.map Prod.fst ++ ids
  kept : buf = keptOf vs
  dropped : closes = droppedOf vs

/-- `cleanup` has created some connections and sent them after those it has kept, and has
`n` to go. -/
structure Refilled (o : PoolOptions) (p₀ p : ConnectionPool) (vs : List (ConnId × Bool))
    (buf closes : List ConnId) (n : Nat) : Prop where
  all : p₀.pool.buf = vs.map Prod.fst
  made : ∃ m, buf = keptOf vs ++ List.range' p₀.conns.length m ∧
    p.conns.length = p₀.conns.length + m
  dropped : closes = droppedOf vs
  toGo : p.currentSize + n = o.minSize
  short : p₀.currentSize - closes.length < o.minSize

/-- The routine has returned. -/
structure Swept (k : Kind) (o : PoolOptions) (p₀ p : ConnectionPool) (vs : List (ConnId × Bool))
    (closes : List ConnId) (es : List Ev) : Prop where
  all : p₀.pool.buf = vs.map Prod.fst
  made : ∃ m, p.pool.buf = keptOf vs ++ List.range' p₀.conns.length m ∧
    (k.cleans = false → m = 0)
  dropped : closes = droppedOf vs
  filled : k.cleans = true →
    p.currentSize = max o.minSize (p₀.currentSize - closes.length) ∨
    (p.currentSize < o.minSize ∧ ∃ err, .createFailed err ∈ es)

def Stage (k : Kind) (o : PoolOptions) (p₀ p : ConnectionPool) (vs : List (ConnId × Bool))
    (closes : List ConnId) (es : List Ev) : Pc → Prop
  | .cleanupDrain l | .healthDrain l => Drained p₀ vs l p.pool.buf closes
  | .cleanupCheck l | .healthCheck l => Judged p₀ vs l p.pool.buf closes
  | .cleanupSend c l | .healthSend c l => Judged p₀ vs l (p.pool.buf ++ [c]) closes
  | .discardClose c (.cleanup l) | .discardClose c (.healthCheck l) =>
    Judged p₀ vs l p.pool.buf (closes ++ [c])
  | .discardStat (.cleanup l) | .discardStat (.healthCheck l) => Judged p₀ vs l p.pool.buf closes
  | .discardSize (.cleanup l) | .discardSize (.healthCheck l) => Judged p₀ vs l p.pool.buf closes
  | .refillSize => Judged p₀ vs [] p.pool.buf closes
  | .refillDial n | .refillStat n => Refilled o p₀ p vs p.pool.buf closes n
  | .refillGrow n => Refilled o p₀ p vs p.pool.buf closes (n + 1)
  | .refillSend c n => Refilled o p₀ p vs (p.pool.buf ++ [c]) closes (n + 1)
  | .returned r => r = .done ∧ Swept k o p₀ p vs closes es
  | _ => False

/-- Closed, and not yet in `closeCount`. -/
def uncounted : Pc → Int
  | .discardStat _ => 1
  | _ => 0

structure Sweeping (k : Kind) (o : PoolOptions) (p₀ p : ConnectionPool) (pc : Pc) (es : List Ev)
    (closes : List ConnId) (vs : List (ConnId × Bool)) : Prop where
  mine : k.mine pc = true
  opened : p.closed = false
  chan : p.pool.closed = false
  cap : p.pool.cap = p₀.pool.cap
  locked : p.locked = decide (holding pc = 1)
  out : p.checkedOut = p₀.checkedOut
  size : p.currentSize = p.pool.buf.length + p.checkedOut.length + (hand pc).length + drift pc
  counted : p.closeCount + uncounted pc = p₀.closeCount + closes.length
  known : pc.idle = false → holding pc = 0 → p.conns.length = p₀.conns.length
  objects : Objects p₀ p closes
  tied : k.Tied o p₀ vs es
  stage : Stage k o p₀ p vs closes es pc

section Steps
variable {k : Kind} {o : PoolOptions} {p₀ p p' : ConnectionPool} {pc pc' : Pc} {e : Ev}
  {es : List Ev} {closes : List ConnId} {vs : List (ConnId × Bool)}

/-- What `isExpired` reads does not change. -/
theorem objects_isExpired (h : Objects p₀ p closes) {c : ConnId} (hc : c < p₀.conns.length)
    (maxIdle maxLife t : Int) :
    (p.conn c).isExpired maxIdle maxLife t = (p₀.conn c).isExpired maxIdle maxLife t := by
  rw [h.conn c hc]
  rfl

/-- A connection that is closed already is as unhealthy as it was when it was dropped. -/
theorem objects_isHealthy (h : Objects p₀ p closes) {c : ConnId} (hlt : c < p₀.conns.length)
    {b : Bool} (hd : c ∈ closes → (p₀.conn c).isHealthy b = false) :
    (p.conn c).isHealthy b = (p₀.conn c).isHealthy b := by
  rw [h.conn c hlt]
  by_cases hc : c ∈ closes
  · rw [hd hc]
    simp [PooledConnection.isHealthy, hc]
  · simp [PooledConnection.isHealthy, hc]

/-! ## What a step keeps -/

structure Kept (p : ConnectionPool) (pc : Pc) (e : Ev) (p' : ConnectionPool) (pc' : Pc) :
    Prop where
  closed : p'.closed = p.closed
  chan : p'.pool.closed = p.pool.closed
  cap : p'.pool.cap = p.pool.cap
  out : p'.checkedOut = p.checkedOut
  locked : p.locked = decide (holding pc = 1) → p'.locked = decide (holding pc' = 1)
  counted : p'.closeCount + uncounted pc' = p.closeCount + uncounted pc + (closesAt pc e).length
  known : pc'.idle = false → holding pc' = 0 →
    holding pc = 0 ∧ p'.conns.length = p.conns.length
  handles : Handles p (closesAt pc e) p'

/-- A step that closes and creates nothing. -/
theorem Kept.same (he : closesAt pc e = []) (hu : uncounted pc' = uncounted pc)
    (hclosed : p'.closed = p.closed) (hchan : p'.pool.closed = p.pool.closed)
    (hcap : p'.pool.cap = p.pool.cap) (hout : p'.checkedOut = p.checkedOut)
    (hlocked : p.locked = decide (holding pc = 1) → p'.locked = decide (holding pc' = 1))
    (hcount : p'.closeCount = p.closeCount) (hconns : p'.conns = p.conns)
    (hholding : pc'.idle = false → holding pc' = 0 → holding pc = 0) :
    Kept p pc e p' pc' := by
  refine ⟨hclosed, hchan, hcap, hout, hlocked, ?_, fun hi h0 => ⟨hholding hi h0, by rw [hconns]⟩,
    .same hconns he⟩
  rw [hcount, hu, he]
  simp

theorem recvStep_kept {f : Option ConnId → Pc} (h : recvStep p f = some (p', pc'))
    (hf : ∀ c, holding (f c) = 0) (hu : ∀ c, uncounted (f c) = uncounted pc)
    (hpc : holding pc = 0) (he : closesAt pc e = []) : Kept p pc e p' pc' := by
  obtain ⟨c, ch, -, hcap, hcl, rfl, rfl⟩ | ⟨-, rfl, rfl⟩ := recvStep_cases h
  · exact .same he (hu _) rfl hcl hcap rfl (fun hl => by rw [hl, hpc, hf]) rfl rfl
      fun _ _ => hpc
  · exact .same he (hu _) rfl rfl rfl rfl (fun hl => by rw [hl, hpc, hf]) rfl rfl
      fun _ _ => hpc

theorem sendStep_kept {c : ConnId} {q : Pc} (h : sendStep p c q = some (p', pc'))
    (hchan : p.pool.closed = false) (hq : holding q = holding pc)
    (hu : uncounted q = uncounted pc) (he : closesAt pc e = []) : Kept p pc e p' pc' := by
  obtain ⟨ch, -, -, hcap, hcl, rfl, rfl⟩ | ⟨hcl, -, -⟩ := sendStep_cases h
  · exact .same he hu rfl hcl hcap rfl (fun hl => by rw [hl, hq]) rfl rfl
      fun _ h0 => hq.symm.trans h0
  · rw [hchan] at hcl
    cases hcl

theorem emptyStep_kept {q : Pc} (h : emptyStep p q = some (p', pc'))
    (hq : holding q = holding pc) (hu : uncounted q = uncounted pc) (he : closesAt pc e = []) :
    Kept p pc e p' pc' := by
  obtain ⟨-, -, rfl, rfl⟩ := emptyStep_cases h
  exact .same he hu rfl rfl rfl rfl (fun hl => by rw [hl, hq]) rfl rfl
    fun _ h0 => hq.symm.trans h0

theorem cleanupStep_kept (h : cleanupStep o p pc e = some (p', pc'))
    (hchan : p.pool.closed = false) : Kept p pc e p' pc' := by
  revert h
  fun_cases cleanupStep o p pc e <;> intro h <;> try contradiction
  all_goals first
    | exact recvStep_kept h (fun _ => rfl) (fun _ => rfl) rfl rfl
    | exact sendStep_kept h hchan rfl rfl rfl
    | exact emptyStep_kept h rfl rfl rfl
    | (cases h
       first
       | exact .same rfl rfl rfl rfl rfl rfl id rfl rfl fun _ _ => rfl
       | exact .same rfl rfl rfl rfl rfl rfl (fun _ => rfl) rfl rfl (by simp [Pc.idle, holding])
       | exact .same rfl rfl rfl rfl rfl rfl id rfl rfl (by simp [holding])
       | exact ⟨rfl, rfl, rfl, rfl, id, by simp [closesAt, uncounted,
           ConnectionPool.createConnection], by simp [holding], .creates _ rfl rfl⟩)

theorem healthStep_kept (h : healthStep p pc e = some (p', pc'))
    (hchan : p.pool.closed = false) : Kept p pc e p' pc' := by
  revert h
  fun_cases healthStep p pc e <;> intro h <;> try contradiction
  all_goals first
    | exact recvStep_kept h (fun _ => rfl) (fun _ => rfl) rfl rfl
    | exact sendStep_kept h hchan rfl rfl rfl
    | exact emptyStep_kept h rfl rfl rfl
    | (cases h
       exact .same rfl rfl rfl rfl rfl rfl id rfl rfl fun _ _ => rfl)

theorem discardStep_kept (h : discardStep p pc e = some (p', pc')) : Kept p pc e p' pc' := by
  revert h
  fun_cases discardStep p pc e <;> intro h <;> cases h
  · exact ⟨rfl, rfl, rfl, rfl, id, by simp [closesAt, uncounted, ConnectionPool.closeConn],
      fun _ _ => ⟨rfl, closeConn_length p _⟩, .closes _ rfl rfl⟩
  · exact ⟨rfl, rfl, rfl, rfl, id, by simp [closesAt, uncounted], fun _ _ => ⟨rfl, rfl⟩,
      .same rfl rfl⟩
  · rename_i a _
    cases a <;> exact .same rfl rfl rfl rfl rfl rfl id rfl rfl fun _ _ => rfl

/-! ## The next stage -/

theorem Judged.keep {c : ConnId} {l : List (Option ConnId)} {buf : List ConnId}
    (h : Judged p₀ vs (some c :: l) buf closes) :
    Judged p₀ (vs ++ [(c, true)]) l (buf ++ [c]) closes := by
  obtain ⟨⟨ids, hl, hbuf⟩, hkept, hdropped⟩ := h
  cases ids with
  | nil => cases hl
  | cons d ids =>
    cases hl
    exact ⟨⟨ids, rfl, by simpa using hbuf⟩, by rw [hkept, keptOf_keep],
      by rw [hdropped, droppedOf_keep]⟩

theorem Judged.drop {c : ConnId} {l : List (Option ConnId)} {buf : List ConnId}
    (h : Judged p₀ vs (some c :: l) buf closes) :
    Judged p₀ (vs ++ [(c, false)]) l buf (closes ++ [c]) := by
  obtain ⟨⟨ids, hl, hbuf⟩, hkept, hdropped⟩ := h
  cases ids with
  | nil => cases hl
  | cons d ids =>
    cases hl
    exact ⟨⟨ids, rfl, by simpa using hbuf⟩, by rw [hkept, keptOf_drop],
      by rw [hdropped, droppedOf_drop]⟩

theorem Judged.mem {c : ConnId} {l : List (Option ConnId)} {buf : List ConnId}
    (h : Judged p₀ vs (some c :: l) buf closes) : c ∈ p₀.pool.buf := by
  obtain ⟨⟨ids, hl, hbuf⟩, -, -⟩ := h
  cases ids with
  | nil => cases hl
  | cons d ids =>
    cases hl
    simp [hbuf]

theorem Judged.not_none {l : List (Option ConnId)} {buf : List ConnId}
    (h : Judged p₀ vs (none :: l) buf closes) : False := by
  obtain ⟨⟨ids, hl, -⟩, -, -⟩ := h
  cases ids <;> cases hl

theorem Judged.all {buf : List ConnId} (h : Judged p₀ vs [] buf closes) :
    p₀.pool.buf = vs.map Prod.fst := by
  obtain ⟨⟨ids, hl, hbuf⟩, -, -⟩ := h
  cases ids with
  | nil => simpa using hbuf
  | cons d ids => cases hl

/-- The channel is drained. -/
theorem Drained.judged {l : List (Option ConnId)} {buf : List ConnId}
    (h : Drained p₀ vs l buf closes) (hempty : buf = []) : Judged p₀ vs l buf closes := by
  obtain ⟨⟨ids, hl, hbuf⟩, rfl, rfl⟩ := h
  exact ⟨⟨ids, hl, by simpa [hempty] using hbuf⟩, hempty, rfl⟩

/-- All connections have been looked at, and `n` are missing. -/
theorem Judged.refills {n : Nat} (h : Judged p₀ vs [] p.pool.buf closes)
    (hpool : p'.pool = p.pool) (hknown : p'.conns.length = p₀.conns.length)
    (htoGo : p'.currentSize + n = o.minSize) (hshort : p₀.currentSize - closes.length < o.minSize) :
    Refilled o p₀ p' vs p'.pool.buf closes n := by
  refine ⟨h.all, ⟨0, ?_, hknown⟩, h.dropped, htoGo, hshort⟩
  rw [hpool, h.kept]
  simp

/-- And none is. -/
theorem Judged.swept (h : Judged p₀ vs [] p.pool.buf closes) (hpool : p'.pool = p.pool)
    (hfull : k.cleans = true → p'.currentSize = max o.minSize (p₀.currentSize - closes.length)) :
    Swept k o p₀ p' vs closes es := by
  refine ⟨h.all, ⟨0, ?_, fun _ => rfl⟩, h.dropped, fun hk => .inl (hfull hk)⟩
  rw [hpool, h.kept]
  simp

theorem Refilled.created {n : Nat} (h : Refilled o p₀ p vs p.pool.buf closes n) (t : Int) :
    Refilled o p₀ (p.createConnection t) vs (p.pool.buf ++ [p.conns.length]) closes n := by
  obtain ⟨m, hbuf, hknown⟩ := h.made
  refine ⟨h.all, ⟨m + 1, ?_, ?_⟩, h.dropped, h.toGo, h.short⟩
  · rw [hbuf, hknown, List.append_assoc, List.range'_concat]
    simp
  · simp [ConnectionPool.createConnection, hknown]
    omega

/-- The refill ends when it is complete, or at an error of the factory. -/
theorem Refilled.swept {n : Nat} (h : Refilled o p₀ p vs p.pool.buf closes n)
    (hk : k.cleans = true) (hpool : p'.pool = p.pool) (hsize : p'.currentSize = p.currentSize)
    (hend : n = 0 ∨ 0 < n ∧ ∃ err, .createFailed err ∈ es) : Swept k o p₀ p' vs closes es := by
  obtain ⟨m, hbuf, -⟩ := h.made
  have htoGo := h.toGo
  have hshort := h.short
  refine ⟨h.all, ⟨m, hpool ▸ hbuf, fun hnot => ?_⟩, h.dropped, fun _ => ?_⟩
  · rw [hk] at hnot
    cases hnot
  · rcases hend with rfl | ⟨hpos, herr⟩
    · left
      omega
    · exact .inr ⟨by omega, herr⟩

theorem recvStep_drained {f : Option ConnId → Pc} {l : List (Option ConnId)}
    (h : recvStep p f = some (p', pc')) (hchan : p.pool.closed = false)
    (hst : Drained p₀ vs l p.pool.buf closes) :
    ∃ c, pc' = f (some c) ∧ Drained p₀ vs (l ++ [some c]) p'.pool.buf closes := by
  obtain ⟨c, ch, hb, -, -, rfl, rfl⟩ | ⟨hcl, -, -⟩ := recvStep_cases h
  · obtain ⟨⟨ids, rfl, hbuf⟩, hnone, hclosed⟩ := hst
    refine ⟨c, rfl, ⟨ids ++ [c], by simp, ?_⟩, hnone, hclosed⟩
    rw [hbuf, hb, List.append_assoc]
    rfl
  · rw [hchan] at hcl
    cases hcl

theorem sendStep_sent {c : ConnId} {q : Pc} (h : sendStep p c q = some (p', pc'))
    (hchan : p.pool.closed = false) :
    pc' = q ∧ ∃ ch, p' = { p with pool := ch } ∧ ch.buf = p.pool.buf ++ [c] := by
  obtain ⟨ch, -, hb, -, -, rfl, rfl⟩ | ⟨hcl, -, -⟩ := sendStep_cases h
  · exact ⟨rfl, ch, rfl, hb⟩
  · rw [hchan] at hcl
    cases hcl

theorem readings_append (es : List Ev) (e : Ev) :
    readings (es ++ [e]) = readings es ++ readings [e] := by
  simp [readings]

/-- The clock was not read. -/
theorem Kind.Tied.other (h : k.Tied o p₀ vs es) (he : readings [e] = []) :
    k.Tied o p₀ vs (es ++ [e]) := by
  cases k with
  | cleanup =>
    obtain ⟨looked, htimes, hvs⟩ := h
    exact ⟨looked, by rw [readings_append, he, List.append_nil, htimes], hvs⟩
  | healthCheck connected => exact h

theorem Kind.Tied.looks {c : ConnId} {t : Int} (hk : k.cleans = true)
    (h : k.Tied o p₀ vs es) :
    k.Tied o p₀ (vs ++ [(c, !(p₀.conn c).isExpired o.maxIdleTime o.maxLifetime t)])
      (es ++ [.now t]) := by
  cases k with
  | cleanup =>
    obtain ⟨looked, htimes, rfl⟩ := h
    refine ⟨looked ++ [(c, t)], ?_, by simp⟩
    rw [readings_append, List.map_append, htimes]
    rfl
  | healthCheck connected => cases hk

theorem Kind.Tied.asks {c : ConnId} {b : Bool} {l : List (Option ConnId)}
    (hk : (!k.cleans) = true) (hok : k.allows (.healthCheck (some c :: l)) (.connected b) = true)
    (h : k.Tied o p₀ vs es) :
    k.Tied o p₀ (vs ++ [(c, (p₀.conn c).isHealthy b)]) (es ++ [.connected b]) := by
  cases k with
  | cleanup => cases hk
  | healthCheck connected =>
    simp only [Kind.allows, decide_eq_true_eq] at hok
    subst hok
    intro v hv
    rcases List.mem_append.mp hv with hv | hv
    · exact h v hv
    · rw [List.mem_singleton] at hv
      subst hv
      rfl

/-- What a step makes of the verdicts and of the stage. -/
def Next (k : Kind) (o : PoolOptions) (p₀ : ConnectionPool) (closes : List ConnId) (es : List Ev)
    (pc : Pc) (e : Ev) (p' : ConnectionPool) (pc' : Pc) : Prop :=
  k.mine pc' = true ∧ ∃ vs, k.Tied o p₀ vs (es ++ [e]) ∧
    Stage k o p₀ p' vs (closes ++ closesAt pc e) (es ++ [e]) pc'

theorem Next.judges (hmine : k.mine pc' = true) (htied : k.Tied o p₀ vs (es ++ [e]))
    (he : closesAt pc e = []) (hst : Stage k o p₀ p' vs closes (es ++ [e]) pc') :
    Next k o p₀ closes es pc e p' pc' := by
  refine ⟨hmine, vs, htied, ?_⟩
  rwa [he, List.append_nil]

theorem Next.same (hmine : k.mine pc' = true) (htied : k.Tied o p₀ vs es)
    (hread : readings [e] = []) (he : closesAt pc e = [])
    (hst : Stage k o p₀ p' vs closes (es ++ [e]) pc') : Next k o p₀ closes es pc e p' pc' :=
  .judges hmine (htied.other hread) he hst

/-- The size while nothing is in hand. -/
theorem Sweeping.size_eq (hset : Settled o p₀) (hs : Sweeping k o p₀ p pc es closes vs)
    {m : Nat} (hall : p₀.pool.buf = vs.map Prod.fst) (hdropped : closes = droppedOf vs)
    (hbuf : p.pool.buf.length = (keptOf vs).length + m)
    (hcarried : (hand pc).length + drift pc = 0) :
    p.currentSize = p₀.currentSize - closes.length + m := by
  have hsize := hs.size
  have hsize₀ := hset.size
  have hlen := congrArg List.length hall
  have hsum := length_keptOf_add vs
  rw [List.length_map] at hlen
  rw [hs.out] at hsize
  rw [hdropped]
  omega

theorem cleanupStep_next (hset : Settled o p₀) (hs : Sweeping k o p₀ p pc es closes vs)
    (h : cleanupStep o p pc e = some (p', pc')) : Next k o p₀ closes es pc e p' pc' := by
  have hmine := hs.mine
  have htied := hs.tied
  revert hs hmine h
  fun_cases cleanupStep o p pc e <;> intro hs h hmine <;> try contradiction
  case case1 l =>
    obtain ⟨c, rfl, hst⟩ := recvStep_drained h hs.chan hs.stage
    exact .same hmine htied rfl rfl hst
  case case2 l =>
    obtain ⟨hb, -, rfl, rfl⟩ := emptyStep_cases h
    exact .same hmine htied rfl rfl (Drained.judged hs.stage hb)
  case case3 =>
    cases h
    exact .same hmine htied rfl rfl hs.stage
  case case4 => exact hs.stage.not_none.elim
  case case5 c l t hexpired =>
    cases h
    rw [objects_isExpired hs.objects (hset.known c (Judged.mem hs.stage))] at hexpired
    have hnext := htied.looks (c := c) (t := t) hmine
    rw [hexpired] at hnext
    exact .judges hmine hnext rfl (Judged.drop hs.stage)
  case case6 c l t hfresh =>
    cases h
    rw [objects_isExpired hs.objects (hset.known c (Judged.mem hs.stage)),
      Bool.not_eq_true] at hfresh
    have hnext := htied.looks (c := c) (t := t) hmine
    rw [hfresh] at hnext
    exact .judges hmine hnext rfl (Judged.keep hs.stage)
  case case7 c l =>
    obtain ⟨rfl, ch, rfl, hb⟩ := sendStep_sent h hs.chan
    have hst : Judged p₀ vs l (p.pool.buf ++ [c]) closes := hs.stage
    rw [← hb] at hst
    exact .same hmine htied rfl rfl hst
  case case9 hfree hshort =>
    cases h
    have hst : Judged p₀ vs [] p.pool.buf closes := hs.stage
    have hsize := hs.size_eq hset (m := 0) hst.all hst.dropped (by rw [hst.kept]; rfl) rfl
    exact .same hmine htied rfl rfl (hst.refills rfl (hs.known rfl rfl)
      (by simp only; omega) (by omega))
  case case10 hfree hfull =>
    cases h
    have hst : Judged p₀ vs [] p.pool.buf closes := hs.stage
    have hsize := hs.size_eq hset (m := 0) hst.all hst.dropped (by rw [hst.kept]; rfl) rfl
    exact .same rfl htied rfl rfl ⟨rfl, hst.swept rfl fun _ => by omega⟩
  case case11 =>
    cases h
    have hst : Refilled o p₀ p vs p.pool.buf closes 0 := hs.stage
    exact .same rfl htied rfl rfl ⟨rfl, hst.swept hmine rfl rfl (.inl rfl)⟩
  case case12 n t =>
    cases h
    exact .same hmine htied rfl rfl (Refilled.created hs.stage t)
  case case13 n err =>
    cases h
    have hst : Refilled o p₀ p vs p.pool.buf closes (n + 1) := hs.stage
    exact .same rfl htied rfl rfl ⟨rfl, hst.swept hmine rfl rfl
      (.inr ⟨Nat.succ_pos n, err, by simp⟩)⟩
  case case14 c n =>
    obtain ⟨rfl, ch, rfl, hb⟩ := sendStep_sent h hs.chan
    have hst : Refilled o p₀ p vs (p.pool.buf ++ [c]) closes (n + 1) := hs.stage
    rw [← hb] at hst
    exact .same hmine htied rfl rfl ⟨hst.all, hst.made, hst.dropped, hst.toGo, hst.short⟩
  case case15 n =>
    cases h
    have hst : Refilled o p₀ p vs p.pool.buf closes (n + 1) := hs.stage
    have htoGo := hst.toGo
    exact .same hmine htied rfl rfl
      ⟨hst.all, hst.made, hst.dropped, by simp only; omega, hst.short⟩
  case case16 n =>
    cases h
    have hst : Refilled o p₀ p vs p.pool.buf closes n := hs.stage
    exact .same hmine htied rfl rfl ⟨hst.all, hst.made, hst.dropped, hst.toGo, hst.short⟩

/-- A connection is found as healthy as it was before the routine began. -/
theorem Sweeping.asked {c : ConnId} {l : List (Option ConnId)} {b : Bool} (hset : Settled o p₀)
    (hs : Sweeping k o p₀ p (.healthCheck (some c :: l)) es closes vs)
    (hk : (!k.cleans) = true) (hok : k.allows (.healthCheck (some c :: l)) (.connected b) = true) :
    (p.conn c).isHealthy b = (p₀.conn c).isHealthy b := by
  have hst : Judged p₀ vs (some c :: l) p.pool.buf closes := hs.stage
  refine objects_isHealthy hs.objects (hset.known c hst.mem) fun hc => ?_
  cases k with
  | cleanup => cases hk
  | healthCheck connected =>
    simp only [Kind.allows, decide_eq_true_eq] at hok
    subst hok
    -- it was dropped before, on the same answer
    rw [hst.dropped, droppedOf, List.mem_map] at hc
    obtain ⟨⟨d, keep⟩, hv, rfl⟩ := hc
    obtain ⟨hv, hkeep⟩ := List.mem_filter.mp hv
    rw [← hs.tied _ hv]
    simpa using hkeep

theorem healthStep_next (hset : Settled o p₀) (hs : Sweeping k o p₀ p pc es closes vs)
    (hok : k.allows pc e = true) (h : healthStep p pc e = some (p', pc')) :
    Next k o p₀ closes es pc e p' pc' := by
  have hmine := hs.mine
  have htied := hs.tied
  revert hs hmine h hok
  fun_cases healthStep p pc e <;> intro hs hok h hmine <;> try contradiction
  case case1 l =>
    obtain ⟨c, rfl, hst⟩ := recvStep_drained h hs.chan hs.stage
    exact .same hmine htied rfl rfl hst
  case case2 l =>
    obtain ⟨hb, -, rfl, rfl⟩ := emptyStep_cases h
    exact .same hmine htied rfl rfl (Drained.judged hs.stage hb)
  case case3 =>
    cases h
    have hst : Judged p₀ vs [] p.pool.buf closes := hs.stage
    refine .same rfl htied rfl rfl ⟨rfl, hst.swept rfl fun hk => ?_⟩
    cases k with
    | cleanup => cases hmine
    | healthCheck connected => cases hk
  case case4 => exact hs.stage.not_none.elim
  case case5 c l b hhealthy =>
    cases h
    rw [hs.asked hset hmine hok] at hhealthy
    have hnext := htied.asks hmine hok
    rw [hhealthy] at hnext
    exact .judges hmine hnext rfl (Judged.keep hs.stage)
  case case6 c l b hill =>
    cases h
    rw [hs.asked hset hmine hok, Bool.not_eq_true] at hill
    have hnext := htied.asks hmine hok
    rw [hill] at hnext
    exact .judges hmine hnext rfl (Judged.drop hs.stage)
  case case7 c l =>
    obtain ⟨rfl, ch, rfl, hb⟩ := sendStep_sent h hs.chan
    have hst : Judged p₀ vs l (p.pool.buf ++ [c]) closes := hs.stage
    rw [← hb] at hst
    exact .same hmine htied rfl rfl hst

theorem discardStep_next (hs : Sweeping k o p₀ p pc es closes vs)
    (h : discardStep p pc e = some (p', pc')) : Next k o p₀ closes es pc e p' pc' := by
  have hmine := hs.mine
  have htied := hs.tied
  revert hs hmine h
  fun_cases discardStep p pc e <;> intro hs h hmine <;> try contradiction
  case case1 c a =>
    cases h
    cases a with
    | cleanup l => exact ⟨hmine, vs, htied.other rfl, hs.stage⟩
    | healthCheck l => exact ⟨hmine, vs, htied.other rfl, hs.stage⟩
    | _ => exact hs.stage.elim
  case case2 a =>
    cases h
    cases a with
    | cleanup l => exact .same hmine htied rfl rfl hs.stage
    | healthCheck l => exact .same hmine htied rfl rfl hs.stage
    | _ => exact hs.stage.elim
  case case4 a hfree =>
    cases h
    cases a with
    | cleanup l => exact .same hmine htied rfl rfl hs.stage
    | healthCheck l => exact .same hmine htied rfl rfl hs.stage
    | _ => exact hs.stage.elim

theorem any_isNone_map_some (ids : List ConnId) : (ids.map some).any Option.isNone = false := by
  simp

theorem Judged.not_late {l : List (Option ConnId)} {buf : List ConnId}
    (h : Judged p₀ vs l buf closes) : l.any Option.isNone = false := by
  obtain ⟨⟨ids, rfl, -⟩, -, -⟩ := h
  exact any_isNone_map_some ids

theorem Stage.not_late (hs : Stage k o p₀ p vs closes es pc) : late pc = false := by
  unfold Stage at hs
  split at hs
  case h_1 | h_2 =>
    obtain ⟨⟨ids, rfl, -⟩, -, -⟩ := hs
    exact any_isNone_map_some ids
  all_goals first
    | exact hs.not_late
    | rfl
    | exact hs.elim

/-- The routine takes its own steps or drops a connection. -/
theorem Stage.step_cases (hs : Stage k o p₀ p vs closes es pc) (hpc : pc.idle = false)
    (h : poolStep o p pc e = some (p', pc')) :
    discardStep p pc e = some (p', pc') ∨ cleanupStep o p pc e = some (p', pc') ∨
      healthStep p pc e = some (p', pc') := by
  obtain ⟨r, op, rfl, rfl, -⟩ | h | h | h | h | h | h := poolStep_cases h
  · cases hpc
  · revert h hs
    fun_cases getStep o p pc e <;> intro h hs <;> contradiction
  · exact Or.inl h
  · revert h hs
    fun_cases putStep o p pc e <;> intro h hs <;> contradiction
  · exact Or.inr (Or.inl h)
  · exact Or.inr (Or.inr h)
  · revert h hs
    fun_cases closeStep p pc e <;> intro h hs <;> contradiction

theorem allows_not_idle (hok : k.allows pc e = true) (h : poolStep o p pc e = some (p', pc')) :
    pc.idle = false := by
  cases pc with
  | returned r =>
    obtain ⟨op, rfl, -⟩ := poolStep_returned h
    cases k <;> cases hok
  | _ => rfl

theorem sweeping_step (hset : Settled o p₀) (hs : Sweeping k o p₀ p pc es closes vs)
    (hok : k.allows pc e = true) (h : poolStep o p pc e = some (p', pc')) :
    ∃ vs', Sweeping k o p₀ p' pc' (es ++ [e]) (closes ++ closesAt pc e) vs' := by
  have hpc := allows_not_idle hok h
  have heff := poolStep_effect h hs.chan hs.stage.not_late
    (fun c he => absurd he (poolStep_not_call hpc h _))
  have hboth : Kept p pc e p' pc' ∧ Next k o p₀ closes es pc e p' pc' := by
    rcases hs.stage.step_cases hpc h with h | h | h
    · exact ⟨discardStep_kept h, discardStep_next hs h⟩
    · exact ⟨cleanupStep_kept h hs.chan, cleanupStep_next hset hs h⟩
    · exact ⟨healthStep_kept h hs.chan, healthStep_next hset hs hok h⟩
  obtain ⟨hkept, hmine, vs', htied, hst⟩ := hboth
  refine ⟨vs', hmine, hkept.closed.trans hs.opened, hkept.chan.trans hs.chan,
    hkept.cap.trans hs.cap, hkept.locked hs.locked, hkept.out.trans hs.out, ?_, ?_,
    fun hi h0 => ?_, hs.objects.step hkept.handles, htied, hst⟩
  · have := heff.size
    have := hs.size
    omega
  · have := hkept.counted
    have := hs.counted
    rw [List.length_append]
    omega
  · obtain ⟨hpc0, hlen⟩ := hkept.known hi h0
    rw [hlen, hs.known hpc hpc0]

end Steps

end RpcInGo.Pool.Sweep
