import RpcInGo.Tcp.ServerModel

/-!
Which responses a connection puts on `writeCh`, under every interleaving of its
reader loop, handlers and writer.

* `connStep_recorded`: what one step does to the records of its connection;
* `run_ledger`: every frame is unread, in the hands of the reader, or handed to
  one handler, and each place allows one answer beside the rejections;
* `response_once`: a frame that was not rejected gets at most one response, and
  a frame handed to a handler goroutine keeps to one answer exactly when it was
  not rejected.
-/

namespace RpcInGo.Tcp.Responses
open Lib.Channel Lib.Goroutine Protocol.Message ServerModel

variable {Value : Type}

/-! ## Who may still act on frame `n` -/

def isFrame (n : Nat) (f : Frame Value) : Int := if f.index = n then 1 else 0

/-- The reader has read the frame and not yet started its handler goroutine. -/
def dispatching (n : Nat) : Pc Value → Int
  | .rejectBody _ f | .acquire _ f | .rejectBusy _ f | .spawn _ f => isFrame n f
  | _ => 0

/-- The handler goroutine has not called the handler function yet. -/
def waiting (n : Nat) : Pc Value → Int
  | .handlerStart _ f => isFrame n f
  | _ => 0

/-- The goroutine may still enqueue the frame's own response. -/
def pending (n : Nat) : Pc Value → Int
  | .rejectBody _ f | .acquire _ f | .rejectBusy _ f | .spawn _ f => isFrame n f
  | .handlerStart _ f | .handlerRunning _ f | .handlerSend _ f _ => isFrame n f
  | _ => 0

def unread (c : Conn Value) (n : Nat) : Int := if c.framesRead ≤ n then 1 else 0

theorem unread_nonneg (c : Conn Value) (n : Nat) : 0 ≤ unread c n := by
  unfold unread
  split <;> decide

theorem isFrame_nonneg (n : Nat) (f : Frame Value) : 0 ≤ isFrame n f := by
  unfold isFrame
  split <;> decide

theorem dispatching_nonneg (n : Nat) (pc : Pc Value) : 0 ≤ dispatching n pc := by
  unfold dispatching
  split <;> first | exact isFrame_nonneg _ _ | exact le_refl 0

theorem pending_nonneg (n : Nat) (pc : Pc Value) : 0 ≤ pending n pc := by
  unfold pending
  split <;> first | exact isFrame_nonneg _ _ | exact le_refl 0

theorem waiting_cases {n : Nat} {pc : Pc Value} (h : waiting n pc ≠ 0) :
    ∃ k f, pc = .handlerStart k f ∧ f.index = n := by
  unfold waiting isFrame at h
  split at h
  · split at h
    · exact ⟨_, _, rfl, by assumption⟩
    · exact absurd rfl h
  · exact absurd rfl h

/-! ## One step -/

structure Recorded (c : Conn Value) (pc : Pc Value) (c' : Conn Value) (pc' : Pc Value)
    (new : List (Pc Value)) : Prop where
  once : ∀ n : Nat, (c'.enqueued.count n : Int) - c'.rejected.count n + unread c' n
      + (pending n pc' + total (pending n) new) ≤
    c.enqueued.count n - c.rejected.count n + unread c n + pending n pc
  phase : ∀ n : Nat, (c'.spawned.count n : Int) + unread c' n
      + (dispatching n pc' + total (dispatching n) new) ≤
    c.spawned.count n + unread c n + dispatching n pc
  starts : ∀ n : Nat, (c'.spawned.count n : Int) - c'.started.count n
      - (waiting n pc' + total (waiting n) new) =
    c.spawned.count n - c.started.count n - waiting n pc
  rejects : ∀ n : Nat, (c'.rejected.count n : Int) ≤ c.rejected.count n + dispatching n pc
  kept : ∀ n : Nat, c.rejected.count n ≤ c'.rejected.count n ∧
    c.spawned.count n ≤ c'.spawned.count n

section Steps
variable {o : ServerOptions} {g g' : Server Value} {c c' : Conn Value} {k : Nat}
  {pc pc' : Pc Value} {e : Ev Value} {new : List (Pc Value)}

/-- A step that leaves the records alone and gives up no more than it had. -/
theorem Recorded.quiet (henq : c'.enqueued = c.enqueued) (hrej : c'.rejected = c.rejected)
    (hsp : c'.spawned = c.spawned) (hst : c'.started = c.started)
    (hread : c'.framesRead = c.framesRead) (hpend : ∀ n, pending n pc' ≤ pending n pc)
    (hdisp : ∀ n, dispatching n pc' ≤ dispatching n pc) (hwait : ∀ n, waiting n pc' = waiting n pc)
    (hnew : ∀ n, total (pending n) new = 0 ∧ total (dispatching n) new = 0 ∧
      total (waiting n) new = 0) :
    Recorded c pc c' pc' new := by
  refine ⟨?_, ?_, ?_, ?_, ?_⟩ <;> intro n <;> obtain ⟨h1, h2, h3⟩ := hnew n
  · have := hpend n
    simp only [henq, hrej, unread, hread, h1]
    omega
  · have := hdisp n
    simp only [hsp, unread, hread, h2]
    omega
  · rw [hsp, hst, hwait, h3]
    omega
  · have := dispatching_nonneg n pc
    rw [hrej]
    omega
  · rw [hrej, hsp]
    exact ⟨le_refl _, le_refl _⟩

/-- The goroutine moves on, and the connection is as it was. -/
theorem same_recorded (hc : g.conns[k]? = some c) (hg : g'.conns = g.conns)
    (hnext : pc'.conn = some k) (hpend : ∀ n, pending n pc' ≤ pending n pc)
    (hdisp : ∀ n, dispatching n pc' ≤ dispatching n pc)
    (hwait : ∀ n, waiting n pc' = waiting n pc) :
    ∃ c', Stays k g g' c' pc' [] ∧ Recorded c pc c' pc' [] :=
  ⟨c, stays_same hc hg hnext (by simp), .quiet rfl rfl rfl rfl rfl hpend hdisp hwait (by simp)⟩

/-- The rejection is recorded with the response; only the frame's own answer
is still to come. -/
theorem reject_recorded {f : Frame Value} {err : Error} {now : Int} {next : Pc Value}
    (h : reject g k c f err now next = some (g', pc', new))
    (hc : g.conns[k]? = some c) (hnext : next.conn = some k)
    (hpend : ∀ n, pending n next = pending n pc)
    (hdisp : ∀ n, dispatching n next = dispatching n pc)
    (hf : ∀ n, dispatching n pc = isFrame n f)
    (hwait : ∀ n, waiting n next = 0 ∧ waiting n pc = 0) :
    ∃ c', Stays k g g' c' pc' new ∧ Recorded c pc c' pc' new := by
  obtain ⟨ch, -, rfl, rfl, rfl⟩ | ⟨-, rfl, rfl, rfl⟩ := enqueue_cases h
  · refine ⟨_, ⟨rfl, hnext, by simp⟩, ?_, ?_, ?_, ?_, ?_⟩ <;> intro n
    · rw [hpend]
      simp only [unread, List.count_cons, total_nil]
      omega
    · rw [hdisp]
      simp only [unread, total_nil]
      omega
    · rw [(hwait n).1, (hwait n).2]
      simp
    · rw [hf]
      simp only [List.count_cons, isFrame, beq_iff_eq]
      split <;> simp
    · exact ⟨by simp only [List.count_cons]; omega, le_refl _⟩
  · refine ⟨c, stays_same hc rfl rfl (by simp), .quiet rfl rfl rfl rfl rfl ?_ ?_ ?_ ?_⟩
    · intro n
      exact pending_nonneg n pc
    · intro n
      exact dispatching_nonneg n pc
    · intro n
      exact (hwait n).2.symm
    · simp

theorem spawn_recorded {f : Frame Value} :
    Recorded c (.spawn k f)
      { c with handlersWg := c.handlersWg + 1, spawned := f.index :: c.spawned }
      (.top k) [.handlerStart k f] := by
  refine ⟨?_, ?_, ?_, ?_, ?_⟩ <;> intro n
  · simp only [unread, pending, total_cons, total_nil]
    omega
  · simp only [unread, dispatching, total_cons, total_nil, List.count_cons, isFrame, beq_iff_eq]
    split
    · simp
      omega
    · simp
  · simp only [waiting, total_cons, total_nil, List.count_cons, isFrame, beq_iff_eq]
    split
    · simp
      omega
    · simp
  · have := isFrame_nonneg n f
    simp only [dispatching]
    omega
  · exact ⟨le_refl _, by simp only [List.count_cons]; omega⟩

/-- A frame that has just been read is the reader's. -/
theorem read_recorded {header : Header} {req : Request Value} {next : Pc Value}
    (hpend : ∀ n, pending n next = isFrame n ⟨c.framesRead, header, req⟩)
    (hdisp : ∀ n, dispatching n next = isFrame n ⟨c.framesRead, header, req⟩)
    (hwait : ∀ n, waiting n next = 0) :
    Recorded c (.reading k) { c with framesRead := c.framesRead + 1 } next [] := by
  refine ⟨?_, ?_, ?_, ?_, ?_⟩ <;> intro n
  · rw [hpend]
    simp only [unread, pending, total_nil, isFrame]
    split_ifs <;> omega
  · rw [hdisp]
    simp only [unread, dispatching, total_nil, isFrame]
    split_ifs <;> omega
  · rw [hwait]
    simp [waiting]
  · simp [dispatching]
  · exact ⟨le_refl _, le_refl _⟩

theorem readerStep_recorded (hc : g.conns[k]? = some c) (hk : pc.conn = some k)
    (h : readerStep o g c k pc e = some (g', pc', new)) :
    ∃ c', Stays k g g' c' pc' new ∧ Recorded c pc c' pc' new := by
  revert h
  fun_cases readerStep o g c k pc e <;> intro h <;> try contradiction
  all_goals first
    | exact reject_recorded h hc rfl (fun _ => rfl) (fun _ => rfl) (fun _ => rfl)
        (fun _ => ⟨rfl, rfl⟩)
    | cases h
  all_goals cases hk
  all_goals first
    | exact same_recorded hc rfl rfl (fun _ => le_refl _) (fun _ => le_refl _) (fun _ => rfl)
    | exact same_recorded hc rfl rfl (fun n => pending_nonneg n _)
        (fun n => dispatching_nonneg n _) (fun _ => rfl)
    | exact ⟨_, ⟨rfl, rfl, List.forall_mem_nil _⟩,
        read_recorded (fun _ => rfl) (fun _ => rfl) (fun _ => rfl)⟩
    | exact ⟨_, ⟨rfl, rfl, by simp [Pc.conn]⟩, spawn_recorded⟩
    | exact ⟨_, ⟨rfl, rfl, by simp [Pc.conn]⟩, .quiet rfl rfl rfl rfl rfl (fun _ => le_refl _)
        (fun _ => le_refl _) (fun _ => rfl) (by simp [pending, dispatching, waiting])⟩

theorem writerStep_recorded (hc : g.conns[k]? = some c) (hk : pc.conn = some k)
    (h : writerStep g c k pc e = some (g', pc', new)) :
    ∃ c', Stays k g g' c' pc' new ∧ Recorded c pc c' pc' new := by
  revert h
  fun_cases writerStep g c k pc e <;> intro h <;> try contradiction
  all_goals cases h
  all_goals cases hk
  all_goals first
    | exact same_recorded hc rfl rfl (fun _ => le_refl _) (fun _ => le_refl _) (fun _ => rfl)
    | exact ⟨_, ⟨rfl, rfl, by simp⟩, .quiet rfl rfl rfl rfl rfl (fun _ => le_refl _)
        (fun _ => le_refl _) (fun _ => rfl) (by simp)⟩

/-- The frame's own response uses up its handler's turn. -/
theorem answer_recorded {f : Frame Value} {resp : Response Value}
    (h : enqueue g k c f resp (.handlerRelease k f) = some (g', pc', new))
    (hc : g.conns[k]? = some c) :
    ∃ c', Stays k g g' c' pc' new ∧ Recorded c (.handlerSend k f resp) c' pc' new := by
  obtain ⟨ch, -, rfl, rfl, rfl⟩ | ⟨-, rfl, rfl, rfl⟩ := enqueue_cases h
  · refine ⟨_, ⟨rfl, rfl, by simp⟩, ?_, fun _ => le_refl _, fun _ => rfl, ?_,
      fun _ => ⟨le_refl _, le_refl _⟩⟩ <;> intro n
    · simp only [unread, pending, List.count_cons, isFrame, beq_iff_eq, total_nil]
      split
      · simp
        omega
      · simp
    · simp [dispatching]
  · exact same_recorded hc rfl rfl (fun n => pending_nonneg n _) (fun _ => le_refl _)
      (fun _ => rfl)

theorem started_recorded {f : Frame Value} :
    Recorded c (.handlerStart k f) { c with started := f.index :: c.started }
      (.handlerRunning k f) [] := by
  refine ⟨?_, fun _ => le_refl _, ?_, ?_, fun _ => ⟨le_refl _, le_refl _⟩⟩ <;> intro n
  · simp [unread, pending]
  · simp only [waiting, List.count_cons, isFrame, beq_iff_eq, total_nil]
    split
    · simp
      omega
    · simp
  · simp [dispatching]

theorem handlerStep_recorded (hc : g.conns[k]? = some c) (hk : pc.conn = some k)
    (h : handlerStep g c k pc e = some (g', pc', new)) :
    ∃ c', Stays k g g' c' pc' new ∧ Recorded c pc c' pc' new := by
  revert h
  fun_cases handlerStep g c k pc e <;> intro h <;> try contradiction
  all_goals cases hk
  all_goals first
    | exact answer_recorded h hc
    | cases h
  all_goals first
    | exact ⟨_, ⟨rfl, rfl, by simp⟩, started_recorded⟩
    | exact same_recorded hc rfl rfl (fun _ => le_refl _) (fun _ => le_refl _) (fun _ => rfl)
    | exact same_recorded hc rfl rfl (fun n => pending_nonneg n _) (fun _ => le_refl _)
        (fun _ => rfl)
    | exact ⟨_, ⟨rfl, rfl, by simp⟩, .quiet rfl rfl rfl rfl rfl (fun _ => le_refl _)
        (fun _ => le_refl _) (fun _ => rfl) (by simp)⟩

theorem connStep_recorded (hk : pc.conn = some k) (hc : g.conns[k]? = some c)
    (h : ConnStep o g c k pc e (g', pc', new)) (hconns : g'.conns = g.conns.set k c') :
    Recorded c pc c' pc' new := by
  obtain ⟨d, hstay, hrec⟩ : ∃ d, Stays k g g' d pc' new ∧ Recorded c pc d pc' new := by
    rcases h with h | h | h
    · exact readerStep_recorded hc hk h
    · exact writerStep_recorded hc hk h
    · exact handlerStep_recorded hc hk h
  rw [hstay.conns] at hconns
  rwa [← set_conn_inj hc hconns]

end Steps

/-! ## Every run -/

/-- Frame by frame, the records of a connection against the goroutines that may
still act on the frame. -/
structure Entries (c : Conn Value) (T : (Pc Value → Int) → Int) : Prop where
  once : ∀ n : Nat, (c.enqueued.count n : Int) - c.rejected.count n + unread c n
    + T (pending n) ≤ 1
  phase : ∀ n : Nat, (c.spawned.count n : Int) + unread c n + T (dispatching n) ≤ 1
  starts : ∀ n : Nat, (c.spawned.count n : Int) = c.started.count n + T (waiting n)

structure Ledger (s : Config (Server Value) (Pc Value)) : Prop where
  placed : Placed s
  entries : ∀ k c, s.shared.conns[k]? = some c → Entries c (fun w => total (localTo k w) s.threads)

theorem newConn_entries (k : Nat) : Entries (newConn : Conn Value) (fun w => w (.setup k)) := by
  refine ⟨?_, ?_, ?_⟩ <;> intro n
  · simp [newConn, unread, pending]
  · simp [newConn, unread, dispatching]
  · simp [newConn, waiting]

theorem fire_ledger {o : ServerOptions} {s t : Config (Server Value) (Pc Value)} {i : Nat}
    {e : Ev Value} (hl : Ledger s) (h : (server o).fire s i e = some t) : Ledger t := by
  refine ⟨fire_placed hl.placed h, fire_each hl.placed hl.entries h newConn_entries ?_⟩
  intro g' pc pc' new k c c' T _ hk hc hs hconns _ hT
  have hrec := connStep_recorded hk hc hs hconns
  refine ⟨?_, ?_, ?_⟩ <;> intro n
  · have := hT.once n
    have := hrec.once n
    omega
  · have := hT.phase n
    have := hrec.phase n
    omega
  · have := hT.starts n
    have := hrec.starts n
    omega

theorem run_ledger {o : ServerOptions} {m : Nat} {tr : List (Nat × Ev Value)}
    {s : Config (Server Value) (Pc Value)} (hr : Run (server o) Any (start o m) tr s) :
    Ledger s := by
  refine hr.invariant ⟨start_placed o m, ?_⟩ (fun _ _ _ _ hl _ hf => fire_ledger hl hf)
  intro k c hc
  rw [start_conns] at hc
  cases hc

/-- Once its handler goroutine is started, a frame is never rejected any more. -/
theorem fire_spawned {o : ServerOptions} {s t : Config (Server Value) (Pc Value)} {i : Nat}
    {e : Ev Value} {k n : Nat} (hl : Ledger s) (h : (server o).fire s i e = some t)
    (hk : k < s.shared.conns.length)
    (hs : ∀ c, s.shared.conns[k]? = some c → n ∈ c.spawned ∧ n ∉ c.rejected) :
    ∀ c, t.shared.conns[k]? = some c → n ∈ c.spawned ∧ n ∉ c.rejected := by
  intro c' hc'
  cases fire_conn hl.placed h hc' with
  | untouched hc _ => exact hs c' hc
  | fresh hlen _ _ =>
    -- the connection existed before the step
    omega
  | stepped pc pc' new c hi hpc hc hstep hconns _ =>
    obtain ⟨hsp, hrej⟩ := hs c hc
    have hrec := connStep_recorded hpc hc hstep hconns
    have hcount := List.count_pos_iff.mpr hsp
    have hkept := hrec.kept n
    have hgrow := hrec.rejects n
    -- the reader is past this frame
    have hphase := (hl.entries k c hc).phase n
    have hunread := unread_nonneg c n
    have hle : dispatching n pc ≤ total (localTo k (dispatching n)) s.threads := by
      have := le_total_of_mem (localTo_nonneg (k := k) (dispatching_nonneg n))
        (List.mem_of_getElem? hi)
      simpa [localTo, hpc] using this
    rw [← List.count_eq_zero] at hrej ⊢
    rw [← List.count_pos_iff]
    omega

theorem run_spawned {o : ServerOptions} {s t : Config (Server Value) (Pc Value)}
    {tr : List (Nat × Ev Value)} {k n : Nat} (hr : Run (server o) Any s tr t) (hl : Ledger s)
    (hk : k < s.shared.conns.length)
    (hs : ∀ c, s.shared.conns[k]? = some c → n ∈ c.spawned ∧ n ∉ c.rejected) :
    Ledger t ∧ k < t.shared.conns.length ∧
      ∀ c, t.shared.conns[k]? = some c → n ∈ c.spawned ∧ n ∉ c.rejected := by
  refine hr.invariant (I := fun t => Ledger t ∧ k < t.shared.conns.length ∧
    ∀ c, t.shared.conns[k]? = some c → n ∈ c.spawned ∧ n ∉ c.rejected) ⟨hl, hk, hs⟩ ?_
  rintro s i e t ⟨hl, hk, hs⟩ _ hf
  exact ⟨fire_ledger hl hf, lt_of_lt_of_le hk (fire_conns_length hf), fire_spawned hl hf hk hs⟩

theorem Ledger.enqueued_le {s : Config (Server Value) (Pc Value)} (hl : Ledger s) {k n : Nat}
    {c : Conn Value} (hc : s.shared.conns[k]? = some c) (hn : n ∉ c.rejected) :
    c.enqueued.count n ≤ 1 := by
  have honce := (hl.entries k c hc).once n
  have hnn : 0 ≤ total (localTo k (pending n)) s.threads :=
    total_nonneg (fun q _ => localTo_nonneg (pending_nonneg n) q)
  have hunread := unread_nonneg c n
  rw [← List.count_eq_zero] at hn
  omega

/-- A handler goroutine that was started calls the handler function, or has. -/
theorem Ledger.starts_running {o : ServerOptions} {s : Config (Server Value) (Pc Value)}
    (hl : Ledger s) {k n : Nat} {c : Conn Value} (hc : s.shared.conns[k]? = some c)
    (hn : n ∈ c.spawned) :
    ∃ tr t c', Run (server o) Any s tr t ∧ t.shared.conns[k]? = some c' ∧ n ∈ c'.started ∧
      c'.rejected = c.rejected := by
  by_cases hst : n ∈ c.started
  · exact ⟨[], s, c, .refl, hc, hst, rfl⟩
  · have hstarts := (hl.entries k c hc).starts n
    have hpos := List.count_pos_iff.mpr hn
    rw [← List.count_eq_zero] at hst
    obtain ⟨i, pc, hi, hk, hw⟩ := exists_thread (w := waiting n) (k := k) (s := s) (by omega)
    obtain ⟨j, f, rfl, rfl⟩ := waiting_cases hw
    cases hk
    obtain ⟨hlt, -⟩ := List.getElem?_eq_some_iff.mp hc
    refine ⟨[(i, .step)],
      ⟨s.shared.setConn k { c with started := f.index :: c.started },
        s.threads.set i (.handlerRunning k f)⟩,
      { c with started := f.index :: c.started },
      .step .refl trivial (fire_serverStep _ _ hi ?_), ?_, ?_, rfl⟩
    · simp [serverStep, Pc.conn, hc, readerStep, writerStep, handlerStep]
    · simp [Server.setConn, hlt]
    · exact List.mem_cons_self ..

/-- A frame that is not rejected gets at most one response. A frame handed to a
handler goroutine keeps to one response, and is not both rejected and run,
exactly when the reader has not rejected it. -/
theorem response_once {o : ServerOptions} {m : Nat} {tr : List (Nat × Ev Value)}
    {s : Config (Server Value) (Pc Value)} {k : Nat} {c : Conn Value}
    (hr : Run (server o) Any (start o m) tr s) (hc : s.shared.conns[k]? = some c) (n : Nat) :
    (n ∉ c.rejected → c.enqueued.count n ≤ 1) ∧
    (n ∈ c.spawned →
      ((∀ tr' t c', Run (server o) Any s tr' t → t.shared.conns[k]? = some c' →
        c'.enqueued.count n ≤ 1 ∧ ¬ (n ∈ c'.rejected ∧ n ∈ c'.started)) ↔ n ∉ c.rejected)) := by
  have hl := run_ledger hr
  refine ⟨hl.enqueued_le hc, ?_⟩
  intro hsp
  constructor
  · intro hall hrej
    obtain ⟨tr', t, c', hrun, hc', hst, hsame⟩ := hl.starts_running (o := o) hc hsp
    exact (hall tr' t c' hrun hc').2 ⟨by rw [hsame]; exact hrej, hst⟩
  · intro hrej tr' t c' hrun hc'
    obtain ⟨hlt, -⟩ := List.getElem?_eq_some_iff.mp hc
    obtain ⟨hl', -, hall⟩ := run_spawned hrun hl hlt
      (fun d hd => by rw [hc] at hd; cases hd; exact ⟨hsp, hrej⟩)
    obtain ⟨-, hrej'⟩ := hall c' hc'
    exact ⟨hl'.enqueued_le hc' hrej', fun h => hrej' h.1⟩

/-! ## Runs of one connection -/

def aHeader (requestID : UInt64) (bodyLength : UInt32) : Header :=
  ⟨0, 1, msgTypeRequest, codecTypeJSON, 0, (0, 0), requestID, bodyLength⟩

def aRequest : Request Unit := newRequest "svc" "method" none 0

def anAnswer (id : UInt64) : Response Unit := ⟨id, some (), none, none, 0, 0⟩

/-- A connection is accepted and set up: goroutine 3 reads, goroutine 4 writes. -/
def connect : List (Nat × Ev Unit) :=
  [(2, .accepted), (2, .step), (2, .step), (3, .setupOk), (3, .step)]

/-- A frame within the limit is read and its handler answers. -/
def serveSmall : List (Nat × Ev Unit) :=
  connect ++ [(3, .frame (aHeader 7 3) aRequest), (3, .step), (3, .step),
    (5, .step), (5, .returned (anAnswer 7)), (5, .send 1), (5, .step), (5, .step)]

/-- A frame above the limit is read, rejected, and then handled all the same. -/
def serveLarge : List (Nat × Ev Unit) :=
  connect ++ [(3, .frame (aHeader 7 9) aRequest), (3, .send 0), (3, .step), (3, .step),
    (5, .step), (5, .returned (anAnswer 7)), (5, .send 1)]

def limited : ServerOptions := ⟨1, 4, 2⟩

theorem serveSmall_runs : (exec (server limited) Any (start limited 0) serveSmall).isSome := by
  decide

theorem serveLarge_runs : (exec (server limited) Any (start limited 0) serveLarge).isSome := by
  decide

def smallConn : Conn Unit :=
  ((exec (server limited) Any (start limited 0) serveSmall).get serveSmall_runs).shared.conns.headD
    newConn

theorem response_once_serveSmall :
    0 ∉ smallConn.rejected ∧ 0 ∈ smallConn.spawned ∧
    (0 ∉ smallConn.rejected → smallConn.enqueued.count 0 ≤ 1) ∧
    (0 ∈ smallConn.spawned →
      ((∀ tr' t c', Run (server limited) Any
          ((exec (server limited) Any (start limited 0) serveSmall).get serveSmall_runs) tr' t →
        t.shared.conns[0]? = some c' →
        c'.enqueued.count 0 ≤ 1 ∧ ¬ (0 ∈ c'.rejected ∧ 0 ∈ c'.started)) ↔
        0 ∉ smallConn.rejected)) :=
  ⟨by decide, by decide, response_once (run_exec serveSmall_runs) (by decide) 0⟩

/-- The frame above the limit is answered twice, and run although rejected. -/
theorem rejected_request_runs :
    ¬ ∀ (o : ServerOptions) (m : Nat) (tr : List (Nat × Ev Unit))
      (s : Config (Server Unit) (Pc Unit)) (k : Nat) (c : Conn Unit) (n : Nat),
      Run (server o) Any (start o m) tr s → s.shared.conns[k]? = some c →
      c.enqueued.count n ≤ 1 ∧ ¬ (n ∈ c.rejected ∧ n ∈ c.started) := by
  intro h
  have hbad := h limited 0 serveLarge _ 0 _ 0 (run_exec serveLarge_runs)
    (Option.some_get (show Option.isSome _ by decide)).symm
  exact absurd hbad.1 (by decide)

end RpcInGo.Tcp.Responses
