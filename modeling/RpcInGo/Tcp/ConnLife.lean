import RpcInGo.Tcp.ServerModel

/-!
The goroutines of one connection from `setup` to the end of `handleConnection`.

* `connStep_lifecycle`: what every step of the connection keeps;
* `run_alive`: in every run each connection has one reader, the two wait
  groups count the handlers and the writer, and `writeCh` is closed only after
  the last handler has left, so nothing is ever sent on it afterwards.
-/

namespace RpcInGo.Tcp.ConnLife
open Lib.Channel Lib.Goroutine Protocol.Message ServerModel

variable {Value : Type}

/-! ## Where the goroutines of a connection are -/

def settingUp : Pc Value → Int
  | .setup _ => 1
  | _ => 0

/-- The reader between `setup` and `close(writeCh)`. -/
def looping : Pc Value → Int
  | .top _ | .reading _ | .rejectBody _ _ | .acquire _ _ | .rejectBusy _ _ | .spawn _ _ => 1
  | .waitHandlers _ => 1
  | _ => 0

def draining : Pc Value → Int
  | .waitWriter _ => 1
  | _ => 0

/-- The reader in the deferred calls and after them. -/
def leaving : Pc Value → Int
  | .closeConn _ | .releaseConn _ | .doneConn _ | .cancelConn _ | .left _ => 1
  | _ => 0

/-- A handler goroutine that has not executed `handlersWg.Done()`. -/
def alive : Pc Value → Int
  | .handlerStart _ _ | .handlerRunning _ _ | .handlerSend _ _ _ | .handlerRelease _ _ => 1
  | .handlerDone _ _ => 1
  | _ => 0

def writer : Pc Value → Int
  | .receiving _ | .writing _ _ => 1
  | _ => 0

def panicking : Pc Value → Int
  | .sendOnClosedChannel _ => 1
  | _ => 0

section Nonneg
variable (pc : Pc Value)

theorem settingUp_nonneg : 0 ≤ settingUp pc := by unfold settingUp; split <;> decide
theorem looping_nonneg : 0 ≤ looping pc := by unfold looping; split <;> decide
theorem draining_nonneg : 0 ≤ draining pc := by unfold draining; split <;> decide
theorem leaving_nonneg : 0 ≤ leaving pc := by unfold leaving; split <;> decide
theorem alive_nonneg : 0 ≤ alive pc := by unfold alive; split <;> decide
theorem writer_nonneg : 0 ≤ writer pc := by unfold writer; split <;> decide

end Nonneg

/-- A fact about all seven places. -/
theorem forall_places {P : (Pc Value → Int) → Prop} (h1 : P settingUp) (h2 : P looping)
    (h3 : P draining) (h4 : P leaving) (h5 : P alive) (h6 : P writer) (h7 : P panicking) :
    ∀ w ∈ [settingUp, looping, draining, leaving, alive, writer, panicking], P w := by
  simp only [List.forall_mem_cons]
  exact ⟨h1, h2, h3, h4, h5, h6, h7, List.forall_mem_nil _⟩

structure Lifecycle (c : Conn Value) (T : (Pc Value → Int) → Int) : Prop where
  reader : T settingUp + T looping + T draining + T leaving = 1
  nonneg : 0 ≤ T settingUp ∧ 0 ≤ T looping ∧ 0 ≤ T draining ∧ 0 ≤ T leaving ∧ 0 ≤ T alive ∧
    0 ≤ T writer
  handlers : c.handlersWg = T alive
  writers : c.writerWg = T writer
  oneWriter : T writer ≤ 1
  served : T alive = 0 ∨ T looping = 1
  closed : c.writeCh.closed = true → T looping = 0 ∧ T settingUp = 0
  drains : 1 ≤ T draining → c.writeCh.closed = true
  quiet : T settingUp = 1 ∨ T leaving = 1 → T writer = 0
  cancels : T looping = 1 → T writer = 0 → c.cancelled = true
  safe : T panicking = 0
  room : c.writeCh.cap = 64

theorem newConn_lifecycle (k : Nat) :
    Lifecycle (newConn : Conn Value) (fun w => w (.setup k)) := by
  constructor <;> simp [newConn, Chan.make, settingUp, looping, draining, leaving, alive, writer,
    panicking]

section Steps
variable {o : ServerOptions} {g g' : Server Value} {c c' : Conn Value} {k : Nat}
  {pc pc' : Pc Value} {e : Ev Value} {new : List (Pc Value)} {T : (Pc Value → Int) → Int}

/-- The stepping goroutine is among those counted. -/
structure Counted (pc : Pc Value) (T : (Pc Value → Int) → Int) : Prop where
  settingUp : settingUp pc ≤ T settingUp
  looping : looping pc ≤ T looping
  draining : draining pc ≤ T draining
  leaving : leaving pc ≤ T leaving
  alive : alive pc ≤ T alive
  writer : writer pc ≤ T writer

theorem counted (h : ∀ w : Pc Value → Int, (∀ q, 0 ≤ w q) → w pc ≤ T w) : Counted pc T :=
  ⟨h _ settingUp_nonneg, h _ looping_nonneg, h _ draining_nonneg, h _ leaving_nonneg,
    h _ alive_nonneg, h _ writer_nonneg⟩

/-- A step by which the reader and the writer keep their places and no handler
comes or goes. -/
theorem Lifecycle.keep (hT : Lifecycle c T) (hwg : c'.handlersWg = c.handlersWg)
    (hwr : c'.writerWg = c.writerWg) (hcl : c'.writeCh.closed = c.writeCh.closed)
    (hcap : c'.writeCh.cap = c.writeCh.cap)
    (hcan : c.cancelled = true → c'.cancelled = true)
    (hsame : ∀ w ∈ [settingUp, looping, draining, leaving, alive, writer, panicking],
      w pc' + total w new = w pc) :
    Lifecycle c' (fun w => T w - w pc + (w pc' + total w new)) := by
  have hw : ∀ w ∈ [settingUp, looping, draining, leaving, alive, writer, panicking],
      T w - w pc + (w pc' + total w new) = T w := by
    intro w hw
    rw [hsame w hw]
    omega
  simp only [List.forall_mem_cons, List.not_mem_nil, false_implies, implies_true, and_true] at hw
  obtain ⟨h1, h2, h3, h4, h5, h6, h7⟩ := hw
  constructor
  · simpa only [h1, h2, h3, h4] using hT.reader
  · simpa only [h1, h2, h3, h4, h5, h6] using hT.nonneg
  · simpa only [h5, hwg] using hT.handlers
  · simpa only [h6, hwr] using hT.writers
  · simpa only [h6] using hT.oneWriter
  · simpa only [h2, h5] using hT.served
  · simpa only [h1, h2, hcl] using hT.closed
  · simpa only [h3, hcl] using hT.drains
  · simpa only [h1, h4, h6] using hT.quiet
  · simp only [h2, h6]
    exact fun hl hw => hcan (hT.cancels hl hw)
  · simpa only [h7] using hT.safe
  · exact hcap.trans hT.room

/-- While a handler is there, the reader has not left its loop. -/
theorem Lifecycle.looping_eq_one (hT : Lifecycle c T) (hpc : Counted pc T)
    (h : 1 ≤ alive pc + looping pc) : T looping = 1 := by
  have hreader := hT.reader
  have hnonneg := hT.nonneg
  have hloop := hpc.looping
  have halive := hpc.alive
  rcases hT.served with hnone | hone
  · omega
  · exact hone

theorem Lifecycle.writeCh_open (hT : Lifecycle c T) (hpc : Counted pc T)
    (h : 1 ≤ alive pc + looping pc) : c.writeCh.closed = false := by
  cases hc : c.writeCh.closed with
  | false => rfl
  | true =>
    obtain ⟨hl, -⟩ := hT.closed hc
    have hone := hT.looping_eq_one hpc h
    omega

theorem enqueue_lifecycle {f : Frame Value} {resp : Response Value} {next : Pc Value}
    {d : Conn Value} (h : enqueue g k d f resp next = some (g', pc', new)) (hT : Lifecycle c T)
    (hopen : c.writeCh.closed = false)
    (hd : d.writeCh = c.writeCh ∧ d.handlersWg = c.handlersWg ∧ d.writerWg = c.writerWg ∧
      d.cancelled = c.cancelled)
    (hsame : ∀ w ∈ [settingUp, looping, draining, leaving, alive, writer, panicking],
      w next = w pc) :
    ∃ c', g'.conns = g.conns.set k c' ∧
      Lifecycle c' (fun w => T w - w pc + (w pc' + total w new)) := by
  obtain ⟨hch, hwg, hwr, hcan⟩ := hd
  obtain ⟨ch, hs, rfl, rfl, rfl⟩ | ⟨hcl, -, -, -⟩ := enqueue_cases h
  · refine ⟨_, rfl, hT.keep hwg hwr ?_ ?_ ?_ ?_⟩
    · rw [(send_ok hs).2.2.1, hch]
    · rw [(send_ok hs).2.1, hch]
    · exact fun h => hcan.trans h
    · intro w hw
      rw [hsame w hw]
      simp
  · rw [hch, hopen] at hcl
    cases hcl

theorem setupOk_lifecycle (hT : Lifecycle c T) (hpc : Counted (.setup k) T) :
    Lifecycle { c with writerWg := c.writerWg + 1 }
      (fun w => T w - w (.setup k) + (w (.top k) + total w [.receiving k])) := by
  obtain ⟨hreader, hnn, hh, hw, h1, hs, hcl, hdr, hq, hcan, hsafe, hroom⟩ := hT
  have hup := hpc.settingUp
  constructor <;> simp only [settingUp, looping, draining, leaving, alive, writer, panicking,
    total_cons, total_nil] at hup ⊢
  case closed =>
    intro h
    have := hcl h
    omega
  case drains =>
    intro h
    exact hdr (by omega)
  case cancels =>
    intro _ _
    omega
  all_goals omega

theorem setupFailed_lifecycle (hT : Lifecycle c T) (hpc : Counted (.setup k) T) :
    Lifecycle c (fun w => T w - w (.setup k) + (w (.closeConn k) + total w [])) := by
  obtain ⟨hreader, hnn, hh, hw, h1, hs, hcl, hdr, hq, hcan, hsafe, hroom⟩ := hT
  have hup := hpc.settingUp
  constructor <;> simp only [settingUp, looping, draining, leaving, alive, writer, panicking,
    total_nil] at hup ⊢
  case closed =>
    intro h
    have := hcl h
    omega
  case drains =>
    intro h
    exact hdr (by omega)
  case cancels =>
    intro hl hw
    exact hcan (by omega) (by omega)
  all_goals omega

theorem spawn_lifecycle {f : Frame Value} {sp : List Nat} (hT : Lifecycle c T)
    (hpc : Counted (.spawn k f) T) :
    Lifecycle { c with handlersWg := c.handlersWg + 1, spawned := sp }
      (fun w => T w - w (.spawn k f) + (w (.top k) + total w [.handlerStart k f])) := by
  obtain ⟨hreader, hnn, hh, hw, h1, hs, hcl, hdr, hq, hcan, hsafe, hroom⟩ := hT
  have hloop := hpc.looping
  constructor <;> simp only [settingUp, looping, draining, leaving, alive, writer, panicking,
    total_cons, total_nil] at hloop ⊢
  case closed =>
    intro h
    have := hcl h
    omega
  case drains =>
    intro h
    exact hdr (by omega)
  case cancels =>
    intro hl hw
    exact hcan (by omega) (by omega)
  all_goals omega

/-- `close(writeCh)`, after `handlersWg.Wait()`. -/
theorem closeWriteCh_lifecycle (hT : Lifecycle c T) (hpc : Counted (.waitHandlers k) T)
    (hwg : c.handlersWg = 0) :
    Lifecycle { c with writeCh := c.writeCh.close }
      (fun w => T w - w (.waitHandlers k) + (w (.waitWriter k) + total w [])) := by
  obtain ⟨hreader, hnn, hh, hw, h1, hs, hcl, hdr, hq, hcan, hsafe, hroom⟩ := hT
  have hloop := hpc.looping
  constructor <;> simp only [settingUp, looping, draining, leaving, alive, writer, panicking,
    total_nil, Chan.close] at hloop ⊢
  case closed =>
    intro _
    omega
  case drains => exact fun _ => trivial
  case cancels =>
    intro hl hw
    exact hcan (by omega) (by omega)
  all_goals omega

theorem leave_lifecycle (hT : Lifecycle c T) (hpc : Counted (.waitWriter k) T)
    (hwg : c.writerWg = 0) :
    Lifecycle c (fun w => T w - w (.waitWriter k) + (w (.closeConn k) + total w [])) := by
  obtain ⟨hreader, hnn, hh, hw, h1, hs, hcl, hdr, hq, hcan, hsafe, hroom⟩ := hT
  have hdrain := hpc.draining
  constructor <;> simp only [settingUp, looping, draining, leaving, alive, writer, panicking,
    total_nil] at hdrain ⊢
  case closed =>
    intro h
    have := hcl h
    omega
  case drains =>
    intro h
    exact hdr (by omega)
  case cancels =>
    intro hl hw
    exact hcan (by omega) (by omega)
  all_goals omega

/-- The writer leaves: its channel is closed and drained, or a write failed. -/
theorem writerLeft_lifecycle {b : Bool} (hT : Lifecycle c T) (hpc : Counted pc T)
    (hwriter : ∀ w ∈ [settingUp, looping, draining, leaving, alive, panicking], w pc = 0)
    (hone : writer pc = 1) (hb : c.writeCh.closed = true ∨ b = true) :
    Lifecycle { c with cancelled := b || c.cancelled, writerWg := c.writerWg - 1 }
      (fun w => T w - w pc + (w (.writerLeft k) + total w [])) := by
  obtain ⟨hreader, hnn, hh, hw, h1, hs, hcl, hdr, hq, hcan, hsafe, hroom⟩ := hT
  have hle := hpc.writer
  simp only [List.forall_mem_cons, List.not_mem_nil, false_implies, implies_true, and_true]
    at hwriter
  obtain ⟨e1, e2, e3, e4, e5, e6⟩ := hwriter
  constructor <;> simp only [settingUp, looping, draining, leaving, alive, writer, panicking,
    total_nil, Bool.or_eq_true] at *
  case closed =>
    intro h
    have := hcl h
    omega
  case drains =>
    intro h
    exact hdr (by omega)
  case cancels =>
    intro hl _
    rcases hb with hclosed | hb
    · have := hcl hclosed
      omega
    · exact .inl hb
  all_goals omega

theorem handlerLeft_lifecycle {f : Frame Value} (hT : Lifecycle c T)
    (hpc : Counted (.handlerDone k f) T) :
    Lifecycle { c with handlersWg := c.handlersWg - 1 }
      (fun w => T w - w (.handlerDone k f) + (w (.handlerLeft k f) + total w [])) := by
  obtain ⟨hreader, hnn, hh, hw, h1, hs, hcl, hdr, hq, hcan, hsafe, hroom⟩ := hT
  have halive := hpc.alive
  constructor <;> simp only [settingUp, looping, draining, leaving, alive, writer, panicking,
    total_nil] at halive ⊢
  case closed =>
    intro h
    have := hcl h
    omega
  case drains =>
    intro h
    exact hdr (by omega)
  case cancels =>
    intro hl hw
    exact hcan (by omega) (by omega)
  all_goals omega

theorem keep_same (hT : Lifecycle c T) (hc : g.conns[k]? = some c) (hg : g'.conns = g.conns)
    (hsame : ∀ w ∈ [settingUp, looping, draining, leaving, alive, writer, panicking],
      w pc' = w pc) :
    ∃ c', g'.conns = g.conns.set k c' ∧
      Lifecycle c' (fun w => T w - w pc + (w pc' + total w [])) := by
  refine ⟨c, hg.trans (set_same hc).symm, hT.keep rfl rfl rfl rfl id ?_⟩
  intro w hw
  rw [hsame w hw]
  simp

theorem readerStep_lifecycle (h : readerStep o g c k pc e = some (g', pc', new))
    (hk : pc.conn = some k) (hc : g.conns[k]? = some c) (hT : Lifecycle c T)
    (hpc : Counted pc T) :
    ∃ c', g'.conns = g.conns.set k c' ∧
      Lifecycle c' (fun w => T w - w pc + (w pc' + total w new)) := by
  revert h
  fun_cases readerStep o g c k pc e <;> intro h <;> try contradiction
  all_goals cases hk
  all_goals first
    | exact enqueue_lifecycle h hT (hT.writeCh_open hpc (by simp [alive, looping]))
        ⟨rfl, rfl, rfl, rfl⟩ (forall_places rfl rfl rfl rfl rfl rfl rfl)
    | cases h
  all_goals first
    | exact keep_same hT hc rfl (forall_places rfl rfl rfl rfl rfl rfl rfl)
    | exact ⟨c, (set_same hc).symm, setupFailed_lifecycle hT hpc⟩
    | exact ⟨c, (set_same hc).symm, leave_lifecycle hT hpc (by assumption)⟩
    | exact ⟨_, rfl, setupOk_lifecycle hT hpc⟩
    | exact ⟨_, rfl, spawn_lifecycle hT hpc⟩
    | exact ⟨_, rfl, closeWriteCh_lifecycle hT hpc (by assumption)⟩
    | exact ⟨_, rfl, hT.keep rfl rfl rfl rfl (fun h => by first | exact h | rfl)
        (forall_places rfl rfl rfl rfl rfl rfl rfl)⟩

theorem writerStep_lifecycle (h : writerStep g c k pc e = some (g', pc', new))
    (hk : pc.conn = some k) (hc : g.conns[k]? = some c) (hT : Lifecycle c T)
    (hpc : Counted pc T) :
    ∃ c', g'.conns = g.conns.set k c' ∧
      Lifecycle c' (fun w => T w - w pc + (w pc' + total w new)) := by
  revert h
  fun_cases writerStep g c k pc e <;> intro h <;> try contradiction
  all_goals cases hk
  all_goals cases h
  · rename_i hr
    exact ⟨_, rfl, hT.keep rfl rfl (recv_ok hr).2.2 (recv_ok hr).2.1 id
      (forall_places rfl rfl rfl rfl rfl rfl rfl)⟩
  · rename_i hr
    exact ⟨_, rfl, writerLeft_lifecycle (b := false) hT hpc
      (by simp [settingUp, looping, draining, leaving, alive, panicking]) rfl
      (Or.inl (recv_zero hr).2)⟩
  · exact keep_same hT hc rfl (forall_places rfl rfl rfl rfl rfl rfl rfl)
  · exact ⟨_, rfl, writerLeft_lifecycle (b := true) hT hpc
      (by simp [settingUp, looping, draining, leaving, alive, panicking]) rfl (Or.inr rfl)⟩

theorem handlerStep_lifecycle (h : handlerStep g c k pc e = some (g', pc', new))
    (hk : pc.conn = some k) (hc : g.conns[k]? = some c) (hT : Lifecycle c T)
    (hpc : Counted pc T) :
    ∃ c', g'.conns = g.conns.set k c' ∧
      Lifecycle c' (fun w => T w - w pc + (w pc' + total w new)) := by
  revert h
  fun_cases handlerStep g c k pc e <;> intro h <;> try contradiction
  all_goals cases hk
  all_goals first
    | exact enqueue_lifecycle h hT (hT.writeCh_open hpc (by simp [alive, looping]))
        ⟨rfl, rfl, rfl, rfl⟩ (forall_places rfl rfl rfl rfl rfl rfl rfl)
    | cases h
  all_goals first
    | exact ⟨_, rfl, handlerLeft_lifecycle hT hpc⟩
    | exact keep_same hT hc rfl (forall_places rfl rfl rfl rfl rfl rfl rfl)
    | exact ⟨_, rfl, hT.keep rfl rfl rfl rfl id
        (forall_places rfl rfl rfl rfl rfl rfl rfl)⟩

theorem connStep_lifecycle (h : ConnStep o g c k pc e (g', pc', new)) (hk : pc.conn = some k)
    (hc : g.conns[k]? = some c) (hconns : g'.conns = g.conns.set k c') (hT : Lifecycle c T)
    (hpc : Counted pc T) : Lifecycle c' (fun w => T w - w pc + (w pc' + total w new)) := by
  obtain ⟨d, hd, hlife⟩ : ∃ d, g'.conns = g.conns.set k d ∧
      Lifecycle d (fun w => T w - w pc + (w pc' + total w new)) := by
    rcases h with h | h | h
    · exact readerStep_lifecycle h hk hc hT hpc
    · exact writerStep_lifecycle h hk hc hT hpc
    · exact handlerStep_lifecycle h hk hc hT hpc
  rw [hd] at hconns
  rwa [← set_conn_inj hc hconns]

end Steps

/-! ## Every run -/

structure Alive (s : Config (Server Value) (Pc Value)) : Prop where
  placed : Placed s
  conns : ∀ k c, s.shared.conns[k]? = some c →
    Lifecycle c (fun w => total (localTo k w) s.threads)

/-- A goroutine of a connection is counted there. -/
theorem le_sum {s : Config (Server Value) (Pc Value)} {i k : Nat} {pc : Pc Value}
    (hi : s.threads[i]? = some pc) (hk : pc.conn = some k) (w : Pc Value → Int)
    (hw : ∀ q, 0 ≤ w q) : w pc ≤ total (localTo k w) s.threads := by
  have := le_total_of_mem (localTo_nonneg (k := k) hw) (List.mem_of_getElem? hi)
  simpa [localTo, hk] using this

theorem Alive.writeCh_open {s : Config (Server Value) (Pc Value)} (ha : Alive s) {i k : Nat}
    {pc : Pc Value} {c : Conn Value} (hi : s.threads[i]? = some pc) (hk : pc.conn = some k)
    (hc : s.shared.conns[k]? = some c) (h : 1 ≤ alive pc + looping pc) :
    c.writeCh.closed = false :=
  (ha.conns k c hc).writeCh_open (counted (le_sum hi hk)) h

theorem fire_alive {o : ServerOptions} {s t : Config (Server Value) (Pc Value)} {i : Nat}
    {e : Ev Value} (ha : Alive s) (h : (server o).fire s i e = some t) : Alive t := by
  refine ⟨fire_placed ha.placed h, fire_each ha.placed ha.conns h newConn_lifecycle ?_⟩
  intro g' pc pc' new k c c' T _ hk hc hs hconns hle hT
  exact connStep_lifecycle hs hk hc hconns hT (counted hle)

theorem start_alive (o : ServerOptions) (n : Nat) :
    Alive (start o n : Config (Server Value) (Pc Value)) := by
  refine ⟨start_placed o n, ?_⟩
  intro k c hc
  rw [start_conns] at hc
  cases hc

theorem run_alive {o : ServerOptions}
    {ok : Config (Server Value) (Pc Value) → Nat → Ev Value → Prop} {n : Nat}
    {tr : List (Nat × Ev Value)} {s : Config (Server Value) (Pc Value)}
    (hr : Run (server o) ok (start o n) tr s) : Alive s :=
  hr.invariant (start_alive o n) (fun _ _ _ _ ha _ hf => fire_alive ha hf)

end RpcInGo.Tcp.ConnLife
