import RpcInGo.Tcp.Tokens

/-!
How a connection comes to its end once its handler functions have returned.

* `run_enrolled`: the connection semaphore and `wg` count the connections that
  still have to give back their slot and to call `wg.Done()`;
* `drain_step`: a connection whose handler functions have all returned and
  that is not finished has an enabled step that brings it closer to its end;
* `releases_have_tokens`: as long as no request is rejected for want of a token,
  no release waits in vain, and every such connection, and with all of them
  `Close`, can finish.
-/

namespace RpcInGo.Tcp.Drain
open Lib.Channel Lib.Goroutine Protocol.Message ServerModel ConnLife Responses Tokens

variable {Value : Type}

/-! ## The slots of the connections -/

/-- Holds a slot of `connSemaphore`. -/
def admitted : Pc Value → Int
  | .registering | .setup _ | .top _ | .reading _ | .rejectBody _ _ | .acquire _ _ => 1
  | .rejectBusy _ _ | .spawn _ _ | .waitHandlers _ | .waitWriter _ | .closeConn _ => 1
  | .releaseConn _ => 1
  | _ => 0

/-- Still has to call `s.wg.Done()`. -/
def inWg : Pc Value → Int
  | .setup _ | .top _ | .reading _ | .rejectBody _ _ | .acquire _ _ | .rejectBusy _ _ => 1
  | .spawn _ _ | .waitHandlers _ | .waitWriter _ | .closeConn _ | .releaseConn _ => 1
  | .doneConn _ => 1
  | _ => 0

/-- `held` tokens are in `connSemaphore`, if there is one. -/
def Slots (g : Server Value) (held : Int) : Prop :=
  ∀ sem, g.connSemaphore = some sem → (sem.buf.length : Int) = held

structure Enrolls (g : Server Value) (pc : Pc Value) (g' : Server Value) (pc' : Pc Value)
    (new : List (Pc Value)) : Prop where
  slot : ∀ held, Slots g held →
    Slots g' (held - admitted pc + (admitted pc' + total admitted new))
  wg : g'.wg - (inWg pc' + total inWg new) = g.wg - inWg pc

section Steps
variable {o : ServerOptions} {g g' : Server Value} {c d : Conn Value} {k : Nat}
  {pc pc' : Pc Value} {e : Ev Value} {new : List (Pc Value)}

theorem Enrolls.same (hsem : g'.connSemaphore = g.connSemaphore) (hwg : g'.wg = g.wg)
    (ha : admitted pc' + total admitted new = admitted pc)
    (hw : inWg pc' + total inWg new = inWg pc) : Enrolls g pc g' pc' new := by
  refine ⟨?_, by rw [hwg, hw]⟩
  intro held hheld sem hs
  rw [hsem] at hs
  have := hheld sem hs
  omega

theorem enqueue_enrolls {f : Frame Value} {resp : Response Value} {next : Pc Value}
    (h : enqueue g k d f resp next = some (g', pc', new)) (ho : d.writeCh.closed = false)
    (ha : admitted next = admitted pc) (hw : inWg next = inWg pc) : Enrolls g pc g' pc' new := by
  obtain ⟨ch, -, rfl, rfl, rfl⟩ | ⟨hcl, -, -, -⟩ := enqueue_cases h
  · exact .same rfl rfl (by simp [ha]) (by simp [hw])
  · rw [ho] at hcl
    cases hcl

theorem admit_enrolls {sem sem' : Chan Unit} (hsem : g.connSemaphore = some sem)
    (hs : sem.send () = .ok sem') :
    Enrolls g .admitting { g with connSemaphore := some sem' } .registering [] := by
  refine ⟨?_, rfl⟩
  intro held hheld sem'' h
  cases h
  have := hheld sem hsem
  simp [(send_ok hs).1, admitted]
  omega

theorem releaseConn_enrolls {j : Nat} {sem sem' : Chan Unit} (hsem : g.connSemaphore = some sem)
    (hs : sem.recv = .ok () sem') :
    Enrolls g (.releaseConn j) { g with connSemaphore := some sem' } (.doneConn k) [] := by
  refine ⟨?_, rfl⟩
  intro held hheld sem'' h
  cases h
  have := hheld sem hsem
  have := congrArg List.length (recv_ok hs).1
  simp [admitted] at this ⊢
  omega

/-- Without a connection limit there are no slots to count. -/
theorem Enrolls.unlimited (hg : g'.connSemaphore = none)
    (hwg : g'.wg - (inWg pc' + total inWg new) = g.wg - inWg pc) : Enrolls g pc g' pc' new := by
  refine ⟨?_, hwg⟩
  intro held _ sem hs
  rw [hg] at hs
  cases hs

theorem freeStep_enrolls (h : FreeStep g pc e (g', pc', new)) : Enrolls g pc g' pc' new := by
  rcases h with h | h
  · revert h
    fun_cases serveStep g pc e <;> intro h <;> try contradiction
    all_goals cases h
    all_goals first
      | exact .same rfl rfl rfl rfl
      | exact admit_enrolls (by assumption) (by assumption)
      | exact .unlimited (by assumption) rfl
      | skip
    -- `wg.Add(1)` and the new reader come together
    refine ⟨?_, ?_⟩
    · intro held hheld sem hs
      have := hheld sem hs
      simp [admitted]
      omega
    · simp [inWg]
  · revert h
    fun_cases closeStep g pc e <;> intro h <;> try contradiction
    all_goals
      cases h
      exact .same rfl rfl rfl rfl

theorem connStep_enrolls (h : ConnStep o g c k pc e (g', pc', new))
    (hopen : 1 ≤ alive pc + looping pc → c.writeCh.closed = false) :
    Enrolls g pc g' pc' new := by
  rcases h with h | h | h
  · revert h
    fun_cases readerStep o g c k pc e <;> intro h <;> try contradiction
    all_goals first
      | exact enqueue_enrolls h (hopen (by simp [alive, looping])) rfl rfl
      | cases h
    all_goals first
      | exact .same rfl rfl rfl rfl
      | exact releaseConn_enrolls (by assumption) (by assumption)
      | exact .unlimited (by assumption) rfl
      | skip
    refine ⟨?_, ?_⟩
    · intro held hheld sem hs
      have := hheld sem hs
      simp [admitted]
      omega
    · simp [inWg]
  · revert h
    fun_cases writerStep g c k pc e <;> intro h <;> try contradiction
    all_goals
      cases h
      exact .same rfl rfl rfl rfl
  · revert h
    fun_cases handlerStep g c k pc e <;> intro h <;> try contradiction
    all_goals first
      | exact enqueue_enrolls h (hopen (by simp [alive, looping])) rfl rfl
      | cases h
        exact .same rfl rfl rfl rfl

end Steps

structure Enrolled (s : Config (Server Value) (Pc Value)) : Prop where
  slot : Slots s.shared (total admitted s.threads)
  wg : s.shared.wg = total inWg s.threads

theorem fire_enrolled {o : ServerOptions} {s t : Config (Server Value) (Pc Value)} {i : Nat}
    {e : Ev Value} (ha : Alive s) (hn : Enrolled s) (h : (server o).fire s i e = some t) :
    Enrolled t := by
  obtain ⟨pc, g', pc', new, hi, rfl, hs⟩ := fire_server h
  have hstep : Enrolls s.shared pc g' pc' new := by
    rcases hs with ⟨-, hs⟩ | ⟨k, c, hk, hc, hs⟩
    · exact freeStep_enrolls hs
    · exact connStep_enrolls hs (ha.writeCh_open hi hk hc)
  constructor
  · have := hstep.slot _ hn.slot
    simp only [total_append, total_set _ _ hi]
    intro sem hsem
    have := this sem hsem
    omega
  · have := hstep.wg
    have := hn.wg
    simp only [total_append, total_set _ _ hi]
    omega

theorem start_enrolled (o : ServerOptions) (n : Nat) :
    Enrolled (start o n : Config (Server Value) (Pc Value)) := by
  have h0 (w : Pc Value → Int) (hw : w .context = 0 ∧ w .watching = 0 ∧ w .accepting = 0 ∧
      w .closeCall = 0) : total w (start o n : Config (Server Value) (Pc Value)).threads = 0 := by
    apply total_eq_zero
    intro pc hpc
    simp only [start, List.mem_cons, List.mem_replicate] at hpc
    obtain ⟨h1, h2, h3, h4⟩ := hw
    rcases hpc with rfl | rfl | rfl | ⟨-, rfl⟩ <;> assumption
  constructor
  · intro sem hsem
    rw [h0 _ ⟨rfl, rfl, rfl, rfl⟩]
    simp only [start, newServer, semaphore] at hsem
    split at hsem
    · cases hsem
      rfl
    · cases hsem
  · rw [h0 _ ⟨rfl, rfl, rfl, rfl⟩]
    rfl

theorem run_enrolled {o : ServerOptions}
    {ok : Config (Server Value) (Pc Value) → Nat → Ev Value → Prop} {n : Nat}
    {tr : List (Nat × Ev Value)} {s : Config (Server Value) (Pc Value)}
    (hr : Run (server o) ok (start o n) tr s) : Enrolled s := by
  have h := hr.invariant (I := fun s => Alive s ∧ Enrolled s)
    ⟨start_alive o n, start_enrolled o n⟩
    (fun _ _ _ _ h _ hf => ⟨fire_alive h.1 hf, fire_enrolled h.1 h.2 hf⟩)
  exact h.2

/-! ## One step closer to the end -/

/-- No handler function of this goroutine is still to return: it carries no
request whose handler has not been called or has not returned. -/
def settled : Pc Value → Bool
  | .rejectBody _ _ | .acquire _ _ | .rejectBusy _ _ | .spawn _ _ => false
  | .handlerStart _ _ | .handlerRunning _ _ | .sendOnClosedChannel _ => false
  | _ => true

/-- The handler functions of connection `k` have all returned. -/
def Settled (s : Config (Server Value) (Pc Value)) (k : Nat) : Prop :=
  ∀ pc ∈ s.threads, pc.conn = some k → settled pc = true

def finished : Pc Value → Bool
  | .left _ | .writerLeft _ | .handlerLeft _ _ => true
  | _ => false

/-- `handleConnection` and all goroutines it started have returned. -/
def Finished (s : Config (Server Value) (Pc Value)) (k : Nat) : Prop :=
  ∀ pc ∈ s.threads, pc.conn = some k → finished pc = true

/-- Steps left to a goroutine, with what its answer costs the writer. -/
def rank : Pc Value → Int
  | .setup _ => 9
  | .top _ => 8
  | .reading _ => 7
  | .waitHandlers _ => 6
  | .waitWriter _ => 5
  | .closeConn _ => 4
  | .releaseConn _ => 3
  | .doneConn _ => 2
  | .cancelConn _ => 1
  | .receiving _ => 1
  | .writing _ _ => 2
  | .handlerSend _ _ _ => 6
  | .handlerRelease _ _ => 2
  | .handlerDone _ _ => 1
  | _ => 0

def queue (g : Server Value) (k : Nat) : Int :=
  match g.conns[k]? with
  | none => 0
  | some c => 3 * c.writeCh.buf.length

def distance (s : Config (Server Value) (Pc Value)) (k : Nat) : Int :=
  total (localTo k rank) s.threads + queue s.shared k

theorem holding_nonneg (pc : Pc Value) : 0 ≤ holding pc := by
  cases pc <;> simp [holding]

theorem admitted_nonneg (pc : Pc Value) : 0 ≤ admitted pc := by
  cases pc <;> simp [admitted]

theorem rank_nonneg (pc : Pc Value) : 0 ≤ rank pc := by
  cases pc <;> simp [rank]

theorem distance_nonneg (s : Config (Server Value) (Pc Value)) (k : Nat) : 0 ≤ distance s k := by
  have h1 : 0 ≤ total (localTo k rank) s.threads :=
    total_nonneg (fun q _ => localTo_nonneg rank_nonneg q)
  have h2 : 0 ≤ queue s.shared k := by
    unfold queue
    split <;> omega
  unfold distance
  omega

/-- A step of connection `k` alone that brings it closer to its end. -/
structure Closer (o : ServerOptions) (s : Config (Server Value) (Pc Value)) (k : Nat)
    (t : Config (Server Value) (Pc Value)) : Prop where
  run : ∃ i e, NoOverflow s i e ∧ (server o).fire s i e = some t
  threads : ∃ i pc pc', s.threads[i]? = some pc ∧ pc.conn = some k ∧ pc'.conn = some k ∧
    settled pc' = true ∧ t.threads = s.threads.set i pc'
  less : distance t k < distance s k

/-- A semaphore with a token gives it. -/
theorem recv_of_length {sem : Chan Unit} (h : (1 : Int) ≤ sem.buf.length) :
    ∃ sem', sem.recv = .ok () sem' := by
  cases hbuf : sem.buf with
  | nil =>
    rw [hbuf] at h
    simp at h
  | cons a rest =>
    obtain ⟨sem', hr, -⟩ := recv_of_cons hbuf
    exact ⟨sem', hr⟩

section Closer
variable {o : ServerOptions} {s : Config (Server Value) (Pc Value)} {c : Conn Value} {i k : Nat}
  {pc pc' : Pc Value} {e : Ev Value}

theorem noOverflow_of_settled (hi : s.threads[i]? = some pc) (hset : settled pc = true) :
    NoOverflow s i e := by
  unfold NoOverflow overflows
  rw [hi]
  split
  · rename_i hpc
    cases hpc
    cases hset
  · rfl

theorem closer_of (e : Ev Value) (g' : Server Value) (pc' : Pc Value)
    (hi : s.threads[i]? = some pc) (hk : pc.conn = some k)
    (hset : settled pc = true) (hs : serverStep o s.shared pc e = some (g', pc', []))
    (hk' : pc'.conn = some k) (hset' : settled pc' = true)
    (hlt : rank pc' + queue g' k < rank pc + queue s.shared k) :
    Closer o s k ⟨g', s.threads.set i pc'⟩ := by
  refine ⟨⟨i, e, noOverflow_of_settled hi hset, ?_⟩, ⟨i, pc, pc', hi, hk, hk', hset', rfl⟩, ?_⟩
  · exact fire_serverStep g' pc' hi hs
  · have hsum : total (localTo k rank) (s.threads.set i pc') =
        total (localTo k rank) s.threads - rank pc + rank pc' := by
      rw [total_set _ _ hi]
      simp [localTo, hk, hk']
    simp only [distance, hsum]
    omega

theorem queue_eq (hc : s.shared.conns[k]? = some c) :
    queue s.shared k = 3 * c.writeCh.buf.length := by simp [queue, hc]

theorem queue_setConn {c' : Conn Value} (hc : s.shared.conns[k]? = some c) :
    queue (s.shared.setConn k c') k = 3 * c'.writeCh.buf.length := by
  obtain ⟨hlt, -⟩ := List.getElem?_eq_some_iff.mp hc
  simp [queue, Server.setConn, hlt]

/-- The writer goes on as long as there is something to write, or nothing more
will come. -/
theorem writer_closer (hc : s.shared.conns[k]? = some c) (hi : s.threads[i]? = some pc)
    (hk : pc.conn = some k) (hw : writer pc ≠ 0)
    (h : c.writeCh.buf ≠ [] ∨ c.writeCh.closed = true) : ∃ t, Closer o s k t := by
  have hq := queue_eq hc
  cases pc <;> first | exact absurd rfl hw | cases hk
  case receiving =>
    cases hr : c.writeCh.recv with
    | ok a ch =>
      obtain ⟨n, resp⟩ := a
      have hlen := congrArg List.length (recv_ok hr).1
      refine ⟨_, closer_of .step (s.shared.setConn k { c with writeCh := ch })
        (.writing k resp) hi rfl rfl ?_ rfl rfl ?_⟩
      · simp [serverStep, Pc.conn, hc, readerStep, writerStep, hr]
      · rw [queue_setConn hc, hq]
        simp only [List.length_cons] at hlen
        simp only [rank]
        omega
    | zero =>
      refine ⟨_, closer_of .step (s.shared.setConn k { c with writerWg := c.writerWg - 1 })
        (.writerLeft k) hi rfl rfl ?_ rfl rfl ?_⟩
      · simp [serverStep, Pc.conn, hc, readerStep, writerStep, hr]
      · rw [queue_setConn hc, hq]
        simp [rank]
    | empty =>
      obtain ⟨hb, hcl⟩ := recv_empty hr
      rcases h with h | h
      · exact absurd hb h
      · rw [hcl] at h
        cases h
  case writing resp =>
    refine ⟨_, closer_of .writeOk s.shared (.receiving k) hi rfl rfl ?_ rfl rfl ?_⟩
    · simp [serverStep, Pc.conn, hc, readerStep, writerStep]
    · simp [rank]

/-- A handler whose function has returned can answer, or the writer can make
room, or the connection is cancelled. -/
theorem handlerSend_closer {f : Frame Value} {resp : Response Value} (ha : Alive s)
    (hc : s.shared.conns[k]? = some c) (hi : s.threads[i]? = some (.handlerSend k f resp)) :
    ∃ t, Closer o s k t := by
  have hlife := ha.conns k c hc
  have hq := queue_eq hc
  have hopen := ha.writeCh_open hi rfl hc (by simp [alive, looping])
  have hloop := hlife.looping_eq_one (counted (le_sum hi rfl)) (by simp [alive, looping])
  by_cases hdone : s.shared.connDone c = true
  · refine ⟨_, closer_of .ctxDone s.shared (.handlerRelease k f) hi rfl rfl ?_ rfl rfl ?_⟩
    · simp [serverStep, Pc.conn, hc, readerStep, writerStep, handlerStep, hdone]
    · simp [rank]
  · cases hs : c.writeCh.send (f.index, resp) with
    | ok ch =>
      refine ⟨_, closer_of (.send 0)
        (s.shared.setConn k { c with writeCh := ch, enqueued := f.index :: c.enqueued })
        (.handlerRelease k f) hi rfl rfl ?_ rfl rfl ?_⟩
      · simp [serverStep, Pc.conn, hc, readerStep, writerStep, handlerStep, enqueue, hs]
      · rw [queue_setConn hc, hq]
        simp only [(send_ok hs).1, List.length_append, List.length_cons, List.length_nil, rank]
        omega
    | full =>
      -- the writer is there, since nobody cancelled the connection
      have hwriter : total (localTo k writer) s.threads ≠ 0 := by
        intro h0
        have hcan := hlife.cancels hloop h0
        simp [Server.connDone, hcan] at hdone
      obtain ⟨j, q, hj, hqk, hw⟩ := exists_thread hwriter
      refine writer_closer hc hj hqk hw (Or.inl ?_)
      intro hb
      have hroom := hlife.room
      simp [Chan.send, hopen, hb, hroom] at hs
    | panic =>
      rw [send_panic.mp hs] at hopen
      cases hopen

/-- A token is there for every release. -/
theorem token_for_release {f : Frame Value} (hm : Matched o s)
    (hi : s.threads[i]? = some (.handlerRelease k f)) :
    ∃ sem sem', s.shared.reqSemaphore = some sem ∧ sem.recv = .ok () sem' := by
  obtain ⟨sem, hsem⟩ : ∃ sem, s.shared.reqSemaphore = some sem := by
    cases h : s.shared.reqSemaphore with
    | none =>
      have := hm.limit
      simp [h] at this
    | some sem => exact ⟨sem, rfl⟩
  have hpos : (1 : Int) ≤ sem.buf.length := by
    have hcount := hm.count
    have hle := le_total_of_mem (w := holding) holding_nonneg (List.mem_of_getElem? hi)
    simp only [tokens, hsem, holding] at hcount hle
    omega
  obtain ⟨sem', hr⟩ := recv_of_length hpos
  exact ⟨sem, sem', hsem, hr⟩

theorem handlerRelease_step {f : Frame Value} {sem sem' : Chan Unit}
    (hc : s.shared.conns[k]? = some c) (hsem : s.shared.reqSemaphore = some sem)
    (hr : sem.recv = .ok () sem') :
    serverStep o s.shared (.handlerRelease k f) .step =
      some ({ s.shared with reqSemaphore := some sem' }, .handlerDone k f, []) := by
  simp [serverStep, Pc.conn, hc, readerStep, writerStep, handlerStep, hsem, hr]

theorem handlerRelease_fires {f : Frame Value} (hm : Matched o s)
    (hc : s.shared.conns[k]? = some c) (hi : s.threads[i]? = some (.handlerRelease k f)) :
    ((server o).fire s i .step).isSome := by
  obtain ⟨sem, sem', hsem, hr⟩ := token_for_release hm hi
  rw [fire_serverStep _ _ hi (handlerRelease_step hc hsem hr)]
  rfl

theorem handlerRelease_closer {f : Frame Value} (hm : Matched o s)
    (hc : s.shared.conns[k]? = some c) (hi : s.threads[i]? = some (.handlerRelease k f)) :
    ∃ t, Closer o s k t := by
  obtain ⟨sem, sem', hsem, hr⟩ := token_for_release hm hi
  refine ⟨_, closer_of .step { s.shared with reqSemaphore := some sem' } (.handlerDone k f)
    hi rfl rfl (handlerRelease_step hc hsem hr) rfl rfl ?_⟩
  simp [rank, queue]

theorem handlerDone_closer {f : Frame Value} (hc : s.shared.conns[k]? = some c)
    (hi : s.threads[i]? = some (.handlerDone k f)) : ∃ t, Closer o s k t := by
  refine ⟨_, closer_of .step (s.shared.setConn k { c with handlersWg := c.handlersWg - 1 })
    (.handlerLeft k f) hi rfl rfl ?_ rfl rfl ?_⟩
  · simp [serverStep, Pc.conn, hc, readerStep, writerStep, handlerStep]
  · rw [queue_setConn hc, queue_eq hc]
    simp [rank]

theorem handler_closer (hm : Matched o s) (hc : s.shared.conns[k]? = some c)
    (hi : s.threads[i]? = some pc) (hk : pc.conn = some k) (hset : settled pc = true)
    (hal : alive pc ≠ 0) : ∃ t, Closer o s k t := by
  cases pc <;> first | exact absurd rfl hal | cases hk
  case handlerStart => cases hset
  case handlerRunning => cases hset
  case handlerSend => exact handlerSend_closer hm.alive hc hi
  case handlerRelease => exact handlerRelease_closer hm hc hi
  case handlerDone => exact handlerDone_closer hc hi

/-- A reader step that leaves `writeCh` as it is. -/
theorem reader_closer (e : Ev Value) (g' : Server Value) (pc' : Pc Value)
    (hi : s.threads[i]? = some pc) (hk : pc.conn = some k) (hset : settled pc = true)
    (hs : serverStep o s.shared pc e = some (g', pc', [])) (hk' : pc'.conn = some k)
    (hset' : settled pc' = true) (hg : g'.conns = s.shared.conns) (hlt : rank pc' < rank pc) :
    ∃ t, Closer o s k t := by
  refine ⟨_, closer_of e g' pc' hi hk hset hs hk' hset' ?_⟩
  simp only [queue, hg]
  omega

theorem waitWriter_closer (ha : Alive s) (hc : s.shared.conns[k]? = some c)
    (hi : s.threads[i]? = some (.waitWriter k)) : ∃ t, Closer o s k t := by
  have hlife := ha.conns k c hc
  have hclosed := hlife.drains (le_sum hi rfl draining draining_nonneg)
  by_cases hw : c.writerWg = 0
  · refine reader_closer .step s.shared (.closeConn k) hi rfl rfl ?_ rfl rfl rfl (by simp [rank])
    simp [serverStep, Pc.conn, hc, readerStep, hw]
  · rw [hlife.writers] at hw
    obtain ⟨j, q, hj, hqk, hwq⟩ := exists_thread hw
    exact writer_closer hc hj hqk hwq (Or.inr hclosed)

theorem releaseConn_closer (hn : Enrolled s) (hc : s.shared.conns[k]? = some c)
    (hi : s.threads[i]? = some (.releaseConn k)) : ∃ t, Closer o s k t := by
  cases hsem : s.shared.connSemaphore with
  | none =>
    refine reader_closer .step s.shared (.doneConn k) hi rfl rfl ?_ rfl rfl rfl (by simp [rank])
    simp [serverStep, Pc.conn, hc, readerStep, hsem]
  | some sem =>
    have hslot := hn.slot sem hsem
    have hle := le_total_of_mem (w := admitted) admitted_nonneg (List.mem_of_getElem? hi)
    simp only [admitted] at hle
    have hpos : (1 : Int) ≤ sem.buf.length := by omega
    obtain ⟨sem', hr⟩ := recv_of_length hpos
    refine reader_closer .step { s.shared with connSemaphore := some sem' } (.doneConn k)
      hi rfl rfl ?_ rfl rfl rfl (by simp [rank])
    simp [serverStep, Pc.conn, hc, readerStep, hsem, hr]

end Closer

/-- The reader before the end of `handleConnection`. -/
def active : Pc Value → Int
  | .setup _ | .top _ | .reading _ | .rejectBody _ _ | .acquire _ _ | .rejectBusy _ _ => 1
  | .spawn _ _ | .waitHandlers _ | .waitWriter _ | .closeConn _ | .releaseConn _ => 1
  | .doneConn _ | .cancelConn _ => 1
  | _ => 0

def departed : Pc Value → Int
  | .left _ => 1
  | _ => 0

theorem active_nonneg (pc : Pc Value) : 0 ≤ active pc := by cases pc <;> simp [active]

theorem panicking_nonneg (pc : Pc Value) : 0 ≤ panicking pc := by cases pc <;> simp [panicking]

theorem reader_split (k : Nat) (pc : Pc Value) :
    localTo k settingUp pc + localTo k looping pc + localTo k draining pc +
      localTo k leaving pc = localTo k active pc + localTo k departed pc := by
  simp only [← localTo_add]
  apply localTo_congr
  cases pc <;> rfl

theorem one_reader {s : Config (Server Value) (Pc Value)} {k : Nat} {c : Conn Value}
    (ha : Alive s) (hc : s.shared.conns[k]? = some c) :
    total (localTo k active) s.threads + total (localTo k departed) s.threads = 1 := by
  have h := (ha.conns k c hc).reader
  rw [← total_add, ← total_add, ← total_add] at h
  rw [← total_add, ← h]
  congr 1
  funext pc
  exact (reader_split k pc).symm

theorem active_closer {o : ServerOptions} {s : Config (Server Value) (Pc Value)} {i k : Nat}
    {c : Conn Value} {pc : Pc Value} (ha : Alive s) (hn : Enrolled s)
    (hc : s.shared.conns[k]? = some c) (hal : total (localTo k alive) s.threads = 0)
    (hi : s.threads[i]? = some pc) (hk : pc.conn = some k) (hset : settled pc = true)
    (hact : active pc ≠ 0) : ∃ t, Closer o s k t := by
  cases pc <;> first | exact absurd rfl hact | cases hk
  case setup =>
    refine reader_closer .setupFailed s.shared (.closeConn k) hi rfl rfl ?_ rfl rfl rfl
      (by simp [rank])
    simp [serverStep, Pc.conn, hc, readerStep]
  case top =>
    by_cases hctx : s.shared.ctxDone.isSome = true
    · refine reader_closer .step s.shared (.waitHandlers k) hi rfl rfl ?_ rfl rfl rfl
        (by simp [rank])
      simp [serverStep, Pc.conn, hc, readerStep, hctx]
    · refine reader_closer .step s.shared (.reading k) hi rfl rfl ?_ rfl rfl rfl (by simp [rank])
      simp [serverStep, Pc.conn, hc, readerStep, hctx]
  case reading =>
    refine reader_closer .readFailed s.shared (.waitHandlers k) hi rfl rfl ?_ rfl rfl rfl
      (by simp [rank])
    simp [serverStep, Pc.conn, hc, readerStep]
  case rejectBody => cases hset
  case acquire => cases hset
  case rejectBusy => cases hset
  case spawn => cases hset
  case waitHandlers =>
    have hwg : c.handlersWg = 0 := (ha.conns k c hc).handlers.trans hal
    refine ⟨_, closer_of .step (s.shared.setConn k { c with writeCh := c.writeCh.close })
      (.waitWriter k) hi rfl rfl ?_ rfl rfl ?_⟩
    · simp [serverStep, Pc.conn, hc, readerStep, hwg]
    · rw [queue_setConn hc, queue_eq hc]
      simp [rank, Chan.close]
  case waitWriter => exact waitWriter_closer ha hc hi
  case closeConn =>
    refine reader_closer .step
      { s.shared with activeConnections := s.shared.activeConnections - 1 } (.releaseConn k)
      hi rfl rfl ?_ rfl rfl rfl (by simp [rank])
    simp [serverStep, Pc.conn, hc, readerStep]
  case releaseConn => exact releaseConn_closer hn hc hi
  case doneConn =>
    refine reader_closer .step { s.shared with wg := s.shared.wg - 1 } (.cancelConn k)
      hi rfl rfl ?_ rfl rfl rfl (by simp [rank])
    simp [serverStep, Pc.conn, hc, readerStep]
  case cancelConn =>
    refine ⟨_, closer_of .step (s.shared.setConn k { c with cancelled := true }) (.left k)
      hi rfl rfl ?_ rfl rfl ?_⟩
    · simp [serverStep, Pc.conn, hc, readerStep]
    · rw [queue_setConn hc, queue_eq hc]
      simp [rank]

theorem leaving_of_departed {pc : Pc Value} (h : departed pc ≠ 0) : leaving pc = 1 := by
  cases pc <;> first | rfl | exact absurd rfl h

theorem finished_of_idle {pc : Pc Value} {k : Nat} (hk : pc.conn = some k) (hal : alive pc ≤ 0)
    (hact : active pc ≤ 0) (hw : writer pc ≤ 0) (hp : panicking pc ≤ 0) : finished pc = true := by
  have hpos : ¬ (1 : Int) ≤ 0 := by decide
  cases pc <;> first
    | rfl
    | exact absurd hal hpos
    | exact absurd hact hpos
    | exact absurd hw hpos
    | exact absurd hp hpos
    | cases hk

/-- When the reader has left and no handler is there, the writer has left too. -/
theorem finished_of_departed {s : Config (Server Value) (Pc Value)} {k : Nat} {c : Conn Value}
    (ha : Alive s) (hc : s.shared.conns[k]? = some c)
    (hal : total (localTo k alive) s.threads = 0)
    (hact : total (localTo k active) s.threads = 0) : Finished s k := by
  have hlife := ha.conns k c hc
  have hwriter : total (localTo k writer) s.threads = 0 := by
    have hone := one_reader ha hc
    obtain ⟨j, q, hj, hqk, hq⟩ := exists_thread (w := departed) (k := k) (s := s) (by omega)
    have hleave := le_sum hj hqk leaving leaving_nonneg
    have hread := hlife.reader
    obtain ⟨h1, h2, h3, -⟩ := hlife.nonneg
    have := leaving_of_departed hq
    exact hlife.quiet (Or.inr (by omega))
  intro pc hpc hk
  obtain ⟨i, hi⟩ := List.mem_iff_getElem?.mp hpc
  have h1 := le_sum hi hk alive alive_nonneg
  have h2 := le_sum hi hk active active_nonneg
  have h3 := le_sum hi hk writer writer_nonneg
  have h4 := le_sum hi hk panicking panicking_nonneg
  have h5 := hlife.safe
  rw [hal] at h1
  rw [hact] at h2
  rw [hwriter] at h3
  rw [h5] at h4
  exact finished_of_idle hk h1 h2 h3 h4

/-- A connection whose handler functions have returned is finished or can take a
step towards its end. -/
theorem drain_step {o : ServerOptions} {s : Config (Server Value) (Pc Value)} {k : Nat}
    {c : Conn Value} (hm : Matched o s) (hn : Enrolled s) (hc : s.shared.conns[k]? = some c)
    (hset : Settled s k) : Finished s k ∨ ∃ t, Closer o s k t := by
  by_cases hal : total (localTo k alive) s.threads = 0
  · by_cases hact : total (localTo k active) s.threads = 0
    · exact Or.inl (finished_of_departed hm.alive hc hal hact)
    · obtain ⟨i, pc, hi, hk, hpc⟩ := exists_thread hact
      exact Or.inr (active_closer hm.alive hn hc hal hi hk
        (hset pc (List.mem_of_getElem? hi) hk) hpc)
  · obtain ⟨i, pc, hi, hk, hpc⟩ := exists_thread hal
    exact Or.inr (handler_closer hm hc hi hk (hset pc (List.mem_of_getElem? hi) hk) hpc)

/-! ## To the end -/

/-- A property of the goroutines of connection `j` survives a step of connection
`k` whose next program point has it, if that is the same connection. -/
theorem Closer.keeps {o : ServerOptions} {s t : Config (Server Value) (Pc Value)} {k : Nat}
    (h : Closer o s k t) {P : Pc Value → Bool} {j : Nat}
    (hP : j = k → ∀ pc, settled pc = true → P pc = true)
    (hs : ∀ pc ∈ s.threads, pc.conn = some j → P pc = true) :
    ∀ pc ∈ t.threads, pc.conn = some j → P pc = true := by
  obtain ⟨i, pc, pc', -, -, hk', hset', hthreads⟩ := h.threads
  intro q hq hqj
  rw [hthreads] at hq
  rcases List.mem_or_eq_of_mem_set hq with hq | rfl
  · exact hs q hq hqj
  · rw [hk'] at hqj
    cases hqj
    exact hP rfl q hset'

/-- What is known of every state reached without overflow. -/
structure Sound (o : ServerOptions) (s : Config (Server Value) (Pc Value)) : Prop where
  tokens : Matched o s
  slots : Enrolled s

theorem run_sound {o : ServerOptions} {s t : Config (Server Value) (Pc Value)}
    {tr : List (Nat × Ev Value)} (hr : Run (server o) NoOverflow s tr t) (hs : Sound o s) :
    Sound o t :=
  hr.invariant hs (fun _ _ _ _ h hok hf =>
    ⟨fire_matched h.tokens hok hf, fire_enrolled h.tokens.alive h.slots hf⟩)

/-- A connection whose handler functions have returned can finish, by steps of
its own. -/
theorem drain_conn {o : ServerOptions} {s : Config (Server Value) (Pc Value)} {k : Nat}
    (hs : Sound o s) (hset : Settled s k) :
    ∃ tr t, Run (server o) NoOverflow s tr t ∧ Finished t k ∧
      ∀ j, j ≠ k → (Settled s j → Settled t j) ∧ (Finished s j → Finished t j) := by
  -- induction on the distance to the end
  induction hd : (distance s k).toNat using Nat.strong_induction_on generalizing s with
  | _ d ih =>
    cases hc : s.shared.conns[k]? with
    | none =>
      refine ⟨[], s, .refl, ?_, fun _ _ => ⟨id, id⟩⟩
      intro pc hpc hk
      have hlt := hs.tokens.alive.placed pc hpc k hk
      rw [List.getElem?_eq_none_iff] at hc
      omega
    | some c =>
      rcases drain_step hs.tokens hs.slots hc hset with hfin | ⟨u, hu⟩
      · exact ⟨[], s, .refl, hfin, fun _ _ => ⟨id, id⟩⟩
      · obtain ⟨i, e, hok, hf⟩ := hu.run
        have hstep : Run (server o) NoOverflow s [(i, e)] u := .step .refl hok hf
        have hless := hu.less
        have hnn := distance_nonneg u k
        obtain ⟨tr, t, hrun, hfin, hother⟩ := ih (distance u k).toNat (by omega)
          (run_sound hstep hs) (hu.keeps (fun _ _ h => h) hset) rfl
        refine ⟨[(i, e)] ++ tr, t, hstep.trans hrun, hfin, ?_⟩
        intro j hj
        obtain ⟨h1, h2⟩ := hother j hj
        exact ⟨fun h => h1 (hu.keeps (fun hjk => absurd hjk hj) h),
          fun h => h2 (hu.keeps (fun hjk => absurd hjk hj) h)⟩

theorem Finished.settled {s : Config (Server Value) (Pc Value)} {k : Nat} (h : Finished s k) :
    Settled s k := by
  intro pc hpc hk
  have := h pc hpc hk
  cases pc <;> simp_all [finished, Drain.settled]

/-- Connection after connection. -/
theorem drain_all {o : ServerOptions} {s : Config (Server Value) (Pc Value)} (hs : Sound o s)
    (hset : ∀ k, Settled s k) (m : Nat) :
    ∃ tr t, Run (server o) NoOverflow s tr t ∧ (∀ k, Settled t k) ∧
      ∀ k, k < m ∨ Finished s k → Finished t k := by
  induction m with
  | zero => exact ⟨[], s, .refl, hset, fun k h => h.resolve_left (Nat.not_lt_zero k)⟩
  | succ m ih =>
    obtain ⟨tr, t, hrun, hall, hfin⟩ := ih
    obtain ⟨tr', u, hrun', hlast, hother⟩ := drain_conn (run_sound hrun hs) (hall m)
    refine ⟨tr ++ tr', u, hrun.trans hrun', ?_, ?_⟩
    · intro k
      by_cases hk : k = m
      · subst hk
        exact hlast.settled
      · exact (hother k hk).1 (hall k)
    · intro k hk
      by_cases hkm : k = m
      · subst hkm
        exact hlast
      · refine (hother k hkm).2 (hfin k ?_)
        rcases hk with hk | hk
        · exact Or.inl (by omega)
        · exact Or.inr hk

/-- With all connections finished, `wg.Wait()` returns. -/
theorem wg_of_finished {s : Config (Server Value) (Pc Value)} (hn : Enrolled s)
    (h : ∀ k, Finished s k) : s.shared.wg = 0 := by
  rw [hn.wg]
  apply total_eq_zero
  intro pc hpc
  cases hk : pc.conn with
  | none => cases pc <;> first | rfl | cases hk
  | some k =>
    have := h k pc hpc hk
    cases pc <;> first | rfl | cases this

/-- As long as no request is rejected for want of a token: the handlers that
have returned and not released are covered by the tokens, so every release can
go on at once; a connection whose handler functions have all returned can
finish; and when that is so of all connections, `Close` can return. -/
theorem releases_have_tokens {o : ServerOptions} (ho : 0 < o.maxConcurrentRequests) {n : Nat}
    {tr : List (Nat × Ev Value)} {s : Config (Server Value) (Pc Value)}
    (hr : Run (server o) NoOverflow (start o n) tr s) :
    total unreleased s.threads ≤ tokens s.shared ∧
    (∀ i k f, s.threads[i]? = some (.handlerRelease k f) →
      ((server o).fire s i .step).isSome) ∧
    (∀ k, Settled s k → ∃ tr' t, Run (server o) NoOverflow s tr' t ∧ Finished t k) ∧
    ((∀ k, Settled s k) → ∃ tr' t, Run (server o) NoOverflow s tr' t ∧ (∀ k, Finished t k) ∧
      ∀ i, t.threads[i]? = some .closeWait → ((server o).fire t i .step).isSome) := by
  have hs : Sound o s := ⟨run_matched ho hr, run_enrolled hr⟩
  refine ⟨?_, ?_, ?_, ?_⟩
  · rw [hs.tokens.count]
    exact total_le unreleased_le_holding _
  · intro i k f hi
    obtain ⟨c, hc⟩ : ∃ c, s.shared.conns[k]? = some c := by
      have := hs.tokens.alive.placed _ (List.mem_of_getElem? hi) k rfl
      exact ⟨_, List.getElem?_eq_getElem this⟩
    exact handlerRelease_fires hs.tokens hc hi
  · intro k hset
    obtain ⟨tr', t, hrun, hfin, -⟩ := drain_conn hs hset
    exact ⟨tr', t, hrun, hfin⟩
  · intro hset
    obtain ⟨tr', t, hrun, -, hfin⟩ := drain_all hs hset s.shared.conns.length
    have hall : ∀ k, Finished t k := by
      intro k
      apply hfin
      by_cases hk : k < s.shared.conns.length
      · exact Or.inl hk
      · right
        intro pc hpc hpk
        exact absurd (hs.tokens.alive.placed pc hpc k hpk) hk
    refine ⟨tr', t, hrun, hall, ?_⟩
    intro i hi
    have hwg := wg_of_finished (run_sound hrun hs).slots hall
    have hstep : serverStep o t.shared .closeWait .step =
        some (t.shared, .closeReturned none, []) := by
      simp [serverStep, Pc.conn, serveStep, closeStep, hwg]
    rw [fire_serverStep _ _ hi hstep]
    rfl

/-- The handler of the only request has returned and waits to answer. -/
def oneReturned : List (Nat × Ev Unit) :=
  connect ++ [(3, .frame (aHeader 7 3) aRequest), (3, .step), (3, .step), (5, .step),
    (5, .returned (anAnswer 7))]

theorem oneReturned_runs :
    (exec (server limited) NoOverflow (start limited 0) oneReturned).isSome := by decide

theorem releases_have_tokens_oneReturned :
    let s := (exec (server limited) NoOverflow (start limited 0) oneReturned).get oneReturned_runs
    total unreleased s.threads = 1 ∧
    total unreleased s.threads ≤ tokens s.shared ∧
    (∀ i k f, s.threads[i]? = some (.handlerRelease k f) →
      ((server limited).fire s i .step).isSome) ∧
    (∀ k, Settled s k → ∃ tr' t, Run (server limited) NoOverflow s tr' t ∧ Finished t k) ∧
    ((∀ k, Settled s k) → ∃ tr' t, Run (server limited) NoOverflow s tr' t ∧
      (∀ k, Finished t k) ∧
      ∀ i, t.threads[i]? = some .closeWait → ((server limited).fire t i .step).isSome) :=
  ⟨by decide, releases_have_tokens (by decide) (run_exec oneReturned_runs)⟩

/-- The request rejected for want of a token was handled too; both handlers have
returned and there is one token for two releases. -/
def bothReturned : List (Nat × Ev Unit) :=
  twoAtOnce ++ [(5, .returned (anAnswer 7)), (6, .returned (anAnswer 8))]

theorem bothReturned_runs :
    (exec (server limited) Any (start limited 0) bothReturned).isSome := by decide

theorem overload_lacks_tokens :
    ¬ ∀ (o : ServerOptions) (n : Nat) (tr : List (Nat × Ev Unit))
      (s : Config (Server Unit) (Pc Unit)), 0 < o.maxConcurrentRequests →
      Run (server o) Any (start o n) tr s → total unreleased s.threads ≤ tokens s.shared := by
  intro h
  have hbad := h limited 0 bothReturned _ (by decide) (run_exec bothReturned_runs)
  exact absurd hbad (by decide)

end RpcInGo.Tcp.Drain
