import RpcInGo.Client.CallTyped
import RpcInGo.Tcp.Drain
import RpcInGo.Tcp.Framing

/-!
Responses that cannot be encoded. `WriteResponse` encodes in the writer of the
connection, whose error branch closes the connection and cancels its context.

* `connStep_handled`: what one step does to the responses of its connection;
* `conn_unaffected`: in every run in which all responses of a connection can be
  encoded, whatever the other connections answer, the connection stays usable
  and every response it owes can be written; a response that cannot be encoded
  ends this for all requests of its connection;
* `unencodable_loses_other`: two requests in flight, and the response of one is
  lost because the other's cannot be encoded.
-/

namespace RpcInGo.Tcp.WriteFailure
open Lib.Channel Lib.Goroutine Protocol.Message Protocol.Header ServerModel ConnLife Drain Framing
open Codec.Registry Codec.Payloads Codec.Bodies Client.CallTyped

variable {Value : Type}

/-- `EncodeResponse` returns no error. -/
def encodes (codec : ProtocolCodec Value) (resp : Response Value) : Bool :=
  (encodeResponse codec resp).isOk

/-! ## Runs -/

/-- The server is not shut down and the network does not fail: a write fails
exactly when the response cannot be encoded. -/
def calm (codec : ProtocolCodec Value) : Pc Value → Ev Value → Bool
  | .context, .cancel _ => false
  | .writing _ resp, .writeOk => encodes codec resp
  | .writing _ resp, .writeFailed => !encodes codec resp
  | _, _ => true

def Calm (codec : ProtocolCodec Value) (s : Config (Server Value) (Pc Value)) (i : Nat)
    (e : Ev Value) : Prop :=
  (s.threads[i]?.all fun pc => calm codec pc e) = true

instance (codec : ProtocolCodec Value) (s : Config (Server Value) (Pc Value)) (i : Nat)
    (e : Ev Value) : Decidable (Calm codec s i e) :=
  inferInstanceAs (Decidable (_ = true))

/-- The response that a step makes for a request. -/
def answer : Pc Value → Ev Value → Option (Response Value)
  | .rejectBody _ f, .send now => some (newErrorResponse f.header.requestID
      (newError errorRequestEntityTooLarge "request body too large") now)
  | .rejectBusy _ f, .send now => some (newErrorResponse f.header.requestID
      (newError errorCodeUnavailable "too many concurrent requests") now)
  | .handlerRunning _ _, .returned resp => some resp
  | .handlerRunning _ f, .failed errText now => some
      (newErrorResponse f.header.requestID (newError errorCodeInternal errText) now)
  | _, _ => none

def encoded (codec : ProtocolCodec Value) (k : Nat) (pc : Pc Value) (e : Ev Value) : Bool :=
  pc.conn ≠ some k || (answer pc e).all (encodes codec)

/-- The responses that connection `k` makes can be encoded. -/
def Encoded (codec : ProtocolCodec Value) (k : Nat) (s : Config (Server Value) (Pc Value))
    (i : Nat) (e : Ev Value) : Prop :=
  Calm codec s i e ∧ (s.threads[i]?.all fun pc => encoded codec k pc e) = true

instance (codec : ProtocolCodec Value) (k : Nat) (s : Config (Server Value) (Pc Value)) (i : Nat)
    (e : Ev Value) : Decidable (Encoded codec k s i e) :=
  inferInstanceAs (Decidable (_ ∧ _))

/-- The response `resp` to frame `n` that connection `k` owes: it is in `writeCh`
or with its handler, or the handler function may still return it. -/
inductive Owed (s : Config (Server Value) (Pc Value)) (k n : Nat) (resp : Response Value) : Prop
  | queued {c : Conn Value} : s.shared.conns[k]? = some c → (n, resp) ∈ c.writeCh.buf →
      Owed s k n resp
  | returned {i : Nat} {f : Frame Value} : s.threads[i]? = some (.handlerSend k f resp) →
      f.index = n → Owed s k n resp
  | running {i : Nat} {f : Frame Value} : s.threads[i]? = some (.handlerRunning k f) →
      f.index = n → Owed s k n resp
  | started {i : Nat} {f : Frame Value} : s.threads[i]? = some (.handlerStart k f) →
      f.index = n → Owed s k n resp

/-- From here the writer can come to take the response to frame `n` from
`writeCh` and to write it. -/
def Writable (o : ServerOptions) (codec : ProtocolCodec Value)
    (s : Config (Server Value) (Pc Value)) (k n : Nat) (resp : Response Value) : Prop :=
  ∃ tr t j c ch u, Run (server o) (Calm codec) s tr t ∧ t.threads[j]? = some (.receiving k) ∧
    t.shared.conns[k]? = some c ∧ c.writeCh.recv = .ok (n, resp) ch ∧
    Run (server o) (Calm codec) t [(j, .step), (j, .writeOk)] u

/-- As long as its reader loops, connection `k` is not cancelled, so that no
handler gives up its response, and its writer is at work. -/
structure Unaffected (o : ServerOptions) (codec : ProtocolCodec Value) (k : Nat)
    (s : Config (Server Value) (Pc Value)) : Prop where
  usable : ∀ c, s.shared.conns[k]? = some c →
    (∃ pc ∈ s.threads, pc.conn = some k ∧ looping pc = 1) →
    s.shared.connDone c = false ∧ ∃ pc ∈ s.threads, pc.conn = some k ∧ writer pc = 1
  answered : ∀ n resp, Owed s k n resp → encodes codec resp = true → Writable o codec s k n resp

/-! ## One step -/

/-- Holds a response that cannot be encoded. -/
def unencodable (codec : ProtocolCodec Value) : Pc Value → Int
  | .writing _ resp | .handlerSend _ _ resp => if encodes codec resp then 0 else 1
  | _ => 0

theorem unencodable_nonneg (codec : ProtocolCodec Value) (pc : Pc Value) :
    0 ≤ unencodable codec pc := by
  unfold unencodable
  split <;> first | decide | (split <;> decide)

theorem writer_eq_one {pc : Pc Value} (h : writer pc ≠ 0) : writer pc = 1 := by
  unfold writer at *
  split at h
  · rfl
  · rfl
  · exact absurd rfl h

/-- The responses stay such that they can be encoded, only the reader's leaving
cancels, and nothing is queued without a writer. -/
structure Handled (codec : ProtocolCodec Value) (c : Conn Value) (pc : Pc Value) (c' : Conn Value)
    (pc' : Pc Value) (new : List (Pc Value)) : Prop where
  queued : ∀ a ∈ c'.writeCh.buf, encodes codec a.2 = true
  held : unencodable codec pc' + total (unencodable codec) new = 0
  cancels : c'.cancelled = true → c.cancelled = true ∨ 1 ≤ leaving pc'
  leaves : leaving pc ≤ leaving pc' + total leaving new
  writes : c'.writeCh.buf = [] ∨ 1 ≤ writer pc' + total writer new ∨
    writer pc = 0 ∧ (c.writeCh.buf ≠ [] ∨ 1 ≤ alive pc + looping pc)

section Steps
variable {codec : ProtocolCodec Value} {o : ServerOptions} {g g' : Server Value} {c c' : Conn Value}
  {k : Nat} {pc pc' : Pc Value} {e : Ev Value} {new : List (Pc Value)}

/-- A step that leaves the queue as it is. -/
theorem Handled.keep (hqueue : ∀ a ∈ c.writeCh.buf, encodes codec a.2 = true)
    (hbuf : c'.writeCh.buf = c.writeCh.buf) (hcan : c'.cancelled = c.cancelled)
    (hheld : unencodable codec pc' + total (unencodable codec) new = 0)
    (hleaves : leaving pc ≤ leaving pc' + total leaving new)
    (hwriter : writer pc ≤ writer pc' + total writer new) : Handled codec c pc c' pc' new := by
  refine ⟨by rwa [hbuf], hheld, fun h => .inl (hcan ▸ h), hleaves, ?_⟩
  rw [hbuf]
  by_cases hempty : c.writeCh.buf = []
  · exact .inl hempty
  · have hnonneg := writer_nonneg pc
    by_cases hw : 1 ≤ writer pc' + total writer new
    · exact .inr (.inl hw)
    · exact .inr (.inr ⟨by omega, .inl hempty⟩)

theorem keep_handled (hc : g.conns[k]? = some c) (hg : g'.conns = g.conns)
    (hqueue : ∀ a ∈ c.writeCh.buf, encodes codec a.2 = true)
    (hheld : unencodable codec pc' = 0) (hleaves : leaving pc ≤ leaving pc')
    (hwriter : writer pc ≤ writer pc') :
    ∃ c', g'.conns = g.conns.set k c' ∧ Handled codec c pc c' pc' [] :=
  ⟨c, hg.trans (set_same hc).symm,
    .keep hqueue rfl rfl (by simpa using hheld) (by simpa using hleaves) (by simpa using hwriter)⟩

theorem enqueue_handled {f : Frame Value} {resp : Response Value} {next : Pc Value}
    {d : Conn Value} (h : enqueue g k d f resp next = some (g', pc', new))
    (hc : g.conns[k]? = some c) (hd : d.writeCh = c.writeCh ∧ d.cancelled = c.cancelled)
    (hqueue : ∀ a ∈ c.writeCh.buf, encodes codec a.2 = true) (henc : encodes codec resp = true)
    (hpc : leaving pc = 0 ∧ writer pc = 0 ∧ 1 ≤ alive pc + looping pc)
    (hnext : unencodable codec next = 0 ∧ leaving next = 0) :
    ∃ c', g'.conns = g.conns.set k c' ∧ Handled codec c pc c' pc' new := by
  obtain ⟨hch, hcan⟩ := hd
  obtain ⟨hleaving, hwriter, hworking⟩ := hpc
  obtain ⟨ch, hs, rfl, rfl, rfl⟩ | ⟨-, rfl, rfl, rfl⟩ := enqueue_cases h
  · refine ⟨_, rfl, ⟨?_, by simp [hnext], fun h => .inl (hcan ▸ h), by simp [hnext, hleaving],
      .inr (.inr ⟨hwriter, .inr hworking⟩)⟩⟩
    intro a ha
    simp only [(send_ok hs).1, hch, List.mem_append, List.mem_singleton] at ha
    rcases ha with ha | rfl
    · exact hqueue a ha
    · exact henc
  · refine keep_handled hc rfl hqueue rfl ?_ ?_
    · exact hleaving.le
    · exact hwriter.le

/-- The deferred `connCancel` of the reader. -/
theorem connCancel_handled {j : Nat} (hqueue : ∀ a ∈ c.writeCh.buf, encodes codec a.2 = true) :
    Handled codec c (.cancelConn j) { c with cancelled := true } (.left k) [] := by
  refine ⟨hqueue, rfl, fun _ => .inr (by simp [leaving]), by simp [leaving], ?_⟩
  by_cases hempty : c.writeCh.buf = []
  · exact .inl hempty
  · exact .inr (.inr ⟨rfl, .inl hempty⟩)

theorem readerStep_handled (h : readerStep o g c k pc e = some (g', pc', new))
    (hc : g.conns[k]? = some c) (hqueue : ∀ a ∈ c.writeCh.buf, encodes codec a.2 = true)
    (hans : (answer pc e).all (encodes codec) = true) :
    ∃ c', g'.conns = g.conns.set k c' ∧ Handled codec c pc c' pc' new := by
  revert h
  fun_cases readerStep o g c k pc e <;> intro h <;> try contradiction
  all_goals first
    | exact enqueue_handled h hc ⟨rfl, rfl⟩ hqueue (by simpa [answer] using hans)
        ⟨rfl, rfl, by simp [alive, looping]⟩ ⟨rfl, rfl⟩
    | cases h
  all_goals first
    | exact keep_handled hc rfl hqueue rfl (by simp [leaving]) (by simp [writer])
    | exact ⟨_, rfl, .keep hqueue rfl rfl rfl (by simp [leaving]) (by simp [writer])⟩
    | exact ⟨_, rfl, connCancel_handled hqueue⟩

theorem writerStep_handled (h : writerStep g c k pc e = some (g', pc', new))
    (hc : g.conns[k]? = some c) (hqueue : ∀ a ∈ c.writeCh.buf, encodes codec a.2 = true)
    (hheld : unencodable codec pc = 0) (hcalm : calm codec pc e = true) :
    ∃ c', g'.conns = g.conns.set k c' ∧ Handled codec c pc c' pc' new := by
  revert h
  fun_cases writerStep g c k pc e <;> intro h <;> try contradiction
  all_goals cases h
  · rename_i n resp ch hr
    have hbuf := (recv_ok hr).1
    have henc : encodes codec resp = true := hqueue (n, resp) (by rw [hbuf]; simp)
    refine ⟨_, rfl, ⟨?_, by simp [unencodable, henc], .inl, by simp [leaving],
      .inr (.inl (by simp [writer]))⟩⟩
    intro a ha
    exact hqueue a (by rw [hbuf]; exact List.mem_cons_of_mem _ ha)
  · rename_i hr
    have hbuf := (recv_zero hr).1
    exact ⟨_, rfl, ⟨hqueue, rfl, .inl, by simp [leaving], .inl hbuf⟩⟩
  · exact keep_handled hc rfl hqueue rfl (by simp [leaving]) (by simp [writer])
  · -- a write that may fail is one of a response that cannot be encoded
    simp only [calm, Bool.not_eq_true'] at hcalm
    simp [unencodable, hcalm] at hheld

theorem handlerStep_handled (h : handlerStep g c k pc e = some (g', pc', new))
    (hc : g.conns[k]? = some c) (hqueue : ∀ a ∈ c.writeCh.buf, encodes codec a.2 = true)
    (hheld : unencodable codec pc = 0) (hans : (answer pc e).all (encodes codec) = true) :
    ∃ c', g'.conns = g.conns.set k c' ∧ Handled codec c pc c' pc' new := by
  revert h
  fun_cases handlerStep g c k pc e <;> intro h <;> try contradiction
  all_goals first
    | exact enqueue_handled h hc ⟨rfl, rfl⟩ hqueue (by simpa [unencodable] using hheld)
        ⟨rfl, rfl, by simp [alive, looping]⟩ ⟨rfl, rfl⟩
    | cases h
  all_goals first
    | exact keep_handled hc rfl hqueue rfl (by simp [leaving]) (by simp [writer])
    | exact ⟨_, rfl, .keep hqueue rfl rfl rfl (by simp [leaving]) (by simp [writer])⟩
    | exact keep_handled hc rfl hqueue (by simpa [unencodable, answer] using hans)
        (by simp [leaving]) (by simp [writer])

theorem connStep_handled (h : ConnStep o g c k pc e (g', pc', new)) (hc : g.conns[k]? = some c)
    (hconns : g'.conns = g.conns.set k c')
    (hqueue : ∀ a ∈ c.writeCh.buf, encodes codec a.2 = true) (hheld : unencodable codec pc = 0)
    (hcalm : calm codec pc e = true) (hans : (answer pc e).all (encodes codec) = true) :
    Handled codec c pc c' pc' new := by
  obtain ⟨d, hd, hhandled⟩ : ∃ d, g'.conns = g.conns.set k d ∧ Handled codec c pc d pc' new := by
    rcases h with h | h | h
    · exact readerStep_handled h hc hqueue hans
    · exact writerStep_handled h hc hqueue hheld hcalm
    · exact handlerStep_handled h hc hqueue hheld hans
  rw [hd] at hconns
  rwa [← set_conn_inj hc hconns]

theorem freeStep_ctxDone (h : FreeStep g pc e (g', pc', new)) (hcalm : calm codec pc e = true) :
    g'.ctxDone = g.ctxDone := by
  rcases h with h | h
  · revert h
    fun_cases serveStep g pc e <;> intro h <;> try contradiction
    all_goals cases h; rfl
  · revert h
    fun_cases closeStep g pc e <;> intro h <;> try contradiction
    all_goals cases h; rfl

end Steps

/-! ## Every run -/

structure Clean (codec : ProtocolCodec Value) (c : Conn Value) (T : (Pc Value → Int) → Int) :
    Prop where
  queued : ∀ a ∈ c.writeCh.buf, encodes codec a.2 = true
  held : T (unencodable codec) = 0
  cancels : c.cancelled = true → 1 ≤ T leaving
  drained : T writer = 0 → c.writeCh.buf = []

structure Sound (codec : ProtocolCodec Value) (k : Nat) (s : Config (Server Value) (Pc Value)) :
    Prop where
  base : Alive s
  live : s.shared.ctxDone = none
  clean : ∀ c, s.shared.conns[k]? = some c →
    Clean codec c (fun w => total (localTo k w) s.threads)

section Runs
variable {codec : ProtocolCodec Value} {o : ServerOptions} {s t : Config (Server Value) (Pc Value)}
  {c c' : Conn Value} {T : (Pc Value → Int) → Int} {i j k n : Nat} {pc pc' : Pc Value}
  {e : Ev Value} {new : List (Pc Value)} {f : Frame Value} {resp : Response Value}

theorem newConn_clean (codec : ProtocolCodec Value) (k : Nat) :
    Clean codec newConn (fun w => w (.setup k)) := by
  refine ⟨?_, rfl, nofun, fun _ => rfl⟩
  intro a ha
  cases ha

/-- While its reader loops, the connection is not cancelled and has a writer. -/
theorem Clean.writing (hT : Clean codec c T) (hlife : Lifecycle c T) (hloop : T looping = 1) :
    c.cancelled = false ∧ T writer = 1 := by
  have hreader := hlife.reader
  obtain ⟨hsetup, -, hdrain, -, -, hwriter⟩ := hlife.nonneg
  have hcan : c.cancelled = false := by
    cases hc : c.cancelled with
    | false => rfl
    | true =>
      have hleaving := hT.cancels hc
      omega
  refine ⟨hcan, ?_⟩
  by_contra hnone
  have hone := hlife.oneWriter
  have := hlife.cancels hloop (by omega)
  rw [hcan] at this
  cases this

theorem Handled.clean (hs : Handled codec c pc c' pc' new) (hT : Clean codec c T)
    (hlife : Lifecycle c T) (hpc : Counted pc T) (hheld : unencodable codec pc = 0) :
    Clean codec c' (fun w => T w - w pc + (w pc' + total w new)) := by
  refine ⟨hs.queued, ?_, ?_, ?_⟩
  · have := hT.held
    have := hs.held
    omega
  · intro hcan
    have hmono := hs.leaves
    have hle := hpc.leaving
    have hnew : 0 ≤ total leaving new := total_nonneg fun q _ => leaving_nonneg q
    rcases hs.cancels hcan with hold | hleft
    · have := hT.cancels hold
      omega
    · omega
  · intro hnone
    have hle := hpc.writer
    rcases hs.writes with hempty | hwriter | ⟨hother, hwork⟩
    · exact hempty
    · omega
    · have hnew : 0 ≤ total writer new := total_nonneg fun q _ => writer_nonneg q
      have hnext := writer_nonneg pc'
      have hzero : T writer = 0 := by omega
      rcases hwork with hfull | hworking
      · exact absurd (hT.drained hzero) hfull
      · -- the reader loops, so there is a writer
        have := (hT.writing hlife (hlife.looping_eq_one hpc hworking)).2
        omega

theorem calm_of (h : Calm codec s i e) (hi : s.threads[i]? = some pc) : calm codec pc e = true := by
  simpa [Calm, hi] using h

theorem encoded_of (h : Encoded codec k s i e) (hi : s.threads[i]? = some pc)
    (hk : pc.conn = some k) : (answer pc e).all (encodes codec) = true := by
  simpa [hi, encoded, hk] using h.2

theorem Sound.unencodable_eq (hs : Sound codec k s) (hc : s.shared.conns[k]? = some c)
    (hi : s.threads[i]? = some pc) (hk : pc.conn = some k) : unencodable codec pc = 0 := by
  have hle := le_sum hi hk (unencodable codec) (unencodable_nonneg codec)
  have hsum := (hs.clean c hc).held
  have hnonneg := unencodable_nonneg codec pc
  omega

theorem fire_sound (hs : Sound codec k s) (hok : Encoded codec k s i e)
    (h : (server o).fire s i e = some t) : Sound codec k t := by
  refine ⟨fire_alive hs.base h, ?_, ?_⟩
  · obtain ⟨pc, g', pc', new, hi, rfl, ⟨-, hfree⟩ | ⟨j, d, -, -, hstep⟩⟩ := fire_server h
    · exact (freeStep_ctxDone hfree (calm_of hok.1 hi)).trans hs.live
    · exact (connStep_apart hstep).ctxDone.trans hs.live
  · intro c' hc'
    cases fire_conn hs.base.placed h hc' with
    | untouched hc hsum =>
      simp only [hsum]
      exact hs.clean c' hc
    | fresh _ hc hsum =>
      simp only [hsum, hc]
      exact newConn_clean codec k
    | stepped pc pc' new c hi hk hc hstep hconns hsum =>
      simp only [hsum]
      have hheld := hs.unencodable_eq hc hi hk
      have hhandled := connStep_handled hstep hc hconns (hs.clean c hc).queued hheld
        (calm_of hok.1 hi) (encoded_of hok hi hk)
      exact hhandled.clean (hs.clean c hc) (hs.base.conns k c hc) (counted (le_sum hi hk)) hheld

theorem run_sound {m : Nat} {tr : List (Nat × Ev Value)}
    (hr : Run (server o) (Encoded codec k) (start o m) tr s) : Sound codec k s := by
  apply hr.invariant
  · refine ⟨start_alive o m, rfl, ?_⟩
    intro c hc
    rw [start_conns] at hc
    cases hc
  · intro s i e t hs hok hf
    exact fire_sound hs hok hf

/-! ## The way of a response to the wire -/

theorem Writable.of_run {tr : List (Nat × Ev Value)} (hr : Run (server o) (Calm codec) s tr t)
    (h : Writable o codec t k n resp) : Writable o codec s k n resp := by
  obtain ⟨tr', t', j, c, ch, u, hrun, hrest⟩ := h
  exact ⟨tr ++ tr', t', j, c, ch, u, hr.trans hrun, hrest⟩

/-- One response is taken from `writeCh` and written. -/
theorem write_round {ch : Chan (Nat × Response Value)} (hj : s.threads[j]? = some (.receiving k))
    (hc : s.shared.conns[k]? = some c) (hr : c.writeCh.recv = .ok (n, resp) ch)
    (henc : encodes codec resp = true) :
    Run (server o) (Calm codec) s [(j, .step), (j, .writeOk)]
      ⟨s.shared.setConn k { c with writeCh := ch }, s.threads⟩ := by
  obtain ⟨hlt, -⟩ := List.getElem?_eq_some_iff.mp hj
  obtain ⟨hk, -⟩ := List.getElem?_eq_some_iff.mp hc
  have htake : (server o).fire s j .step =
      some ⟨s.shared.setConn k { c with writeCh := ch }, s.threads.set j (.writing k resp)⟩ :=
    fire_serverStep _ _ hj (by simp [serverStep, Pc.conn, hc, readerStep, writerStep, hr])
  refine .step (.step .refl ?_ htake) ?_ ?_
  · simp [Calm, hj, calm]
  · simp [Calm, hlt, calm, henc]
  · have hwriting : (s.threads.set j (.writing k resp))[j]? = some (.writing k resp) := by
      simp [hlt]
    rw [fire_serverStep (s.shared.setConn k { c with writeCh := ch }) (.receiving k) hwriting]
    · simp [List.set_set, set_same hj]
    · simp [serverStep, Pc.conn, Server.setConn, hk, readerStep, writerStep]

/-- The writer works through the queue. -/
theorem writable_buf (hj : s.threads[j]? = some (.receiving k))
    (hc : s.shared.conns[k]? = some c) (hall : ∀ a ∈ c.writeCh.buf, encodes codec a.2 = true)
    (hmem : (n, resp) ∈ c.writeCh.buf) : Writable o codec s k n resp := by
  obtain ⟨hk, -⟩ := List.getElem?_eq_some_iff.mp hc
  induction hbuf : c.writeCh.buf generalizing s c with
  | nil =>
    rw [hbuf] at hmem
    cases hmem
  | cons a rest ih =>
    obtain ⟨ch, hr, hrest, -, -⟩ := recv_of_cons hbuf
    have hround := write_round (o := o) hj hc hr (hall a (by simp [hbuf]))
    rw [hbuf] at hmem
    rcases List.mem_cons.mp hmem with rfl | hmem
    · exact ⟨[], s, j, c, ch, _, .refl, hj, hc, hr, hround⟩
    · apply Writable.of_run hround
      refine ih (c := { c with writeCh := ch }) hj ?_ ?_ ?_ ?_ hrest
      · simp [Server.setConn, hk]
      · intro b hb
        exact hall b (by rw [hbuf]; exact List.mem_cons_of_mem _ (hrest ▸ hb))
      · rwa [hrest]
      · simpa [Server.setConn] using hk

/-- A handler sends into the room there is. -/
theorem writable_send {ch : Chan (Nat × Response Value)} (hj : s.threads[j]? = some (.receiving k))
    (hi : s.threads[i]? = some (.handlerSend k f resp)) (hc : s.shared.conns[k]? = some c)
    (hall : ∀ a ∈ c.writeCh.buf, encodes codec a.2 = true) (henc : encodes codec resp = true)
    (hsend : c.writeCh.send (f.index, resp) = .ok ch) : Writable o codec s k f.index resp := by
  obtain ⟨hk, -⟩ := List.getElem?_eq_some_iff.mp hc
  have hij : i ≠ j := by
    rintro rfl
    rw [hi] at hj
    cases hj
  have hbuf := (send_ok hsend).1
  have hfire := fire_serverStep (o := o) (e := .send 0)
    (s.shared.setConn k { c with writeCh := ch, enqueued := f.index :: c.enqueued })
    (.handlerRelease k f) hi
    (by simp [serverStep, Pc.conn, hc, readerStep, writerStep, handlerStep, enqueue, hsend])
  have hok : Calm codec s i (.send 0) := by simp [Calm, hi, calm]
  apply Writable.of_run (.step .refl hok hfire)
  refine writable_buf (j := j) (c := { c with writeCh := ch, enqueued := f.index :: c.enqueued })
    ?_ ?_ ?_ ?_
  · simpa [List.getElem?_set_ne hij] using hj
  · simp [Server.setConn, hk]
  · intro a ha
    simp only [hbuf, List.mem_append, List.mem_singleton] at ha
    rcases ha with ha | rfl
    · exact hall a ha
    · exact henc
  · simp [hbuf]

/-- If there is none, the writer makes some. -/
theorem writable_handlerSend (hj : s.threads[j]? = some (.receiving k))
    (hi : s.threads[i]? = some (.handlerSend k f resp)) (hc : s.shared.conns[k]? = some c)
    (hall : ∀ a ∈ c.writeCh.buf, encodes codec a.2 = true) (henc : encodes codec resp = true)
    (hopen : c.writeCh.closed = false) (hcap : 0 < c.writeCh.cap) :
    Writable o codec s k f.index resp := by
  obtain ⟨hk, -⟩ := List.getElem?_eq_some_iff.mp hc
  cases hsend : c.writeCh.send (f.index, resp) with
  | ok ch => exact writable_send hj hi hc hall henc hsend
  | panic =>
    rw [send_panic.mp hsend] at hopen
    cases hopen
  | full =>
    have hfull := send_full hsend
    cases hbuf : c.writeCh.buf with
    | nil =>
      rw [hbuf, List.length_nil] at hfull
      omega
    | cons a rest =>
      obtain ⟨ch, hr, hrest, hcap', hclosed⟩ := recv_of_cons hbuf
      rw [hbuf] at hall
      apply Writable.of_run (write_round hj hc hr (hall a (List.mem_cons_self ..)))
      have hbound := c.writeCh.bounded
      have hspace : ch.buf.length < ch.cap := by
        rw [hrest, hcap']
        rw [hbuf, List.length_cons] at hbound
        omega
      have hsend : ch.send (f.index, resp) = .ok (ch.push (f.index, resp) hspace) := by
        simp [Chan.send, hclosed, hopen, hspace]
      refine writable_send (c := { c with writeCh := ch }) hj hi ?_ ?_ henc hsend
      · simp [Server.setConn, hk]
      · intro b hb
        exact hall b (List.mem_cons_of_mem _ (hrest ▸ hb))

theorem Sound.conn (hs : Sound codec k s) (hi : s.threads[i]? = some pc) (hk : pc.conn = some k) :
    ∃ c, s.shared.conns[k]? = some c :=
  ⟨_, List.getElem?_eq_getElem (hs.base.placed pc (List.mem_of_getElem? hi) k hk)⟩

/-- The writer has nothing in hand, or writes what it has. -/
theorem Sound.writer_ready (hs : Sound codec k s) (hc : s.shared.conns[k]? = some c)
    (hwriter : total (localTo k writer) s.threads ≠ 0) :
    ∃ (tr : List (Nat × Ev Value)) (j : Nat) (ts : List (Pc Value)),
      Run (server o) (Calm codec) s tr ⟨s.shared, ts⟩ ∧ ts[j]? = some (.receiving k) ∧
      ∀ (i : Nat) (pc : Pc Value), s.threads[i]? = some pc → writer pc = 0 → ts[i]? = some pc := by
  obtain ⟨j, pc, hj, hk, hw⟩ := exists_thread hwriter
  have hheld := hs.unencodable_eq hc hj hk
  cases pc <;> first | exact absurd rfl hw | cases hk
  case receiving => exact ⟨[], j, s.threads, .refl, hj, fun _ _ hi _ => hi⟩
  case writing resp =>
    have henc : encodes codec resp = true := by simpa [unencodable] using hheld
    obtain ⟨hlt, -⟩ := List.getElem?_eq_some_iff.mp hj
    refine ⟨[(j, .writeOk)], j, _, .step .refl ?_ (fire_serverStep _ (.receiving k) hj ?_), ?_, ?_⟩
    · simp [Calm, hj, calm, henc]
    · simp [serverStep, Pc.conn, hc, readerStep, writerStep]
    · simp [hlt]
    · intro i pc hi hother
      have hij : j ≠ i := by
        rintro rfl
        rw [hj] at hi
        cases hi
        cases hother
      rw [List.getElem?_set_ne hij, hi]

theorem Sound.writable_queued (hs : Sound codec k s) (hc : s.shared.conns[k]? = some c)
    (hmem : (n, resp) ∈ c.writeCh.buf) : Writable o codec s k n resp := by
  have hclean := hs.clean c hc
  have hwriter : total (localTo k writer) s.threads ≠ 0 := by
    intro hnone
    rw [hclean.drained hnone] at hmem
    cases hmem
  obtain ⟨tr, j, ts, hready, hj, -⟩ := hs.writer_ready (o := o) hc hwriter
  exact .of_run hready (writable_buf hj hc hclean.queued hmem)

theorem Sound.writable_returned (hs : Sound codec k s)
    (hi : s.threads[i]? = some (.handlerSend k f resp)) : Writable o codec s k f.index resp := by
  obtain ⟨c, hc⟩ := hs.conn hi rfl
  have hclean := hs.clean c hc
  have hlife := hs.base.conns k c hc
  have hloop := hlife.looping_eq_one (counted (le_sum hi rfl)) (by simp [alive, looping])
  have hopen := hs.base.writeCh_open hi rfl hc (by simp [alive, looping])
  have henc : encodes codec resp = true := by
    simpa [unencodable] using hs.unencodable_eq hc hi rfl
  obtain ⟨tr, j, ts, hready, hj, hothers⟩ := hs.writer_ready (o := o) hc
    (by rw [(hclean.writing hlife hloop).2]; decide)
  apply Writable.of_run hready
  exact writable_handlerSend hj (hothers i _ hi rfl) hc hclean.queued henc hopen
    (by rw [hlife.room]; decide)

/-- The handler function may return any response that can be encoded. -/
theorem Sound.writable_running (hs : Sound codec k s)
    (hi : s.threads[i]? = some (.handlerRunning k f)) (henc : encodes codec resp = true) :
    Writable o codec s k f.index resp := by
  obtain ⟨c, hc⟩ := hs.conn hi rfl
  obtain ⟨hlt, -⟩ := List.getElem?_eq_some_iff.mp hi
  have hfire := fire_serverStep (o := o) (e := .returned resp) s.shared (.handlerSend k f resp) hi
    (by simp [serverStep, Pc.conn, hc, readerStep, writerStep, handlerStep])
  have hok : Encoded codec k s i (.returned resp) := by
    simp [Encoded, Calm, hi, calm, encoded, answer, henc]
  apply Writable.of_run (.step .refl hok.1 hfire)
  exact (fire_sound hs hok hfire).writable_returned (i := i) (by simp [hlt])

theorem Sound.writable_started (hs : Sound codec k s)
    (hi : s.threads[i]? = some (.handlerStart k f)) (henc : encodes codec resp = true) :
    Writable o codec s k f.index resp := by
  obtain ⟨c, hc⟩ := hs.conn hi rfl
  obtain ⟨hlt, -⟩ := List.getElem?_eq_some_iff.mp hi
  have hfire := fire_serverStep (o := o) (e := .step)
    (s.shared.setConn k { c with started := f.index :: c.started }) (.handlerRunning k f) hi
    (by simp [serverStep, Pc.conn, hc, readerStep, writerStep, handlerStep])
  have hok : Encoded codec k s i .step := by
    simp [Encoded, Calm, hi, calm, encoded, answer]
  apply Writable.of_run (.step .refl hok.1 hfire)
  exact (fire_sound hs hok hfire).writable_running (i := i) (by simp [hlt]) henc

theorem Sound.unaffected (hs : Sound codec k s) : Unaffected o codec k s := by
  constructor
  · rintro c hc ⟨pc, hpc, hk, hloop⟩
    obtain ⟨i, hi⟩ := List.mem_iff_getElem?.mp hpc
    have hlife := hs.base.conns k c hc
    have halive := alive_nonneg pc
    have hone := hlife.looping_eq_one (counted (le_sum hi hk)) (by omega)
    obtain ⟨hcan, hwriter⟩ := (hs.clean c hc).writing hlife hone
    refine ⟨by simp [Server.connDone, hcan, hs.live], ?_⟩
    obtain ⟨j, q, hj, hq, hw⟩ := exists_thread (w := writer) (by rw [hwriter]; decide)
    exact ⟨q, List.mem_of_getElem? hj, hq, writer_eq_one hw⟩
  · rintro n resp (⟨hc, hmem⟩ | ⟨hi, rfl⟩ | ⟨hi, rfl⟩ | ⟨hi, rfl⟩) henc
    · exact hs.writable_queued hc hmem
    · exact hs.writable_returned hi
    · exact hs.writable_running hi henc
    · exact hs.writable_started hi henc

/-! ## After a failed write -/

/-- The writer, or the reader that will start it. -/
def servicing : Pc Value → Int
  | .setup _ | .receiving _ | .writing _ _ => 1
  | _ => 0

theorem servicing_nonneg (pc : Pc Value) : 0 ≤ servicing pc := by
  unfold servicing
  split <;> decide

theorem servicing_eq (pc : Pc Value) : servicing pc = writer pc + settingUp pc := by
  cases pc <;> rfl

theorem enqueue_servicing {g g' : Server Value} {d : Conn Value} {next : Pc Value}
    (h : enqueue g k d f resp next = some (g', pc', new)) (hnext : servicing next = 0) :
    servicing pc' + total servicing new = 0 := by
  obtain ⟨ch, -, -, rfl, rfl⟩ | ⟨-, -, rfl, rfl⟩ := enqueue_cases h
  · simp [hnext]
  · rfl

/-- A connection gets no second writer. -/
theorem connStep_servicing {g g' : Server Value} (h : ConnStep o g c k pc e (g', pc', new)) :
    servicing pc' + total servicing new ≤ servicing pc := by
  rcases h with h | h | h
  · revert h
    fun_cases readerStep o g c k pc e <;> intro h <;> try contradiction
    all_goals first
      | exact (enqueue_servicing h rfl).le
      | cases h; simp [servicing]
  · revert h
    fun_cases writerStep g c k pc e <;> intro h <;> try contradiction
    all_goals cases h; simp [servicing]
  · revert h
    fun_cases handlerStep g c k pc e <;> intro h <;> try contradiction
    all_goals first
      | exact (enqueue_servicing h rfl).le
      | cases h; simp [servicing]

/-- Nobody writes for connection `k` any more. -/
structure Silent (k : Nat) (s : Config (Server Value) (Pc Value)) : Prop where
  placed : Placed s
  exists_conn : k < s.shared.conns.length
  none : total (localTo k servicing) s.threads = 0

theorem fire_silent (hs : Silent k s) (h : (server o).fire s i e = some t) : Silent k t := by
  have hlen := lt_of_lt_of_le hs.exists_conn (fire_conns_length h)
  refine ⟨fire_placed hs.placed h, hlen, ?_⟩
  have hnonneg : 0 ≤ total (localTo k servicing) t.threads :=
    total_nonneg fun q _ => localTo_nonneg servicing_nonneg q
  have hnone := hs.none
  cases fire_conn hs.placed h (List.getElem?_eq_getElem hlen) with
  | untouched _ hsum => rw [hsum, hnone]
  | fresh hk _ _ =>
    have := hs.exists_conn
    omega
  | stepped pc pc' new c hi hk hc hstep _ hsum =>
    have hle := connStep_servicing hstep
    rw [hsum] at hnonneg ⊢
    omega

theorem Silent.not_writable (hs : Silent k s) (n : Nat) (resp : Response Value) :
    ¬ Writable o codec s k n resp := by
  rintro ⟨tr, t, j, c, ch, u, hrun, hj, -⟩
  have ht : Silent k t := hrun.invariant hs fun _ _ _ _ hs _ hf => fire_silent hs hf
  have hle := le_sum hj rfl servicing servicing_nonneg
  rw [ht.none] at hle
  exact absurd hle (by simp [servicing])

/-- What the writer does with a response that cannot be encoded. -/
theorem fire_unencodable (hj : s.threads[j]? = some (.writing k resp))
    (hc : s.shared.conns[k]? = some c) (henc : encodes codec resp = false)
    (hcalm : Calm codec s j e) (h : (server o).fire s j e = some t) :
    t = ⟨s.shared.setConn k { c with cancelled := true, writerWg := c.writerWg - 1 },
      s.threads.set j (.writerLeft k)⟩ := by
  obtain ⟨pc, g', pc', new, hi, hstep, rfl⟩ := fire_cases h
  rw [hj] at hi
  cases hi
  have hreader : readerStep o s.shared c k (.writing k resp) e = none := rfl
  have hhandler : handlerStep s.shared c k (.writing k resp) e = none := rfl
  simp only [server, serverStep, Pc.conn, hc, hreader, hhandler, Option.none_or,
    Option.or_none] at hstep
  have hfails := calm_of hcalm hj
  cases e <;> cases hstep
  · rw [calm, henc] at hfails
    cases hfails
  · simp

theorem servicing_le (ha : Alive s) (hc : s.shared.conns[k]? = some c) :
    total (localTo k servicing) s.threads ≤ 1 := by
  have hsplit : (localTo k servicing : Pc Value → Int) =
      fun pc => localTo k writer pc + localTo k settingUp pc := by
    funext pc
    rw [← localTo_add]
    exact localTo_congr (servicing_eq pc)
  have hlife := ha.conns k c hc
  have hquiet := hlife.quiet
  have hreader := hlife.reader
  have hnonneg := hlife.nonneg
  have hone := hlife.oneWriter
  rw [hsplit, total_add]
  omega

/-- A failed write leaves nobody who writes. -/
theorem silent_of_failed (ha : Alive s) (hc : s.shared.conns[k]? = some c)
    (hj : s.threads[j]? = some (.writing k resp)) (h : (server o).fire s j e = some t)
    (ht : t.threads = s.threads.set j (.writerLeft k)) : Silent k t := by
  obtain ⟨hk, -⟩ := List.getElem?_eq_some_iff.mp hc
  refine ⟨fire_placed ha.placed h, lt_of_lt_of_le hk (fire_conns_length h), ?_⟩
  have hle := servicing_le ha hc
  have hnonneg : 0 ≤ total (localTo k servicing) t.threads :=
    total_nonneg fun q _ => localTo_nonneg servicing_nonneg q
  rw [ht, total_set _ _ hj] at hnonneg ⊢
  simp only [localTo, Pc.conn, servicing, ↓reduceIte] at hnonneg hle ⊢
  omega

theorem silent_of_unencodable (ha : Alive s) (hj : s.threads[j]? = some (.writing k resp))
    (hc : s.shared.conns[k]? = some c) (henc : encodes codec resp = false)
    (hcalm : Calm codec s j e) (h : (server o).fire s j e = some t) : Silent k t :=
  silent_of_failed ha hc hj h (congrArg _ (fire_unencodable hj hc henc hcalm h))

end Runs

/-- In every run in which the responses of connection `k` can be encoded, it is
unaffected by what happens elsewhere. Once its writer has met a response that
cannot be encoded, the connection is cancelled and nothing is written on it. -/
theorem conn_unaffected (codec : ProtocolCodec Value) (o : ServerOptions) (m k : Nat)
    (tr : List (Nat × Ev Value)) (s : Config (Server Value) (Pc Value)) :
    (Run (server o) (Encoded codec k) (start o m) tr s → Unaffected o codec k s) ∧
    (Run (server o) (Calm codec) (start o m) tr s →
      ∀ j resp e t, s.threads[j]? = some (.writing k resp) → encodes codec resp = false →
      Calm codec s j e → (server o).fire s j e = some t →
      (∀ c, t.shared.conns[k]? = some c → t.shared.connDone c = true) ∧
      ∀ n other, ¬ Writable o codec t k n other) := by
  constructor
  · intro hr
    exact (run_sound hr).unaffected
  · intro hr j resp e t hj henc hcalm hfire
    have ha := run_alive hr
    have hk := ha.placed _ (List.mem_of_getElem? hj) k rfl
    have hc := List.getElem?_eq_getElem hk
    constructor
    · intro c hc'
      rw [fire_unencodable hj hc henc hcalm hfire] at hc' ⊢
      simp only [Server.setConn, List.getElem?_set_self hk] at hc'
      cases hc'
      simp [Server.connDone]
    · exact (silent_of_unencodable ha hj hc henc hcalm hfire).not_writable

/-! Handlers that answer with a message, and with a value that `json.Marshal` rejects. -/

def jsonFrames : ProtocolCodec (Payload UInt8 Unit) :=
  ⟨jsonCodec default byteMarshal, noneCompressor, codecTypeJSON, compressTypeNone⟩

def aFrame (requestID : UInt64) : Ev (Payload UInt8 Unit) :=
  .frame ⟨0, 1, msgTypeRequest, codecTypeJSON, 0, (0, 0), requestID, 3⟩ ping

def message (id : UInt64) : Response (Payload UInt8 Unit) := ⟨id, some (.proto 7), none, none, 0, 0⟩

def rejected (id : UInt64) : Response (Payload UInt8 Unit) :=
  ⟨id, some (.other ()), none, none, 0, 0⟩

/-- Two connections. Goroutine 6 fails to write the response of the second one
while goroutine 7 has the response for the first. -/
def otherConnection : List (Nat × Ev (Payload UInt8 Unit)) :=
  [(2, .accepted), (2, .step), (2, .step), (2, .accepted), (2, .step), (2, .step),
   (3, .setupOk), (4, .setupOk), (3, .step), (4, .step), (3, aFrame 1), (3, .step), (3, .step),
   (4, aFrame 2), (4, .step), (4, .step), (8, .step), (8, .returned (rejected 2)), (8, .send 0),
   (6, .step), (6, .writeFailed), (7, .step), (7, .returned (message 1))]

theorem otherConnection_runs : (exec (server defaultServerOptions) (Encoded jsonFrames 0)
    (start defaultServerOptions 0) otherConnection).isSome := by
  decide

/-- A response that is lost on another connection. -/
theorem conn_unaffected_other :
    Unaffected defaultServerOptions jsonFrames 0 ((exec (server defaultServerOptions)
      (Encoded jsonFrames 0) (start defaultServerOptions 0) otherConnection).get
      otherConnection_runs) :=
  (conn_unaffected jsonFrames defaultServerOptions 0 0 otherConnection _).1
    (run_exec otherConnection_runs)

/-- Both requests are on one connection, written by goroutine 4. -/
def sameConnection : List (Nat × Ev (Payload UInt8 Unit)) :=
  [(2, .accepted), (2, .step), (2, .step), (3, .setupOk), (3, .step), (3, aFrame 1), (3, .step),
   (3, .step), (3, .step), (3, aFrame 2), (3, .step), (3, .step), (5, .step),
   (5, .returned (rejected 1)), (5, .send 0), (4, .step), (4, .writeFailed), (6, .step),
   (6, .returned (message 2))]

theorem sameConnection_runs : (exec (server defaultServerOptions) (Calm jsonFrames)
    (start defaultServerOptions 0) sameConnection).isSome := by
  decide

/-- The second request is answered, and its response can never be written. -/
theorem unencodable_loses_other :
    ¬ ∀ (codec : ProtocolCodec (Payload UInt8 Unit)) (o : ServerOptions) (m k : Nat)
      (tr : List (Nat × Ev (Payload UInt8 Unit)))
      (s : Config (Server (Payload UInt8 Unit)) (Pc (Payload UInt8 Unit))),
      Run (server o) (Calm codec) (start o m) tr s → Unaffected o codec k s := by
  intro h
  have hrun := run_exec sameConnection_runs
  have hbad := h jsonFrames defaultServerOptions 0 0 sameConnection _ hrun
  have hsilent : Silent 0 ((exec (server defaultServerOptions) (Calm jsonFrames)
      (start defaultServerOptions 0) sameConnection).get sameConnection_runs) :=
    ⟨(run_alive hrun).placed, by decide, by decide⟩
  refine hsilent.not_writable 1 (message 2) (hbad.answered 1 (message 2) ?_ (by decide))
  exact .returned (i := 6) (f := ⟨1, ⟨0, 1, msgTypeRequest, codecTypeJSON, 0, (0, 0), 2, 3⟩, ping⟩)
    rfl rfl

end RpcInGo.Tcp.WriteFailure
