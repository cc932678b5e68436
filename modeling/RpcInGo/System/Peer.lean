import RpcInGo.Tcp.Completion
import RpcInGo.Tcp.ResponseIDs
import RpcInGo.Tcp.Responses

/-!
A `tcp.Server` whose handler is `HandleRequest`, seen from the other end of one of its
connections.

* `run_answering`: every response is what `HandleRequest` has returned for a request of its
  connection, or the refusal of that request by the transport;
* `run_located`: the requests that were read of a connection stand at different places of its
  stream;
* `run_counted`: `HandleRequest` returns a response at most once for each of them.
-/

namespace RpcInGo.System.Peer
open Lib.ByteStream Lib.Channel Lib.Goroutine Lib.Observe Protocol.Message Codec.Registry
  Codec.Payloads Tcp.Framing Tcp.ServerModel Tcp.BodyLimit Tcp.ResponseIDs Server.HandleRequest
open Tcp.Completion (decodes_succ)
open Tcp.Responses (isFrame isFrame_nonneg run_ledger)

variable {P M V X : Type}

/-! ## What a request is answered with -/

/-- The transport refuses a request. -/
inductive Refusal (o : ServerOptions) (f : Frame P) : Response P → Prop
  | body (now : Int) : tooLarge o f.header = true →
      Refusal o f (newErrorResponse f.header.requestID
        (newError errorRequestEntityTooLarge "request body too large") now)
  | busy (now : Int) : 0 < o.maxConcurrentRequests →
      Refusal o f (newErrorResponse f.header.requestID
        (newError errorCodeUnavailable "too many concurrent requests") now)

/-- `HandleRequest` returns the response for this frame, at some time and from some memory. -/
def Returns (srv : RpcServer M V X) (f : Frame (Payload M V)) (resp : Response (Payload M V)) :
    Prop :=
  ∃ addr now mem, resp = (handled srv f addr now mem).1

def guarded (o : ServerOptions) : Pc P → Prop
  | .rejectBody _ f => tooLarge o f.header = true
  | .rejectBusy _ _ => 0 < o.maxConcurrentRequests
  | _ => True

def Limited (o : ServerOptions) (g : Tcp.ServerModel.Server P) : Prop :=
  g.reqSemaphore.isSome → 0 < o.maxConcurrentRequests

/-- What a step of connection `k` puts on `writeCh`. -/
structure Gives (o : ServerOptions) (k : Nat) (c : Conn P) (pc : Pc P)
    (g' : Tcp.ServerModel.Server P) (c' : Conn P) (pc' : Pc P) (new : List (Pc P)) : Prop where
  limited : Limited o g'
  guards : guarded o pc' ∧ ∀ q ∈ new, guarded o q
  queue : (∀ a ∈ c'.writeCh.buf, a ∈ c.writeCh.buf) ∨
    ∃ f resp, frameOf pc = some f ∧ c'.writeCh.buf = c.writeCh.buf ++ [(f.index, resp)] ∧
      (pc = .handlerSend k f resp ∨ Refusal o f resp)

section Steps
variable {o : ServerOptions} {g g' : Tcp.ServerModel.Server P} {c : Conn P} {k : Nat}
  {pc pc' : Pc P} {e : Ev P} {new : List (Pc P)}

theorem Gives.quiet {c' : Conn P} (hl : Limited o g') (hpc : guarded o pc')
    (hnew : ∀ q ∈ new, guarded o q) (hbuf : c'.writeCh.buf = c.writeCh.buf) :
    Gives o k c pc g' c' pc' new :=
  ⟨hl, ⟨hpc, hnew⟩, Or.inl fun a ha => by rwa [hbuf] at ha⟩

theorem enqueue_gives {f : Frame P} {resp : Response P} {next : Pc P} {d : Conn P}
    (h : enqueue g k d f resp next = some (g', pc', new)) (hc : g.conns[k]? = some c)
    (hbuf : d.writeCh.buf = c.writeCh.buf) (hl : Limited o g) (hnext : guarded o next)
    (hpc : frameOf pc = some f) (hresp : pc = .handlerSend k f resp ∨ Refusal o f resp) :
    ∃ c', g'.conns = g.conns.set k c' ∧ Gives o k c pc g' c' pc' new := by
  obtain ⟨ch, hs, rfl, rfl, rfl⟩ | ⟨-, rfl, rfl, rfl⟩ := enqueue_cases h
  · refine ⟨_, rfl, hl, ⟨hnext, by simp⟩, Or.inr ⟨f, resp, hpc, ?_, hresp⟩⟩
    rw [← hbuf]
    exact (send_ok hs).1
  · exact ⟨c, (set_same hc).symm, .quiet hl trivial (by simp) rfl⟩

theorem readerStep_gives (h : readerStep o g c k pc e = some (g', pc', new))
    (hk : pc.conn = some k) (hc : g.conns[k]? = some c) (hl : Limited o g) (hg : guarded o pc) :
    ∃ c', g'.conns = g.conns.set k c' ∧ Gives o k c pc g' c' pc' new := by
  revert h
  fun_cases readerStep o g c k pc e <;> intro h <;> try contradiction
  all_goals cases hk
  all_goals first
    | exact enqueue_gives h hc rfl hl trivial rfl (Or.inr (.body _ hg))
    | exact enqueue_gives h hc rfl hl trivial rfl (Or.inr (.busy _ hg))
    | cases h
  all_goals first
    | exact ⟨c, (set_same hc).symm, .quiet hl trivial (by simp) rfl⟩
    | exact ⟨_, rfl, .quiet hl trivial (by simp [guarded]) rfl⟩
    | exact ⟨_, rfl, .quiet hl (by assumption) (by simp) rfl⟩
    -- a slot is taken, or there is none
    | exact ⟨c, (set_same hc).symm, .quiet (fun _ => hl (by simp [*])) trivial (by simp) rfl⟩
    | exact ⟨c, (set_same hc).symm, .quiet hl (hl (by simp [*])) (by simp) rfl⟩

theorem writerStep_gives (h : writerStep g c k pc e = some (g', pc', new))
    (hk : pc.conn = some k) (hc : g.conns[k]? = some c) (hl : Limited o g) :
    ∃ c', g'.conns = g.conns.set k c' ∧ Gives o k c pc g' c' pc' new := by
  revert h
  fun_cases writerStep g c k pc e <;> intro h <;> try contradiction
  all_goals cases hk
  all_goals cases h
  · rename_i hr
    obtain ⟨hb, -, -⟩ := recv_ok hr
    exact ⟨_, rfl, hl, ⟨trivial, by simp⟩, Or.inl fun a ha => by
      rw [hb]
      exact List.mem_cons_of_mem _ ha⟩
  · exact ⟨_, rfl, .quiet hl trivial (by simp) rfl⟩
  · exact ⟨c, (set_same hc).symm, .quiet hl trivial (by simp) rfl⟩
  · exact ⟨_, rfl, .quiet hl trivial (by simp) rfl⟩

theorem handlerStep_gives (h : handlerStep g c k pc e = some (g', pc', new))
    (hk : pc.conn = some k) (hc : g.conns[k]? = some c) (hl : Limited o g) :
    ∃ c', g'.conns = g.conns.set k c' ∧ Gives o k c pc g' c' pc' new := by
  revert h
  fun_cases handlerStep g c k pc e <;> intro h <;> try contradiction
  all_goals cases hk
  all_goals first
    | exact enqueue_gives h hc rfl hl trivial rfl (Or.inl rfl)
    | cases h
  all_goals first
    | exact ⟨c, (set_same hc).symm, .quiet hl trivial (by simp) rfl⟩
    | exact ⟨_, rfl, .quiet hl trivial (by simp) rfl⟩
    | exact ⟨c, (set_same hc).symm, .quiet (fun _ => hl (by simp [*])) trivial (by simp) rfl⟩

theorem connStep_gives (h : ConnStep o g c k pc e (g', pc', new)) (hk : pc.conn = some k)
    (hc : g.conns[k]? = some c) (hl : Limited o g) (hg : guarded o pc) :
    ∃ c', g'.conns = g.conns.set k c' ∧ Gives o k c pc g' c' pc' new := by
  rcases h with h | h | h
  · exact readerStep_gives h hk hc hl hg
  · exact writerStep_gives h hk hc hl
  · exact handlerStep_gives h hk hc hl

/-- `Serve` and `Close` take no part in it. -/
theorem freeStep_gives (h : FreeStep g pc e (g', pc', new)) :
    g'.reqSemaphore = g.reqSemaphore ∧ guarded o pc' ∧ ∀ q ∈ new, guarded o q := by
  rcases h with h | h
  · revert h
    fun_cases serveStep g pc e <;> intro h <;> try contradiction
    all_goals
      cases h
      exact ⟨rfl, trivial, by simp [guarded]⟩
  · revert h
    fun_cases closeStep g pc e <;> intro h <;> try contradiction
    all_goals
      cases h
      exact ⟨rfl, trivial, by simp⟩

end Steps

section Runs
variable {t : Tables (Payload M V)} {codec : ProtocolCodec (Payload M V)} {o : ServerOptions}
  {srv : RpcServer M V X} {s u : Config (Wired (Payload M V)) (Pc (Payload M V))} {i : Nat}
  {e : ServeEv M V X} {log : List (Exchange (Payload M V))}

/-- The response answers the frame at position `n` of connection `k`. -/
def Answered (o : ServerOptions) (srv : RpcServer M V X) (log : List (Exchange (Payload M V)))
    (k n : Nat) (resp : Response (Payload M V)) : Prop :=
  ∃ f, f.index = n ∧ .request k f ∈ log ∧ (Returns srv f resp ∨ Refusal o f resp)

theorem Answered.mono {log' : List (Exchange (Payload M V))} {k n : Nat}
    {resp : Response (Payload M V)} (h : Answered o srv log k n resp) :
    Answered o srv (log ++ log') k n resp := by
  obtain ⟨f, hn, hreq, hresp⟩ := h
  exact ⟨f, hn, List.mem_append_left _ hreq, hresp⟩

structure Answering (o : ServerOptions) (srv : RpcServer M V X)
    (s : Config (Wired (Payload M V)) (Pc (Payload M V)))
    (log : List (Exchange (Payload M V))) : Prop where
  traced : Traced srv s log
  limited : Limited o s.shared.server
  guards : ∀ pc ∈ s.threads, guarded o pc
  handled : ∀ k f id resp, .handled k f id resp ∈ log → Returns srv f resp
  queued : ∀ (k : Nat) c n resp, s.shared.server.conns[k]? = some c →
    (n, resp) ∈ c.writeCh.buf → Answered o srv log k n resp
  responses : ∀ k n resp, .response k n resp ∈ log → Answered o srv log k n resp

/-- What is queued after a step of connection `k` was queued before, or answers the frame of
the goroutine that took the step. -/
theorem Answering.queued_moved (hA : Answering o srv s log) {pc pc' : Pc (Payload M V)}
    {g' : Tcp.ServerModel.Server (Payload M V)} {new : List (Pc (Payload M V))} {k : Nat}
    {c c' : Conn (Payload M V)} (hpc : pc ∈ s.threads) (hk : pc.conn = some k)
    (hc : s.shared.server.conns[k]? = some c) (hconns : g'.conns = s.shared.server.conns.set k c')
    (hgives : Gives o k c pc g' c' pc' new) {j n : Nat} {d : Conn (Payload M V)}
    {resp : Response (Payload M V)} (hd : g'.conns[j]? = some d)
    (hbuf : (n, resp) ∈ d.writeCh.buf) : Answered o srv log j n resp := by
  obtain ⟨hlt, -⟩ := List.getElem?_eq_some_iff.mp hc
  rw [hconns] at hd
  by_cases hj : j = k
  · subst hj
    rw [List.getElem?_set_self hlt] at hd
    cases hd
    rcases hgives.queue with hold | ⟨f, resp', hf, happ, hresp⟩
    · exact hA.queued j c n resp hc (hold _ hbuf)
    · rw [happ, List.mem_append, List.mem_singleton] at hbuf
      rcases hbuf with hbuf | heq
      · exact hA.queued j c n resp hc hbuf
      · cases heq
        refine ⟨f, rfl, hA.traced.frames pc hpc j f hk hf, ?_⟩
        rcases hresp with rfl | hrefused
        · obtain ⟨id, hlog⟩ := hA.traced.answers j f resp hpc
          exact Or.inl (hA.handled j f id resp hlog)
        · exact Or.inr hrefused
  · rw [List.getElem?_set_ne (Ne.symm hj)] at hd
    exact hA.queued j d n resp hd hbuf

theorem Answering.fire (hA : Answering o srv s log)
    (h : (serving t codec o srv).fire s i e = some u) :
    Answering o srv u (log ++ exchanges t codec srv s i e) := by
  have htraced := hA.traced.fire h
  obtain ⟨pc, e', g', pc', new, hi, -, hs, rfl⟩ := fire_serving h
  have hlog : exchanges t codec srv s i e = exchangesAt t codec srv s.shared pc e := by
    simp only [exchanges, hi]
  rw [hlog] at htraced ⊢
  have hpc := List.mem_of_getElem? hi
  have hhandled : ∀ k f id resp,
      .handled k f id resp ∈ log ++ exchangesAt t codec srv s.shared pc e → Returns srv f resp := by
    intro k f id resp hmem
    rcases List.mem_append.mp hmem with hmem | hmem
    · exact hA.handled k f id resp hmem
    · obtain ⟨-, addr, now, mem, -, hresp⟩ := handled_mem hmem
      exact ⟨addr, now, mem, hresp⟩
  have hresponses : ∀ k n resp, .response k n resp ∈ log ++ exchangesAt t codec srv s.shared pc e →
      Answered o srv (log ++ exchangesAt t codec srv s.shared pc e) k n resp := by
    intro k n resp hmem
    rcases List.mem_append.mp hmem with hmem | hmem
    · exact (hA.responses k n resp hmem).mono
    · obtain ⟨c, hc, hbuf⟩ := response_mem hmem
      exact (hA.queued k c n resp hc hbuf).mono
  have hguards : guarded o pc' → (∀ q ∈ new, guarded o q) →
      ∀ q ∈ s.threads.set i pc' ++ new, guarded o q := by
    intro hpc' hnew q hq
    rcases List.mem_append.mp hq with hq | hq
    · exact forall_set hpc' hA.guards (fun _ h => h) q hq
    · exact hnew q hq
  rcases serverStep_cases hs with ⟨-, hfree⟩ | ⟨k, c, hk, hc, hconn⟩
  · obtain ⟨hsem, hpc', hnew⟩ := freeStep_gives (o := o) hfree
    refine ⟨htraced, ?_, hguards hpc' hnew, hhandled, ?_, hresponses⟩
    · simpa only [Limited, hsem] using hA.limited
    · intro j d n resp hd hbuf
      obtain ⟨-, ⟨hconns, -⟩ | ⟨hconns, -⟩⟩ := freeStep_conns hfree
      · rw [hconns] at hd
        exact (hA.queued j d n resp hd hbuf).mono
      · rw [hconns, List.getElem?_append] at hd
        split at hd
        · exact (hA.queued j d n resp hd hbuf).mono
        · -- the new connection has an empty queue
          have hmem := List.mem_of_getElem? hd
          rw [List.mem_singleton.mp hmem] at hbuf
          simp [newConn, Chan.make] at hbuf
  · obtain ⟨c', hconns, hgives⟩ := connStep_gives hconn hk hc hA.limited (hA.guards pc hpc)
    exact ⟨htraced, hgives.limited, hguards hgives.guards.1 hgives.guards.2, hhandled,
      fun j d n resp hd hbuf => (hA.queued_moved hpc hk hc hconns hgives hd hbuf).mono, hresponses⟩

theorem run_answering {n : Nat} {streams : Nat → Reader UInt8} {tr : List (Nat × ServeEv M V X)}
    (h : Run (serving t codec o srv) Any (wiredStart o n streams) tr s) :
    Answering o srv s (history t codec o srv n streams tr) := by
  refine run_observed h ⟨wiredStart_traced o n streams, ?_, ?_, by simp, ?_, by simp⟩
    fun _ _ _ _ _ hA _ hf => hA.fire hf
  · simp only [Limited, wiredStart, newServer, semaphore]
    split
    · exact fun _ => by assumption
    · intro h
      cases h
  · intro pc hpc
    simp only [wiredStart, start, List.mem_cons, List.mem_replicate] at hpc
    rcases hpc with rfl | rfl | rfl | ⟨-, rfl⟩ <;> trivial
  · intro k c n resp hc
    simp [wiredStart, newServer] at hc

/-! ## Where requests stand in a stream -/

/-- `ReadRequest` finds this frame after `j` others. -/
def ReadAt (t : Tables P) (codec : ProtocolCodec P) (stream : Reader UInt8) (f : Frame P)
    (j : Nat) : Prop :=
  (readRequest t codec (decodes t codec j stream).2).1 = .ok (f.header, f.req)

/-- `taken` frames were taken from the stream of connection `k`, and the request with number
`n` stood at `place n`. -/
structure Located (t : Tables (Payload M V)) (codec : ProtocolCodec (Payload M V))
    (streams : Nat → Reader UInt8) (s : Config (Wired (Payload M V)) (Pc (Payload M V)))
    (log : List (Exchange (Payload M V))) (k taken : Nat) (place : Nat → Nat) : Prop where
  left : s.shared.streams k = (decodes t codec taken (streams k)).2
  placed : ∀ f, .request k f ∈ log →
    place f.index < taken ∧ ReadAt t codec (streams k) f (place f.index)
  apart : ∀ f f', .request k f ∈ log → .request k f' ∈ log →
    place f.index = place f'.index → f.index = f'.index

theorem readRequest_left (t : Tables P) (codec : ProtocolCodec P) (r : Reader UInt8) :
    (readRequest t codec r).2 = (decodeFromReader t codec r).2 := by
  unfold readRequest
  split
  · rename_i heq
    rw [heq]
  · rename_i heq
    rw [heq]
    split
    · rfl
    · split <;> rfl

theorem unread_other {w : Wired (Payload M V)} {pc : Pc (Payload M V)} {k : Nat}
    (h : pc ≠ .reading k) : Tcp.BodyLimit.unread t codec w pc k = w.streams k := by
  cases pc with
  | reading j =>
    have hjk : k ≠ j := fun heq => h (heq ▸ rfl)
    exact Function.update_of_ne hjk _ _
  | _ => rfl

section Places
variable {streams : Nat → Reader UInt8} {k taken : Nat} {place : Nat → Nat}
  {pc pc' : Pc (Payload M V)} {g' : Tcp.ServerModel.Server (Payload M V)}
  {ts : List (Pc (Payload M V))}

/-- A step that reads nothing of the connection. -/
theorem Located.keep (hL : Located t codec streams s log k taken place) (hpc : pc ≠ .reading k) :
    Located t codec streams ⟨⟨g', Tcp.BodyLimit.unread t codec s.shared pc⟩, ts⟩
      (log ++ exchangesAt t codec srv s.shared pc e) k taken place := by
  have hold : ∀ f, .request k f ∈ log ++ exchangesAt t codec srv s.shared pc e →
      .request k f ∈ log := by
    intro f hf
    rcases List.mem_append.mp hf with hf | hf
    · exact hf
    · exact absurd (request_mem hf).1 hpc
  refine ⟨?_, fun f hf => hL.placed f (hold f hf),
    fun f f' hf hf' => hL.apart f f' (hold f hf) (hold f' hf')⟩
  rw [← hL.left]
  exact unread_other hpc

/-- The reader takes one more frame. A request gets the number of frames read before it. -/
theorem Located.take (hL : Located t codec streams s log k taken place) (hT : Traced srv s log)
    {c : Conn (Payload M V)} (hc : s.shared.server.conns[k]? = some c) :
    Located t codec streams ⟨⟨g', Tcp.BodyLimit.unread t codec s.shared (.reading k)⟩, ts⟩
      (log ++ exchangesAt t codec srv s.shared (.reading k) e) k (taken + 1)
      (Function.update place c.framesRead taken) := by
  have hold : ∀ f, .request k f ∈ log → Function.update place c.framesRead taken f.index =
      place f.index := by
    intro f hf
    obtain ⟨d, hd, hlt⟩ := hT.known k f hf
    cases hc.symm.trans hd
    exact Function.update_of_ne (Nat.ne_of_lt hlt) _ _
  have hnew : ∀ f, .request k f ∈ exchangesAt t codec srv s.shared (.reading k) e →
      Function.update place c.framesRead taken f.index = taken ∧
        ReadAt t codec (streams k) f taken := by
    intro f hf
    obtain ⟨-, d, header, req, hd, hread, rfl⟩ := request_mem hf
    cases hc.symm.trans hd
    refine ⟨Function.update_self .., ?_⟩
    rw [ReadAt, ← hL.left]
    exact hread
  refine ⟨?_, ?_, ?_⟩
  · have hupdate : Tcp.BodyLimit.unread t codec s.shared (.reading k) k =
        (readRequest t codec (s.shared.streams k)).2 := Function.update_self ..
    rw [decodes_succ, ← hL.left, ← readRequest_left]
    exact hupdate
  · intro f hf
    rcases List.mem_append.mp hf with hf | hf
    · obtain ⟨hlt, hat⟩ := hL.placed f hf
      rw [hold f hf]
      exact ⟨Nat.lt_succ_of_lt hlt, hat⟩
    · obtain ⟨hplace, hat⟩ := hnew f hf
      rw [hplace]
      exact ⟨Nat.lt_succ_self taken, hat⟩
  · intro f f' hf hf' heq
    rcases List.mem_append.mp hf with hf | hf <;> rcases List.mem_append.mp hf' with hf' | hf'
    · rw [hold f hf, hold f' hf'] at heq
      exact hL.apart f f' hf hf' heq
    · rw [hold f hf, (hnew f' hf').1] at heq
      exact absurd heq (Nat.ne_of_lt (hL.placed f hf).1)
    · rw [(hnew f hf).1, hold f' hf'] at heq
      exact absurd heq.symm (Nat.ne_of_lt (hL.placed f' hf').1)
    · obtain ⟨-, d, header, req, hd, -, rfl⟩ := request_mem hf
      obtain ⟨-, d', header', req', hd', -, rfl⟩ := request_mem hf'
      cases hd.symm.trans hd'
      rfl

end Places

theorem run_located {n : Nat} {streams : Nat → Reader UInt8} {tr : List (Nat × ServeEv M V X)}
    (h : Run (serving t codec o srv) Any (wiredStart o n streams) tr s) (k : Nat) :
    ∃ taken place, Located t codec streams s (history t codec o srv n streams tr) k taken
      place := by
  suffices hall : Traced srv s (history t codec o srv n streams tr) ∧
      ∃ taken place, Located t codec streams s (history t codec o srv n streams tr) k taken
        place from hall.2
  refine run_observed (I := fun s log => Traced srv s log ∧
    ∃ taken place, Located t codec streams s log k taken place) h
    ⟨wiredStart_traced o n streams, 0, id, rfl, by simp, by simp⟩ ?_
  rintro s i e u log ⟨hT, taken, place, hL⟩ - hf
  refine ⟨hT.fire hf, ?_⟩
  obtain ⟨pc, e', g', pc', new, hi, -, hs, rfl⟩ := fire_serving hf
  have hlog : exchanges t codec srv s i e = exchangesAt t codec srv s.shared pc e := by
    simp only [exchanges, hi]
  rw [hlog]
  by_cases hpc : pc = .reading k
  · subst hpc
    obtain ⟨hfree, -⟩ | ⟨j, c, hj, hc, -⟩ := serverStep_cases hs
    · cases hfree
    · cases hj
      exact ⟨_, _, hL.take hT hc⟩
  · exact ⟨taken, place, hL.keep hpc⟩

/-! ## How often a request is handled -/

/-- The handler function runs for the frame with number `n`. -/
def running (n : Nat) : Pc (Payload M V) → Int
  | .handlerRunning _ f => isFrame n f
  | _ => 0

def handles (k n : Nat) : Exchange (Payload M V) → Bool
  | .handled j f _ _ => j = k ∧ f.index = n
  | _ => false

theorem running_nonneg (n : Nat) (pc : Pc (Payload M V)) : 0 ≤ running n pc := by
  unfold running
  split
  · exact isFrame_nonneg _ _
  · exact le_refl 0

theorem waiting_nonneg (n : Nat) (pc : Pc P) : 0 ≤ Tcp.Responses.waiting n pc := by
  unfold Tcp.Responses.waiting
  split
  · exact isFrame_nonneg _ _
  · exact le_refl 0

section Counts
variable {g g' : Tcp.ServerModel.Server (Payload M V)} {c : Conn (Payload M V)} {k : Nat}
  {pc pc' : Pc (Payload M V)} {e' : Ev (Payload M V)} {new : List (Pc (Payload M V))}

theorem enqueue_running {f : Frame (Payload M V)} {resp : Response (Payload M V)}
    {next : Pc (Payload M V)} {d : Conn (Payload M V)}
    (h : enqueue g k d f resp next = some (g', pc', new)) (hc : g.conns[k]? = some c)
    (hd : d.started = c.started) (hnext : ∀ n, running n next = 0) :
    ∃ c', g'.conns = g.conns.set k c' ∧ ∀ n,
      (c'.started.count n : Int) - (running n pc' + total (running n) new) = c.started.count n := by
  obtain ⟨ch, -, rfl, rfl, rfl⟩ | ⟨-, rfl, rfl, rfl⟩ := enqueue_cases h
  · exact ⟨_, rfl, fun n => by simp [hd, hnext n]⟩
  · exact ⟨c, (set_same hc).symm, fun n => by simp [running]⟩

/-- A handler function that runs has started, and is left by its next step. -/
theorem connStep_running (h : ConnStep o g c k pc e' (g', pc', new)) (hk : pc.conn = some k)
    (hc : g.conns[k]? = some c) :
    ∃ c', g'.conns = g.conns.set k c' ∧ ∀ n,
      (c'.started.count n : Int) - (running n pc' + total (running n) new) = c.started.count n := by
  rcases h with h | h | h
  · revert h
    fun_cases readerStep o g c k pc e' <;> intro h <;> try contradiction
    all_goals cases hk
    all_goals first
      | exact enqueue_running h hc rfl fun _ => rfl
      | cases h
    all_goals first
      | exact ⟨c, (set_same hc).symm, fun n => by simp [running]⟩
      | exact ⟨_, rfl, fun n => by simp [running]⟩
  · revert h
    fun_cases writerStep g c k pc e' <;> intro h <;> try contradiction
    all_goals cases hk
    all_goals cases h
    all_goals first
      | exact ⟨c, (set_same hc).symm, fun n => by simp [running]⟩
      | exact ⟨_, rfl, fun n => by simp [running]⟩
  · revert h
    fun_cases handlerStep g c k pc e' <;> intro h <;> try contradiction
    all_goals cases hk
    all_goals first
      | exact enqueue_running h hc rfl fun _ => rfl
      | cases h
    · rename_i f
      refine ⟨_, rfl, fun n => ?_⟩
      by_cases hn : f.index = n <;> simp [running, isFrame, hn]
    all_goals first
      | exact ⟨c, (set_same hc).symm, fun n => by simp [running]⟩
      | exact ⟨_, rfl, fun n => by simp [running]⟩

/-- What is logged of a step is the return of the handler that was running. -/
theorem exchangesAt_handles (he : answered srv pc e = some e') (j n : Nat) :
    ((exchangesAt t codec srv s.shared pc e).countP (handles j n) : Int) =
      localTo j (running n) pc := by
  have hquiet : running n pc = 0 → (0 : Int) = localTo j (running n) pc := fun h =>
    (localTo_eq_zero fun _ => h).symm
  cases pc with
  | handlerRunning k f =>
    cases e with
    | env e => cases he
    | handle addr now mem =>
      simp only [exchangesAt, List.countP_singleton, handles, localTo, running, isFrame, Pc.conn,
        Option.some.injEq, Bool.decide_and, Bool.and_eq_true, decide_eq_true_eq]
      by_cases hk : k = j <;> by_cases hn : f.index = n <;> simp [hk, hn]
  | reading k =>
    simp only [exchangesAt]
    split <;> exact hquiet rfl
  | receiving k =>
    simp only [exchangesAt]
    split <;> exact hquiet rfl
  | _ => exact hquiet rfl

/-- Responses of `HandleRequest` against handler functions that were called. -/
structure Counted (srv : RpcServer M V X) (s : Config (Wired (Payload M V)) (Pc (Payload M V)))
    (log : List (Exchange (Payload M V))) : Prop where
  traced : Traced srv s log
  placed : Placed (Wired.forget s)
  started : ∀ (k : Nat) c n, s.shared.server.conns[k]? = some c →
    (log.countP (handles k n) : Int) + total (localTo k (running n)) s.threads =
      c.started.count n

/-- A connection that does not exist has handled nothing. -/
theorem Counted.none_handled (hC : Counted srv s log) {j : Nat} (n : Nat)
    (hj : s.shared.server.conns[j]? = none) : log.countP (handles j n) = 0 := by
  rw [List.countP_eq_zero]
  intro ex hex hhandles
  cases ex with
  | handled k f id resp =>
    obtain ⟨rfl, -⟩ : k = j ∧ f.index = n := by simpa [handles] using hhandles
    obtain ⟨c, hc, -⟩ := hC.traced.known k f (hC.traced.handled k f id resp hex).1
    cases hj.symm.trans hc
  | _ => cases hhandles

theorem Counted.fire {u : Config (Wired (Payload M V)) (Pc (Payload M V))}
    (hC : Counted srv s log) (h : (serving t codec o srv).fire s i e = some u) :
    Counted srv u (log ++ exchanges t codec srv s i e) := by
  have htraced := hC.traced.fire h
  obtain ⟨pc, e', g', pc', new, hi, he, hs, rfl⟩ := fire_serving h
  have hlog : exchanges t codec srv s i e = exchangesAt t codec srv s.shared pc e := by
    simp only [exchanges, hi]
  rw [hlog] at htraced ⊢
  have hserver : (server o).fire (Wired.forget s) i (heard t codec s.shared pc e') =
      some (Wired.forget ⟨⟨g', Tcp.BodyLimit.unread t codec s.shared pc⟩,
        s.threads.set i pc' ++ new⟩) := by
    simp [Program.fire, Wired.forget, hi, server, hs]
  refine ⟨htraced, fire_placed hC.placed hserver, fun j d n hd => ?_⟩
  rw [List.countP_append, Nat.cast_add, exchangesAt_handles he]
  rcases serverStep_cases hs with ⟨hnone, hfree⟩ | ⟨k, c, hk, hc, hconn⟩
  · have hzero : localTo j (running n) pc = 0 := localTo_eq_zero fun hj => by
      rw [hnone] at hj
      cases hj
    obtain ⟨hpc', ⟨hconns, rfl⟩ | ⟨hconns, rfl⟩⟩ := freeStep_conns hfree
    · rw [hconns] at hd
      rw [List.append_nil, total_localTo_free hi hnone hpc', hzero, Int.add_zero]
      exact hC.started j d n hd
    · have hsetup : total (localTo j (running n))
          [(.setup s.shared.server.conns.length : Pc (Payload M V))] = 0 :=
        total_eq_zero fun q hq => localTo_eq_zero fun _ => by
          rw [List.mem_singleton.mp hq]
          rfl
      rw [total_append, total_localTo_free hi hnone hpc', hzero, hsetup, Int.add_zero, Int.add_zero]
      rw [hconns, List.getElem?_append] at hd
      split at hd
      · exact hC.started j d n hd
      · rename_i hge
        rw [hC.none_handled n (List.getElem?_eq_none (Nat.not_lt.mp hge))]
        have hnew := List.mem_singleton.mp (List.mem_of_getElem? hd)
        have hidle : total (localTo j (running n)) s.threads = 0 := by
          refine total_eq_zero fun q hq => localTo_eq_zero fun hqj => ?_
          exact absurd (hC.placed q hq j hqj) hge
        rw [hidle, hnew]
        rfl
  · obtain ⟨c', hconns, hcount⟩ := connStep_running hconn hk hc
    obtain ⟨c₁, hstay⟩ := connStep_stays hc hconn
    obtain ⟨hlt, -⟩ := List.getElem?_eq_some_iff.mp hc
    rw [hconns] at hd
    by_cases hj : j = k
    · subst hj
      rw [List.getElem?_set_self hlt] at hd
      cases hd
      have hold := hC.started j c n hc
      have hstep := hcount n
      rw [total_localTo_same hi hk hstay.next hstay.spawned]
      simp only [localTo, hk, ↓reduceIte]
      omega
    · rw [List.getElem?_set_ne (Ne.symm hj)] at hd
      have hzero : localTo j (running n) pc = 0 := localTo_eq_zero fun hpc => by
        rw [hk] at hpc
        exact absurd (Option.some.inj hpc).symm hj
      rw [total_localTo_other hj hi hk hstay.next hstay.spawned, hzero, Int.add_zero]
      exact hC.started j d n hd

end Counts

theorem run_counted {n : Nat} {streams : Nat → Reader UInt8} {tr : List (Nat × ServeEv M V X)}
    (h : Run (serving t codec o srv) Any (wiredStart o n streams) tr s) :
    Counted srv s (history t codec o srv n streams tr) := by
  refine run_observed h ⟨wiredStart_traced o n streams, start_placed o n, ?_⟩
    fun _ _ _ _ _ hC _ hf => hC.fire hf
  intro k c n hc
  simp [wiredStart, newServer] at hc

/-- For each frame of a connection `HandleRequest` returns once at most. -/
theorem handled_le_one {n : Nat} {streams : Nat → Reader UInt8} {tr : List (Nat × ServeEv M V X)}
    (h : Run (serving t codec o srv) Any (wiredStart o n streams) tr s) (k m : Nat) :
    (history t codec o srv n streams tr).countP (handles k m) ≤ 1 := by
  have hC := run_counted h
  cases hc : s.shared.server.conns[k]? with
  | none => simp [hC.none_handled m hc]
  | some c =>
    obtain ⟨tr', hwired⟩ := run_wired h
    obtain ⟨tr'', hserver⟩ := run_server hwired
    have hentries := (run_ledger hserver).entries k c hc
    have hphase := hentries.phase m
    have hstarts := hentries.starts m
    have hstarted := hC.started k c m hc
    have hunread := Tcp.Responses.unread_nonneg c m
    have hdispatching : 0 ≤ total (localTo k (Tcp.Responses.dispatching m)) s.threads :=
      total_nonneg fun q _ => localTo_nonneg (Tcp.Responses.dispatching_nonneg m) q
    have hwaiting : 0 ≤ total (localTo k (Tcp.Responses.waiting m)) s.threads :=
      total_nonneg fun q _ => localTo_nonneg (waiting_nonneg m) q
    have hrunning : 0 ≤ total (localTo k (running m)) s.threads :=
      total_nonneg fun q _ => localTo_nonneg (running_nonneg m) q
    simp only [Wired.forget] at hphase hstarts
    omega

end Runs

end RpcInGo.System.Peer
