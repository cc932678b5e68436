import RpcInGo.Server.HandleRequest
import RpcInGo.Tcp.BodyLimit

/-!
The request ID of a frame stands in its header and in its body. The transport answers with the
ID of the header (`pkg/transport/tcp/server.go`), `HandleRequest` with the ID of the body
(`pkg/server/server.go`), and `EncodeResponse` writes the header of a response from the
response.

* `run_wired`: a transport whose handler is `HandleRequest` takes only steps of the transport;
* `connStep_flow`: what one step does to the frames in work and to `writeCh`;
* `run_traced`: every response goes back to a request of its connection;
* `responses_carry_iff`: in every run the responses carry the IDs of the request headers exactly
  when the requests that `HandleRequest` has answered had them when it was done.
-/

namespace RpcInGo.Tcp.ResponseIDs
open Lib.ByteStream Lib.Channel Lib.Goroutine Lib.Observe Protocol.Message Protocol.Header
  Codec.Registry Codec.Payloads Framing ServerModel BodyLimit Server.HandleRequest

variable {M V X : Type}

/-! ## The transport with its handler -/

/-- As `Ev`, but the handler function is `HandleRequest`: the environment chooses the address
of the request, the time, and the memory it finds. -/
inductive ServeEv (M V X : Type) where
  | env (e : Ev (Payload M V))
  | handle (req : Nat) (now : Int) (mem : Memory M V X)

/-- The call of the handler for a frame. -/
def handled (srv : RpcServer M V X) (f : Frame (Payload M V)) (req : Nat) (now : Int)
    (mem : Memory M V X) : Response (Payload M V) × Memory M V X :=
  handleRequest srv req now (mem.store req f.req)

def answered (srv : RpcServer M V X) : Pc (Payload M V) → ServeEv M V X →
    Option (Ev (Payload M V))
  | .handlerRunning _ f, .handle req now mem => some (.returned (handled srv f req now mem).1)
  | .handlerRunning _ _, .env _ => none
  | _, .handle _ _ _ => none
  | _, .env e => some e

def serving (t : Tables (Payload M V)) (codec : ProtocolCodec (Payload M V)) (o : ServerOptions)
    (srv : RpcServer M V X) : Program (Wired (Payload M V)) (Pc (Payload M V)) (ServeEv M V X) where
  step w pc e := (answered srv pc e).bind ((wired t codec o).step w pc)

/-- A request was read, `HandleRequest` has returned a response to it and left its ID as `id`,
or the writer has taken the response to the frame at position `n`, to write it. -/
inductive Exchange (P : Type) where
  | request (k : Nat) (f : Frame P)
  | handled (k : Nat) (f : Frame P) (id : UInt64) (resp : Response P)
  | response (k n : Nat) (resp : Response P)

def exchangesAt (t : Tables (Payload M V)) (codec : ProtocolCodec (Payload M V))
    (srv : RpcServer M V X) (w : Wired (Payload M V)) :
    Pc (Payload M V) → ServeEv M V X → List (Exchange (Payload M V))
  | .reading k, _ =>
    match (readRequest t codec (w.streams k)).1, w.server.conns[k]? with
    | .ok (header, req), some c => [.request k ⟨c.framesRead, header, req⟩]
    | _, _ => []
  | .handlerRunning k f, .handle req now mem =>
    [.handled k f ((handled srv f req now mem).2.requests req).id (handled srv f req now mem).1]
  | .receiving k, _ =>
    match (w.server.conns[k]?).bind (·.writeCh.buf.head?) with
    | some (n, resp) => [.response k n resp]
    | none => []
  | _, _ => []

def exchanges (t : Tables (Payload M V)) (codec : ProtocolCodec (Payload M V))
    (srv : RpcServer M V X) (s : Config (Wired (Payload M V)) (Pc (Payload M V))) (i : Nat)
    (e : ServeEv M V X) : List (Exchange (Payload M V)) :=
  match s.threads[i]? with
  | none => []
  | some pc => exchangesAt t codec srv s.shared pc e

/-- What was asked and answered along a schedule. -/
def history (t : Tables (Payload M V)) (codec : ProtocolCodec (Payload M V)) (o : ServerOptions)
    (srv : RpcServer M V X) (n : Nat) (streams : Nat → Reader UInt8)
    (tr : List (Nat × ServeEv M V X)) : List (Exchange (Payload M V)) :=
  observe (serving t codec o srv) (exchanges t codec srv) (wiredStart o n streams) tr

/-! ## One step -/

section Flow
variable {P : Type}

/-- The frame that a goroutine works on. -/
def frameOf : Pc P → Option (Frame P)
  | .rejectBody _ f | .acquire _ f | .rejectBusy _ f | .spawn _ f => some f
  | .handlerStart _ f | .handlerRunning _ f | .handlerSend _ f _ => some f
  | _ => none

/-- What a step of connection `k` does to its frames and responses. -/
structure Flow (k : Nat) (c : Conn P) (pc : Pc P) (e : Ev P) (c' : Conn P) (pc' : Pc P)
    (new : List (Pc P)) : Prop where
  frames : (c'.framesRead = c.framesRead ∧ (pc = .reading k → e = .readFailed) ∧
      ∀ f, frameOf pc' = some f → frameOf pc = some f) ∨
    ∃ header req, pc = .reading k ∧ e = .frame header req ∧ c'.framesRead = c.framesRead + 1 ∧
      frameOf pc' = some ⟨c.framesRead, header, req⟩
  started : ∀ q ∈ new, (∀ f, frameOf q = some f → frameOf pc = some f) ∧
    ∀ f resp, q ≠ .handlerSend k f resp
  answer : ∀ f resp, pc' = .handlerSend k f resp →
    pc = .handlerRunning k f ∧ ∀ resp', e = .returned resp' → resp' = resp
  queue : c'.writeCh.buf = c.writeCh.buf ∨
    (∃ f resp, frameOf pc = some f ∧ c'.writeCh.buf = c.writeCh.buf ++ [(f.index, resp)] ∧
      (resp.id = f.header.requestID ∨ pc = .handlerSend k f resp)) ∨
    ∃ n resp, pc = .receiving k ∧ c.writeCh.buf = (n, resp) :: c'.writeCh.buf

variable {o : ServerOptions} {g g' : ServerModel.Server P} {c c' : Conn P} {k : Nat}
  {pc pc' : Pc P} {e : Ev P} {new : List (Pc P)}

theorem flow_quiet (hread : c'.framesRead = c.framesRead) (hbuf : c'.writeCh.buf = c.writeCh.buf)
    (hfail : pc = .reading k → e = .readFailed)
    (hframe : ∀ f, frameOf pc' = some f → frameOf pc = some f)
    (hsend : ∀ f resp, pc' ≠ .handlerSend k f resp)
    (hnew : ∀ q ∈ new, (∀ f, frameOf q = some f → frameOf pc = some f) ∧
      ∀ f resp, q ≠ .handlerSend k f resp) : Flow k c pc e c' pc' new :=
  ⟨Or.inl ⟨hread, hfail, hframe⟩, hnew, fun f resp heq => absurd heq (hsend f resp), Or.inl hbuf⟩

theorem enqueue_flow {f : Frame P} {resp : Response P} {next : Pc P} {d : Conn P}
    (h : enqueue g k d f resp next = some (g', pc', new)) (hc : g.conns[k]? = some c)
    (hbuf : d.writeCh.buf = c.writeCh.buf) (hread : d.framesRead = c.framesRead)
    (hfail : pc = .reading k → e = .readFailed)
    (hpc : frameOf pc = some f) (hnext : ∀ f', frameOf next = some f' → f' = f)
    (hsend : ∀ f resp, next ≠ .handlerSend k f resp)
    (hid : resp.id = f.header.requestID ∨ pc = .handlerSend k f resp) :
    ∃ c', g'.conns = g.conns.set k c' ∧ Flow k c pc e c' pc' new := by
  obtain ⟨ch, hs, rfl, rfl, rfl⟩ | ⟨-, rfl, rfl, rfl⟩ := enqueue_cases h
  · refine ⟨_, rfl, Or.inl ⟨hread, hfail, fun f' hf' => ?_⟩, by simp,
      fun f resp heq => absurd heq (hsend f resp), Or.inr (Or.inl ⟨f, resp, hpc, ?_, hid⟩)⟩
    · rw [hnext f' hf', hpc]
    · rw [← hbuf]
      exact (send_ok hs).1
  · exact ⟨c, (set_same hc).symm, flow_quiet rfl rfl hfail (by simp [frameOf]) (by simp) (by simp)⟩

theorem same_flow (hc : g.conns[k]? = some c) (hg : g'.conns = g.conns)
    (hfail : pc = .reading k → e = .readFailed)
    (hframe : ∀ f, frameOf pc' = some f → frameOf pc = some f)
    (hsend : ∀ f resp, pc' ≠ .handlerSend k f resp) :
    ∃ c', g'.conns = g.conns.set k c' ∧ Flow k c pc e c' pc' [] :=
  ⟨c, hg.trans (set_same hc).symm, flow_quiet rfl rfl hfail hframe hsend (by simp)⟩

theorem readerStep_flow (h : readerStep o g c k pc e = some (g', pc', new))
    (hk : pc.conn = some k) (hc : g.conns[k]? = some c) :
    ∃ c', g'.conns = g.conns.set k c' ∧ Flow k c pc e c' pc' new := by
  revert h
  fun_cases readerStep o g c k pc e <;> intro h <;> try contradiction
  all_goals cases hk
  all_goals first
    | exact enqueue_flow h hc rfl rfl (by simp) rfl (by simp [frameOf]) (by simp) (Or.inl rfl)
    | cases h
  all_goals first
    | exact same_flow hc rfl (by simp) (by simp [frameOf]) (by simp)
    | exact ⟨_, rfl, flow_quiet rfl rfl (by simp) (by simp [frameOf]) (by simp) (by simp [frameOf])⟩
    | exact ⟨_, rfl, Or.inr ⟨_, _, rfl, rfl, rfl, rfl⟩, by simp, by simp, Or.inl rfl⟩

theorem writerStep_flow (h : writerStep g c k pc e = some (g', pc', new))
    (hk : pc.conn = some k) (hc : g.conns[k]? = some c) :
    ∃ c', g'.conns = g.conns.set k c' ∧ Flow k c pc e c' pc' new := by
  revert h
  fun_cases writerStep g c k pc e <;> intro h <;> try contradiction
  all_goals cases hk
  all_goals cases h
  · rename_i hr
    obtain ⟨hb, -, -⟩ := recv_ok hr
    exact ⟨_, rfl, Or.inl ⟨rfl, by simp, by simp [frameOf]⟩, by simp, by simp,
      Or.inr (Or.inr ⟨_, _, rfl, hb⟩)⟩
  · exact ⟨_, rfl, flow_quiet rfl rfl (by simp) (by simp [frameOf]) (by simp) (by simp)⟩
  · exact same_flow hc rfl (by simp) (by simp [frameOf]) (by simp)
  · exact ⟨_, rfl, flow_quiet rfl rfl (by simp) (by simp [frameOf]) (by simp) (by simp)⟩

theorem handlerStep_flow (h : handlerStep g c k pc e = some (g', pc', new))
    (hk : pc.conn = some k) (hc : g.conns[k]? = some c) :
    ∃ c', g'.conns = g.conns.set k c' ∧ Flow k c pc e c' pc' new := by
  revert h
  fun_cases handlerStep g c k pc e <;> intro h <;> try contradiction
  all_goals cases hk
  -- the goroutine starts, its handler returns or fails, and it sends, gives up or leaves
  · cases h
    exact ⟨_, rfl, flow_quiet rfl rfl (by simp) (by simp [frameOf]) (by simp) (by simp)⟩
  · cases h
    exact ⟨c, (set_same hc).symm, Or.inl ⟨rfl, by simp, by simp [frameOf]⟩, by simp, by
      rintro f resp ⟨⟩
      simp, Or.inl rfl⟩
  · cases h
    exact ⟨c, (set_same hc).symm, Or.inl ⟨rfl, by simp, by simp [frameOf]⟩, by simp, by
      rintro f resp ⟨⟩
      simp, Or.inl rfl⟩
  · exact enqueue_flow h hc rfl rfl (by simp) rfl (by simp [frameOf]) (by simp) (Or.inr rfl)
  · cases h
    exact same_flow hc rfl (by simp) (by simp [frameOf]) (by simp)
  · cases h
    exact same_flow hc rfl (by simp) (by simp [frameOf]) (by simp)
  · cases h
    exact same_flow hc rfl (by simp) (by simp [frameOf]) (by simp)
  · cases h
    exact ⟨_, rfl, flow_quiet rfl rfl (by simp) (by simp [frameOf]) (by simp) (by simp)⟩

theorem connStep_flow (h : ConnStep o g c k pc e (g', pc', new)) (hk : pc.conn = some k)
    (hc : g.conns[k]? = some c) : ∃ c', g'.conns = g.conns.set k c' ∧ Flow k c pc e c' pc' new := by
  rcases h with h | h | h
  · exact readerStep_flow h hk hc
  · exact writerStep_flow h hk hc
  · exact handlerStep_flow h hk hc

end Flow

section Steps
variable {t : Tables (Payload M V)} {codec : ProtocolCodec (Payload M V)} {o : ServerOptions}
  {srv : RpcServer M V X} {s u : Config (Wired (Payload M V)) (Pc (Payload M V))} {i : Nat}
  {e : ServeEv M V X} {w : Wired (Payload M V)} {pc : Pc (Payload M V)} {k : Nat}
  {f : Frame (Payload M V)}

theorem fire_serving (h : (serving t codec o srv).fire s i e = some u) :
    ∃ pc e' g' pc' new, s.threads[i]? = some pc ∧ answered srv pc e = some e' ∧
      serverStep o s.shared.server pc (heard t codec s.shared pc e') = some (g', pc', new) ∧
      u = ⟨⟨g', BodyLimit.unread t codec s.shared pc⟩, s.threads.set i pc' ++ new⟩ := by
  obtain ⟨pc, w', pc', new, hi, hs, rfl⟩ := fire_cases h
  obtain ⟨e', he, hwired⟩ := Option.bind_eq_some_iff.mp hs
  obtain ⟨⟨g', q, new'⟩, hstep, heq⟩ := Option.map_eq_some_iff.mp hwired
  cases heq
  exact ⟨pc, e', g', pc', new, hi, he, hstep, rfl⟩

theorem run_wired {n : Nat} {streams : Nat → Reader UInt8} {tr : List (Nat × ServeEv M V X)}
    (h : Run (serving t codec o srv) Any (wiredStart o n streams) tr s) :
    ∃ tr', Run (wired t codec o) Any (wiredStart o n streams) tr' s := by
  refine h.view id fun s i e u hf => ?_
  obtain ⟨pc, e', g', pc', new, hi, -, hs, rfl⟩ := fire_serving hf
  refine ⟨[(i, e')], .step .refl trivial ?_⟩
  simp [Program.fire, hi, wired, hs]

/-- Where the three kinds of exchange come from. -/
theorem request_mem (h : .request k f ∈ exchangesAt t codec srv w pc e) :
    pc = .reading k ∧ ∃ c header req, w.server.conns[k]? = some c ∧
      (readRequest t codec (w.streams k)).1 = .ok (header, req) ∧
      f = ⟨c.framesRead, header, req⟩ := by
  revert h
  fun_cases exchangesAt t codec srv w pc e <;> intro h
  all_goals simp only [List.mem_singleton, List.not_mem_nil, reduceCtorEq] at h
  rename_i c hc hread
  cases h
  exact ⟨rfl, c, _, _, hc, hread, rfl⟩

theorem handled_mem {id : UInt64} {resp : Response (Payload M V)}
    (h : .handled k f id resp ∈ exchangesAt t codec srv w pc e) :
    pc = .handlerRunning k f ∧ ∃ req now mem,
      id = ((handled srv f req now mem).2.requests req).id ∧
      resp = (handled srv f req now mem).1 := by
  revert h
  fun_cases exchangesAt t codec srv w pc e <;> intro h
  all_goals simp only [List.mem_singleton, List.not_mem_nil, reduceCtorEq] at h
  cases h
  exact ⟨rfl, _, _, _, rfl, rfl⟩

theorem response_mem {n : Nat} {resp : Response (Payload M V)}
    (h : .response k n resp ∈ exchangesAt t codec srv w pc e) :
    ∃ c, w.server.conns[k]? = some c ∧ (n, resp) ∈ c.writeCh.buf := by
  revert h
  fun_cases exchangesAt t codec srv w pc e <;> intro h
  all_goals simp only [List.mem_singleton, List.not_mem_nil, reduceCtorEq] at h
  rename_i hhead
  cases h
  obtain ⟨c, hc, hbuf⟩ := Option.bind_eq_some_iff.mp hhead
  exact ⟨c, hc, List.mem_of_mem_head? hbuf⟩

end Steps

/-! ## Every run -/

section Runs
variable {t : Tables (Payload M V)} {codec : ProtocolCodec (Payload M V)} {o : ServerOptions}
  {srv : RpcServer M V X}

/-- The response answers a frame of the connection that was read: it carries the ID of the
header, or `HandleRequest` has returned it. -/
def Origin {P : Type} (log : List (Exchange P)) (k n : Nat) (resp : Response P) : Prop :=
  ∃ f, f.index = n ∧ .request k f ∈ log ∧
    (resp.id = f.header.requestID ∨ ∃ id, .handled k f id resp ∈ log)

theorem Origin.mono {P : Type} {log log' : List (Exchange P)} {k n : Nat} {resp : Response P}
    (h : Origin log k n resp) : Origin (log ++ log') k n resp := by
  obtain ⟨f, hn, hreq, hid | ⟨id, hhand⟩⟩ := h
  · exact ⟨f, hn, List.mem_append_left _ hreq, Or.inl hid⟩
  · exact ⟨f, hn, List.mem_append_left _ hreq, Or.inr ⟨id, List.mem_append_left _ hhand⟩⟩

/-- Frames in work were read, responses on their way come from them, and a connection numbers
its frames. -/
structure Traced (srv : RpcServer M V X) (s : Config (Wired (Payload M V)) (Pc (Payload M V)))
    (log : List (Exchange (Payload M V))) : Prop where
  frames : ∀ pc ∈ s.threads, ∀ k f, pc.conn = some k → frameOf pc = some f → .request k f ∈ log
  answers : ∀ k f resp, .handlerSend k f resp ∈ s.threads → ∃ id, .handled k f id resp ∈ log
  queued : ∀ (k : Nat) c n resp, s.shared.server.conns[k]? = some c → (n, resp) ∈ c.writeCh.buf →
    Origin log k n resp
  responses : ∀ k n resp, .response k n resp ∈ log → Origin log k n resp
  handled : ∀ k f id resp, .handled k f id resp ∈ log →
    .request k f ∈ log ∧ resp.id = id ∧ (srv.KeepsIDs → id = f.req.id)
  known : ∀ k f, .request k f ∈ log →
    ∃ c, s.shared.server.conns[k]? = some c ∧ f.index < c.framesRead
  unique : ∀ k f f', .request k f ∈ log → .request k f' ∈ log → f.index = f'.index → f = f'

section Fire
variable {s : Config (Wired (Payload M V)) (Pc (Payload M V))} {i : Nat} {e : ServeEv M V X}
  {e' : Ev (Payload M V)} {pc pc' : Pc (Payload M V)} {g' : ServerModel.Server (Payload M V)}
  {new : List (Pc (Payload M V))} {log : List (Exchange (Payload M V))}

/-- What is logged of a step is true, whatever the step. -/
theorem Traced.responses_logged (hT : Traced srv s log) {k n : Nat}
    {resp : Response (Payload M V)}
    (h : .response k n resp ∈ log ++ exchangesAt t codec srv s.shared pc e) :
    Origin (log ++ exchangesAt t codec srv s.shared pc e) k n resp := by
  rcases List.mem_append.mp h with h | h
  · exact (hT.responses k n resp h).mono
  · obtain ⟨c, hc, hbuf⟩ := response_mem h
    exact (hT.queued k c n resp hc hbuf).mono

theorem Traced.handled_logged (hT : Traced srv s log) (hpc : pc ∈ s.threads) {k : Nat}
    {f : Frame (Payload M V)} {id : UInt64} {resp : Response (Payload M V)}
    (h : .handled k f id resp ∈ log ++ exchangesAt t codec srv s.shared pc e) :
    .request k f ∈ log ++ exchangesAt t codec srv s.shared pc e ∧ resp.id = id ∧
      (srv.KeepsIDs → id = f.req.id) := by
  rcases List.mem_append.mp h with h | h
  · obtain ⟨hreq, hid, hkeep⟩ := hT.handled k f id resp h
    exact ⟨List.mem_append_left _ hreq, hid, hkeep⟩
  · obtain ⟨rfl, req, now, mem, rfl, rfl⟩ := handled_mem h
    refine ⟨List.mem_append_left _ (hT.frames _ hpc k f rfl rfl), handleRequest_id .., ?_⟩
    intro hkeep
    rw [ResponseIDs.handled, handleRequest_keeps hkeep, Memory.store_self]

/-- A frame that is read now has a number that no earlier one has. -/
theorem Traced.index_new (hT : Traced srv s log) {k : Nat} {f f' : Frame (Payload M V)}
    (h : .request k f ∈ log) (h' : .request k f' ∈ exchangesAt t codec srv s.shared pc e) :
    f.index ≠ f'.index := by
  obtain ⟨-, c', header, req, hc', -, rfl⟩ := request_mem h'
  obtain ⟨c, hc, hlt⟩ := hT.known k f h
  cases hc.symm.trans hc'
  exact Nat.ne_of_lt hlt

theorem Traced.unique_logged (hT : Traced srv s log) {k : Nat} {f f' : Frame (Payload M V)}
    (h : .request k f ∈ log ++ exchangesAt t codec srv s.shared pc e)
    (h' : .request k f' ∈ log ++ exchangesAt t codec srv s.shared pc e)
    (hidx : f.index = f'.index) : f = f' := by
  rcases List.mem_append.mp h with h | h <;> rcases List.mem_append.mp h' with h' | h'
  · exact hT.unique k f f' h h' hidx
  · exact absurd hidx (hT.index_new h h')
  · exact absurd hidx.symm (hT.index_new h' h)
  · obtain ⟨-, c, header, req, hc, hread, rfl⟩ := request_mem h
    obtain ⟨-, c', header', req', hc', hread', rfl⟩ := request_mem h'
    cases hc.symm.trans hc'
    cases hread.symm.trans hread'
    rfl

/-- Only the goroutines of connections read, handle and write. -/
theorem exchangesAt_free (h : pc.conn = none) : exchangesAt t codec srv s.shared pc e = [] := by
  cases pc <;> first | rfl | cases h

/-- `Serve` and `Close` leave everything as it is, or add a connection. -/
theorem Traced.free (hT : Traced srv s log) (hpc : pc.conn = none)
    (hs : FreeStep s.shared.server pc (heard t codec s.shared pc e') (g', pc', new)) :
    Traced srv ⟨⟨g', BodyLimit.unread t codec s.shared pc⟩, s.threads.set i pc' ++ new⟩
      (log ++ exchangesAt t codec srv s.shared pc e) := by
  obtain ⟨hpc', hnew⟩ := freeStep_conns hs
  have hold : ∀ q ∈ s.threads.set i pc' ++ new, q ∈ s.threads ∨ frameOf q = none := by
    intro q hq
    rcases List.mem_append.mp hq with hq | hq
    · rcases List.mem_or_eq_of_mem_set hq with hq | rfl
      · exact Or.inl hq
      · exact Or.inr (by cases q <;> first | rfl | cases hpc')
    · rcases hnew with ⟨-, rfl⟩ | ⟨-, rfl⟩
      · simp at hq
      · rw [List.mem_singleton.mp hq]
        exact Or.inr rfl
  rw [exchangesAt_free hpc, List.append_nil]
  refine ⟨?_, ?_, ?_, hT.responses, hT.handled, ?_, hT.unique⟩
  · intro q hq k f hk hf
    rcases hold q hq with hq | hnone
    · exact hT.frames q hq k f hk hf
    · rw [hnone] at hf
      cases hf
  · intro k f resp hq
    rcases hold _ hq with hq | hnone
    · exact hT.answers k f resp hq
    · cases hnone
  · intro k c n resp hc hbuf
    rcases hnew with ⟨hconns, -⟩ | ⟨hconns, -⟩
    · rw [hconns] at hc
      exact hT.queued k c n resp hc hbuf
    · rw [hconns, List.getElem?_append] at hc
      split at hc
      · exact hT.queued k c n resp hc hbuf
      · have hmem := List.mem_of_getElem? hc
        rw [List.mem_singleton.mp hmem] at hbuf
        simp [newConn, Chan.make] at hbuf
  · intro k f hreq
    obtain ⟨c, hc, hlt⟩ := hT.known k f hreq
    refine ⟨c, ?_, hlt⟩
    rcases hnew with ⟨hconns, -⟩ | ⟨hconns, -⟩
    · rw [hconns]
      exact hc
    · rw [hconns, List.getElem?_append_left (List.getElem?_eq_some_iff.mp hc).1]
      exact hc

/-- A frame that is read, and a call of the handler, are logged. -/
theorem request_logged {k : Nat} {c : Conn (Payload M V)} {header : Header}
    {req : Request (Payload M V)} (hc : s.shared.server.conns[k]? = some c)
    (h : heard t codec s.shared (.reading k) e' = .frame header req) :
    .request k ⟨c.framesRead, header, req⟩ ∈ exchangesAt t codec srv s.shared (.reading k) e := by
  simp only [heard] at h
  split at h
  · rename_i header' req' hread
    cases h
    simp [exchangesAt, hread, hc]
  · cases h

theorem answered_logged {k : Nat} {f : Frame (Payload M V)} {resp : Response (Payload M V)}
    (he : answered srv (.handlerRunning k f) e = some e')
    (h : ∀ resp', e' = .returned resp' → resp' = resp) :
    ∃ id, .handled k f id resp ∈ exchangesAt t codec srv s.shared (.handlerRunning k f) e := by
  cases e with
  | env e => cases he
  | handle req now mem =>
    cases he
    rw [← h _ rfl]
    exact ⟨_, List.mem_singleton_self _⟩

/-- A step of a goroutine of connection `k`. -/
structure Moves (s : Config (Wired (Payload M V)) (Pc (Payload M V))) (k : Nat)
    (c c' : Conn (Payload M V)) (e : Ev (Payload M V)) (g' : ServerModel.Server (Payload M V))
    (pc pc' : Pc (Payload M V)) (new : List (Pc (Payload M V))) : Prop where
  mem : pc ∈ s.threads
  conn : pc.conn = some k
  before : s.shared.server.conns[k]? = some c
  after : g'.conns[k]? = some c'
  others : ∀ j, j ≠ k → g'.conns[j]? = s.shared.server.conns[j]?
  next : pc'.conn = some k
  spawned : ∀ q ∈ new, q.conn = some k
  flow : Flow k c pc e c' pc' new

theorem moves_of_connStep {k : Nat} {c : Conn (Payload M V)} (hi : s.threads[i]? = some pc)
    (hk : pc.conn = some k) (hc : s.shared.server.conns[k]? = some c)
    (hs : ConnStep o s.shared.server c k pc e' (g', pc', new)) :
    ∃ c', Moves s k c c' e' g' pc pc' new := by
  obtain ⟨c', hconns, hflow⟩ := connStep_flow hs hk hc
  obtain ⟨d, hstay⟩ := connStep_stays hc hs
  have hlt := (List.getElem?_eq_some_iff.mp hc).1
  refine ⟨c', List.mem_of_getElem? hi, hk, hc, ?_, fun j hj => ?_, hstay.next, hstay.spawned,
    hflow⟩
  · rw [hconns, List.getElem?_set_self hlt]
  · rw [hconns, List.getElem?_set_ne (Ne.symm hj)]

section Moved
variable {k : Nat} {c c' : Conn (Payload M V)}

theorem Traced.frames_moved (hT : Traced srv s log)
    (hm : Moves s k c c' (heard t codec s.shared pc e') g' pc pc' new)
    {q : Pc (Payload M V)} (hq : q ∈ s.threads.set i pc' ++ new) {j : Nat}
    {f : Frame (Payload M V)} (hj : q.conn = some j) (hf : frameOf q = some f) :
    .request j f ∈ log ++ exchangesAt t codec srv s.shared pc e := by
  have hwork : ∀ f, frameOf pc = some f →
      .request k f ∈ log ++ exchangesAt t codec srv s.shared pc e := fun f hf =>
    List.mem_append_left _ (hT.frames pc hm.mem k f hm.conn hf)
  rcases List.mem_append.mp hq with hq | hq
  · rcases List.mem_or_eq_of_mem_set hq with hq | rfl
    · exact List.mem_append_left _ (hT.frames q hq j f hj hf)
    · cases hm.next.symm.trans hj
      rcases hm.flow.frames with ⟨-, -, hframe⟩ | ⟨header, req, rfl, hheard, -, hframe⟩
      · exact hwork f (hframe f hf)
      · cases hframe.symm.trans hf
        exact List.mem_append_right _ (request_logged hm.before hheard)
  · cases (hm.spawned q hq).symm.trans hj
    exact hwork f ((hm.flow.started q hq).1 f hf)

theorem Traced.answers_moved (hT : Traced srv s log) (he : answered srv pc e = some e')
    (hm : Moves s k c c' (heard t codec s.shared pc e') g' pc pc' new) {j : Nat}
    {f : Frame (Payload M V)} {resp : Response (Payload M V)}
    (hq : .handlerSend j f resp ∈ s.threads.set i pc' ++ new) :
    ∃ id, .handled j f id resp ∈ log ++ exchangesAt t codec srv s.shared pc e := by
  rcases List.mem_append.mp hq with hq | hq
  · rcases List.mem_or_eq_of_mem_set hq with hq | rfl
    · obtain ⟨id, hlog⟩ := hT.answers j f resp hq
      exact ⟨id, List.mem_append_left _ hlog⟩
    · cases hm.next
      obtain ⟨rfl, hret⟩ := hm.flow.answer f resp rfl
      obtain ⟨id, hlog⟩ := answered_logged (t := t) (s := s) he hret
      exact ⟨id, List.mem_append_right _ hlog⟩
  · cases hm.spawned _ hq
    exact absurd rfl ((hm.flow.started _ hq).2 f resp)

theorem Traced.queued_moved (hT : Traced srv s log)
    (hm : Moves s k c c' (heard t codec s.shared pc e') g' pc pc' new) {j : Nat}
    {d : Conn (Payload M V)} {n : Nat} {resp : Response (Payload M V)}
    (hd : g'.conns[j]? = some d) (hbuf : (n, resp) ∈ d.writeCh.buf) : Origin log j n resp := by
  by_cases hj : j = k
  · subst hj
    cases hm.after.symm.trans hd
    rcases hm.flow.queue with hsame | ⟨f, resp', hf, happ, hid⟩ | ⟨n', resp', -, htake⟩
    · rw [hsame] at hbuf
      exact hT.queued j c n resp hm.before hbuf
    · rw [happ, List.mem_append, List.mem_singleton] at hbuf
      rcases hbuf with hbuf | heq
      · exact hT.queued j c n resp hm.before hbuf
      · cases heq
        refine ⟨f, rfl, hT.frames pc hm.mem j f hm.conn hf, ?_⟩
        rcases hid with hid | rfl
        · exact Or.inl hid
        · exact Or.inr (hT.answers j f resp hm.mem)
    · have hold : (n, resp) ∈ c.writeCh.buf := by
        rw [htake]
        exact List.mem_cons_of_mem _ hbuf
      exact hT.queued j c n resp hm.before hold
  · rw [hm.others j hj] at hd
    exact hT.queued j d n resp hd hbuf

theorem Traced.known_moved (hT : Traced srv s log)
    (hm : Moves s k c c' (heard t codec s.shared pc e') g' pc pc' new) {j : Nat}
    {f : Frame (Payload M V)}
    (hreq : .request j f ∈ log ++ exchangesAt t codec srv s.shared pc e) :
    ∃ d, g'.conns[j]? = some d ∧ f.index < d.framesRead := by
  rcases List.mem_append.mp hreq with hreq | hreq
  · obtain ⟨d, hd, hidx⟩ := hT.known j f hreq
    by_cases hj : j = k
    · subst hj
      cases hm.before.symm.trans hd
      refine ⟨c', hm.after, ?_⟩
      rcases hm.flow.frames with ⟨hread, -, -⟩ | ⟨header, req, -, -, hread, -⟩ <;> omega
    · exact ⟨d, by rw [hm.others j hj]; exact hd, hidx⟩
  · obtain ⟨rfl, d, header, req, hd, hread, rfl⟩ := request_mem hreq
    cases hm.conn
    cases hm.before.symm.trans hd
    refine ⟨c', hm.after, ?_⟩
    -- the read has returned a frame, so the connection counts one more
    rcases hm.flow.frames with ⟨-, hfail, -⟩ | ⟨header', req', -, -, hnext, -⟩
    · have hheard := hfail rfl
      simp only [heard, hread] at hheard
      cases hheard
    · simp only [hnext]
      omega

end Moved

theorem Traced.fire {u : Config (Wired (Payload M V)) (Pc (Payload M V))} (hT : Traced srv s log)
    (h : (serving t codec o srv).fire s i e = some u) :
    Traced srv u (log ++ exchanges t codec srv s i e) := by
  obtain ⟨pc, e', g', pc', new, hi, he, hs, rfl⟩ := fire_serving h
  have hlog : exchanges t codec srv s i e = exchangesAt t codec srv s.shared pc e := by
    simp only [exchanges, hi]
  rw [hlog]
  rcases serverStep_cases hs with ⟨hpc, hfree⟩ | ⟨k, c, hk, hc, hconn⟩
  · exact hT.free hpc hfree
  · obtain ⟨c', hm⟩ := moves_of_connStep hi hk hc hconn
    exact ⟨fun q hq j f hj hf => hT.frames_moved hm hq hj hf,
      fun j f resp hq => hT.answers_moved he hm hq,
      fun j d n resp hd hbuf => (hT.queued_moved hm hd hbuf).mono,
      fun k n resp h => hT.responses_logged h,
      fun k f id resp h => hT.handled_logged hm.mem h,
      fun j f h => hT.known_moved hm h, fun k f f' h h' hidx => hT.unique_logged h h' hidx⟩

end Fire

theorem wiredStart_traced (o : ServerOptions) (n : Nat) (streams : Nat → Reader UInt8) :
    Traced srv (wiredStart o n streams) [] := by
  have hidle : ∀ pc ∈ (wiredStart o n streams).threads, frameOf (P := Payload M V) pc = none := by
    intro pc hpc
    simp only [wiredStart, start, List.mem_cons, List.mem_replicate] at hpc
    rcases hpc with rfl | rfl | rfl | ⟨-, rfl⟩ <;> rfl
  refine ⟨?_, ?_, ?_, by simp, by simp, by simp, by simp⟩
  · intro pc hpc k f _ hf
    rw [hidle pc hpc] at hf
    cases hf
  · intro k f resp hpc
    cases hidle _ hpc
  · intro k c n resp hc
    simp [wiredStart, newServer] at hc

theorem run_traced {n : Nat} {streams : Nat → Reader UInt8} {tr : List (Nat × ServeEv M V X)}
    {s : Config (Wired (Payload M V)) (Pc (Payload M V))}
    (h : Run (serving t codec o srv) Any (wiredStart o n streams) tr s) :
    Traced srv s (history t codec o srv n streams tr) :=
  run_observed h (wiredStart_traced o n streams) fun _ _ _ _ _ hT _ hf => hT.fire hf

/-! ## The IDs on the wire -/

/-- The frame begins with a header with this request ID. -/
def CarriesID (frame : Bytes) (id : UInt64) : Prop :=
  ∃ header, decodeHeader frame = .ok header ∧ header.requestID = id

theorem encodeResponse_carries {resp : Response (Payload M V)} {frame : Bytes}
    (h : encodeResponse codec resp = .ok frame) (id : UInt64) :
    CarriesID frame id ↔ resp.id = id := by
  have henc : encode codec (.response resp) = .ok frame := h
  obtain ⟨data, packed, -, -, rfl⟩ := encode_ok henc
  have hdec := decodeHeader_encodeHeader
    (h := frameHeader codec (.response resp) packed.length) rfl rfl packed
  constructor
  · rintro ⟨header, hheader, rfl⟩
    rw [hdec] at hheader
    cases hheader
    rfl
  · rintro rfl
    exact ⟨_, hdec, rfl⟩

/-- Every response frame carries the ID in the header of its request frame. -/
def Addressed (codec : ProtocolCodec (Payload M V)) (log : List (Exchange (Payload M V))) : Prop :=
  ∀ k f resp frame, .request k f ∈ log → .response k f.index resp ∈ log →
    encodeResponse codec resp = .ok frame → CarriesID frame f.header.requestID

/-- Whatever the peers send, whatever interceptors and methods do and however the goroutines
are scheduled: responses carry the IDs of the request headers exactly when `HandleRequest` has
left these IDs in the requests whose responses are written. Where nobody changes the ID of a
request, that is the ID in its body. -/
theorem responses_carry_iff {n : Nat} {streams : Nat → Reader UInt8}
    {tr : List (Nat × ServeEv M V X)} {s : Config (Wired (Payload M V)) (Pc (Payload M V))}
    (h : Run (serving t codec o srv) Any (wiredStart o n streams) tr s) :
    (Addressed codec (history t codec o srv n streams tr) ↔
      ∀ k f id resp frame, .handled k f id resp ∈ history t codec o srv n streams tr →
        .response k f.index resp ∈ history t codec o srv n streams tr →
        encodeResponse codec resp = .ok frame → id = f.header.requestID) ∧
    (srv.KeepsIDs → ∀ k f id resp, .handled k f id resp ∈ history t codec o srv n streams tr →
      id = f.req.id) := by
  have hT := run_traced h
  refine ⟨⟨?_, ?_⟩, fun hkeep k f id resp hhand => (hT.handled k f id resp hhand).2.2 hkeep⟩
  · intro haddr k f id resp frame hhand hresp henc
    obtain ⟨hreq, hid, -⟩ := hT.handled k f id resp hhand
    rw [← hid]
    exact (encodeResponse_carries henc _).mp (haddr k f resp frame hreq hresp henc)
  · intro hids k f resp frame hreq hresp henc
    rw [encodeResponse_carries henc]
    obtain ⟨f', hidx, hreq', hid | ⟨id, hhand⟩⟩ := hT.responses k f.index resp hresp
    · rw [hid, hT.unique k f' f hreq' hreq hidx]
    · -- the response is that of the handler, to this very frame
      cases hT.unique k f' f hreq' hreq hidx
      rw [(hT.handled k f id resp hhand).2.1]
      exact hids k f id resp frame hhand hresp henc

end Runs

/-! ## Two IDs -/

open Codec.Bodies (WireResponse Formats sampleFormat zeroWire zeroRequest jsonCodec
  protobufCodec)

/-- What JSON makes of the answer to an unknown service. -/
def notFoundText : Bytes :=
  ("\x7b\"id\":0,\"error\":\x7b\"code\":5," ++
    "\"message\":\"service  not found in registry\"\x7d\x7d").toUTF8.data.toList

def notFoundWire : WireResponse Error :=
  ⟨0, [], some (newError errorCodeNotFound "service  not found in registry"), none, 0, 0⟩

def formats : Formats :=
  { (default : Formats) with jsonResponse := sampleFormat _ notFoundText notFoundWire (by decide) }

def sampleTables : Tables (Payload Unit Unit) :=
  ⟨jsonCodec formats noMarshal, protobufCodec formats noMarshal, noneCompressor⟩

def sampleCodec : ProtocolCodec (Payload Unit Unit) :=
  newProtocolCodec sampleTables codecTypeJSON compressTypeNone

/-- A server without services. -/
def noServices : RpcServer Unit Unit Unit := ⟨[], Server.Services.newServiceRegistry⟩

/-- The request is read, handled, and its response is taken by the writer. -/
def oneAnswer : List (Nat × ServeEv Unit Unit Unit) :=
  [(2, .env .accepted), (2, .env .step), (2, .env .step), (3, .env .setupOk), (3, .env .step),
   (3, .env .step), (3, .env .step), (3, .env .step), (5, .env .step),
   (5, .handle 0 0 ⟨fun _ => zeroRequest, ()⟩), (5, .env (.send 0)), (4, .env .step)]

def oneHistory (requestID : UInt64) : List (Exchange (Payload Unit Unit)) :=
  history sampleTables sampleCodec (limitedTo 33) noServices 0 (oneFrame requestID) oneAnswer

/-- The request as it is decoded: its body says that its ID is zero. -/
def decodedFrame (requestID : UInt64) : Frame (Payload Unit Unit) :=
  ⟨0, zeroHeader requestID, Codec.Bodies.readRequest zeroWire zeroRequest⟩

def notFound : Response (Payload Unit Unit) :=
  newErrorResponse 0 (newError errorCodeNotFound "service  not found in registry") 0

theorem notFound_encodes : encodeResponse sampleCodec notFound =
    .ok (encodeHeader (newHeader msgTypeResponse codecTypeJSON 0 70) ++ notFoundText) := rfl

/-- The header says zero as well. -/
theorem responses_carry_iff_same : Addressed sampleCodec (oneHistory 0) := by
  have hrun : (exec (serving sampleTables sampleCodec (limitedTo 33) noServices) Any
    (wiredStart (limitedTo 33) 0 (oneFrame 0)) oneAnswer).isSome := by decide
  refine (responses_carry_iff (run_exec hrun)).1.mpr ?_
  have hlog : oneHistory 0 = [.request 0 (decodedFrame 0), .handled 0 (decodedFrame 0) 0 notFound,
    .response 0 0 notFound] := rfl
  intro k f id resp frame hhand _ _
  change _ ∈ oneHistory 0 at hhand
  simp only [hlog, List.mem_cons, reduceCtorEq, List.not_mem_nil, or_false, false_or,
    Exchange.handled.injEq] at hhand
  obtain ⟨-, rfl, rfl, -⟩ := hhand
  rfl

/-- The header says seven, and the answer to an unknown method goes to zero. -/
theorem answer_to_other_id :
    ¬ ∀ (f : Formats) (mar : Marshal Unit Unit) (gzip : Compressor)
      (codecType : CodecType) (compressType : CompressType) (o : ServerOptions)
      (srv : RpcServer Unit Unit Unit) (n : Nat) (streams : Nat → Reader UInt8)
      (tr : List (Nat × ServeEv Unit Unit Unit))
      (s : Config (Wired (Payload Unit Unit)) (Pc (Payload Unit Unit))),
      let t := ⟨jsonCodec f mar, protobufCodec f mar, gzip⟩
      let codec := newProtocolCodec t codecType compressType
      Run (serving t codec o srv) Any (wiredStart o n streams) tr s →
      Addressed codec (history t codec o srv n streams tr) := by
  intro hall
  have hrun : (exec (serving sampleTables sampleCodec (limitedTo 33) noServices) Any
    (wiredStart (limitedTo 33) 0 (oneFrame 7)) oneAnswer).isSome := by decide
  have haddr : Addressed sampleCodec (oneHistory 7) :=
    hall formats noMarshal noneCompressor codecTypeJSON compressTypeNone (limitedTo 33) noServices 0
      (oneFrame 7) oneAnswer _ (run_exec hrun)
  have hlog : oneHistory 7 = [.request 0 (decodedFrame 7), .handled 0 (decodedFrame 7) 0 notFound,
    .response 0 0 notFound] := rfl
  have hcarries := haddr 0 (decodedFrame 7) notFound _ (by simp [hlog])
    (by rw [hlog]; simp [decodedFrame]) notFound_encodes
  rw [encodeResponse_carries notFound_encodes] at hcarries
  exact absurd hcarries (by decide)

end RpcInGo.Tcp.ResponseIDs
