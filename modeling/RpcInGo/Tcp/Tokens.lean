import RpcInGo.Tcp.ConnLife
import RpcInGo.Tcp.Responses

/-!
The request semaphore of `tcp.Server` over all connections.

* `connStep_borrows`: a step moves a token in or out together with the
  goroutine that has to give it back, unless a request rejected for want of a
  token goes on to its handler;
* `run_matched`: as long as that does not happen, the tokens in the semaphore are
  the handlers that still have to release one;
* `running_le_limit`: then at most `MaxConcurrentRequests` handler functions run.
-/

namespace RpcInGo.Tcp.Tokens
open Lib.Channel Lib.Goroutine Protocol.Message ServerModel ConnLife Responses

variable {Value : Type}

/-- From the acquired token to its release. -/
def holding : Pc Value → Int
  | .spawn _ _ | .handlerStart _ _ | .handlerRunning _ _ | .handlerSend _ _ _ => 1
  | .handlerRelease _ _ => 1
  | _ => 0

def running : Pc Value → Int
  | .handlerRunning _ _ => 1
  | _ => 0

/-- The handler function has returned and the token is still to be released. -/
def unreleased : Pc Value → Int
  | .handlerSend _ _ _ | .handlerRelease _ _ => 1
  | _ => 0

def tokens (g : Server Value) : Int :=
  match g.reqSemaphore with
  | none => 0
  | some sem => sem.buf.length

/-- The reader enqueues the answer "too many concurrent requests". -/
def overflows (s : Config (Server Value) (Pc Value)) (i : Nat) (e : Ev Value) : Bool :=
  match s.threads[i]?, e with
  | some (.rejectBusy _ _), .send _ => true
  | _, _ => false

/-- No step of the run rejects a request for want of a token. -/
def NoOverflow (s : Config (Server Value) (Pc Value)) (i : Nat) (e : Ev Value) : Prop :=
  overflows s i e = false

instance (s : Config (Server Value) (Pc Value)) (i : Nat) (e : Ev Value) :
    Decidable (NoOverflow s i e) :=
  inferInstanceAs (Decidable (_ = false))

/-! ## One step -/

structure Borrows (g : Server Value) (pc : Pc Value) (g' : Server Value) (pc' : Pc Value)
    (new : List (Pc Value)) : Prop where
  count : tokens g' - (holding pc' + total holding new) = tokens g - holding pc
  limit : g'.reqSemaphore.map Chan.cap = g.reqSemaphore.map Chan.cap
  opened : g'.reqSemaphore.map Chan.closed = g.reqSemaphore.map Chan.closed

section Steps
variable {o : ServerOptions} {g g' : Server Value} {c d : Conn Value} {k : Nat}
  {pc pc' : Pc Value} {e : Ev Value} {new : List (Pc Value)}

theorem Borrows.same (hg : g'.reqSemaphore = g.reqSemaphore)
    (hw : holding pc' + total holding new = holding pc) : Borrows g pc g' pc' new := by
  refine ⟨?_, by rw [hg], by rw [hg]⟩
  rw [tokens, tokens, hg, hw]

theorem enqueue_borrows {f : Frame Value} {resp : Response Value} {next : Pc Value}
    (h : enqueue g k d f resp next = some (g', pc', new)) (hw : holding next = holding pc)
    (ho : d.writeCh.closed = false) : Borrows g pc g' pc' new := by
  obtain ⟨ch, -, rfl, rfl, rfl⟩ | ⟨hcl, -, -, -⟩ := enqueue_cases h
  · exact .same rfl (by simp [hw])
  · rw [ho] at hcl
    cases hcl

theorem acquire_borrows {j : Nat} {sem sem' : Chan Unit} {f : Frame Value}
    (hsem : g.reqSemaphore = some sem) (hs : sem.send () = .ok sem') :
    Borrows g (.acquire j f) { g with reqSemaphore := some sem' } (.spawn k f) [] := by
  obtain ⟨hb, hcap, hcl, -⟩ := send_ok hs
  refine ⟨?_, by simp [hsem, hcap], by simp [hsem, hcl]⟩
  simp [tokens, hsem, hb, holding]

theorem release_borrows {j : Nat} {sem sem' : Chan Unit} {f : Frame Value}
    (hsem : g.reqSemaphore = some sem) (hs : sem.recv = .ok () sem') :
    Borrows g (.handlerRelease j f) { g with reqSemaphore := some sem' } (.handlerDone k f) [] := by
  obtain ⟨hb, hcap, hcl⟩ := recv_ok hs
  refine ⟨?_, by simp [hsem, hcap], by simp [hsem, hcl]⟩
  simp [tokens, hsem, hb, holding]

theorem readerStep_borrows (h : readerStep o g c k pc e = some (g', pc', new))
    (hopen : 1 ≤ alive pc + looping pc → c.writeCh.closed = false)
    (hno : ∀ j f now, pc = .rejectBusy j f → e ≠ .send now) (hsem : g.reqSemaphore ≠ none) :
    Borrows g pc g' pc' new := by
  revert h
  fun_cases readerStep o g c k pc e <;> intro h <;> try contradiction
  all_goals first
    | exact absurd rfl (hno _ _ _ rfl)
    | exact enqueue_borrows h rfl (hopen (by simp [alive, looping]))
    | cases h
  all_goals first
    | exact .same rfl rfl
    | exact acquire_borrows (by assumption) (by assumption)

theorem handlerStep_borrows (h : handlerStep g c k pc e = some (g', pc', new))
    (hopen : 1 ≤ alive pc + looping pc → c.writeCh.closed = false)
    (hsem : g.reqSemaphore ≠ none) : Borrows g pc g' pc' new := by
  revert h
  fun_cases handlerStep g c k pc e <;> intro h <;> try contradiction
  all_goals first
    | exact enqueue_borrows h rfl (hopen (by simp [alive, looping]))
    | cases h
  all_goals first
    | exact .same rfl rfl
    | exact release_borrows (by assumption) (by assumption)

theorem connStep_borrows (h : ConnStep o g c k pc e (g', pc', new))
    (hopen : 1 ≤ alive pc + looping pc → c.writeCh.closed = false)
    (hno : ∀ j f now, pc = .rejectBusy j f → e ≠ .send now) (hsem : g.reqSemaphore ≠ none) :
    Borrows g pc g' pc' new := by
  rcases h with h | h | h
  · exact readerStep_borrows h hopen hno hsem
  · revert h
    fun_cases writerStep g c k pc e <;> intro h <;> try contradiction
    all_goals
      cases h
      exact .same rfl rfl
  · exact handlerStep_borrows h hopen hsem

theorem freeStep_borrows (h : FreeStep g pc e (g', pc', new)) : Borrows g pc g' pc' new := by
  rcases h with h | h
  · revert h
    fun_cases serveStep g pc e <;> intro h <;> try contradiction
    all_goals
      cases h
      exact .same rfl rfl
  · revert h
    fun_cases closeStep g pc e <;> intro h <;> try contradiction
    all_goals
      cases h
      exact .same rfl rfl

end Steps

/-! ## Every run -/

structure Matched (o : ServerOptions) (s : Config (Server Value) (Pc Value)) : Prop where
  alive : Alive s
  count : tokens s.shared = total holding s.threads
  limit : s.shared.reqSemaphore.map Chan.cap = some o.maxConcurrentRequests.toNat
  opened : s.shared.reqSemaphore.map Chan.closed = some false

theorem NoOverflow.ne_send {s : Config (Server Value) (Pc Value)} {i : Nat} {e : Ev Value}
    (h : NoOverflow s i e) {pc : Pc Value} (hi : s.threads[i]? = some pc) (j : Nat)
    (f : Frame Value) (now : Int) (hpc : pc = .rejectBusy j f) : e ≠ .send now := by
  rintro rfl
  subst hpc
  simp [NoOverflow, overflows, hi] at h

theorem fire_matched {o : ServerOptions} {s t : Config (Server Value) (Pc Value)} {i : Nat}
    {e : Ev Value} (hm : Matched o s) (hok : NoOverflow s i e)
    (h : (server o).fire s i e = some t) : Matched o t := by
  have ha := fire_alive hm.alive h
  obtain ⟨pc, g', pc', new, hi, rfl, hs⟩ := fire_server h
  have hsem : s.shared.reqSemaphore ≠ none := by
    intro h0
    have := hm.limit
    simp [h0] at this
  have hb : Borrows s.shared pc g' pc' new := by
    rcases hs with ⟨-, hs⟩ | ⟨k, c, hk, hc, hs⟩
    · exact freeStep_borrows hs
    · exact connStep_borrows hs (hm.alive.writeCh_open hi hk hc) (hok.ne_send hi) hsem
  refine ⟨ha, ?_, hb.limit.trans hm.limit, hb.opened.trans hm.opened⟩
  have := hb.count
  have := hm.count
  simp only [total_append, total_set _ _ hi]
  omega

theorem start_matched {o : ServerOptions} (ho : 0 < o.maxConcurrentRequests) (n : Nat) :
    Matched o (start o n : Config (Server Value) (Pc Value)) := by
  refine ⟨start_alive o n, ?_, ?_, ?_⟩
  · have h0 : total holding (start o n : Config (Server Value) (Pc Value)).threads = 0 := by
      apply total_eq_zero
      intro pc hpc
      simp only [start, List.mem_cons, List.mem_replicate] at hpc
      rcases hpc with rfl | rfl | rfl | ⟨-, rfl⟩ <;> rfl
    rw [h0]
    simp [start, newServer, tokens, semaphore, ho, Chan.make]
  · simp [start, newServer, semaphore, ho, Chan.make]
  · simp [start, newServer, semaphore, ho, Chan.make]

theorem run_matched {o : ServerOptions} (ho : 0 < o.maxConcurrentRequests) {n : Nat}
    {tr : List (Nat × Ev Value)} {s : Config (Server Value) (Pc Value)}
    (hr : Run (server o) NoOverflow (start o n) tr s) : Matched o s :=
  hr.invariant (start_matched ho n) (fun _ _ _ _ hm hok hf => fire_matched hm hok hf)

/-! ## What the tokens say -/

theorem running_le_holding (pc : Pc Value) : running pc ≤ holding pc := by
  cases pc <;> simp [running, holding]

theorem unreleased_le_holding (pc : Pc Value) : unreleased pc ≤ holding pc := by
  cases pc <;> simp [unreleased, holding]

theorem Matched.tokens_le {o : ServerOptions} {s : Config (Server Value) (Pc Value)}
    (hm : Matched o s) (ho : 0 < o.maxConcurrentRequests) :
    tokens s.shared ≤ o.maxConcurrentRequests := by
  have hlimit := hm.limit
  unfold tokens
  split
  · omega
  · rename_i sem hsem
    rw [hsem, Option.map_some, Option.some.injEq] at hlimit
    have := sem.bounded
    omega

/-- As long as no request is rejected for want of a token, at most
`MaxConcurrentRequests` handler functions run at the same time. -/
theorem running_le_limit {o : ServerOptions} (ho : 0 < o.maxConcurrentRequests) {n : Nat}
    {tr : List (Nat × Ev Value)} {s : Config (Server Value) (Pc Value)}
    (hr : Run (server o) NoOverflow (start o n) tr s) :
    total running s.threads ≤ o.maxConcurrentRequests := by
  have hm := run_matched ho hr
  calc total running s.threads
      ≤ total holding s.threads := total_le running_le_holding _
    _ = tokens s.shared := hm.count.symm
    _ ≤ o.maxConcurrentRequests := hm.tokens_le ho

/-- One connection, two requests one after the other, both handled. -/
def twoInTurn : List (Nat × Ev Unit) :=
  serveSmall ++ [(3, .step), (3, .frame (aHeader 8 2) aRequest), (3, .step), (3, .step), (6, .step)]

theorem twoInTurn_runs :
    (exec (server limited) NoOverflow (start limited 0) twoInTurn).isSome := by decide

theorem running_le_limit_twoInTurn :
    let s := (exec (server limited) NoOverflow (start limited 0) twoInTurn).get twoInTurn_runs
    total running s.threads = 1 ∧ total running s.threads ≤ limited.maxConcurrentRequests :=
  ⟨by decide, running_le_limit (by decide) (run_exec twoInTurn_runs)⟩

/-- A second request arrives while the handler of the first runs: it is rejected
and handled all the same. -/
def twoAtOnce : List (Nat × Ev Unit) :=
  connect ++ [(3, .frame (aHeader 7 3) aRequest), (3, .step), (3, .step), (5, .step), (3, .step),
    (3, .frame (aHeader 8 3) aRequest), (3, .step), (3, .send 0), (3, .step), (6, .step)]

theorem twoAtOnce_runs : (exec (server limited) Any (start limited 0) twoAtOnce).isSome := by
  decide

theorem overload_exceeds_limit :
    ¬ ∀ (o : ServerOptions) (n : Nat) (tr : List (Nat × Ev Unit))
      (s : Config (Server Unit) (Pc Unit)), 0 < o.maxConcurrentRequests →
      Run (server o) Any (start o n) tr s →
      total running s.threads ≤ o.maxConcurrentRequests := by
  intro h
  have hbad := h limited 0 twoAtOnce _ (by decide) (run_exec twoAtOnce_runs)
  exact absurd hbad (by decide)

end RpcInGo.Tcp.Tokens
