import RpcInGo.System.Wire

/-!
A `tcp.Client` with the requests of its calls, and what it gives to its connections.

* `run_wiredClient`: with its requests the client takes only the steps of the client of
  `Completion`;
* `clientStep_turn`: what one step does to the IDs of the calls and to the goroutines that
  have still to write;
* `run_written`: in every run each call has a request with its ID, and whatever was given to
  a connection is the frame of one call, which gives it once.
-/

namespace RpcInGo.System.Caller
open Lib.ByteStream Lib.Goroutine Protocol.Message Codec.Registry Tcp.Framing Tcp.ClientModel
  Tcp.Multiplex Tcp.Completion Wire

variable {P : Type}

/-- A frame that a call has given to a connection. -/
structure Write (P : Type) where
  conn : Nat
  call : Nat
  sent : Sent P

/-- The client, the requests of its calls, and (bookkeeping of the model) what it has given
to its connections, in order. -/
structure Calling (P : Type) where
  wired : WiredClient
  requests : List (Request P)
  wrote : List (Write P)

/-- As `Ev`, but `SendRequest` is called with a request. -/
inductive CallEv (P : Type) where
  | env (e : Ev)
  | sendRequest (req : Request P)

def Calling.frame (codec : ProtocolCodec P) (w : Calling P) (x : Nat) : Option (Sent P) :=
  (w.requests[x]?).bind fun req => send codec (.request req)

def asked (codec : ProtocolCodec P) (w : Calling P) : Pc P → CallEv P → Option Ev
  | .returned _, .sendRequest _ => some .sendRequest
  | _, .sendRequest _ => none
  | _, .env .sendRequest => none
  -- `WriteRequest` fails when the request cannot be encoded
  | .write x, .env .written => if (w.frame codec x).isSome then some .written else none
  | _, .env e => some e

/-- `SendRequest` sets the ID of the request it is given. -/
def called (w : Calling P) : CallEv P → List (Request P)
  | .sendRequest req => [{ req with id := w.wired.client.nextID + 1 }]
  | .env _ => []

/-- A write that fails has given the connection some part of the frame. -/
def writes (codec : ProtocolCodec P) (w : Calling P) : Pc P → Ev → List (Write P)
  | .write x, .written | .write x, .writeFailed _ =>
    match w.wired.client.conn, w.frame codec x with
    | some m, some sent => [⟨m, x, sent⟩]
    | _, _ => []
  | _, _ => []

def calling (t : Tables P) (codec : ProtocolCodec P) :
    Program (Calling P) (Pc P) (CallEv P) where
  step w pc e := (asked codec w pc e).bind fun e' =>
    ((wiredClient t codec).step w.wired pc e').map fun next =>
      (⟨next.1, w.requests ++ called w e, w.wrote ++ writes codec w pc e'⟩, next.2)

def callingStart (n : Nat) (incoming : Nat → Reader UInt8) : Config (Calling P) (Pc P) :=
  ⟨⟨⟨newClient, incoming, []⟩, [], []⟩, (start n).threads⟩

/-- The frames given to connection `m`. -/
def Calling.sentOn (w : Calling P) (m : Nat) : List (Sent P) :=
  (w.wrote.filter (·.conn = m)).map (·.sent)

/-! ## One step -/

/-- The goroutine has still to write the request of call `x`. -/
def ahead (x : Nat) : Pc P → Int
  | .insert y | .write y => if y = x then 1 else 0
  | _ => 0

def writesCall (x : Nat) : Pc P → Ev → Int
  | .write y, .written | .write y, .writeFailed _ => if y = x then 1 else 0
  | _, _ => 0

/-- The ID of the call that begins. -/
def begins (g : Client) : Ev → List UInt64
  | .sendRequest => [g.nextID + 1]
  | _ => []

def unborn (g : Client) (x : Nat) : Int := if g.calls.length ≤ x then 1 else 0

/-- The IDs of the calls, and who has still to write what. -/
structure Turn (g : Client) (pc : Pc P) (e : Ev) (g' : Client) (pc' : Pc P)
    (new : List (Pc P)) : Prop where
  ids : g'.calls.map (·.id) = g.calls.map (·.id) ++ begins g e
  once : ∀ x, writesCall x pc e + (ahead x pc' + total (ahead x) new) + unborn g' x ≤
    ahead x pc + unborn g x

section Steps
variable {decode : CodecType → List UInt8 → Except GoError (Response P)} {g g' : Client}
  {pc pc' : Pc P} {e : Ev} {new : List (Pc P)}

theorem ahead_nonneg (x : Nat) (pc : Pc P) : 0 ≤ ahead x pc := by
  unfold ahead
  split <;> first | (split <;> decide) | decide

/-- A step that begins no call and is ahead of no write. -/
theorem Turn.keep (he : begins g e = []) (hids : g'.calls.map (·.id) = g.calls.map (·.id))
    (h : ∀ x, writesCall x pc e + (ahead x pc' + total (ahead x) new) ≤ ahead x pc) :
    Turn g pc e g' pc' new := by
  have hlen : g'.calls.length = g.calls.length := by simpa using congrArg List.length hids
  refine ⟨by rw [hids, he, List.append_nil], fun x => ?_⟩
  have := h x
  simp only [unborn, hlen]
  omega

theorem modify_ids (calls : List PendingCall) (x : Nat) {f : PendingCall → PendingCall}
    (hf : ∀ c, (f c).id = c.id) : (calls.modify x f).map (·.id) = calls.map (·.id) := by
  apply List.ext_getElem?
  intro y
  simp only [List.getElem?_map, List.getElem?_modify, Option.map_eq_map, Option.map_map]
  cases calls[y]? with
  | none => rfl
  | some c =>
    simp only [Option.map_some, Function.comp_apply]
    split
    · rw [hf]
    · rfl

theorem failAll_ids (err : GoError) (m : List (UInt64 × Nat)) (calls : List PendingCall) :
    (failAll err m calls).map (·.id) = calls.map (·.id) := by
  induction m generalizing calls with
  | nil => rfl
  | cons p m ih =>
    rw [failAll_cons, ih]
    exact modify_ids calls p.2 fun _ => rfl

theorem dialStep_turn (h : dialStep g pc e = some (g', pc', new)) : Turn g pc e g' pc' new := by
  revert h
  fun_cases dialStep g pc e <;> intro h <;> try contradiction
  all_goals
    cases h
    exact .keep rfl rfl fun x => by simp [writesCall, ahead]

theorem sendStep_turn (h : sendStep decode g pc e = some (g', pc', new)) :
    Turn g pc e g' pc' new := by
  revert h
  fun_cases sendStep decode g pc e <;> intro h <;> try contradiction
  all_goals cases h
  case case1 =>
    refine ⟨by simp [newPendingCall, begins], fun x => ?_⟩
    simp only [writesCall, ahead, unborn, List.length_append, List.length_singleton, total_nil]
    split_ifs <;> omega
  all_goals
    refine .keep rfl rfl fun x => ?_
    simp only [writesCall, ahead, total_nil]
    omega

theorem closeStep_turn (h : closeStep g pc e = some (g', pc', new)) : Turn g pc e g' pc' new := by
  revert h
  fun_cases closeStep g pc e <;> intro h <;> try contradiction
  all_goals
    cases h
    exact .keep rfl rfl fun x => by simp [writesCall, ahead]

theorem readStep_turn (h : readStep g pc e = some (g', pc', new)) : Turn g pc e g' pc' new := by
  revert h
  fun_cases readStep g pc e <;> intro h <;> try contradiction
  all_goals cases h
  all_goals first
    | exact .keep rfl rfl fun x => by simp [writesCall, ahead]
    | exact .keep rfl (modify_ids _ _ fun _ => rfl) fun x => by simp [writesCall, ahead]

theorem after_ahead (k : Closing) (x : Nat) :
    0 + (ahead x (k.after : Pc P) + total (ahead x) ([] : List (Pc P))) ≤ 0 := by
  cases k with
  | readLoop => exact le_refl 0
  | close err => cases err <;> exact le_refl 0

theorem onceStep_turn (h : onceStep g pc e = some (g', pc', new)) : Turn g pc e g' pc' new := by
  revert h
  fun_cases onceStep g pc e <;> intro h <;> try contradiction
  all_goals cases h
  all_goals first
    | exact .keep rfl rfl fun x => le_refl _
    | exact .keep rfl rfl (after_ahead _)
    | exact .keep rfl (failAll_ids _ _ _) (after_ahead _)

theorem clientStep_turn (h : clientStep decode g pc e = some (g', pc', new)) :
    Turn g pc e g' pc' new := by
  rcases clientStep_cases h with h | h | h | h | h
  · exact dialStep_turn h
  · exact sendStep_turn h
  · exact closeStep_turn h
  · exact readStep_turn h
  · exact onceStep_turn h

end Steps

/-! ## Every run -/

section Runs
variable {t : Tables P} {codec : ProtocolCodec P} {s u : Config (Calling P) (Pc P)} {i : Nat}
  {e : CallEv P}

theorem fire_calling (h : (calling t codec).fire s i e = some u) :
    ∃ pc e' w' pc' new, s.threads[i]? = some pc ∧ asked codec s.shared pc e = some e' ∧
      (wiredClient t codec).step s.shared.wired pc e' = some (w', pc', new) ∧
      u = ⟨⟨w', s.shared.requests ++ called s.shared e,
        s.shared.wrote ++ writes codec s.shared pc e'⟩, s.threads.set i pc' ++ new⟩ := by
  obtain ⟨pc, w, pc', new, hi, hs, rfl⟩ := fire_cases h
  obtain ⟨e', he, hwired⟩ := Option.bind_eq_some_iff.mp hs
  obtain ⟨⟨w', q, new'⟩, hstep, heq⟩ := Option.map_eq_some_iff.mp hwired
  cases heq
  exact ⟨pc, e', w', pc', new, hi, he, hstep, rfl⟩

def forgetCalls (s : Config (Calling P) (Pc P)) : Config WiredClient (Pc P) :=
  ⟨s.shared.wired, s.threads⟩

theorem run_wiredClient {n : Nat} {incoming : Nat → Reader UInt8} {tr : List (Nat × CallEv P)}
    (h : Run (calling t codec) Any (callingStart n incoming) tr s) :
    ∃ tr', Run (wiredClient t codec) Any (wiredStart n incoming) tr' (forgetCalls s) := by
  refine h.view forgetCalls fun s i e u hf => ?_
  obtain ⟨pc, e', w', pc', new, hi, -, hs, rfl⟩ := fire_calling hf
  refine ⟨[(i, e')], .step .refl trivial ?_⟩
  simp [Program.fire, forgetCalls, hi, hs]

/-- The requests have the IDs of their calls, and a call writes the frame of its request,
once at most. -/
structure Written (codec : ProtocolCodec P) (s : Config (Calling P) (Pc P)) : Prop where
  ids : s.shared.requests.map (·.id) = s.shared.wired.client.calls.map (·.id)
  frames : ∀ wr ∈ s.shared.wrote, s.shared.frame codec wr.call = some wr.sent
  once : ∀ x, (s.shared.wrote.countP (·.call = x) : Int) + total (ahead x) s.threads +
    unborn s.shared.wired.client x ≤ 1

/-- A call begins exactly when its request is given, and only reads are answered by the
stream. -/
theorem asked_heard {w : Calling P} {pc : Pc P} {e' : Ev} (h : asked codec w pc e = some e') :
    (called w e).map (·.id) = begins w.wired.client (heard t codec w.wired pc e') ∧
      ∀ x, writesCall x pc (heard t codec w.wired pc e') = writesCall x pc e' := by
  have hbegins : (called w e).map (·.id) = begins w.wired.client e' := by
    revert h
    fun_cases asked codec w pc e <;> intro h <;> try contradiction
    all_goals cases h
    all_goals first
      | rfl
      | simp_all [called, begins]
  cases pc with
  | reading m =>
    refine ⟨?_, fun _ => rfl⟩
    cases e with
    | sendRequest req => cases h
    | env e =>
      simp only [heard]
      split <;> rfl
  | _ => exact ⟨hbegins, fun _ => rfl⟩

/-- A step of the client as `readLoop` finds its stream. -/
theorem heard_turn {w w' : WiredClient} {pc pc' : Pc P} {e' : Ev} {new : List (Pc P)}
    (h : (wiredClient t codec).step w pc e' = some (w', pc', new)) :
    Turn w.client pc (heard t codec w pc e') w'.client pc' new := by
  obtain ⟨⟨g', q, new'⟩, hstep, heq⟩ := Option.map_eq_some_iff.mp h
  cases heq
  exact clientStep_turn hstep

theorem frame_append {w : Calling P} {w' : WiredClient} {x : Nat} {sent : Sent P}
    (h : w.frame codec x = some sent) (reqs : List (Request P)) (wrote : List (Write P)) :
    (⟨w', w.requests ++ reqs, wrote⟩ : Calling P).frame codec x = some sent := by
  obtain ⟨req, hreq, hsend⟩ := Option.bind_eq_some_iff.mp h
  obtain ⟨hlt, -⟩ := List.getElem?_eq_some_iff.mp hreq
  exact Option.bind_eq_some_iff.mpr ⟨req, by rw [List.getElem?_append_left hlt, hreq], hsend⟩

theorem writes_cases {w : Calling P} {pc : Pc P} {e' : Ev} {wr : Write P}
    (h : wr ∈ writes codec w pc e') : w.frame codec wr.call = some wr.sent := by
  revert h
  fun_cases writes codec w pc e' <;> intro h
  all_goals simp only [List.not_mem_nil, List.mem_singleton] at h
  all_goals
    subst h
    assumption

theorem writes_count (codec : ProtocolCodec P) (w : Calling P) (pc : Pc P) (e' : Ev) (x : Nat) :
    ((writes codec w pc e').countP (·.call = x) : Int) ≤ writesCall x pc e' := by
  have hnonneg : 0 ≤ writesCall x pc e' := by
    unfold writesCall
    split <;> first | (split <;> decide) | decide
  fun_cases writes codec w pc e'
  all_goals first
    | exact hnonneg
    | simp only [writesCall, List.countP_singleton, decide_eq_true_eq, Nat.cast_ite, Nat.cast_one,
        Nat.cast_zero, le_refl]

theorem Written.fire (hW : Written codec s) (h : (calling t codec).fire s i e = some u) :
    Written codec u := by
  obtain ⟨pc, e', w', pc', new, hi, he, hs, rfl⟩ := fire_calling h
  obtain ⟨hids, hwrites⟩ := asked_heard (t := t) he
  have hturn := heard_turn hs
  refine ⟨?_, ?_, fun x => ?_⟩
  · rw [List.map_append, hW.ids, hturn.ids, hids]
  · intro wr hwr
    rcases List.mem_append.mp hwr with hwr | hwr
    · exact frame_append (hW.frames wr hwr) _ _
    · exact frame_append (writes_cases hwr) _ _
  · have honce := hW.once x
    have hstep := hturn.once x
    have hcount := writes_count codec s.shared pc e' x
    rw [hwrites] at hstep
    rw [List.countP_append, total_append, total_set _ _ hi]
    push_cast
    omega

theorem run_written {n : Nat} {incoming : Nat → Reader UInt8} {tr : List (Nat × CallEv P)}
    (h : Run (calling t codec) Any (callingStart n incoming) tr s) : Written codec s := by
  refine h.invariant ⟨rfl, by simp [callingStart], fun x => ?_⟩ fun _ _ _ _ hW _ hf => hW.fire hf
  have hzero : total (ahead x) (start n : Config Client (Pc P)).threads = 0 := by
    apply total_eq_zero
    intro pc hpc
    rw [List.eq_of_mem_replicate hpc]
    rfl
  simp only [callingStart, hzero]
  simp [unborn, newClient]

/-- The request of a call has the ID of the call. -/
theorem Written.request_id (hW : Written codec s) {x : Nat} {req : Request P}
    (hreq : s.shared.requests[x]? = some req) :
    ∃ c, s.shared.wired.client.calls[x]? = some c ∧ c.id = req.id := by
  have hids := congrArg (fun l => l[x]?) hW.ids
  simp only [List.getElem?_map, hreq, Option.map_some] at hids
  obtain ⟨c, hc, hid⟩ := Option.map_eq_some_iff.mp hids.symm
  exact ⟨c, hc, hid⟩

/-- No call writes twice. -/
theorem Written.calls_nodup (hW : Written codec s) : (s.shared.wrote.map (·.call)).Nodup := by
  rw [List.nodup_iff_count_le_one]
  intro x
  have honce := hW.once x
  have hahead : 0 ≤ total (ahead x) s.threads := total_nonneg fun q _ => ahead_nonneg x q
  have hunborn : 0 ≤ unborn s.shared.wired.client x := by
    unfold unborn
    split <;> decide
  rw [List.count_eq_countP, List.countP_map]
  have hcount : s.shared.wrote.countP ((· == x) ∘ (·.call)) =
      s.shared.wrote.countP (·.call = x) := rfl
  omega

end Runs

end RpcInGo.System.Caller
