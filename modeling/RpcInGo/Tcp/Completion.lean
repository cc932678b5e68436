import RpcInGo.Tcp.BodyLimit
import RpcInGo.Tcp.Redial

/-!
The two ways of receiving a response in `pkg/transport/tcp`: `ReadResponse` of `codec.go`
looks at the message type and decodes the body, the `readLoop` of `client.go` goes by the
request ID alone and leaves the body to the caller.

* `run_client`: a client that reads from byte streams takes only steps of the client of
  `ClientModel`;
* `frame_completes`: a frame with a pending ID completes the call, whatever its type and
  body;
* `run_decoded`, `run_followed`: every frame was read from what was left of the stream of a
  connection, after frames only;
* `arriving_completes`: every frame that arrives completes a call in some run;
* `completions_accepted_iff`: calls are completed by frames that `ReadResponse` accepts, in
  every run, exactly when nothing but responses with a body that decodes arrives.
-/

namespace RpcInGo.Tcp.Completion
open Lib.ByteStream Lib.Goroutine Protocol.Message Protocol.Header Codec.Registry
  Framing ClientModel Multiplex
open BodyLimit (messageTypeString)

variable {P : Type}

/-! ## `ReadResponse` -/

def decodeResponseWith (t : Tables P) (codecType : CodecType) (data : Bytes) :
    Except GoError (Response P) :=
  match (t.getOrDefault codecType).decodeResponse data with
  | .error err => .error (.wrapf "decode response error: %w" [] err)
  | .ok resp => .ok resp

def readResponse (t : Tables P) (pc : ProtocolCodec P) (r : Reader UInt8) :
    Except GoError (Header × Response P) × Reader UInt8 :=
  match decodeFromReader t pc r with
  | (.error err, r) => (.error (.wrapf "decode response error: %w" [] err), r)
  | (.ok (header, bodyData), r) =>
    if header.msgType ≠ msgTypeResponse then
      (.error (.errorf "message type error, expected %s, got %s"
        [.str (messageTypeString msgTypeResponse), .str (messageTypeString header.msgType)]), r)
    else
      match decodeResponseWith t header.codec bodyData with
      | .error err => (.error (.wrapf "decode response error: %w" [] err), r)
      | .ok resp => (.ok (header, resp), r)

/-- `ReadResponse` takes the next frame for a response. -/
def Accepts (t : Tables P) (codec : ProtocolCodec P) (r : Reader UInt8) : Prop :=
  ∃ header resp, (readResponse t codec r).1 = .ok (header, resp)

/-- A frame that is a response, with a body that decodes. -/
def IsResponse (t : Tables P) (f : Frame) : Prop :=
  f.header.msgType = msgTypeResponse ∧
    ∃ resp, decodeResponseWith t f.header.codec f.body = .ok resp

section Reads
variable {t : Tables P} {codec : ProtocolCodec P} {r : Reader UInt8}

theorem readResponse_ok {header : Header} {resp : Response P}
    (h : (readResponse t codec r).1 = .ok (header, resp)) :
    ∃ data, (decodeFromReader t codec r).1 = .ok (header, data) ∧
      header.msgType = msgTypeResponse ∧ decodeResponseWith t header.codec data = .ok resp := by
  unfold readResponse at h
  split at h
  · cases h
  · rename_i header' data r' hdec
    split at h
    · cases h
    · rename_i htyp
      split at h
      · cases h
      · rename_i resp' hresp
        cases h
        exact ⟨data, by rw [hdec], not_not.mp htyp, hresp⟩

/-- What `ReadResponse` asks of a frame that `DecodeFromReader` has returned. -/
theorem accepts_iff {f : Frame} (h : (decodeFromReader t codec r).1 = .ok (f.header, f.body)) :
    Accepts t codec r ↔ IsResponse t f := by
  constructor
  · rintro ⟨header, resp, hread⟩
    obtain ⟨data, hdec, htyp, hresp⟩ := readResponse_ok hread
    rw [h] at hdec
    cases hdec
    exact ⟨htyp, resp, hresp⟩
  · rintro ⟨htyp, resp, hresp⟩
    rcases hd : decodeFromReader t codec r with ⟨res, r'⟩
    rw [hd] at h
    cases h
    exact ⟨f.header, resp, by simp [readResponse, hd, htyp, hresp]⟩

end Reads

/-! ## The client on byte streams -/

/-- The client, what is yet to arrive on each connection, and (bookkeeping of the model)
what each frame of `client.frames` was read from. -/
structure WiredClient where
  client : Client
  streams : Nat → Reader UInt8
  origins : List (Reader UInt8)

/-- A read is answered by the stream, everything else by the environment. -/
def heard (t : Tables P) (codec : ProtocolCodec P) (w : WiredClient) : Pc P → Ev → Ev
  | .reading m, _ =>
    match (decodeFromReader t codec (w.streams m)).1 with
    | .ok (header, bodyBytes) => .frame ⟨header, bodyBytes⟩
    | .error _ => .readFailed
  | _, e => e

def unread (t : Tables P) (codec : ProtocolCodec P) (w : WiredClient) :
    Pc P → Nat → Reader UInt8
  | .reading m => Function.update w.streams m (decodeFromReader t codec (w.streams m)).2
  | _ => w.streams

def readFrom (t : Tables P) (codec : ProtocolCodec P) (w : WiredClient) :
    Pc P → List (Reader UInt8)
  | .reading m =>
    match (decodeFromReader t codec (w.streams m)).1 with
    | .ok _ => w.origins ++ [w.streams m]
    | .error _ => w.origins
  | _ => w.origins

def wiredClient (t : Tables P) (codec : ProtocolCodec P) : Program WiredClient (Pc P) Ev where
  step w pc e := (clientStep (decodeResponseWith t) w.client pc (heard t codec w pc e)).map
    fun next => (⟨next.1, unread t codec w pc, readFrom t codec w pc⟩, next.2)

def wiredStart (n : Nat) (streams : Nat → Reader UInt8) : Config WiredClient (Pc P) :=
  ⟨⟨newClient, streams, []⟩, (start n).threads⟩

def forget (s : Config WiredClient (Pc P)) : Config Client (Pc P) :=
  ⟨s.shared.client, s.threads⟩

section Steps
variable {t : Tables P} {codec : ProtocolCodec P} {s u : Config WiredClient (Pc P)} {i : Nat}
  {e : Ev}

theorem fire_wiredClient (h : (wiredClient t codec).fire s i e = some u) :
    ∃ pc g' pc' new, s.threads[i]? = some pc ∧
      clientStep (decodeResponseWith t) s.shared.client pc (heard t codec s.shared pc e) =
        some (g', pc', new) ∧
      u = ⟨⟨g', unread t codec s.shared pc, readFrom t codec s.shared pc⟩,
        s.threads.set i pc' ++ new⟩ := by
  obtain ⟨pc, w', pc', new, hi, hs, rfl⟩ := fire_cases h
  obtain ⟨⟨g', q, new'⟩, hstep, heq⟩ := Option.map_eq_some_iff.mp hs
  cases heq
  exact ⟨pc, g', pc', new, hi, hstep, rfl⟩

theorem run_client {n : Nat} {streams : Nat → Reader UInt8} {tr : List (Nat × Ev)}
    (h : Run (wiredClient t codec) Any (wiredStart n streams) tr s) :
    ∃ tr', Run (client (decodeResponseWith t)) Any (start n) tr' (forget s) := by
  refine h.view forget fun s i e u hf => ?_
  obtain ⟨pc, g', pc', new, hi, hs, rfl⟩ := fire_wiredClient hf
  refine ⟨[(i, heard t codec s.shared pc e)], .step .refl trivial ?_⟩
  simp [Program.fire, forget, hi, client, hs]

/-- Only `readLoop` reads frames. -/
theorem clientStep_frames {decode : CodecType → List UInt8 → Except GoError (Response P)}
    {g g' : Client} {pc pc' : Pc P} {new : List (Pc P)}
    (h : clientStep decode g pc e = some (g', pc', new)) :
    (∃ m f, pc = .reading m ∧ e = .frame f ∧ g'.frames = g.frames ++ [f]) ∨
    ((∀ m, pc = .reading m → e = .readFailed) ∧ g'.frames = g.frames) := by
  rcases clientStep_cases h with hs | hs | hs | hs | hs
  · right
    revert hs
    fun_cases dialStep g pc e <;> intro hs <;> first | contradiction | (cases hs; simp)
  · right
    revert hs
    fun_cases sendStep decode g pc e <;> intro hs <;> first
      | contradiction
      | (cases hs; simp [Client.deleteID])
  · right
    revert hs
    fun_cases closeStep g pc e <;> intro hs <;> first | contradiction | (cases hs; simp)
  · revert hs
    fun_cases readStep g pc e <;> intro hs <;> first
      | contradiction
      | (cases hs; simp [Client.deleteID])
  · right
    revert hs
    fun_cases onceStep g pc e <;> intro hs <;> first | contradiction | (cases hs; simp)

/-- A frame is what `DecodeFromReader` returns from the reader it is paired with. -/
def Decoded (t : Tables P) (codec : ProtocolCodec P) (f : Frame) (r : Reader UInt8) : Prop :=
  (decodeFromReader t codec r).1 = .ok (f.header, f.body)

theorem Decoded.eq {t : Tables P} {codec : ProtocolCodec P} {f : Frame} {r : Reader UInt8}
    (h : Decoded t codec f r) : (decodeFromReader t codec r).1 = .ok (f.header, f.body) := h

/-- A step reads one frame, or none. -/
theorem fire_frames {w : WiredClient} {pc pc' : Pc P} {g' : Client} {new : List (Pc P)}
    (h : clientStep (decodeResponseWith t) w.client pc (heard t codec w pc e) =
      some (g', pc', new)) :
    (∃ m f, Decoded t codec f (w.streams m) ∧ g'.frames = w.client.frames ++ [f] ∧
      readFrom t codec w pc = w.origins ++ [w.streams m]) ∨
    (g'.frames = w.client.frames ∧ readFrom t codec w pc = w.origins) := by
  rcases clientStep_frames h with ⟨m, f, rfl, hframe, hframes⟩ | ⟨hnone, hframes⟩
  · simp only [heard] at hframe
    split at hframe
    · rename_i header bodyBytes hdec
      cases hframe
      exact Or.inl ⟨m, ⟨header, bodyBytes⟩, hdec, hframes, by simp only [readFrom, hdec]⟩
    · cases hframe
  · refine Or.inr ⟨hframes, ?_⟩
    cases pc with
    | reading m =>
      have hfail := hnone m rfl
      simp only [heard] at hfail
      split at hfail
      · cases hfail
      · rename_i err hdec
        simp only [readFrom, hdec]
    | _ => rfl

/-- Every frame comes from what it is paired with. -/
theorem fire_decoded (hd : List.Forall₂ (Decoded t codec) s.shared.client.frames s.shared.origins)
    (h : (wiredClient t codec).fire s i e = some u) :
    List.Forall₂ (Decoded t codec) u.shared.client.frames u.shared.origins := by
  obtain ⟨pc, g', pc', new, -, hs, rfl⟩ := fire_wiredClient h
  rcases fire_frames hs with ⟨m, f, hdec, hframes, horigins⟩ | ⟨hframes, horigins⟩
  · rw [hframes, horigins]
    exact List.rel_append hd (.cons hdec .nil)
  · rw [hframes, horigins]
    exact hd

/-- A run that goes on with a step. -/
theorem run_on {s₀ : Config WiredClient (Pc P)} {tr : List (Nat × Ev)} {pc pc' : Pc P} {e : Ev}
    {g' : Client} {new : List (Pc P)} (h : Run (wiredClient t codec) Any s₀ tr s)
    (hi : s.threads[i]? = some pc)
    (hs : clientStep (decodeResponseWith t) s.shared.client pc (heard t codec s.shared pc e) =
      some (g', pc', new)) :
    ∃ s', Run (wiredClient t codec) Any s₀ (tr ++ [(i, e)]) s' ∧ s'.shared.client = g' ∧
      s'.shared.streams = unread t codec s.shared pc ∧
      s'.threads = s.threads.set i pc' ++ new ∧ s'.threads[i]? = some pc' := by
  refine ⟨⟨⟨g', unread t codec s.shared pc, readFrom t codec s.shared pc⟩,
    s.threads.set i pc' ++ new⟩, h.step trivial ?_, rfl, rfl, rfl, getElem?_fired_self _ hi⟩
  simp only [Program.fire, wiredClient, hi, hs, Option.map_some]

/-- `readLoop` reads a frame. -/
theorem reads_frame {s₀ : Config WiredClient (Pc P)} {tr : List (Nat × Ev)} {m : Nat} {f : Frame}
    (h : Run (wiredClient t codec) Any s₀ tr s) (hi : s.threads[i]? = some (.reading m))
    (hdec : Decoded t codec f (s.shared.streams m)) :
    ∃ s', Run (wiredClient t codec) Any s₀ (tr ++ [(i, .step)]) s' ∧
      s'.shared.client = { s.shared.client with frames := s.shared.client.frames ++ [f] } ∧
      s'.shared.streams = unread t codec s.shared (.reading m) ∧
      s'.threads = s.threads.set i (.lookup m s.shared.client.frames.length) ++ [] ∧
      s'.threads[i]? = some (.lookup m s.shared.client.frames.length) := by
  refine run_on h hi ?_
  simp only [heard, hdec.eq]
  rfl

/-- `readLoop` takes the call with the ID of a frame out of `pending`. -/
theorem clientStep_lookup {g : Client} {m k : Nat} {f : Frame} {p : UInt64 × Nat}
    (hf : g.frames[k]? = some f)
    (hp : (g.pending.getD []).find? (fun p => p.1 = f.header.requestID) = some p) :
    clientStep (decodeResponseWith t) g (.lookup m k) .step =
      some (g.deleteID f.header.requestID, .deliver m k p.2, []) := by
  simp [clientStep, dialStep, sendStep, closeStep, readStep, hf, hp]

theorem clientStep_deliver {g : Client} {m k x : Nat} {f : Frame} (hf : g.frames[k]? = some f) :
    clientStep (decodeResponseWith t) g (.deliver m k x) .step =
      some ({ g with calls := g.calls.modify x fun c =>
                { c with respBody := f.body, respCodec := f.header.codec, closes := c.closes + 1,
                         completedBy := some k } }, .reading m, []) := by
  simp [clientStep, dialStep, sendStep, closeStep, readStep, hf]

/-- Neither the type of a frame nor its body stands between it and the call with its ID. -/
theorem frame_completes {m x : Nat} {id : UInt64} {f : Frame} {c : PendingCall}
    (hi : s.threads[i]? = some (.reading m)) (hdec : Decoded t codec f (s.shared.streams m))
    (hpend : (s.shared.client.pending.getD []).find? (fun p => p.1 = f.header.requestID) =
      some (id, x))
    (hx : s.shared.client.calls[x]? = some c) :
    ∃ tr u, Run (wiredClient t codec) Any s tr u ∧
      u.shared.client.frames[s.shared.client.frames.length]? = some f ∧
      u.shared.client.calls[x]? = some { c with
        respBody := f.body, respCodec := f.header.codec, closes := c.closes + 1,
        completedBy := some s.shared.client.frames.length } := by
  obtain ⟨s₁, hrun₁, hg₁, -, -, hi₁⟩ := reads_frame .refl hi hdec
  have hf₁ : s₁.shared.client.frames[s.shared.client.frames.length]? = some f := by
    rw [hg₁]
    exact List.getElem?_concat_length
  obtain ⟨s₂, hrun₂, hg₂, -, -, hi₂⟩ := run_on (e := .step) hrun₁ hi₁
    (clientStep_lookup hf₁ (by rw [hg₁]; exact hpend))
  have hf₂ : s₂.shared.client.frames[s.shared.client.frames.length]? = some f := by
    rw [hg₂]
    exact hf₁
  obtain ⟨s₃, hrun₃, hg₃, -⟩ := run_on (e := .step) hrun₂ hi₂ (clientStep_deliver hf₂)
  refine ⟨_, s₃, hrun₃, by rw [hg₃]; exact hf₂, ?_⟩
  simp only [hg₃, hg₂, hg₁, Client.deleteID, List.getElem?_modify_eq, hx,
    Option.map_eq_map, Option.map_some]

end Steps

section Runs
variable {t : Tables P} {codec : ProtocolCodec P} {n : Nat} {streams : Nat → Reader UInt8}
  {tr : List (Nat × Ev)} {s : Config WiredClient (Pc P)}

theorem run_decoded (h : Run (wiredClient t codec) Any (wiredStart n streams) tr s) :
    List.Forall₂ (Decoded t codec) s.shared.client.frames s.shared.origins :=
  h.invariant (I := fun s => List.Forall₂ (Decoded t codec) s.shared.client.frames s.shared.origins)
    .nil fun _ _ _ _ hd _ hf => fire_decoded hd hf

/-- The frame that has completed a call, and where it was read. -/
theorem completed_frame (h : Run (wiredClient t codec) Any (wiredStart n streams) tr s)
    {c : PendingCall} {k : Nat} (hc : c ∈ s.shared.client.calls) (hk : c.completedBy = some k) :
    ∃ f r, s.shared.client.frames[k]? = some f ∧ s.shared.origins[k]? = some r ∧
      Decoded t codec f r := by
  obtain ⟨tr', hrun⟩ := run_client h
  obtain ⟨f, hf, -⟩ := ((run_multiplexed hrun).ok.calls c hc).frame k hk
  obtain ⟨r, hr, hdec⟩ := forall₂_get (run_decoded h) hf
  exact ⟨f, r, hf, hr, hdec⟩

end Runs

/-! ## What arrives -/

/-- `r'` is what is left of `r` after frames that `DecodeFromReader` has returned. -/
inductive Left (t : Tables P) (codec : ProtocolCodec P) (r : Reader UInt8) : Reader UInt8 → Prop
  | refl : Left t codec r r
  | read {r' : Reader UInt8} {f : Frame} : Left t codec r r' → Decoded t codec f r' →
      Left t codec r (decodeFromReader t codec r').2

theorem decodes_succ (t : Tables P) (codec : ProtocolCodec P) (k : Nat) (r : Reader UInt8) :
    (decodes t codec (k + 1) r).2 = (decodeFromReader t codec (decodes t codec k r).2).2 := by
  induction k generalizing r with
  | zero => rfl
  | succ k ih => exact ih (decodeFromReader t codec r).2

theorem Left.decodes {t : Tables P} {codec : ProtocolCodec P} {r r' : Reader UInt8}
    (h : Left t codec r r') : ∃ k, r' = (decodes t codec k r).2 := by
  induction h with
  | refl => exact ⟨0, rfl⟩
  | read _ _ ih =>
    obtain ⟨k, rfl⟩ := ih
    exact ⟨k + 1, (decodes_succ t codec k r).symm⟩

/-- The goroutine is in the loop of `readLoop` on connection `m`. -/
def following (m : Nat) : Pc P → Bool
  | .reading k | .lookup k _ | .deliver k _ _ => k = m
  | _ => false

/-- The `readLoop` of a connection has read one frame after the other, and before `Dial` nothing
is read. -/
structure Followed (t : Tables P) (codec : ProtocolCodec P) (n : Nat)
    (streams : Nat → Reader UInt8) (s : Config WiredClient (Pc P)) : Prop where
  loops : ∀ m pc, s.threads[n + m]? = some pc → following m pc = true →
    Left t codec (streams m) (s.shared.streams m)
  undialled : ∀ m, s.shared.client.conns.length ≤ m → s.shared.streams m = streams m
  arrived : ∀ r ∈ s.shared.origins, ∃ m, Left t codec (streams m) r

section Following
variable {t : Tables P} {codec : ProtocolCodec P} {n i m : Nat} {streams : Nat → Reader UInt8}
  {s u : Config WiredClient (Pc P)} {e : Ev} {pc pc' : Pc P} {g g' : Client} {new : List (Pc P)}

/-- Nobody enters the loop but a goroutine that `Dial` starts. -/
theorem clientStep_following (h : clientStep (decodeResponseWith t) g pc e = some (g', pc', new))
    (hpc' : following m pc' = true) : following m pc = true := by
  rcases clientStep_cases h with h | h | h | h | h <;> revert h
  · fun_cases dialStep g pc e <;> intro h <;> cases h <;> cases hpc'
  · fun_cases sendStep (decodeResponseWith t) g pc e <;> intro h <;> cases h <;> cases hpc'
  · fun_cases closeStep g pc e <;> intro h <;> cases h <;> cases hpc'
  · fun_cases readStep g pc e <;> intro h <;> cases h <;> first | exact hpc' | cases hpc'
  · fun_cases onceStep g pc e <;> intro h <;> cases h <;> first
      | cases hpc'
      | (rename_i k _
         rcases k with _ | _ | _ <;> cases hpc')
      | (rename_i k
         rcases k with _ | _ | _ <;> cases hpc')

/-- A read that has failed is the last one. -/
theorem clientStep_failed
    (h : clientStep (decodeResponseWith t) g (.reading m) .readFailed = some (g', pc', new)) :
    pc' = .once .readLoop := by
  simp only [clientStep, dialStep, sendStep, closeStep, readStep, Option.none_or,
    Option.some_or, Option.some.injEq, Prod.mk.injEq] at h
  exact h.2.1.symm

/-- The goroutine that reads from connection `m`. -/
theorem reader_at (hp : Redial.Placed n (forget s)) (hi : s.threads[i]? = some (.reading m)) :
    i = n + m ∧ m < s.shared.client.conns.length := by
  have hle := hp.only i _ hi rfl
  have hlt : i < s.threads.length := (List.getElem?_eq_some_iff.mp hi).1
  have hlen : s.threads.length = n + s.shared.client.conns.length := hp.length
  obtain ⟨q, hq, hon⟩ := hp.loops (i - n) (by simp only [forget]; omega)
  have hq : s.threads[n + (i - n)]? = some q := hq
  rw [Nat.add_sub_cancel' hle, hi] at hq
  cases hq
  have hm : m = i - n := by simpa [Redial.onLoop] using hon
  omega

/-- A step that reads nothing and dials nothing. -/
theorem Followed.keep (hF : Followed t codec n streams s)
    (hconns : g'.conns.length = s.shared.client.conns.length)
    (hpc : ∀ m, following m pc' = true → following m pc = true) (hi : s.threads[i]? = some pc) :
    Followed t codec n streams
      ⟨⟨g', s.shared.streams, s.shared.origins⟩, s.threads.set i pc' ++ []⟩ := by
  refine ⟨fun m q hq hfollow => ?_, fun m hm => hF.undialled m (hconns ▸ hm), hF.arrived⟩
  rcases getElem?_fired hq with ⟨rfl, rfl⟩ | ⟨-, hq⟩ | hnil
  · exact hF.loops m pc hi (hpc m hfollow)
  · exact hF.loops m q hq hfollow
  · cases hnil

/-- A step of the `readLoop` of connection `m`, which takes from no other stream. -/
theorem Followed.advance (hF : Followed t codec n streams s) {streams' : Nat → Reader UInt8}
    {origins' : List (Reader UInt8)} (hconns : g'.conns.length = s.shared.client.conns.length)
    (hm : m < s.shared.client.conns.length)
    (hothers : ∀ k, k ≠ m → streams' k = s.shared.streams k)
    (hself : following m pc' = true → Left t codec (streams m) (streams' m))
    (harrived : ∀ r ∈ origins', ∃ k, Left t codec (streams k) r) :
    Followed t codec n streams ⟨⟨g', streams', origins'⟩, s.threads.set (n + m) pc' ++ []⟩ := by
  refine ⟨fun k q hq hfollow => ?_, fun k hk => ?_, harrived⟩
  · rcases getElem?_fired hq with ⟨hk, rfl⟩ | ⟨hne, hq⟩ | hnil
    · obtain rfl : k = m := Nat.add_left_cancel hk
      exact hself hfollow
    · have hkm : k ≠ m := fun h => hne (by rw [h])
      have hleft := hF.loops k q hq hfollow
      rw [← hothers k hkm] at hleft
      exact hleft
    · cases hnil
  · have hk : s.shared.client.conns.length ≤ k := hconns ▸ hk
    exact (hothers k (by omega)).trans (hF.undialled k hk)

/-- `readLoop` reads: a frame, or it ends. -/
theorem Followed.read (hF : Followed t codec n streams s)
    (hconns : g'.conns.length = s.shared.client.conns.length)
    (hm : m < s.shared.client.conns.length) (hi : s.threads[n + m]? = some (.reading m))
    (hs : clientStep (decodeResponseWith t) s.shared.client (.reading m)
      (heard t codec s.shared (.reading m) e) = some (g', pc', new)) :
    Followed t codec n streams ⟨⟨g', unread t codec s.shared (.reading m),
      readFrom t codec s.shared (.reading m)⟩, s.threads.set (n + m) pc' ++ []⟩ := by
  have hleft := hF.loops m _ hi (by simp [following])
  refine hF.advance hconns hm (fun k hk => Function.update_of_ne hk _ _) ?_ ?_
  · intro hfollow
    rw [unread, Function.update_self]
    cases hdec : (decodeFromReader t codec (s.shared.streams m)).1 with
    | error err =>
      simp only [heard, hdec] at hs
      rw [clientStep_failed hs] at hfollow
      cases hfollow
    | ok frame => exact hleft.read (f := ⟨frame.1, frame.2⟩) hdec
  · intro r hr
    simp only [readFrom] at hr
    split at hr
    · rcases List.mem_append.mp hr with hr | hr
      · exact hF.arrived r hr
      · rw [List.mem_singleton.mp hr]
        exact ⟨m, hleft⟩
    · exact hF.arrived r hr

theorem Followed.fire (hF : Followed t codec n streams s) (hp : Redial.Placed n (forget s))
    (h : (wiredClient t codec).fire s i e = some u) : Followed t codec n streams u := by
  obtain ⟨pc, g', pc', new, hi, hs, rfl⟩ := fire_wiredClient h
  rcases Redial.clientStep_moves hs with hdial | ⟨rfl, hmoves⟩
  · obtain ⟨-, ⟨r, rfl⟩, -, rfl, rfl, rfl⟩ := hdial
    refine ⟨fun m q hq hfollow => ?_, fun m hm => hF.undialled m ?_, hF.arrived⟩
    · rcases getElem?_fired hq with ⟨-, rfl⟩ | ⟨-, hq⟩ | hnew
      · cases hfollow
      · exact hF.loops m q hq hfollow
      · rw [List.mem_singleton.mp hnew] at hfollow
        have hm : s.shared.client.conns.length = m := by simpa [following] using hfollow
        have hunread : Left t codec (streams m) (s.shared.streams m) := by
          rw [hF.undialled m hm.le]
          exact .refl
        exact hunread
    · rw [List.length_append] at hm
      exact (Nat.le_add_right _ _).trans hm
  · cases pc with
    | reading m =>
      obtain ⟨rfl, hm⟩ := reader_at hp hi
      exact hF.read hmoves.conns hm hi hs
    | _ => exact hF.keep hmoves.conns (fun m => clientStep_following hs) hi

theorem run_followed {tr : List (Nat × Ev)}
    (h : Run (wiredClient t codec) Any (wiredStart n streams) tr s) :
    Followed t codec n streams s := by
  induction h with
  | refl =>
    refine ⟨fun m pc hpc hfollow => ?_, fun _ _ => rfl, by simp [wiredStart]⟩
    rw [List.eq_of_mem_replicate (List.mem_of_getElem? hpc)] at hfollow
    cases hfollow
  | step hr _ hf ih =>
    obtain ⟨tr', hrun⟩ := run_client hr
    exact ih.fire (Redial.loop_placed hrun) hf

end Following

/-! ## Every frame that arrives may complete a call -/

/-- The client is connected, with `r` left on connection `m`: goroutine `i` is its `readLoop`,
goroutine `j` may call `SendRequest`, and no call is pending. -/
structure Connected (m i j : Nat) (r : Reader UInt8) (nextID : UInt64)
    (s : Config WiredClient (Pc P)) : Prop where
  reader : s.threads[i]? = some (.reading m)
  caller : ∃ o, s.threads[j]? = some (.returned o)
  pending : s.shared.client.pending = some []
  left : s.shared.streams m = r
  next : s.shared.client.nextID = nextID

section Reaching
variable {t : Tables P} {codec : ProtocolCodec P} {m i j : Nat} {r r' : Reader UInt8}
  {id : UInt64} {streams : Nat → Reader UInt8} {s : Config WiredClient (Pc P)} {f : Frame}

theorem clientStep_dial {g : Client} (hoff : g.connected = false) (o : Outcome P)
    (remote : String) :
    clientStep (decodeResponseWith t) g (.returned o) (.dial remote) =
      some ({ g with conn := some g.conns.length, connected := true, pending := some [],
                     closeCh := some g.closeChs.length, conns := g.conns ++ [false],
                     closeChs := g.closeChs ++ [false] },
        .returned .nothing, [.reading g.conns.length]) := by
  simp [clientStep, dialStep, hoff]

theorem clientStep_hangUp {g : Client} (hon : g.connected = true) (o : Outcome P) :
    clientStep (decodeResponseWith t) g (.returned o) .callClose =
      some ({ g with conn := none, connected := false }, .close g.conn, []) := by
  simp [clientStep, dialStep, sendStep, closeStep, hon]

theorem clientStep_send (t : Tables P) (g : Client) (o : Outcome P) :
    clientStep (decodeResponseWith t) g (.returned o) .sendRequest =
      some ({ g with nextID := g.nextID + 1,
                     calls := g.calls ++ [newPendingCall (g.nextID + 1)] },
        .insert g.calls.length, []) := by
  simp [clientStep, dialStep, sendStep]

theorem clientStep_insert {g : Client} {l : List (UInt64 × Nat)} (h : g.pending = some l)
    (x : Nat) :
    clientStep (decodeResponseWith t) g (.insert x) .step =
      some ({ g with pending := some ((g.callID x, x) :: l.filter fun p => p.1 ≠ g.callID x) },
        .write x, []) := by
  simp [clientStep, dialStep, sendStep, h]

/-- `Dial` and `Close`, as often as there are connections before the one that is wanted. -/
theorem hangs_up (t : Tables P) (codec : ProtocolCodec P) (streams : Nat → Reader UInt8)
    {m k : Nat} (hk : k ≤ m) :
    ∃ tr s, Run (wiredClient t codec) Any (wiredStart (m + 1) streams) tr s ∧
      s.shared.client.connected = false ∧ s.shared.client.conns.length = k ∧
      s.shared.client.nextID = 0 ∧ s.shared.streams = streams ∧
      ∀ l, k ≤ l → l ≤ m → s.threads[l]? = some (.returned .nothing) := by
  induction k with
  | zero =>
    refine ⟨[], _, .refl, rfl, rfl, rfl, rfl, fun l _ hl => ?_⟩
    simp only [wiredStart, start, List.getElem?_replicate]
    rw [if_pos (by omega)]
  | succ k ih =>
    obtain ⟨tr, s, hrun, hoff, hlen, hnext, hstreams, hidle⟩ := ih (by omega)
    have hk' := hidle k (le_refl _) (by omega)
    obtain ⟨s₁, hrun₁, hg₁, hst₁, hts₁, hk₁⟩ := run_on (e := .dial "") hrun hk'
      (clientStep_dial hoff .nothing "")
    obtain ⟨s₂, hrun₂, hg₂, hst₂, hts₂, -⟩ := run_on (e := .callClose) hrun₁ hk₁
      (clientStep_hangUp (by rw [hg₁]) .nothing)
    refine ⟨_, s₂, hrun₂, by rw [hg₂], by simp [hg₂, hg₁, hlen], by rw [hg₂, hg₁]; exact hnext,
      hst₂.trans (hst₁.trans hstreams), fun l hl hlm => ?_⟩
    rw [hts₂, hts₁]
    exact getElem?_fired_other _ (by omega) (getElem?_fired_other _ (by omega)
      (hidle l (by omega) hlm))

theorem connects (t : Tables P) (codec : ProtocolCodec P) (streams : Nat → Reader UInt8)
    (m : Nat) :
    ∃ tr s i j, Run (wiredClient t codec) Any (wiredStart (m + 1) streams) tr s ∧
      i ≠ j ∧ Connected m i j (streams m) 0 s := by
  obtain ⟨tr, s, hrun, hoff, hlen, hnext, hstreams, hidle⟩ := hangs_up t codec streams (le_refl m)
  have hm := hidle m (le_refl _) (le_refl _)
  have hlt := (List.getElem?_eq_some_iff.mp hm).1
  obtain ⟨s', hrun', hg, hst, hts, hm'⟩ := run_on (e := .dial "") hrun hm
    (clientStep_dial hoff .nothing "")
  refine ⟨_, s', s.threads.length, m, hrun', by omega, ?_, ⟨.nothing, hm'⟩, by rw [hg], ?_, ?_⟩
  · simp [hts, hlen]
  · exact congrFun (hst.trans hstreams) m
  · rw [hg]
    exact hnext

/-- A frame that comes while no call is pending is read and forgotten. -/
theorem Connected.reads {s₀ : Config WiredClient (Pc P)} {tr : List (Nat × Ev)}
    (hC : Connected m i j r id s) (h : Run (wiredClient t codec) Any s₀ tr s) (hij : i ≠ j)
    (hf : Decoded t codec f r) :
    ∃ tr' s', Run (wiredClient t codec) Any s₀ tr' s' ∧
      Connected m i j (decodeFromReader t codec r).2 id s' := by
  obtain ⟨hreader, ⟨o, hcaller⟩, hpend, rfl, hnext⟩ := hC
  obtain ⟨s₁, hrun₁, hg₁, hst₁, hts₁, hi₁⟩ := reads_frame h hreader hf
  have hf₁ : s₁.shared.client.frames[s.shared.client.frames.length]? = some f := by
    rw [hg₁]
    exact List.getElem?_concat_length
  have hpend₁ : s₁.shared.client.pending = some [] := by
    rw [hg₁]
    exact hpend
  have hlook : clientStep (decodeResponseWith t) s₁.shared.client
      (.lookup m s.shared.client.frames.length) .step =
        some (s₁.shared.client, .reading m, []) := by
    simp [clientStep, dialStep, sendStep, closeStep, readStep, hf₁, hpend₁]
  obtain ⟨s₂, hrun₂, hg₂, hst₂, hts₂, hi₂⟩ := run_on (e := .step) hrun₁ hi₁ hlook
  refine ⟨_, s₂, hrun₂, hi₂, ⟨o, ?_⟩, by rw [hg₂, hpend₁], ?_, ?_⟩
  · rw [hts₂, hts₁]
    exact getElem?_fired_other _ hij (getElem?_fired_other _ hij hcaller)
  · have hsame : s₂.shared.streams = s₁.shared.streams := hst₂
    rw [hsame, hst₁, unread, Function.update_self]
  · rw [hg₂, hg₁]
    exact hnext

theorem Connected.reads_on {s₀ : Config WiredClient (Pc P)} {tr : List (Nat × Ev)}
    (hC : Connected m i j r id s) (h : Run (wiredClient t codec) Any s₀ tr s) (hij : i ≠ j)
    (hleft : Left t codec r r') :
    ∃ tr' s', Run (wiredClient t codec) Any s₀ tr' s' ∧ Connected m i j r' id s' := by
  induction hleft with
  | refl => exact ⟨tr, s, h, hC⟩
  | read _ hf ih =>
    obtain ⟨tr', s', hrun, hC'⟩ := ih
    exact hC'.reads hrun hij hf

/-- `SendRequest` up to the write. -/
theorem Connected.inserts {s₀ : Config WiredClient (Pc P)} {tr : List (Nat × Ev)}
    (hC : Connected m i j r id s) (h : Run (wiredClient t codec) Any s₀ tr s) (hij : i ≠ j) :
    ∃ tr' s' x, Run (wiredClient t codec) Any s₀ tr' s' ∧
      s'.threads[i]? = some (.reading m) ∧ s'.threads[j]? = some (.write x) ∧
      s'.shared.client.calls[x]? = some (newPendingCall (id + 1)) ∧
      s'.shared.client.pending = some [(id + 1, x)] ∧ s'.shared.streams m = r ∧
      s'.shared.client.nextID = id + 1 := by
  obtain ⟨hreader, ⟨o, hcaller⟩, hpend, rfl, rfl⟩ := hC
  obtain ⟨s₁, hrun₁, hg₁, hst₁, hts₁, hj₁⟩ := run_on (e := .sendRequest) h hcaller
    (clientStep_send t s.shared.client o)
  have hpend₁ : s₁.shared.client.pending = some [] := by
    rw [hg₁]
    exact hpend
  have hcall₁ : s₁.shared.client.calls[s.shared.client.calls.length]? =
      some (newPendingCall (s.shared.client.nextID + 1)) := by
    rw [hg₁]
    exact List.getElem?_concat_length
  have hid : s₁.shared.client.callID s.shared.client.calls.length =
      s.shared.client.nextID + 1 := by
    simp [Client.callID, hcall₁, newPendingCall]
  obtain ⟨s₂, hrun₂, hg₂, hst₂, hts₂, hj₂⟩ := run_on (e := .step) hrun₁ hj₁
    (clientStep_insert hpend₁ _)
  refine ⟨_, s₂, s.shared.client.calls.length, hrun₂, ?_, hj₂, ?_, ?_, ?_, ?_⟩
  · rw [hts₂, hts₁]
    exact getElem?_fired_other _ hij.symm (getElem?_fired_other _ hij.symm hreader)
  · rw [hg₂]
    exact hcall₁
  · rw [hg₂, hid]
    rfl
  · exact congrFun (hst₂.trans hst₁) m
  · rw [hg₂, hg₁]

/-- A call whose request cannot be written is not pending any more. -/
theorem Connected.calls {s₀ : Config WiredClient (Pc P)} {tr : List (Nat × Ev)}
    (hC : Connected m i j r id s) (h : Run (wiredClient t codec) Any s₀ tr s) (hij : i ≠ j) :
    ∃ tr' s', Run (wiredClient t codec) Any s₀ tr' s' ∧ Connected m i j r (id + 1) s' := by
  obtain ⟨tr₁, s₁, x, hrun₁, hreader, hwrite, hcall, hpend, hleft, hnext⟩ := hC.inserts h hij
  have hfail : clientStep (decodeResponseWith t) s₁.shared.client (.write x)
      (.writeFailed (.errorf "" [])) =
        some (s₁.shared.client, .dropWrite x (.errorf "" []), []) := by
    simp [clientStep, dialStep, sendStep]
  obtain ⟨s₂, hrun₂, hg₂, hst₂, hts₂, hj₂⟩ :=
    run_on (e := .writeFailed (.errorf "" [])) hrun₁ hwrite hfail
  have hdrop : clientStep (decodeResponseWith t) s₂.shared.client
      (.dropWrite x (.errorf "" [])) .step =
        some (s₂.shared.client.deleteID (s₂.shared.client.callID x),
          .returned (.failed (.wrapf "write request failed: %w" [] (.errorf "" []))), []) := by
    simp [clientStep, dialStep, sendStep]
  obtain ⟨s₃, hrun₃, hg₃, hst₃, hts₃, hj₃⟩ := run_on (e := .step) hrun₂ hj₂ hdrop
  have hid : s₁.shared.client.callID x = id + 1 := by
    simp [Client.callID, hcall, newPendingCall]
  refine ⟨_, s₃, hrun₃, ?_, ⟨_, hj₃⟩, ?_, ?_, ?_⟩
  · rw [hts₃, hts₂]
    exact getElem?_fired_other _ hij.symm (getElem?_fired_other _ hij.symm hreader)
  · rw [hg₃, hg₂, hid]
    simp [Client.deleteID, hpend]
  · exact (congrFun (hst₃.trans hst₂) m).trans hleft
  · rw [hg₃, hg₂]
    exact hnext

theorem Connected.calls_on {s₀ : Config WiredClient (Pc P)} {tr : List (Nat × Ev)}
    (hC : Connected m i j r id s) (h : Run (wiredClient t codec) Any s₀ tr s) (hij : i ≠ j)
    (k : Nat) :
    ∃ tr' s', Run (wiredClient t codec) Any s₀ tr' s' ∧
      Connected m i j r (id + UInt64.ofNat k) s' := by
  induction k with
  | zero => exact ⟨tr, s, h, by simpa using hC⟩
  | succ k ih =>
    obtain ⟨tr', s', hrun, hC'⟩ := ih
    have hnext : id + UInt64.ofNat (k + 1) = id + UInt64.ofNat k + 1 := by
      rw [UInt64.ofNat_add, ← UInt64.add_assoc]
      rfl
    rw [hnext]
    exact hC'.calls hrun hij

/-- Whatever frame arrives, in some run it completes a call. -/
theorem arriving_completes (hleft : Left t codec (streams m) r) (hf : Decoded t codec f r) :
    ∃ n tr s c k, Run (wiredClient t codec) Any (wiredStart n streams) tr s ∧
      c ∈ s.shared.client.calls ∧ c.completedBy = some k ∧
      s.shared.client.frames[k]? = some f := by
  obtain ⟨tr₀, s₀, i, j, hrun₀, hij, hC₀⟩ := connects t codec streams m
  obtain ⟨tr₁, s₁, hrun₁, hC₁⟩ := hC₀.reads_on hrun₀ hij hleft
  -- so many calls that the next one has the ID of the frame
  obtain ⟨tr₂, s₂, hrun₂, hC₂⟩ := hC₁.calls_on hrun₁ hij (f.header.requestID - 1).toNat
  obtain ⟨tr₃, s₃, x, hrun₃, hreader, -, hcall, hpend, hstream, -⟩ := hC₂.inserts hrun₂ hij
  have hid : (0 : UInt64) + UInt64.ofNat (f.header.requestID - 1).toNat + 1 =
      f.header.requestID := by
    simp
  rw [hid] at hcall hpend
  have hdec : Decoded t codec f (s₃.shared.streams m) := hstream ▸ hf
  have hfound : (s₃.shared.client.pending.getD []).find? (fun p => p.1 = f.header.requestID) =
      some (f.header.requestID, x) := by
    simp [hpend]
  obtain ⟨tr₄, s₄, hrun₄, hframe, hdone⟩ := frame_completes hreader hdec hfound hcall
  exact ⟨m + 1, _, s₄, _, _, hrun₃.trans hrun₄, List.mem_of_getElem? hdone, rfl, hframe⟩

end Reaching

/-- For whatever arrives on the connections: every call of every run is completed by a frame that
`ReadResponse` accepts exactly if every frame that arrives, up to the first one that
`DecodeFromReader` cannot read, is a response with a body that decodes. -/
theorem completions_accepted_iff (t : Tables P) (codec : ProtocolCodec P)
    (streams : Nat → Reader UInt8) :
    (∀ n tr s, Run (wiredClient t codec) Any (wiredStart n streams) tr s →
      ∀ c ∈ s.shared.client.calls, ∀ k, c.completedBy = some k →
        ∃ r, s.shared.origins[k]? = some r ∧ Accepts t codec r) ↔
    ∀ m r f, Left t codec (streams m) r → Decoded t codec f r → IsResponse t f := by
  constructor
  · intro hall m r f hleft hf
    obtain ⟨n, tr, s, c, k, hrun, hc, hk, hframe⟩ := arriving_completes hleft hf
    obtain ⟨f', r', hf', hr', hdec⟩ := completed_frame hrun hc hk
    obtain ⟨r'', hr'', hacc⟩ := hall n tr s hrun c hc k hk
    cases hr'.symm.trans hr''
    cases hframe.symm.trans hf'
    exact (accepts_iff hdec).mp hacc
  · intro hpeer n tr s hrun c hc k hk
    obtain ⟨f, r, -, hr, hdec⟩ := completed_frame hrun hc hk
    obtain ⟨m, hleft⟩ := (run_followed hrun).arrived r (List.mem_of_getElem? hr)
    exact ⟨r, hr, (accepts_iff hdec).mpr (hpeer m r f hleft hdec)⟩

/-! ## A request that completes a call -/

open BodyLimit (zeroTables zeroCodec zeroHeader oneFrame)
open Codec.Bodies (zeroText)
open Codec.Payloads (Payload)

/-- A call is made, and `readLoop` reads a frame. -/
def oneCall : List (Nat × Ev) :=
  [(0, .dial ""), (0, .sendRequest), (0, .step), (0, .written), (1, .step), (1, .step), (1, .step)]

/-- The peer sends a request with the ID of the call. -/
def oneCallRun : Option (Config WiredClient (Pc (Payload Unit Unit))) :=
  exec (wiredClient zeroTables zeroCodec) Any (wiredStart 1 (oneFrame 1)) oneCall

theorem oneCall_runs : oneCallRun.isSome := by decide

/-- A frame that announces itself as a request completes the call. -/
theorem request_completes_call :
    ¬ ∀ (P : Type) (t : Tables P) (codec : ProtocolCodec P) (n : Nat)
      (streams : Nat → Reader UInt8) (tr : List (Nat × Ev)) (s : Config WiredClient (Pc P)),
      Run (wiredClient t codec) Any (wiredStart n streams) tr s →
      ∀ c ∈ s.shared.client.calls, ∀ k, c.completedBy = some k →
        ∃ r, s.shared.origins[k]? = some r ∧ Accepts t codec r := by
  intro hall
  have hcalls : (oneCallRun.get oneCall_runs).shared.client.calls =
      [⟨1, 1, zeroText, codecTypeJSON, none, some 0⟩] := by rfl
  have hacc := hall _ zeroTables zeroCodec 1 (oneFrame 1) oneCall _ (run_exec oneCall_runs)
  change ∀ c ∈ (oneCallRun.get oneCall_runs).shared.client.calls, _ at hacc
  rw [hcalls] at hacc
  obtain ⟨r, hr, haccepts⟩ := hacc _ (List.mem_singleton_self _) 0 rfl
  have horigin : (oneCallRun.get oneCall_runs).shared.origins = [oneFrame 1 0] := by rfl
  change (oneCallRun.get oneCall_runs).shared.origins[0]? = some r at hr
  rw [horigin] at hr
  cases hr
  have hdec : Decoded zeroTables zeroCodec ⟨zeroHeader 1, zeroText⟩ (oneFrame 1 0) := by rfl
  obtain ⟨htyp, -⟩ := (accepts_iff hdec).mp haccepts
  exact absurd htyp (by decide)

end RpcInGo.Tcp.Completion
