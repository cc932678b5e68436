import RpcInGo.Codec.Bodies
import RpcInGo.Tcp.Completion

/-!
What passes over one direction of a connection: the frames that one end gives to it, and
what the other end reads of them.

* `delivered_at`: what is read frame by frame from a prefix of a stream of frames is what
  was sent at that place of the stream;
* `delivered_request`, `delivered_response`: the message that is decoded there is the one
  that was encoded, with its payload serialized.
-/

namespace RpcInGo.System.Wire
open Lib.ByteStream Lib.Goroutine Protocol.Message Protocol.Header Codec.Registry Codec.Payloads
  Codec.Bodies Tcp.Framing

section Streams
variable {P : Type} {t : Tables P} {pc : ProtocolCodec P}

theorem decodes_getElem? {n j : Nat} (hj : j < n) (r : Reader UInt8) :
    (decodes t pc n r).1[j]? = some (decodeFromReader t pc (decodes t pc j r).2).1 := by
  induction n generalizing j r with
  | zero => exact absurd hj (Nat.not_lt_zero j)
  | succ n ih =>
    cases j with
    | zero => rfl
    | succ j => exact ih (Nat.lt_of_succ_lt_succ hj) _

/-- A frame that is read after `j` others from a prefix of a stream is the one sent there. -/
theorem delivered_at (hgzip : t.gzip.Lossless) {sent : List (Sent P)}
    (hsent : ∀ s ∈ sent, s.Framed t) {r : Reader UInt8} (hr : r.flatten <+: stream sent) {j : Nat}
    {header : Header} {data : Bytes}
    (hok : (decodeFromReader t pc (decodes t pc j r).2).1 = .ok (header, data)) :
    ∃ s, sent[j]? = some s ∧ Delivers t s (.ok (header, data)) := by
  have htake := List.prefix_iff_eq_take.mp hr
  have hget : (decodes t pc (j + 1) r).1[j]? = some (.ok (header, data)) := by
    rw [decodes_getElem? (Nat.lt_succ_self j), hok]
  by_cases hj : j < contained sent r.flatten.length
  · obtain ⟨hall, -⟩ := decodes_contained hgzip pc hsent htake (Nat.succ_le_of_lt hj)
    obtain ⟨s, hs, hdel⟩ := forall₂_get hall.flip hget
    rw [List.getElem?_take_of_lt (Nat.lt_succ_self j)] at hs
    exact ⟨s, hs, hdel⟩
  · -- beyond the whole frames every read fails
    have hbeyond := decodes_beyond hgzip pc hsent htake (j + 1)
    have hmem : .ok (header, data) ∈
        (decodes t pc (j + 1) r).1.drop (contained sent r.flatten.length) := by
      refine List.mem_of_getElem? (i := j - contained sent r.flatten.length) ?_
      rw [List.getElem?_drop, Nat.add_sub_cancel' (Nat.not_lt.mp hj)]
      exact hget
    obtain ⟨err, herr⟩ := hbeyond _ hmem
    cases herr

/-- What a codec gives to a connection for a message, if it encodes. -/
def send (codec : ProtocolCodec P) (body : Body P) : Option (Sent P) :=
  match encode codec body with
  | .ok frame => some ⟨codec.codecType, codec.compressType, body, frame⟩
  | .error _ => none

theorem send_some {codecType : CodecType} {compressType : CompressType} {body : Body P}
    {s : Sent P} (h : send (newProtocolCodec t codecType compressType) body = some s) :
    s.body = body ∧ encode (s.pc t) s.body = .ok s.frame := by
  unfold send at h
  split at h
  · rename_i frame henc
    cases h
    exact ⟨rfl, henc⟩
  · cases h

end Streams

section Messages
variable {M V : Type} (f : Formats) (mar : Marshal M V) (gzip : Compressor)

/-- The tables after the `init` functions. -/
def tables : Tables (Payload M V) := ⟨jsonCodec f mar, protobufCodec f mar, gzip⟩

/-- The message that arrives is the one sent, with its payload serialized. -/
def Arrives (body arrived : Body (Payload M V)) : Prop :=
  ∃ data, bodyContent mar body = some data ∧ received body data = arrived

theorem getOrDefault_carries (codecType : CodecType) :
    Carries mar ((tables f mar gzip).getOrDefault codecType) := by
  unfold Tables.getOrDefault Tables.get
  split
  · rename_i codec hcodec
    split at hcodec
    · cases hcodec
      exact jsonCodec_carries f mar
    · split at hcodec <;> cases hcodec
      exact protobufCodec_carries f mar
  · exact jsonCodec_carries f mar

variable {f mar gzip} {s : Sent (Payload M V)} {header : Header} {data : Bytes}

theorem delivered_request {req req' : Request (Payload M V)} (hs : s.body = .request req)
    (hdel : Delivers (tables f mar gzip) s (.ok (header, data)))
    (hdec : Tcp.BodyLimit.decodeRequestWith (tables f mar gzip) header.codec data = .ok req') :
    header.requestID = req.id ∧ Arrives mar (.request req) (.request req') := by
  obtain ⟨header', data', heq, -, hcodec, -, hid, henc⟩ := hdel
  cases heq
  rw [hs] at hid henc
  refine ⟨hid, ?_⟩
  obtain ⟨content, hcontent, hback⟩ := (getOrDefault_carries f mar gzip s.codecType _).ok henc
  refine ⟨content, hcontent, ?_⟩
  rw [hcodec] at hdec
  unfold Tcp.BodyLimit.decodeRequestWith at hdec
  split at hdec
  · cases hdec
  · rename_i decoded hreq
    cases hdec
    rw [decodeAs, hreq] at hback
    exact (Except.ok.inj hback).symm

theorem delivered_response {resp resp' : Response (Payload M V)} (hs : s.body = .response resp)
    (hdel : Delivers (tables f mar gzip) s (.ok (header, data)))
    (hdec : Tcp.Completion.decodeResponseWith (tables f mar gzip) header.codec data = .ok resp') :
    header.requestID = resp.id ∧ Arrives mar (.response resp) (.response resp') := by
  obtain ⟨header', data', heq, -, hcodec, -, hid, henc⟩ := hdel
  cases heq
  rw [hs] at hid henc
  refine ⟨hid, ?_⟩
  obtain ⟨content, hcontent, hback⟩ := (getOrDefault_carries f mar gzip s.codecType _).ok henc
  refine ⟨content, hcontent, ?_⟩
  rw [hcodec] at hdec
  unfold Tcp.Completion.decodeResponseWith at hdec
  split at hdec
  · cases hdec
  · rename_i decoded hresp
    cases hdec
    rw [decodeAs, hresp] at hback
    exact (Except.ok.inj hback).symm

/-- The ID arrives as it was sent. -/
theorem Arrives.request_id {req req' : Request (Payload M V)}
    (h : Arrives mar (.request req) (.request req')) : req'.id = req.id := by
  obtain ⟨content, -, heq⟩ := h
  cases heq
  rfl

end Messages

end RpcInGo.System.Wire
