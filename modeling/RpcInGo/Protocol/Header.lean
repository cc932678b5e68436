import RpcInGo.Lib.ByteStream
import RpcInGo.Protocol.Message

/-!
The 20-byte frame header of `pkg/protocol/header.go`.

* `decodeHeader_encodeHeader`: a header reads back from the bytes it was written as;
* `decode_exact`: which buffers are decoded, and that nothing of their first 20 bytes is lost.
-/

namespace RpcInGo.Protocol.Header
open Lib.ByteStream Message

def headerLength : Nat := 20
def protocolMagic : UInt16 := 0xCAFE
def protocolVersion : UInt8 := 0x01

def compressTypeNone : CompressType := 0x00
def compressTypeGzip : CompressType := 0x01
def compressTypeSnappy : CompressType := 0x02

def newHeader (msgType : MessageType) (codec : CodecType) (requestID : UInt64) (bodyLen : UInt32) :
    Header :=
  ⟨protocolMagic, protocolVersion, msgType, codec, compressTypeNone, (0, 0), requestID, bodyLen⟩

/-- `Header.Encode`. -/
def encodeHeader (h : Header) : Bytes :=
  putBE 2 h.magic.toNat ++
    [h.version, h.msgType, h.codec, h.compress, h.reserved.1, h.reserved.2] ++
    putBE 8 h.requestID.toNat ++ putBE 4 h.bodyLength.toNat

/-- `Header.Decode` into a new header. -/
def decodeHeader (buf : Bytes) : Except GoError Header :=
  if buf.length < headerLength then
    .error (.errorf "invalid header length: %d, expected: %d"
      [.int buf.length, .int headerLength])
  else if UInt16.ofNat (getBE (buf.take 2)) ≠ protocolMagic then
    .error (.errorf "invalid magic number: 0x%X, expected: 0x%X"
      [.int (getBE (buf.take 2)), .int protocolMagic.toNat])
  else if buf.getD 2 0 ≠ protocolVersion then
    .error (.errorf "unsupported protocol version: %d" [.int (buf.getD 2 0).toNat])
  else
    .ok ⟨UInt16.ofNat (getBE (buf.take 2)), buf.getD 2 0, buf.getD 3 0, buf.getD 4 0,
      buf.getD 5 0, (buf.getD 6 0, buf.getD 7 0), UInt64.ofNat (getBE ((buf.drop 8).take 8)),
      UInt32.ofNat (getBE ((buf.drop 16).take 4))⟩

/-- `Header.Decode` into the header `h`: the error, and what becomes of `h`, which a failed call
leaves with the fields assigned so far. -/
def decode (h : Header) (buf : Bytes) : Option GoError × Header :=
  if buf.length < headerLength then
    (some (.errorf "invalid header length: %d, expected: %d"
      [.int buf.length, .int headerLength]), h)
  else
    let h := { h with magic := UInt16.ofNat (getBE (buf.take 2)) }
    if h.magic ≠ protocolMagic then
      (some (.errorf "invalid magic number: 0x%X, expected: 0x%X"
        [.int (getBE (buf.take 2)), .int protocolMagic.toNat]), h)
    else
      let h := { h with version := buf.getD 2 0 }
      if h.version ≠ protocolVersion then
        (some (.errorf "unsupported protocol version: %d" [.int (buf.getD 2 0).toNat]), h)
      else
        (none, { h with
          msgType := buf.getD 3 0
          codec := buf.getD 4 0
          compress := buf.getD 5 0
          reserved := (buf.getD 6 0, buf.getD 7 0)
          requestID := UInt64.ofNat (getBE ((buf.drop 8).take 8))
          bodyLength := UInt32.ofNat (getBE ((buf.drop 16).take 4)) })

@[simp] theorem encodeHeader_length (h : Header) : (encodeHeader h).length = headerLength := by
  simp [encodeHeader, headerLength]

theorem getBE_putBE_of_lt {k v : Nat} (h : v < 256 ^ k) : getBE (putBE k v) = v := by
  rw [getBE_putBE, Nat.mod_eq_of_lt h]

/-- The fields at their places. -/
theorem decodeHeader_layout (msgType codec compress r₀ r₁ : UInt8) {e f : Bytes}
    (he : e.length = 8) (hf : f.length = 4) (rest : Bytes) :
    decodeHeader (0xCA :: 0xFE :: protocolVersion :: msgType :: codec :: compress :: r₀ :: r₁ ::
      (e ++ (f ++ rest))) = .ok ⟨protocolMagic, protocolVersion, msgType, codec, compress, (r₀, r₁),
        UInt64.ofNat (getBE e), UInt32.ofNat (getBE f)⟩ := by
  generalize hbuf : (0xCA :: 0xFE :: protocolVersion :: msgType :: codec :: compress :: r₀ :: r₁ ::
    (e ++ (f ++ rest))) = buf
  have hlen : ¬ buf.length < headerLength := by
    rw [← hbuf]
    simp only [List.length_cons, List.length_append, he, hf, headerLength]
    omega
  have hmagic : UInt16.ofNat (getBE (buf.take 2)) = protocolMagic := by
    rw [← hbuf]
    rfl
  have hid : (buf.drop 8).take 8 = e := by
    rw [← hbuf]
    exact List.take_left' he
  have hbody : (buf.drop 16).take 4 = f := by
    have hdrop : buf.drop 16 = (e ++ (f ++ rest)).drop 8 := by
      rw [← hbuf]
      rfl
    rw [hdrop, List.drop_left' he, List.take_left' hf]
  rw [decodeHeader, if_neg hlen, hmagic, hid, hbody, ← hbuf]
  rfl

theorem decodeHeader_encodeHeader {h : Header} (hm : h.magic = protocolMagic)
    (hv : h.version = protocolVersion) (rest : Bytes) :
    decodeHeader (encodeHeader h ++ rest) = .ok h := by
  have hbytes : encodeHeader h ++ rest = 0xCA :: 0xFE :: protocolVersion :: h.msgType :: h.codec ::
      h.compress :: h.reserved.1 :: h.reserved.2 ::
      (putBE 8 h.requestID.toNat ++ (putBE 4 h.bodyLength.toNat ++ rest)) := by
    have hmagic : putBE 2 protocolMagic.toNat = [0xCA, 0xFE] := by decide
    simp [encodeHeader, hm, hv, hmagic]
  have hid : getBE (putBE 8 h.requestID.toNat) = h.requestID.toNat :=
    getBE_putBE_of_lt h.requestID.toNat_lt
  have hlen : getBE (putBE 4 h.bodyLength.toNat) = h.bodyLength.toNat :=
    getBE_putBE_of_lt h.bodyLength.toNat_lt
  rw [hbytes, decodeHeader_layout _ _ _ _ _ (putBE_length _ _) (putBE_length _ _), hid, hlen,
    UInt64.ofNat_toNat, UInt32.ofNat_toNat, ← hm, ← hv]

/-! ## Decoding into a header that is there -/

/-- Nothing of the header that was there is left. -/
theorem decode_eq_none_iff {h h' : Header} {buf : Bytes} :
    decode h buf = (none, h') ↔ decodeHeader buf = .ok h' := by
  unfold decode decodeHeader
  by_cases hlen : buf.length < headerLength
  · simp [hlen]
  by_cases hmagic : UInt16.ofNat (getBE (buf.take 2)) = protocolMagic
  · by_cases hversion : buf.getD 2 0 = protocolVersion
    · simp only [if_neg hlen, hmagic, hversion, ne_eq, not_true_eq_false, if_false, Prod.mk.injEq,
        true_and, Except.ok.injEq]
    · simp only [if_neg hlen, hmagic, hversion, ne_eq, not_true_eq_false, if_false, if_true,
        not_false_eq_true, Prod.mk.injEq, reduceCtorEq, false_and]
  · simp only [if_neg hlen, hmagic, ne_eq, not_false_eq_true, if_true, Prod.mk.injEq, reduceCtorEq,
      false_and]

theorem exists_layout {buf : Bytes} (hlen : headerLength ≤ buf.length) :
    ∃ (m₀ m₁ version msgType codec compress r₀ r₁ : UInt8) (e f rest : Bytes),
      e.length = 8 ∧ f.length = 4 ∧
      buf = m₀ :: m₁ :: version :: msgType :: codec :: compress :: r₀ :: r₁ ::
        (e ++ (f ++ rest)) := by
  have hcons : ∀ {n : Nat} {buf : Bytes}, n + 1 ≤ buf.length →
      ∃ x tail, buf = x :: tail ∧ n ≤ tail.length := by
    intro n buf hn
    obtain ⟨x, tail, rfl⟩ := List.exists_cons_of_length_pos (Nat.zero_lt_of_lt hn)
    exact ⟨x, tail, rfl, Nat.le_of_succ_le_succ hn⟩
  obtain ⟨m₀, buf, rfl, h₁⟩ := hcons hlen
  obtain ⟨m₁, buf, rfl, h₂⟩ := hcons h₁
  obtain ⟨version, buf, rfl, h₃⟩ := hcons h₂
  obtain ⟨msgType, buf, rfl, h₄⟩ := hcons h₃
  obtain ⟨codec, buf, rfl, h₅⟩ := hcons h₄
  obtain ⟨compress, buf, rfl, h₆⟩ := hcons h₅
  obtain ⟨r₀, buf, rfl, h₇⟩ := hcons h₆
  obtain ⟨r₁, buf, rfl, h₈⟩ := hcons h₇
  refine ⟨m₀, m₁, version, msgType, codec, compress, r₀, r₁, buf.take 8, (buf.drop 8).take 4,
    (buf.drop 8).drop 4, ?_, ?_, ?_⟩
  · rw [List.length_take]
    omega
  · rw [List.length_take, List.length_drop]
    omega
  · rw [List.take_append_drop, List.take_append_drop]

theorem magic_eq_iff {m₀ m₁ : UInt8} :
    UInt16.ofNat (getBE [m₀, m₁]) = protocolMagic ↔ m₀ = 0xCA ∧ m₁ = 0xFE := by
  constructor
  · intro h
    have hnum : getBE [m₀, m₁] = 0xCAFE := by
      have hlt := getBE_lt [m₀, m₁]
      have hmod : getBE [m₀, m₁] % 2 ^ 16 = 0xCAFE := by
        simpa [protocolMagic] using congrArg UInt16.toNat h
      rw [List.length_cons, List.length_singleton] at hlt
      omega
    have hbytes : putBE 2 (getBE [m₀, m₁]) = [m₀, m₁] := putBE_getBE [m₀, m₁]
    rw [hnum] at hbytes
    have hcafe : putBE 2 0xCAFE = [0xCA, 0xFE] := by decide
    simpa [hcafe, eq_comm] using hbytes
  · rintro ⟨rfl, rfl⟩
    rfl

/-- The buffers that are decoded. -/
structure Accepted (buf : Bytes) : Prop where
  length_ge : headerLength ≤ buf.length
  magic : buf.take 2 = [0xCA, 0xFE]
  version : buf[2]? = some protocolVersion

theorem decodeHeader_ok_iff {buf : Bytes} : (∃ h, decodeHeader buf = .ok h) ↔ Accepted buf := by
  constructor
  · rintro ⟨h, hdec⟩
    unfold decodeHeader at hdec
    split at hdec
    · cases hdec
    rename_i hlen
    split at hdec
    · cases hdec
    rename_i hmagic
    split at hdec
    · cases hdec
    rename_i hversion
    obtain ⟨m₀, m₁, version, _, _, _, _, _, e, f, rest, -, -, rfl⟩ :=
      exists_layout (Nat.not_lt.mp hlen)
    obtain ⟨rfl, rfl⟩ := magic_eq_iff.mp (not_not.mp hmagic)
    exact ⟨Nat.not_lt.mp hlen, rfl, congrArg some (not_not.mp hversion)⟩
  · rintro ⟨hlen, hmagic, hversion⟩
    obtain ⟨m₀, m₁, version, msgType, codec, compress, r₀, r₁, e, f, rest, he, hf, rfl⟩ :=
      exists_layout hlen
    cases hmagic
    cases hversion
    exact ⟨_, decodeHeader_layout msgType codec compress r₀ r₁ he hf rest⟩

/-- Every byte of the header is in one of the fields. -/
theorem encodeHeader_of_decodeHeader {buf : Bytes} {h : Header} (hdec : decodeHeader buf = .ok h) :
    encodeHeader h = buf.take headerLength := by
  obtain ⟨hlen, hmagic, hversion⟩ := decodeHeader_ok_iff.mp ⟨h, hdec⟩
  obtain ⟨m₀, m₁, version, msgType, codec, compress, r₀, r₁, e, f, rest, he, hf, rfl⟩ :=
    exists_layout hlen
  cases hmagic
  cases hversion
  rw [decodeHeader_layout msgType codec compress r₀ r₁ he hf rest] at hdec
  cases hdec
  have hid : putBE 8 (UInt64.ofNat (getBE e)).toNat = e := by
    have hlt := getBE_lt e
    rw [he] at hlt
    rw [UInt64.toNat_ofNat_of_lt' hlt, ← he, putBE_getBE]
  have hbody : putBE 4 (UInt32.ofNat (getBE f)).toNat = f := by
    have hlt := getBE_lt f
    rw [hf] at hlt
    rw [UInt32.toNat_ofNat_of_lt' hlt, ← hf, putBE_getBE]
  have htake : (e ++ (f ++ rest)).take 12 = e ++ f := by
    rw [← List.append_assoc, List.take_left' (by rw [List.length_append, he, hf])]
  have hcafe : putBE 2 protocolMagic.toNat = [0xCA, 0xFE] := by decide
  simp only [encodeHeader, hid, hbody, hcafe, headerLength, List.take_succ_cons, htake]
  rfl

/-- `Decode` accepts exactly the buffers that begin as a header does, into any header. Encoding
what it made gives the bytes back, and decoding what was encoded gives the header back. -/
theorem decode_exact (h : Header) (buf : Bytes) :
    ((decode h buf).1 = none ↔
      20 ≤ buf.length ∧ buf.take 2 = [0xCA, 0xFE] ∧ buf[2]? = some 1) ∧
    ((decode h buf).1 = none → encodeHeader (decode h buf).2 = buf.take 20) ∧
    ∀ h' : Header, h'.magic = protocolMagic → h'.version = protocolVersion →
      decode h (encodeHeader h') = (none, h') := by
  have hok : (decode h buf).1 = none → decodeHeader buf = .ok (decode h buf).2 := fun hnone =>
    decode_eq_none_iff.mp (Prod.ext hnone rfl : decode h buf = (none, (decode h buf).2))
  refine ⟨⟨fun hnone => ?_, fun ⟨hlen, hmagic, hversion⟩ => ?_⟩, fun hnone => ?_,
    fun h' hm hv => ?_⟩
  · obtain ⟨hlen, hmagic, hversion⟩ := decodeHeader_ok_iff.mp ⟨_, hok hnone⟩
    exact ⟨hlen, hmagic, hversion⟩
  · obtain ⟨h', hdec⟩ := decodeHeader_ok_iff.mpr ⟨hlen, hmagic, hversion⟩
    rw [decode_eq_none_iff.mpr hdec]
  · exact encodeHeader_of_decodeHeader (hok hnone)
  · rw [decode_eq_none_iff, ← List.append_nil (encodeHeader h')]
    exact decodeHeader_encodeHeader hm hv []

/-- A reply with a compression and reserved bytes, into a header that was in use. -/
theorem decode_exact_reply :
    decode (newHeader msgTypeRequest codecTypeJSON 1 2)
        (encodeHeader ⟨protocolMagic, protocolVersion, msgTypeResponse, codecTypeMsgPack,
          compressTypeGzip, (7, 8), 9, 10⟩) =
      (none, ⟨protocolMagic, protocolVersion, msgTypeResponse, codecTypeMsgPack,
        compressTypeGzip, (7, 8), 9, 10⟩) :=
  (decode_exact (newHeader msgTypeRequest codecTypeJSON 1 2) []).2.2 _ rfl rfl

end RpcInGo.Protocol.Header
