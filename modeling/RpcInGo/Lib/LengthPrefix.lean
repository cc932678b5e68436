import RpcInGo.Lib.ByteStream

/-!
Messages on a stream behind a big-endian length of fixed width. The reader refuses lengths above
a limit.

* `readFrame_frame`: a message up to the limit is read back, and nothing else is;
* `readFrame_overlong`: behind a longer one something of it stays on the stream;
* `readFrameOnce_frame`, `readFrameOnce_iff`: a reader that takes the length with a single `Read`
  never notices that it came in parts, and then reads too little.
-/

namespace RpcInGo.Lib.LengthPrefix
open ByteStream

/-- The length is cut to `width` bytes. -/
def frame (width : Nat) (data : Bytes) : Bytes := putBE width data.length ++ data

inductive FrameErr
  | readLength (e : ReadError)
  | tooLarge (length : Nat)
  | readData (e : ReadError)
  deriving DecidableEq, Repr

def readFrame (width limit : Nat) (r : Reader UInt8) : Except FrameErr Bytes × Reader UInt8 :=
  match readFull width r with
  | (.error e, r) => (.error (.readLength e), r)
  | (.ok lengthBuf, r) =>
    if getBE lengthBuf > limit then (.error (.tooLarge (getBE lengthBuf)), r)
    else
      match readFull (getBE lengthBuf) r with
      | (.error e, r) => (.error (.readData e), r)
      | (.ok data, r) => (.ok data, r)

/-- The length is what one `Read` puts into a buffer of zeros. -/
def readFrameOnce (width limit : Nat) (r : Reader UInt8) : Except FrameErr Bytes × Reader UInt8 :=
  match read width r with
  | (.error e, r) => (.error (.readLength e), r)
  | (.ok got, r) =>
    let length := getBE (got ++ List.replicate (width - got.length) 0)
    if length > limit then (.error (.tooLarge length), r)
    else
      match readFull length r with
      | (.error e, r) => (.error (.readData e), r)
      | (.ok data, r) => (.ok data, r)

section Frames
variable {width limit : Nat} {data rest : Bytes} {r : Reader UInt8}

/-- The length is read, whatever becomes of the data. -/
theorem readFull_length (hr : r.flatten = frame width data ++ rest) :
    ∃ r', readFull width r = (.ok (putBE width data.length), r') ∧ r'.flatten = data ++ rest := by
  have hle : width ≤ r.flatten.length := by
    simp only [hr, frame, List.length_append, putBE_length]
    omega
  obtain ⟨r', hread, hleft⟩ := readFull_ok hle
  have htake : r.flatten.take width = putBE width data.length := by
    rw [hr, frame, List.append_assoc, List.take_left' (putBE_length _ _)]
  have hdrop : r.flatten.drop width = data ++ rest := by
    rw [hr, frame, List.append_assoc, List.drop_left' (putBE_length _ _)]
  rw [htake] at hread
  rw [hdrop] at hleft
  exact ⟨r', hread, hleft⟩

theorem readFrame_frame (hlimit : limit < 256 ^ width) (hdata : data.length ≤ limit)
    (hr : r.flatten = frame width data ++ rest) :
    ∃ r', readFrame width limit r = (.ok data, r') ∧ r'.flatten = rest := by
  obtain ⟨r₁, hlength, hleft⟩ := readFull_length hr
  have hbe : getBE (putBE width data.length) = data.length := by
    rw [getBE_putBE, Nat.mod_eq_of_lt (by omega)]
  obtain ⟨r₂, hread, hrest⟩ := readFull_ok (n := data.length) (r := r₁) (by simp [hleft])
  rw [hleft, List.take_left' rfl] at hread
  rw [hleft, List.drop_left' rfl] at hrest
  refine ⟨r₂, ?_, hrest⟩
  rw [readFrame, hlength]
  simp only [hbe]
  rw [if_neg (by omega), hread]

/-- A message above the limit is refused before it is read, or read in part if its length was
cut. -/
theorem readFrame_overlong (hdata : limit < data.length) (hr : r.flatten = frame width data) :
    (readFrame width limit r).2.flatten ≠ [] := by
  rw [← List.append_nil (frame width data)] at hr
  obtain ⟨r₁, hlength, hleft⟩ := readFull_length hr
  rw [List.append_nil] at hleft
  rw [readFrame, hlength]
  simp only [getBE_putBE]
  by_cases hbig : data.length % 256 ^ width > limit
  · rw [if_pos hbig, hleft]
    intro hnil
    simp [hnil] at hdata
  · obtain ⟨r₂, hread, hrest⟩ := readFull_ok (n := data.length % 256 ^ width) (r := r₁)
      (by rw [hleft]; exact Nat.mod_le _ _)
    rw [if_neg hbig, hread, hrest, hleft]
    intro hnil
    have hle := List.drop_eq_nil_iff.mp hnil
    have hlt : data.length % 256 ^ width ≤ limit := by omega
    omega

end Frames

section Once
variable {width limit : Nat} {data : Bytes} {r : Reader UInt8}

/-- The length as it is understood when `k` bytes of it come with the first `Read`. -/
def cutLength (width k : Nat) (data : Bytes) : Nat :=
  getBE ((putBE width data.length).take k ++ List.replicate (width - k) 0)

theorem cutLength_le (width k : Nat) (data : Bytes) : cutLength width k data ≤ data.length := by
  have hle := getBE_take_zeros_le (putBE width data.length) k
  rw [putBE_length, getBE_putBE] at hle
  exact hle.trans (Nat.mod_le _ _)

/-- A message is read without an error, though not always as it is. -/
theorem readFrameOnce_frame (hwidth : 0 < width) (hdata : data.length ≤ limit)
    (hr : r.flatten = frame width data) :
    ∃ r', readFrameOnce width limit r = (.ok (((frame width data).drop (ready width r)).take
        (cutLength width (ready width r) data)), r') ∧
      r'.flatten = (frame width data).drop
        (ready width r + cutLength width (ready width r) data) := by
  have hne : r ≠ [] := by
    rintro rfl
    have hlen := congrArg List.length hr
    simp only [frame, List.flatten_nil, List.length_nil, List.length_append, putBE_length] at hlen
    omega
  have hk := ready_le width r
  have hcut := cutLength_le width (ready width r) data
  obtain ⟨r₁, hread, hleft⟩ := read_ok (n := width) hne
  have htake : r.flatten.take (ready width r) =
      (putBE width data.length).take (ready width r) := by
    rw [hr, frame, List.take_append_of_le_length (by simpa using hk)]
  have hlen : ((putBE width data.length).take (ready width r)).length = ready width r := by
    simpa using hk
  rw [htake] at hread
  rw [hr] at hleft
  have hle : cutLength width (ready width r) data ≤ r₁.flatten.length := by
    rw [hleft, List.length_drop, frame, List.length_append, putBE_length]
    omega
  obtain ⟨r₂, hfull, hrest⟩ := readFull_ok hle
  refine ⟨r₂, ?_, by rw [hrest, hleft, List.drop_drop]⟩
  rw [readFrameOnce, hread]
  simp only [hlen]
  rw [← cutLength, if_neg (by omega), hfull, hleft]

/-- The message is read and used up exactly if its length came in one piece. -/
theorem readFrameOnce_iff (hwidth : 0 < width) (hlimit : limit < 256 ^ width)
    (hdata : data.length ≤ limit) (hr : r.flatten = frame width data) :
    (readFrameOnce width limit r).1 = .ok data ∧ (readFrameOnce width limit r).2.flatten = [] ↔
      ready width r = width := by
  obtain ⟨r', hread, hleft⟩ := readFrameOnce_frame hwidth hdata hr
  rw [hread]
  have hk := ready_le width r
  have hcut := cutLength_le width (ready width r) data
  constructor
  · rintro ⟨-, hnil⟩
    have hlen := List.drop_eq_nil_iff.mp (hleft.symm.trans hnil)
    rw [frame, List.length_append, putBE_length] at hlen
    omega
  · intro hwhole
    have hlength : cutLength width width data = data.length := by
      rw [cutLength, List.take_of_length_le (by simp), Nat.sub_self, List.replicate_zero,
        List.append_nil, getBE_putBE, Nat.mod_eq_of_lt (by omega)]
    rw [hwhole, hlength] at hleft ⊢
    have hdrop : (frame width data).drop width = data := List.drop_left' (putBE_length _ _)
    refine ⟨by rw [hdrop, List.take_length], ?_⟩
    rw [hleft, ← List.drop_drop, hdrop, List.drop_length]

/-- A message that breaks off behind its length is not taken for one. -/
theorem readFrameOnce_short (hlimit : limit < 256 ^ width) (hdata : data.length ≤ limit)
    (hr : r.flatten <+: frame width data) (hshort : r.flatten.length < (frame width data).length)
    (hwidth : 0 < width) (hwhole : ready width r = width) :
    ∃ e, (readFrameOnce width limit r).1 = .error e := by
  have hne : r ≠ [] := by
    rintro rfl
    simp only [ready, List.headD_nil, List.length_nil, Nat.min_zero] at hwhole
    omega
  have hle := ready_le_length width r
  obtain ⟨r₁, hread, hleft⟩ := read_ok (n := width) hne
  rw [hwhole] at hread hleft hle
  have htake : r.flatten.take width = putBE width data.length := by
    rw [List.prefix_iff_eq_take.mp hr, List.take_take, Nat.min_eq_left hle, frame,
      List.take_left' (putBE_length _ _)]
  have hlength : getBE (putBE width data.length) = data.length := by
    rw [getBE_putBE, Nat.mod_eq_of_lt (by omega)]
  have hfew : r₁.flatten.length < data.length := by
    rw [frame, List.length_append, putBE_length] at hshort
    rw [hleft, List.length_drop]
    omega
  obtain ⟨e, hfull⟩ := readFull_short hfew
  refine ⟨.readData e, ?_⟩
  rw [readFrameOnce, hread, htake]
  simp only [putBE_length, Nat.sub_self, List.replicate_zero, List.append_nil, hlength]
  rw [if_neg (by omega), hfull]

/-- A message of which a part may be missing, read without an error behind its whole length. -/
theorem readFrameOnce_whole (hwidth : 0 < width) (hlimit : limit < 256 ^ width)
    (hdata : data.length ≤ limit) (hr : r.flatten <+: frame width data)
    (hwhole : ready width r = width) {out : Bytes}
    (h : (readFrameOnce width limit r).1 = .ok out) :
    out = data ∧ (readFrameOnce width limit r).2.flatten = [] := by
  rcases Nat.lt_or_ge r.flatten.length (frame width data).length with hlt | hge
  · obtain ⟨e, he⟩ := readFrameOnce_short hlimit hdata hr hlt hwidth hwhole
    rw [he] at h
    cases h
  · have heq : r.flatten = frame width data := hr.eq_of_length_le hge
    obtain ⟨hok, hnil⟩ := (readFrameOnce_iff hwidth hlimit hdata heq).mpr hwhole
    rw [hok] at h
    cases h
    exact ⟨rfl, hnil⟩

end Once

end RpcInGo.Lib.LengthPrefix
