import Mathlib.Data.List.Basic
import Mathlib.Data.List.Induction
import Mathlib.Data.Nat.ModEq

/-! Big-endian numbers of a fixed width, and readers that hand out a stream in
pieces: `getBE_putBE` says what a number reads back as, `readFull_ok` and
`readFull_short` that `io.ReadFull` does not depend on the pieces, and `read_ok`
that a single `Read` does. -/

namespace RpcInGo.Lib.ByteStream

abbrev Bytes := List UInt8

/-! ## Big-endian numbers -/

/-- The low `k` bytes of a number, most significant first. -/
def putBE : Nat → Nat → Bytes
  | 0, _ => []
  | k + 1, v => putBE k (v / 256) ++ [UInt8.ofNat v]

def getBE (bs : Bytes) : Nat := bs.foldl (fun acc b => acc * 256 + b.toNat) 0

@[simp] theorem putBE_length (k v : Nat) : (putBE k v).length = k := by
  induction k generalizing v with
  | zero => rfl
  | succ k ih => rw [putBE, List.length_append, ih, List.length_singleton]

theorem getBE_snoc (bs : Bytes) (b : UInt8) : getBE (bs ++ [b]) = getBE bs * 256 + b.toNat := by
  rw [getBE, List.foldl_append]
  rfl

theorem getBE_putBE (k v : Nat) : getBE (putBE k v) = v % 256 ^ k := by
  induction k generalizing v with
  | zero => simp [putBE, getBE, Nat.mod_one]
  | succ k ih =>
    have hbyte : (UInt8.ofNat v).toNat = v % 256 := by simp
    rw [putBE, getBE_snoc, ih, hbyte, pow_succ, Nat.mul_comm (256 ^ k), Nat.mod_mul]
    omega

theorem getBE_append (bs bs' : Bytes) :
    getBE (bs ++ bs') = getBE bs * 256 ^ bs'.length + getBE bs' := by
  induction bs' using List.reverseRecOn with
  | nil => simp [getBE]
  | append_singleton bs' b ih =>
    rw [← List.append_assoc, getBE_snoc, getBE_snoc, ih, List.length_append, List.length_singleton,
      pow_succ, Nat.add_mul, Nat.mul_assoc, Nat.add_assoc]

/-- A number of which only the first bytes have come, the others being zero. -/
theorem getBE_take_zeros_le (bs : Bytes) (k : Nat) :
    getBE (bs.take k ++ List.replicate (bs.length - k) 0) ≤ getBE bs := by
  have hzeros : ∀ n, getBE (List.replicate n 0) = 0 := by
    intro n
    induction n with
    | zero => rfl
    | succ n ih => rw [List.replicate_succ', getBE_snoc, ih]; rfl
  have hsplit := getBE_append (bs.take k) (bs.drop k)
  rw [List.take_append_drop, List.length_drop] at hsplit
  rw [getBE_append, hzeros, List.length_replicate, hsplit]
  omega

theorem getBE_lt (bs : Bytes) : getBE bs < 256 ^ bs.length := by
  induction bs using List.reverseRecOn with
  | nil => simp [getBE]
  | append_singleton bs b ih =>
    have hb := b.toNat_lt
    rw [getBE_snoc, List.length_append, List.length_singleton, pow_succ]
    omega

theorem putBE_getBE (bs : Bytes) : putBE bs.length (getBE bs) = bs := by
  induction bs using List.reverseRecOn with
  | nil => rfl
  | append_singleton bs b ih =>
    have hb := b.toNat_lt
    have hhigh : (getBE bs * 256 + b.toNat) / 256 = getBE bs := by omega
    have hlow : UInt8.ofNat (getBE bs * 256 + b.toNat) = b := by
      apply UInt8.toNat_inj.mp
      rw [UInt8.toNat_ofNat']
      omega
    rw [List.length_append, List.length_singleton, putBE, getBE_snoc, hhigh, hlow, ih]

/-! ## Readers -/

section Readers
variable {α : Type}

/-- What is left of a stream, as the pieces in which it arrives: one `Read` takes
from the first piece only. After the last piece comes the end of the stream. -/
abbrev Reader (α : Type) := List (List α)

inductive ReadError
  | eof
  | unexpectedEOF
  deriving DecidableEq, Repr

def ReadError.text : ReadError → String
  | .eof => "EOF"
  | .unexpectedEOF => "unexpected EOF"

/-- One `Read` into a buffer of `n` items. -/
def read (n : Nat) : Reader α → Except ReadError (List α) × Reader α
  | [] => (.error .eof, [])
  | piece :: rest => (.ok (piece.take n), piece.drop n :: rest)

/-- The loop of `io.ReadFull` with `n` items to go. -/
def fill (got : List α) : Nat → Reader α → Except ReadError (List α) × Reader α
  | 0, r => (.ok got, r)
  | _ + 1, [] => (.error (if got.isEmpty then .eof else .unexpectedEOF), [])
  | n + 1, piece :: rest =>
    if piece.length < n + 1 then fill (got ++ piece) (n + 1 - piece.length) rest
    else (.ok (got ++ piece.take (n + 1)), piece.drop (n + 1) :: rest)

def readFull (n : Nat) (r : Reader α) : Except ReadError (List α) × Reader α := fill [] n r

theorem fill_ok {n : Nat} {r : Reader α} (got : List α) (h : n ≤ r.flatten.length) :
    ∃ r', fill got n r = (.ok (got ++ r.flatten.take n), r') ∧ r'.flatten = r.flatten.drop n := by
  induction r generalizing got n with
  | nil =>
    have hn : n = 0 := Nat.le_zero.mp h
    subst hn
    exact ⟨[], by simp [fill], rfl⟩
  | cons piece rest ih =>
    cases n with
    | zero => exact ⟨piece :: rest, by simp [fill], rfl⟩
    | succ n =>
      rw [List.flatten_cons, List.length_append] at h
      by_cases hlt : piece.length < n + 1
      · have hpiece : piece.take (n + 1) = piece := List.take_of_length_le (Nat.le_of_lt hlt)
        obtain ⟨r', hfill, hrest⟩ := ih (n := n + 1 - piece.length) (got ++ piece) (by omega)
        refine ⟨r', ?_, ?_⟩
        · rw [fill, if_pos hlt, hfill, List.flatten_cons, List.take_append, hpiece,
            List.append_assoc]
        · rw [hrest, List.flatten_cons, List.drop_append, List.drop_of_length_le (Nat.le_of_lt hlt),
            List.nil_append]
      · have hle : n + 1 ≤ piece.length := Nat.not_lt.mp hlt
        refine ⟨piece.drop (n + 1) :: rest, ?_, ?_⟩
        · rw [fill, if_neg hlt, List.flatten_cons, List.take_append_of_le_length hle]
        · rw [List.flatten_cons, List.flatten_cons, List.drop_append_of_le_length hle]

theorem fill_short {n : Nat} {r : Reader α} (got : List α) (h : r.flatten.length < n) :
    ∃ e, fill got n r = (.error e, []) := by
  induction r generalizing got n with
  | nil =>
    obtain ⟨n, rfl⟩ := Nat.exists_eq_add_one.mpr (Nat.zero_lt_of_lt h)
    exact ⟨_, rfl⟩
  | cons piece rest ih =>
    rw [List.flatten_cons, List.length_append] at h
    obtain ⟨n, rfl⟩ := Nat.exists_eq_add_one.mpr (Nat.zero_lt_of_lt h)
    have hlt : piece.length < n + 1 := by omega
    rw [fill, if_pos hlt]
    exact ih _ (by omega)

/-- With enough left, the next `n` items are read, whatever the pieces are. -/
theorem readFull_ok {n : Nat} {r : Reader α} (h : n ≤ r.flatten.length) :
    ∃ r', readFull n r = (.ok (r.flatten.take n), r') ∧ r'.flatten = r.flatten.drop n :=
  fill_ok [] h

/-- Otherwise the reader is used up and an error reported. -/
theorem readFull_short {n : Nat} {r : Reader α} (h : r.flatten.length < n) :
    ∃ e, readFull n r = (.error e, []) :=
  fill_short [] h

/-- How many items a `Read` into a buffer of `n` takes. -/
def ready (n : Nat) (r : Reader α) : Nat := min n (r.headD []).length

theorem ready_le (n : Nat) (r : Reader α) : ready n r ≤ n := Nat.min_le_left _ _

theorem ready_le_length (n : Nat) (r : Reader α) : ready n r ≤ r.flatten.length := by
  cases r with
  | nil => simp [ready]
  | cons piece rest =>
    simp only [ready, List.headD_cons, List.flatten_cons, List.length_append]
    omega

theorem read_ok {n : Nat} {r : Reader α} (h : r ≠ []) :
    ∃ r', read n r = (.ok (r.flatten.take (ready n r)), r') ∧
      r'.flatten = r.flatten.drop (ready n r) := by
  obtain ⟨piece, rest, rfl⟩ := List.exists_cons_of_ne_nil h
  have hle : min n piece.length ≤ piece.length := Nat.min_le_right _ _
  refine ⟨piece.drop n :: rest, ?_, ?_⟩
  · rw [read, ready, List.headD_cons, List.flatten_cons, List.take_append_of_le_length hle,
      ← List.take_eq_take_min]
  · rw [ready, List.headD_cons, List.flatten_cons, List.flatten_cons,
      List.drop_append_of_le_length hle]
    congr 1
    rcases Nat.le_total n piece.length with hn | hn
    · rw [Nat.min_eq_left hn]
    · rw [Nat.min_eq_right hn, List.drop_of_length_le hn, List.drop_length]

/-- A way to cut streams into pieces that arrive one after the other. -/
structure Splitter (α : Type) where
  pieces : List α → Reader α
  flatten_pieces : ∀ s, (pieces s).flatten = s
  nil_notMem : ∀ s, [] ∉ pieces s

/-- Everything comes at once. -/
def Splitter.whole : Splitter α where
  pieces s := if s.isEmpty then [] else [s]
  flatten_pieces s := by cases s <;> simp
  nil_notMem s := by cases s <;> simp

/-- Every item comes alone. -/
def Splitter.single : Splitter α where
  pieces s := s.map fun a => [a]
  flatten_pieces s := by induction s <;> simp_all
  nil_notMem s := by simp

end Readers

end RpcInGo.Lib.ByteStream
