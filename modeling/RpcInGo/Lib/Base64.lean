import RpcInGo.Lib.ByteStream

/-!
Base64 with padding, in the standard alphabet: three bytes are written as four characters. The
decoder skips line breaks and does not look at the bits that the padding leaves over.

* `decode_encode`: bytes are read back.
-/

namespace RpcInGo.Lib.Base64
open ByteStream

/-- The character of six bits. -/
def alphabet (d : Nat) : Char :=
  if d < 26 then Char.ofNat (65 + d)
  else if d < 52 then Char.ofNat (97 + (d - 26))
  else if d < 62 then Char.ofNat (48 + (d - 52))
  else if d = 62 then '+'
  else '/'

def value (c : Char) : Option Nat :=
  if 'A' ≤ c ∧ c ≤ 'Z' then some (c.toNat - 65)
  else if 'a' ≤ c ∧ c ≤ 'z' then some (c.toNat - 97 + 26)
  else if '0' ≤ c ∧ c ≤ '9' then some (c.toNat - 48 + 52)
  else if c = '+' then some 62
  else if c = '/' then some 63
  else none

def isBreak (c : Char) : Bool := c = '\n' ∨ c = '\r'

theorem value_alphabet : ∀ d < 64, value (alphabet d) = some d := by decide

theorem alphabet_plain : ∀ d < 64, alphabet d ≠ '=' ∧ isBreak (alphabet d) = false := by decide

def encode : Bytes → List Char
  | a :: b :: c :: rest =>
    alphabet (a.toNat / 4) :: alphabet (a.toNat % 4 * 16 + b.toNat / 16) ::
      alphabet (b.toNat % 16 * 4 + c.toNat / 64) :: alphabet (c.toNat % 64) :: encode rest
  | [a, b] =>
    [alphabet (a.toNat / 4), alphabet (a.toNat % 4 * 16 + b.toNat / 16),
      alphabet (b.toNat % 16 * 4), '=']
  | [a] => [alphabet (a.toNat / 4), alphabet (a.toNat % 4 * 16), '=', '=']
  | [] => []

def byte1 (w x : Nat) : UInt8 := UInt8.ofNat (w * 4 + x / 16)
def byte2 (x y : Nat) : UInt8 := UInt8.ofNat (x % 16 * 16 + y / 4)
def byte3 (y z : Nat) : UInt8 := UInt8.ofNat (y % 4 * 64 + z)

/-- Groups of four characters; the last may be padded. -/
def decodeGroups : List Char → Option Bytes
  | [] => some []
  | w :: x :: y :: z :: rest =>
    match value w, value x with
    | some w, some x =>
      if z ≠ '=' then
        match value y, value z, decodeGroups rest with
        | some y, some z, some bytes => some (byte1 w x :: byte2 x y :: byte3 y z :: bytes)
        | _, _, _ => none
      else if rest ≠ [] then none
      else if y ≠ '=' then (value y).map fun y => [byte1 w x, byte2 x y]
      else some [byte1 w x]
    | _, _ => none
  | _ => none

def decode (s : List Char) : Option Bytes := decodeGroups (s.filter (!isBreak ·))

theorem ofNat_eq {n : Nat} {a : UInt8} (h : n = a.toNat) : UInt8.ofNat n = a := by
  rw [h, UInt8.ofNat_toNat]

theorem encode_plain (data : Bytes) : ∀ c ∈ encode data, isBreak c = false := by
  fun_induction encode data with
  | case1 a b c rest ih =>
    have ha := a.toNat_lt
    have hb := b.toNat_lt
    have hc := c.toNat_lt
    simp only [List.forall_mem_cons]
    exact ⟨(alphabet_plain _ (by omega)).2, (alphabet_plain _ (by omega)).2,
      (alphabet_plain _ (by omega)).2, (alphabet_plain _ (by omega)).2, ih⟩
  | case2 a b =>
    have ha := a.toNat_lt
    have hb := b.toNat_lt
    simp only [List.forall_mem_cons]
    exact ⟨(alphabet_plain _ (by omega)).2, (alphabet_plain _ (by omega)).2,
      (alphabet_plain _ (by omega)).2, by decide, by simp⟩
  | case3 a =>
    have ha := a.toNat_lt
    simp only [List.forall_mem_cons]
    exact ⟨(alphabet_plain _ (by omega)).2, (alphabet_plain _ (by omega)).2, by decide, by decide,
      by simp⟩
  | case4 => simp

theorem decodeGroups_encode (data : Bytes) : decodeGroups (encode data) = some data := by
  fun_induction encode data with
  | case1 a b c rest ih =>
    have ha := a.toNat_lt
    have hb := b.toNat_lt
    have hc := c.toNat_lt
    rw [decodeGroups, value_alphabet _ (by omega), value_alphabet _ (by omega)]
    simp only
    rw [if_pos (alphabet_plain _ (by omega)).1, value_alphabet _ (by omega),
      value_alphabet _ (by omega), ih]
    simp only [byte1, byte2, byte3]
    rw [ofNat_eq (a := a) (by omega), ofNat_eq (a := b) (by omega), ofNat_eq (a := c) (by omega)]
  | case2 a b =>
    have ha := a.toNat_lt
    have hb := b.toNat_lt
    rw [decodeGroups, value_alphabet _ (by omega), value_alphabet _ (by omega)]
    simp only
    rw [if_neg (by decide), if_neg (by decide), if_pos (alphabet_plain _ (by omega)).1,
      value_alphabet _ (by omega)]
    simp only [Option.map_some, byte1, byte2]
    rw [ofNat_eq (a := a) (by omega), ofNat_eq (a := b) (by omega)]
  | case3 a =>
    have ha := a.toNat_lt
    rw [decodeGroups, value_alphabet _ (by omega), value_alphabet _ (by omega)]
    simp only
    rw [if_neg (by decide), if_neg (by decide), if_neg (by decide), byte1,
      ofNat_eq (a := a) (by omega)]
  | case4 => rfl

theorem decode_encode (data : Bytes) : decode (encode data) = some data := by
  have hfilter : (encode data).filter (!isBreak ·) = encode data :=
    List.filter_eq_self.mpr fun c hc => by simp [encode_plain data c hc]
  rw [decode, hfilter, decodeGroups_encode]

end RpcInGo.Lib.Base64
