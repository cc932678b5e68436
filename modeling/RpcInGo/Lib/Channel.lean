import Mathlib.Data.List.Basic

/-! Buffered channels with the semantics of the Go specification: a send on a
closed channel panics, a send on a full one blocks, a receive from a closed and
drained one yields the zero value. The capacity bound travels with the value. -/

namespace RpcInGo.Lib.Channel

variable {α : Type}

/-- A buffered channel; the head of `buf` is received next. -/
structure Chan (α : Type) where
  cap : Nat
  buf : List α
  closed : Bool
  bounded : buf.length ≤ cap
  deriving DecidableEq

def Chan.make (cap : Nat) : Chan α := ⟨cap, [], false, Nat.zero_le _⟩

inductive Sent (α : Type) where
  | ok (ch : Chan α)
  | full
  | panic

inductive Received (α : Type) where
  | ok (a : α) (ch : Chan α)
  | zero
  | empty

def Chan.push (ch : Chan α) (a : α) (h : ch.buf.length < ch.cap) : Chan α :=
  ⟨ch.cap, ch.buf ++ [a], ch.closed, by rw [List.length_append]; exact h⟩

def Chan.send (ch : Chan α) (a : α) : Sent α :=
  if ch.closed then .panic
  else if h : ch.buf.length < ch.cap then .ok (ch.push a h)
  else .full

def Chan.recv (ch : Chan α) : Received α :=
  match h : ch.buf with
  | a :: rest => .ok a ⟨ch.cap, rest, ch.closed, by have := ch.bounded; simp [h] at this; omega⟩
  | [] => if ch.closed then .zero else .empty

def Chan.close (ch : Chan α) : Chan α := { ch with closed := true }

theorem send_ok {ch ch' : Chan α} {a : α} (h : ch.send a = .ok ch') :
    ch'.buf = ch.buf ++ [a] ∧ ch'.cap = ch.cap ∧ ch'.closed = ch.closed ∧ ch.closed = false := by
  unfold Chan.send at h
  split at h
  · cases h
  · rename_i hc
    split at h
    · cases h
      exact ⟨rfl, rfl, rfl, by simpa using hc⟩
    · cases h

theorem send_of_room {ch : Chan α} (a : α) (hc : ch.closed = false) (h : ch.buf.length < ch.cap) :
    ch.send a = .ok (ch.push a h) := by
  rw [Chan.send, if_neg (by simp [hc]), dif_pos h]

theorem send_full {ch : Chan α} {a : α} (h : ch.send a = .full) : ch.cap ≤ ch.buf.length := by
  unfold Chan.send at h
  split at h
  · cases h
  · split at h
    · cases h
    · rename_i hlt
      exact Nat.not_lt.mp hlt

theorem send_panic {ch : Chan α} {a : α} : ch.send a = .panic ↔ ch.closed = true := by
  unfold Chan.send
  split
  · simp_all
  · split <;> simp_all

theorem recv_ok {ch ch' : Chan α} {a : α} (h : ch.recv = .ok a ch') :
    ch.buf = a :: ch'.buf ∧ ch'.cap = ch.cap ∧ ch'.closed = ch.closed := by
  unfold Chan.recv at h
  split at h
  · rename_i hb
    cases h
    exact ⟨hb, rfl, rfl⟩
  · split at h <;> cases h

theorem recv_of_cons {ch : Chan α} {a : α} {rest : List α} (h : ch.buf = a :: rest) :
    ∃ ch', ch.recv = .ok a ch' ∧ ch'.buf = rest ∧ ch'.cap = ch.cap ∧ ch'.closed = ch.closed := by
  unfold Chan.recv
  split
  · rename_i hb
    rw [hb] at h
    cases h
    exact ⟨_, rfl, rfl, rfl, rfl⟩
  · rename_i hb
    rw [hb] at h
    cases h

theorem recv_zero {ch : Chan α} (h : ch.recv = .zero) : ch.buf = [] ∧ ch.closed = true := by
  unfold Chan.recv at h
  split at h
  · cases h
  · rename_i hb
    split at h
    · exact ⟨hb, by assumption⟩
    · cases h

theorem recv_empty {ch : Chan α} (h : ch.recv = .empty) : ch.buf = [] ∧ ch.closed = false := by
  unfold Chan.recv at h
  split at h
  · cases h
  · rename_i hb
    split at h
    · cases h
    · rename_i hc
      exact ⟨hb, by simpa using hc⟩

end RpcInGo.Lib.Channel
