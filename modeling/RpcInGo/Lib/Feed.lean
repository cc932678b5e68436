import Mathlib.Data.Set.Insert
import Mathlib.Order.BooleanAlgebra.Set

/-! A set of keys under a log of changes. A snapshot of the set is the replay of
a part of the log. Changes that a snapshot already holds may be replayed over it
again (`replay_again`), so it catches up with the log from any point that it
covers (`replay_take_drop`). -/

namespace RpcInGo.Lib.Feed

variable {K : Type}

inductive Change (K : Type)
  | put (k : K)
  | drop (k : K)
  deriving DecidableEq, Repr

def Change.key : Change K → K
  | .put k => k
  | .drop k => k

def Change.act : Change K → Set K → Set K
  | .put k, S => insert k S
  | .drop k, S => S \ {k}

def replay (S : Set K) (log : List (Change K)) : Set K := log.foldl (fun S c => c.act S) S

@[simp] theorem replay_nil (S : Set K) : replay S [] = S := rfl

@[simp] theorem replay_cons (S : Set K) (c : Change K) (log : List (Change K)) :
    replay S (c :: log) = replay (c.act S) log := rfl

@[simp] theorem replay_append (S : Set K) (log log' : List (Change K)) :
    replay S (log ++ log') = replay (replay S log) log' := List.foldl_append

theorem mem_act_of_ne {c : Change K} {k : K} (h : c.key ≠ k) (S : Set K) :
    k ∈ c.act S ↔ k ∈ S := by
  cases c with
  | put k' => simp [Change.act, Ne.symm (show k' ≠ k from h)]
  | drop k' => simp [Change.act, Ne.symm (show k' ≠ k from h)]

theorem mem_act_of_eq {c : Change K} {k : K} (h : c.key = k) (S T : Set K) :
    k ∈ c.act S ↔ k ∈ c.act T := by
  subst h
  cases c with
  | put k => simp [Change.act, Change.key]
  | drop k => simp [Change.act, Change.key]

theorem mem_replay_congr {log : List (Change K)} {k : K} {S T : Set K} (h : k ∈ S ↔ k ∈ T) :
    k ∈ replay S log ↔ k ∈ replay T log := by
  induction log generalizing S T with
  | nil => exact h
  | cons c log ih =>
    refine ih ?_
    by_cases hc : c.key = k
    · exact mem_act_of_eq hc S T
    · rw [mem_act_of_ne hc, mem_act_of_ne hc, h]

/-- The log decides about the keys it names. -/
theorem mem_replay_of_named {log : List (Change K)} {k : K} (h : ∃ c ∈ log, c.key = k)
    (S T : Set K) : k ∈ replay S log ↔ k ∈ replay T log := by
  induction log generalizing S T with
  | nil => simp at h
  | cons c log ih =>
    by_cases hc : c.key = k
    · rw [replay_cons, replay_cons]
      exact mem_replay_congr (mem_act_of_eq hc S T)
    · obtain ⟨c', hmem, hkey⟩ := h
      rcases List.mem_cons.mp hmem with rfl | hmem
      · exact absurd hkey hc
      · exact ih ⟨c', hmem, hkey⟩ _ _

theorem mem_replay_of_unnamed {log : List (Change K)} {k : K} (h : ∀ c ∈ log, c.key ≠ k)
    (S : Set K) : k ∈ replay S log ↔ k ∈ S := by
  induction log generalizing S with
  | nil => exact Iff.rfl
  | cons c log ih =>
    obtain ⟨hc, hlog⟩ := List.forall_mem_cons.mp h
    rw [replay_cons, ih hlog, mem_act_of_ne hc]

theorem replay_again (S : Set K) (log : List (Change K)) :
    replay (replay S log) log = replay S log := by
  ext k
  by_cases h : ∃ c ∈ log, c.key = k
  · exact mem_replay_of_named h _ _
  · exact mem_replay_of_unnamed (fun c hc hk => h ⟨c, hc, hk⟩) _

/-- A snapshot catches up from any point of the log that it covers. -/
theorem replay_take_drop (S : Set K) {log : List (Change K)} {h a : Nat} (hle : h ≤ a) :
    replay (replay S (log.take a)) (log.drop h) = replay S log := by
  -- the part between the two points is replayed twice
  obtain ⟨pre, mid, rest, rfl, hpre, hmid⟩ :
      ∃ pre mid rest, log = pre ++ mid ++ rest ∧ log.take a = pre ++ mid ∧
        log.drop h = mid ++ rest := by
    have htake : log.take a = log.take h ++ (log.drop h).take (a - h) := by
      rw [← List.take_add, Nat.add_sub_of_le hle]
    have hdrop : log.drop h = (log.drop h).take (a - h) ++ log.drop a := by
      rw [show log.drop a = (log.drop h).drop (a - h) by
        rw [List.drop_drop, Nat.add_sub_of_le hle], List.take_append_drop]
    refine ⟨_, _, log.drop a, ?_, htake, hdrop⟩
    rw [← htake, List.take_append_drop]
  rw [hpre, hmid]
  simp only [replay_append, replay_again]

end RpcInGo.Lib.Feed
