import RpcInGo.Lib.ByteStream
import RpcInGo.Protocol.Message
import RpcInGo.Registry.Instance

/-!
`etcdWatcher` of `pkg/registry/etcd/watcher.go`. `Next` reads one response after
the other from the watch channel and returns at the first event that it can
translate; what the response still holds is not kept.

* `nexts_responses`: what successive calls of `Next` return;
* `nexts_complete_iff`: they return every event exactly when no response carries
  two.
-/

namespace RpcInGo.Registry.EtcdWatcher
open Lib.ByteStream Protocol.Message Instance

inductive EtcdEventType
  | put
  | delete
  deriving DecidableEq, Repr

/-- `clientv3.Event`: the value of `Kv`, what `IsCreate` answers, and the value of
`PrevKv` when there is one. -/
structure EtcdEvent where
  type : EtcdEventType
  value : Bytes
  isCreate : Bool
  prevValue : Option Bytes
  deriving DecidableEq, Repr

/-- What one round of the `select` in `Next` finds. -/
inductive Round
  | stopped
  | closed
  | response (err : Option GoError) (events : List EtcdEvent)
  deriving DecidableEq, Repr

def zeroInstance : ServiceInstance := ⟨"", "", "", "", 0, [], 0, .unknown⟩

section Next
-- `json.Unmarshal` into a zero instance: what it fills in, and whether it succeeds
variable (unmarshal : Bytes → ServiceInstance × Bool)

/-- The body of the loop over the events; `none` is `continue`. -/
def translate (ev : EtcdEvent) : Option Event :=
  match ev.type with
  | .delete =>
    match ev.prevValue with
    | some value => some ⟨.delete, (unmarshal value).1⟩
    | none => some ⟨.delete, zeroInstance⟩
  | .put =>
    if (unmarshal ev.value).2 then
      some ⟨if ev.isCreate then .add else .update, (unmarshal ev.value).1⟩
    else none

/-- The loop over the events of a response. -/
def firstEvent : List EtcdEvent → Option Event
  | [] => none
  | ev :: evs =>
    match translate unmarshal ev with
    | some event => some event
    | none => firstEvent evs

/-- `Next`, with the rounds that are left; `none` when it blocks. -/
def next : List Round → Option (Except GoError Event × List Round)
  | [] => none
  | .stopped :: rest => some (.error (.errorf "watcher stopped" []), rest)
  | .closed :: rest => some (.error (.errorf "watch channel closed" []), rest)
  | .response (some err) _ :: rest => some (.error err, rest)
  | .response none events :: rest =>
    match firstEvent unmarshal events with
    | some event => some (.ok event, rest)
    | none => next rest

/-- What up to `n` successive calls of `Next` return before one blocks. -/
def nexts : Nat → List Round → List (Except GoError Event)
  | 0, _ => []
  | n + 1, rounds =>
    match next unmarshal rounds with
    | some (result, rest) => result :: nexts n rest
    | none => []

end Next

/-- Responses without an error. -/
def rounds (responses : List (List EtcdEvent)) : List Round := responses.map (.response none)

variable {unmarshal : Bytes → ServiceInstance × Bool}

theorem firstEvent_eq (evs : List EtcdEvent) :
    firstEvent unmarshal evs = (evs.filterMap (translate unmarshal)).head? := by
  induction evs with
  | nil => rfl
  | cons ev evs ih =>
    cases htr : translate unmarshal ev with
    | some event => simp [firstEvent, htr]
    | none => simp [firstEvent, htr, ih]

theorem next_rounds (responses : List (List EtcdEvent)) :
    match responses.filterMap (firstEvent unmarshal) with
    | [] => next unmarshal (rounds responses) = none
    | event :: events => ∃ left, next unmarshal (rounds responses) = some (.ok event, rounds left) ∧
        left.filterMap (firstEvent unmarshal) = events := by
  induction responses with
  | nil => rfl
  | cons evs responses ih =>
    cases hfirst : firstEvent unmarshal evs with
    | some event =>
      simp only [List.filterMap_cons, hfirst]
      exact ⟨responses, by simp [rounds, next, hfirst], rfl⟩
    | none =>
      simp only [List.filterMap_cons, hfirst]
      simpa [rounds, next, hfirst] using ih

/-- Each response contributes its first event that can be translated. -/
theorem nexts_responses (n : Nat) (responses : List (List EtcdEvent)) :
    nexts unmarshal n (rounds responses) =
      ((responses.filterMap (firstEvent unmarshal)).take n).map .ok := by
  induction n generalizing responses with
  | zero => rfl
  | succ n ih =>
    have hnext := @next_rounds unmarshal responses
    split at hnext
    · rename_i hnil
      simp [nexts, hnext, hnil]
    · rename_i event events hcons
      obtain ⟨left, hnext, hleft⟩ := hnext
      simp [nexts, hnext, ih, hleft, hcons]

theorem length_firsts_le (responses : List (List EtcdEvent)) :
    (responses.filterMap (firstEvent unmarshal)).length ≤
      (responses.flatMap (List.filterMap (translate unmarshal))).length := by
  induction responses with
  | nil => exact Nat.le_refl _
  | cons evs responses ih =>
    rw [List.filterMap_cons, List.flatMap_cons, List.length_append, firstEvent_eq]
    cases hevs : evs.filterMap (translate unmarshal) with
    | nil => simpa using ih
    | cons event events =>
      simp only [List.head?_cons, List.length_cons]
      omega

/-- Nothing is left out of what the responses hold exactly when no response holds
two events that can be translated. -/
theorem firsts_eq_iff (responses : List (List EtcdEvent)) :
    responses.filterMap (firstEvent unmarshal) =
      responses.flatMap (List.filterMap (translate unmarshal)) ↔
    ∀ evs ∈ responses, (evs.filterMap (translate unmarshal)).length ≤ 1 := by
  induction responses with
  | nil => simp
  | cons evs responses ih =>
    rw [List.filterMap_cons, List.flatMap_cons, List.forall_mem_cons, firstEvent_eq, ← ih]
    cases hevs : evs.filterMap (translate unmarshal) with
    | nil => simp
    | cons event events =>
      simp only [List.head?_cons, List.cons_append, List.cons.injEq, true_and, List.length_cons]
      constructor
      · intro heq
        have hle := @length_firsts_le unmarshal responses
        rw [heq, List.length_append] at hle
        have hnil : events = [] := List.eq_nil_of_length_eq_zero (by omega)
        subst hnil
        exact ⟨Nat.le_refl _, heq⟩
      · rintro ⟨hlen, heq⟩
        have hnil : events = [] := List.eq_nil_of_length_eq_zero (by omega)
        rw [hnil, heq, List.nil_append]

/-- Successive calls of `Next` return the events of all responses, in order and
translated, exactly when no response carries two events that can be. -/
theorem nexts_complete_iff (responses : List (List EtcdEvent)) :
    (∀ n, nexts unmarshal n (rounds responses) =
      ((responses.flatMap (List.filterMap (translate unmarshal))).take n).map .ok) ↔
    ∀ evs ∈ responses, (evs.filterMap (translate unmarshal)).length ≤ 1 := by
  rw [← firsts_eq_iff]
  constructor
  · intro h
    -- take the longer of the two lists whole
    have hall := h (responses.flatMap (List.filterMap (translate unmarshal))).length
    rw [nexts_responses, List.take_length, List.take_of_length_le (length_firsts_le responses)]
      at hall
    exact List.map_injective_iff.mpr (fun _ _ heq => Except.ok.inj heq) hall
  · intro heq n
    rw [nexts_responses, heq]

/-- A response that carries two deletions, as when two instances go down at
once. -/
def twoGone : List (List EtcdEvent) :=
  [[⟨.delete, [], false, some [1]⟩, ⟨.delete, [], false, some [2]⟩]]

/-- The second deletion is lost. -/
theorem not_nexts_complete : ¬ ∀ unmarshal n responses, nexts unmarshal n (rounds responses) =
    ((responses.flatMap (List.filterMap (translate unmarshal))).take n).map .ok := by
  intro h
  have hlen := congrArg List.length (h (fun _ => (zeroInstance, true)) 2 twoGone)
  revert hlen
  decide

end RpcInGo.Registry.EtcdWatcher
