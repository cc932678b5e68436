import Mathlib.Tactic.Linarith
import RpcInGo.Breaker.Window
import RpcInGo.Lib.Ring

/-!
Which outcomes a `SlidingWindow` counts, for runs of recordings and resets at
non-decreasing clock readings. The buckets, read from the current one backwards,
hold the newest outcomes of the history (`Tracks`): an update that finds `n` whole
bucket times elapsed pushes out the `n` oldest buckets, and then starts its clock
at the reading, which loses the fraction of a bucket time that had elapsed too.

* `recent_counted`: what was recorded in the last `size - 1` bucket times is
  counted, once and in its category;
* `fresh_iff`: nothing older than `size` bucket times is counted in any run exactly
  when the buckets are too few or too short for the lost fractions to add up;
* `minute_stale`: with the ten buckets of six seconds that a breaker of one minute
  uses, an outcome is still counted almost two minutes later.
-/

namespace RpcInGo.Breaker.Counting
open Window Lib.Ring

inductive Category
  | success
  | failure
  | timeout
  deriving DecidableEq, Repr

structure Outcome where
  category : Category
  time : Int
  deriving DecidableEq, Repr

inductive Op
  | record (o : Outcome)
  | reset
  deriving DecidableEq, Repr

def apply (s : SlidingWindow) : Op → SlidingWindow
  | .record ⟨.success, now⟩ => s.recordSuccess now
  | .record ⟨.failure, now⟩ => s.recordFailure now
  | .record ⟨.timeout, now⟩ => s.recordTimeout now
  | .reset => s.reset

/-- The window after a run. -/
def window (size : Nat) (bucketTime created : Int) (run : List Op) : SlidingWindow :=
  run.foldl apply (newSlidingWindow size bucketTime created)

def remember (history : List Outcome) : Op → List Outcome
  | .record o => o :: history
  | .reset => []

/-- The outcomes recorded since the last reset, the newest first. -/
def sinceReset (run : List Op) : List Outcome := run.foldl remember []

def readAfter (t : Int) : Op → Int
  | .record o => o.time
  | .reset => t

/-- The last clock reading of a run. -/
def lastReading (t : Int) (run : List Op) : Int := run.foldl readAfter t

/-- Recordings at non-decreasing clock readings, none before `t`. -/
def Ordered (t : Int) : List Op → Prop
  | [] => True
  | op :: run => t ≤ readAfter t op ∧ Ordered (readAfter t op) run

instance Ordered.instDecidable : (t : Int) → (run : List Op) → Decidable (Ordered t run)
  | _, [] => .isTrue trivial
  | t, op :: run => @instDecidableAnd _ _ _ (Ordered.instDecidable (readAfter t op) run)

/-- The outcomes that `Stats` counts: of a history, the newest `Total()` ones. That
they are what it counts is `Tracks.stats_eq`. -/
def counted (s : SlidingWindow) (history : List Outcome) : List Outcome := history.take s.total

/-! ## Counters of a list of outcomes -/

def tally (l : List Outcome) : Bucket where
  success := l.countP (·.category = .success)
  failure := l.countP (·.category = .failure)
  timeout := l.countP (·.category = .timeout)
  total := l.length

theorem tally_total (l : List Outcome) :
    (tally l).total = (tally l).success + (tally l).failure + (tally l).timeout := by
  induction l with
  | nil => rfl
  | cons o l ih =>
    simp only [tally, List.length_cons, List.countP_cons] at ih ⊢
    cases o.category <;> simp <;> omega

/-- What recording an outcome does to the current bucket. -/
def Outcome.count (o : Outcome) (b : Bucket) : Bucket :=
  match o.category with
  | .success => { b with success := b.success + 1, total := b.total + 1 }
  | .failure => { b with failure := b.failure + 1, total := b.total + 1 }
  | .timeout => { b with timeout := b.timeout + 1, total := b.total + 1 }

theorem tally_cons (o : Outcome) (l : List Outcome) : tally (o :: l) = o.count (tally l) := by
  obtain ⟨category, time⟩ := o
  cases category <;> simp [tally, Outcome.count]

theorem apply_record (s : SlidingWindow) (o : Outcome) :
    apply s (.record o) = s.record o.count o.time := by
  obtain ⟨category, time⟩ := o
  cases category <;> rfl

theorem stats_of_perm {s : SlidingWindow} {slots : List (List Outcome)}
    (h : s.buckets.Perm (slots.map tally)) : s.stats = tally slots.flatten := by
  simp only [SlidingWindow.stats, (h.map _).sum_eq, List.map_map, tally, List.countP_flatten,
    List.length_flatten]
  rfl

/-! ## Buckets, the newest first -/

def newest (s : SlidingWindow) : List Bucket := newestFirst s.buckets s.currentIndex

section Buckets
variable {s : SlidingWindow}

/-- What an update leaves as it is. -/
structure Same (s s' : SlidingWindow) : Prop where
  size : s'.size = s.size
  bucketTime : s'.bucketTime = s.bucketTime

theorem advance_same (s : SlidingWindow) (n : Nat) : Same s (s.advance n) := by
  induction n generalizing s with
  | zero => exact ⟨rfl, rfl⟩
  | succ n ih => exact ⟨(ih _).size, (ih _).bucketTime⟩

theorem newest_advance (h : s.Valid) (n : Nat) :
    newest (s.advance n) = push .zero n (newest s) := by
  induction n generalizing s with
  | zero => rw [push_zero]; rfl
  | succ n ih =>
    have hne : s.buckets ≠ [] := by
      rw [← List.length_pos_iff, h.length]
      exact Nat.zero_lt_of_lt h.index
    have hone : newest (s.advance 1) = push .zero 1 (newest s) := by
      change newestFirst (s.buckets.set ((s.currentIndex + 1) % s.size) .zero)
        ((s.currentIndex + 1) % s.size) = _
      rw [← h.length]
      exact newestFirst_set _ _ hne
    change newest ((s.advance 1).advance n) = _
    rw [ih (advance_valid h 1), hone, push_push, Nat.add_comm 1 n]

theorem newest_clear (s : SlidingWindow) (i : Nat) :
    newestFirst s.clear.buckets i = List.replicate s.buckets.length .zero := by
  rw [SlidingWindow.clear, List.map_const', newestFirst_replicate]

/-- What `updateBuckets` can do at a reading that is not before its last update. -/
inductive Updated (s : SlidingWindow) (now : Int) : SlidingWindow → Prop
  | early : now - s.lastUpdate < s.bucketTime → Updated s now s
  | moved {s' : SlidingWindow} (n : Nat) (fraction : Int) : 1 ≤ n → 0 ≤ fraction →
      fraction < s.bucketTime → now - s.lastUpdate = s.bucketTime * n + fraction →
      newest s' = push .zero n (newest s) → s'.lastUpdate = now → Same s s' → Updated s now s'

theorem updateBuckets_updated (h : s.Valid) (hbt : 0 < s.bucketTime) (now : Int) :
    Updated s now (s.updateBuckets now) := by
  unfold SlidingWindow.updateBuckets
  split
  · exact .early (by assumption)
  rename_i hle
  have hq : 0 ≤ (now - s.lastUpdate).tdiv s.bucketTime := Int.tdiv_nonneg (by omega) hbt.le
  have hone : 1 ≤ (now - s.lastUpdate).tdiv s.bucketTime := by
    rw [Int.tdiv_eq_ediv_of_nonneg (by omega)]
    exact (Int.le_ediv_iff_mul_le hbt).mpr (by omega)
  have hsum := Int.mul_tdiv_add_tmod (now - s.lastUpdate) s.bucketTime
  have hcast : (((now - s.lastUpdate).tdiv s.bucketTime).toNat : Int) =
      (now - s.lastUpdate).tdiv s.bucketTime := Int.toNat_of_nonneg hq
  have hnonneg := Int.tmod_nonneg s.bucketTime (show 0 ≤ now - s.lastUpdate by omega)
  have hlt := Int.tmod_lt_of_pos (now - s.lastUpdate) hbt
  split
  · rename_i hsize
    refine .moved ((now - s.lastUpdate).tdiv s.bucketTime).toNat _ (by omega) hnonneg hlt
      (by rw [hcast, hsum]) ?_ rfl ⟨rfl, rfl⟩
    have hlen : (newest s).length = s.size := (length_newestFirst _ _).trans h.length
    rw [push_of_length_le _ (by omega), hlen, ← h.length]
    exact newest_clear s 0
  · have hsame := advance_same s ((now - s.lastUpdate).tdiv s.bucketTime).toNat
    exact .moved ((now - s.lastUpdate).tdiv s.bucketTime).toNat _ (by omega) hnonneg hlt
      (by rw [hcast, hsum]) (newest_advance h _) rfl ⟨hsame.size, hsame.bucketTime⟩

theorem newest_record (h : s.Valid) (count : Bucket → Bucket) (now : Int) :
    newest (s.record count now) = (newest (s.updateBuckets now)).modifyHead count := by
  have hv := updateBuckets_valid h now
  exact newestFirst_modify _ (by rw [hv.length]; exact hv.index)

end Buckets

/-! ## The outcomes in the buckets -/

/-- The fraction of a bucket time that an operation loses by starting the clock of
the window anew. -/
def lostBy (s : SlidingWindow) : Op → Int
  | .record o =>
    if o.time - s.lastUpdate < s.bucketTime then 0
    else (o.time - s.lastUpdate) % s.bucketTime
  | .reset => 0

def lost : SlidingWindow → List Op → Int
  | _, [] => 0
  | s, op :: run => lostBy s op + lost (apply s op) run

/-- When the outcomes were recorded that the bucket `i` before the current one counts,
given the fractions lost so far. -/
structure InSlot (bucketTime lost lastUpdate : Int) (i : Nat) (t : Int) : Prop where
  recent : t + bucketTime * i < lastUpdate + bucketTime
  rounded : lastUpdate - t ≤ (2 * bucketTime - 1) * i
  exact : lastUpdate - t ≤ bucketTime * i + lost

theorem InSlot.moved {bucketTime lost lastUpdate now fraction t : Int} {i n : Nat}
    (h : InSlot bucketTime lost lastUpdate i t) (hn : 1 ≤ n) (hf : 0 ≤ fraction)
    (hlt : fraction < bucketTime) (hsum : now - lastUpdate = bucketTime * n + fraction) :
    InSlot bucketTime (lost + fraction) now (i + n) t := by
  obtain ⟨hrecent, hrounded, hexact⟩ := h
  have hfew : (bucketTime - 1) * 1 ≤ (bucketTime - 1) * n :=
    mul_le_mul_of_nonneg_left (by omega) (by omega)
  refine ⟨?_, ?_, ?_⟩ <;> push_cast <;> linarith

/-- `slots` holds what the buckets of `s` count, the newest bucket first: the newest
outcomes of `history`. What is not in it is old at `now`. -/
structure Tracks (size : Nat) (bucketTime lost now : Int) (s : SlidingWindow)
    (history : List Outcome) (slots : List (List Outcome)) : Prop where
  valid : s.Valid
  size_eq : s.size = size
  time_eq : s.bucketTime = bucketTime
  buckets : newest s = slots.map tally
  kept : ∃ dropped, history = slots.flatten ++ dropped ∧
    ∀ e ∈ dropped, bucketTime * (size - 1) < now - e.time
  inSlot : ∀ (i : Nat) (slot : List Outcome), slots[i]? = some slot →
    ∀ e ∈ slot, InSlot bucketTime lost s.lastUpdate i e.time
  lost_nonneg : 0 ≤ lost
  clock : s.lastUpdate ≤ now
  idle : now - s.lastUpdate < bucketTime

section Tracking
variable {size : Nat} {bucketTime lost now : Int} {s : SlidingWindow} {history : List Outcome}
  {slots : List (List Outcome)}

theorem Tracks.length (h : Tracks size bucketTime lost now s history slots) :
    slots.length = size := by
  have hlen : (newest s).length = s.size := (length_newestFirst _ _).trans h.valid.length
  rw [h.buckets, List.length_map] at hlen
  rw [hlen, h.size_eq]

theorem Tracks.stats_eq (h : Tracks size bucketTime lost now s history slots) :
    s.stats = tally slots.flatten :=
  stats_of_perm (h.buckets ▸ (newestFirst_perm s.buckets s.currentIndex).symm)

theorem Tracks.counted_eq (h : Tracks size bucketTime lost now s history slots) :
    counted s history = slots.flatten := by
  obtain ⟨dropped, hhistory, -⟩ := h.kept
  rw [counted, SlidingWindow.total, h.stats_eq, hhistory]
  exact List.take_left

theorem Tracks.bucket_total (h : Tracks size bucketTime lost now s history slots) :
    ∀ b ∈ s.buckets, b.total = b.success + b.failure + b.timeout := by
  intro b hb
  have hmem : b ∈ slots.map tally := by
    rw [← h.buckets]
    exact (newestFirst_perm s.buckets s.currentIndex).mem_iff.mpr hb
  obtain ⟨slot, -, rfl⟩ := List.mem_map.mp hmem
  exact tally_total slot

theorem newSlidingWindow_tracks (hsize : 1 ≤ size) (hbt : 0 < bucketTime) (created : Int) :
    Tracks size bucketTime 0 created (newSlidingWindow size bucketTime created) []
      (List.replicate size []) where
  valid := newSlidingWindow_valid hsize _ _
  size_eq := rfl
  time_eq := rfl
  buckets := by
    rw [newest, newSlidingWindow, newestFirst_replicate, List.map_replicate]
    rfl
  kept := ⟨[], by simp, List.forall_mem_nil _⟩
  inSlot := by
    intro i slot hslot e he
    obtain rfl := List.eq_of_mem_replicate (List.mem_of_getElem? hslot)
    cases he
  lost_nonneg := le_rfl
  clock := le_rfl
  idle := by simpa [newSlidingWindow] using hbt

/-- What leaves with the oldest buckets is old at the reading that pushes them out. -/
theorem Tracks.moved {s' : SlidingWindow} {n : Nat} {fraction now' : Int}
    (h : Tracks size bucketTime lost now s history slots) (hv : s'.Valid) (hn : 1 ≤ n)
    (hf : 0 ≤ fraction) (hlt : fraction < bucketTime)
    (hsum : now' - s.lastUpdate = bucketTime * n + fraction)
    (hnewest : newest s' = push .zero n (newest s)) (hlast : s'.lastUpdate = now')
    (hsame : Same s s') (hnow : now ≤ now') :
    Tracks size bucketTime (lost + fraction) now' s' history (push [] n slots) := by
  have hlen := h.length
  have hsplit : slots.flatten = (push [] n slots).flatten ++
      ((List.replicate n [] ++ slots).drop slots.length).flatten := by
    rw [← List.flatten_append, push, List.take_append_drop, List.flatten_append,
      List.flatten_replicate_nil, List.nil_append]
  refine ⟨hv, hsame.size.trans h.size_eq, hsame.bucketTime.trans h.time_eq, ?_, ?_, ?_, ?_, ?_, ?_⟩
  · have hzero : (List.replicate n []).map tally = List.replicate n .zero := by
      rw [List.map_replicate]
      rfl
    rw [hnewest, h.buckets, push, push, List.map_take, List.map_append, List.length_map, hzero]
  · obtain ⟨dropped, hhistory, hold⟩ := h.kept
    refine ⟨((List.replicate n [] ++ slots).drop slots.length).flatten ++ dropped, ?_, ?_⟩
    · rw [hhistory, hsplit, List.append_assoc]
    intro e he
    rcases List.mem_append.mp he with he | he
    · -- `e` was in a bucket that is now `size` or more buckets back
      obtain ⟨slot, hslot, he⟩ := List.mem_flatten.mp he
      obtain ⟨j, hj⟩ := List.mem_iff_getElem?.mp hslot
      rw [List.getElem?_drop, List.getElem?_append, List.length_replicate, hlen] at hj
      split at hj
      · obtain rfl := List.eq_of_mem_replicate (List.mem_of_getElem? hj)
        cases he
      · rename_i hge
        have hrecent := (h.inSlot _ slot hj e he).recent
        rw [Nat.cast_sub (by omega)] at hrecent
        have hj : 0 ≤ bucketTime * (j : Int) := mul_nonneg (by omega) (by omega)
        push_cast at hrecent
        linarith
    · have := hold e he
      omega
  · intro i slot hslot e he
    rw [getElem?_push] at hslot
    split at hslot
    · split at hslot
      · cases hslot
        cases he
      · have hin := (h.inSlot _ slot hslot e he).moved hn hf hlt hsum
        rw [Nat.sub_add_cancel (by omega)] at hin
        rwa [hlast]
    · cases hslot
  · have := h.lost_nonneg
    omega
  · exact hlast.le
  · rw [hlast]
    omega

theorem Tracks.update (h : Tracks size bucketTime lost now s history slots) (o : Outcome)
    (hnow : now ≤ o.time) :
    ∃ slots', Tracks size bucketTime (lost + lostBy s (.record o)) o.time
      (s.updateBuckets o.time) history slots' := by
  have hclock := h.clock
  have hidle := h.idle
  have hbt : 0 < s.bucketTime := by rw [h.time_eq]; omega
  have hv := updateBuckets_valid h.valid o.time
  have hup := updateBuckets_updated h.valid hbt o.time
  generalize s.updateBuckets o.time = s' at hup hv
  cases hup with
  | early hlt =>
    refine ⟨slots, ?_⟩
    rw [lostBy, if_pos hlt, add_zero]
    obtain ⟨dropped, hhistory, hold⟩ := h.kept
    exact { h with
      kept := ⟨dropped, hhistory, fun e he => by have := hold e he; omega⟩
      clock := hclock.trans hnow
      idle := by rw [← h.time_eq]; exact hlt }
  | moved n fraction hn hf hlt hsum hnewest hlast hsame =>
    have hone : s.bucketTime * 1 ≤ s.bucketTime * (n : Int) :=
      mul_le_mul_of_nonneg_left (by omega) hbt.le
    have hlost : lostBy s (.record o) = fraction := by
      rw [lostBy, if_neg (by omega), hsum, Int.mul_add_emod_self_left, Int.emod_eq_of_lt hf hlt]
    rw [hlost]
    rw [h.time_eq] at hlt hsum
    exact ⟨_, h.moved hv hn hf hlt hsum hnewest hlast hsame hnow⟩

theorem Tracks.record (h : Tracks size bucketTime lost now s history slots) (o : Outcome)
    (ho : now ≤ o.time) :
    ∃ slots', Tracks size bucketTime (lost + lostBy s (.record o)) o.time (apply s (.record o))
      (o :: history) slots' := by
  obtain ⟨slots', h'⟩ := h.update o ho
  have hpos : 0 < slots'.length := by
    rw [h'.length, ← h.size_eq]
    exact Nat.zero_lt_of_lt h.valid.index
  obtain ⟨slot, rest, rfl⟩ := List.exists_cons_of_length_pos hpos
  have hclock := h'.clock
  have hidle := h'.idle
  refine ⟨(o :: slot) :: rest, ?_⟩
  rw [apply_record]
  refine ⟨record_valid h.valid _ _, h'.size_eq, h'.time_eq, ?_, ?_, ?_, h'.lost_nonneg, hclock,
    hidle⟩
  · rw [newest_record h.valid, h'.buckets]
    simp [tally_cons]
  · obtain ⟨dropped, hhistory, hold⟩ := h'.kept
    exact ⟨dropped, by rw [hhistory]; rfl, hold⟩
  · intro i slot' hslot e he
    cases i with
    | succ i => exact h'.inSlot (i + 1) slot' hslot e he
    | zero =>
      cases hslot
      rcases List.mem_cons.mp he with rfl | he
      · have hlost := h'.lost_nonneg
        refine ⟨?_, ?_, ?_⟩ <;>
          simp only [SlidingWindow.record, Nat.cast_zero, mul_zero, add_zero, zero_add] <;> omega
      · exact h'.inSlot 0 slot rfl e he

theorem Tracks.reset (h : Tracks size bucketTime lost now s history slots) :
    ∃ slots', Tracks size bucketTime lost now s.reset [] slots' := by
  refine ⟨List.replicate size [], clear_valid h.valid, h.size_eq, h.time_eq, ?_,
    ⟨[], by simp, List.forall_mem_nil _⟩, ?_, h.lost_nonneg, h.clock, h.idle⟩
  · rw [List.map_replicate, ← h.size_eq, ← h.valid.length]
    exact newest_clear s s.currentIndex
  · intro i slot hslot e he
    obtain rfl := List.eq_of_mem_replicate (List.mem_of_getElem? hslot)
    cases he

theorem Tracks.apply {op : Op} (h : Tracks size bucketTime lost now s history slots)
    (hop : now ≤ readAfter now op) :
    ∃ slots', Tracks size bucketTime (lost + lostBy s op) (readAfter now op)
      (Counting.apply s op) (remember history op) slots' := by
  cases op with
  | record o => exact h.record o hop
  | reset =>
    rw [lostBy, add_zero]
    exact h.reset

theorem Tracks.run {run : List Op} (h : Tracks size bucketTime lost now s history slots)
    (hrun : Ordered now run) :
    ∃ slots', Tracks size bucketTime (lost + Counting.lost s run) (lastReading now run)
      (run.foldl Counting.apply s) (run.foldl remember history) slots' := by
  induction run generalizing lost now s history slots with
  | nil => exact ⟨slots, by rw [Counting.lost, add_zero]; exact h⟩
  | cons op run ih =>
    obtain ⟨slots', h'⟩ := h.apply hrun.1
    rw [Counting.lost, ← add_assoc]
    exact ih h' hrun.2

end Tracking

theorem run_tracks {size : Nat} {bucketTime created : Int} (hsize : 1 ≤ size)
    (hbt : 0 < bucketTime) {run : List Op} (hrun : Ordered created run) :
    ∃ slots, Tracks size bucketTime (lost (newSlidingWindow size bucketTime created) run)
      (lastReading created run) (window size bucketTime created run) (sinceReset run) slots := by
  have h := (newSlidingWindow_tracks hsize hbt created).run hrun
  rwa [zero_add] at h

/-- At every moment not before the last reading `Stats` counts each outcome of the
last `size - 1` bucket times once, in its category and in the total: the outcomes
since the last reset are the counted ones and, before them, older ones. -/
theorem recent_counted {size : Nat} {bucketTime created : Int} (hsize : 1 ≤ size)
    (hbt : 0 < bucketTime) {run : List Op} (hrun : Ordered created run) {now : Int}
    (hnow : lastReading created run ≤ now) :
    (window size bucketTime created run).stats =
      tally (counted (window size bucketTime created run) (sinceReset run)) ∧
    (∀ e ∈ (sinceReset run).drop (window size bucketTime created run).total,
      (size - 1) * bucketTime < now - e.time) ∧
    (window size bucketTime created run).currentIndex < size ∧
    ∀ b ∈ (window size bucketTime created run).buckets,
      b.total = b.success + b.failure + b.timeout := by
  obtain ⟨slots, h⟩ := run_tracks hsize hbt hrun
  refine ⟨?_, ?_, ?_, h.bucket_total⟩
  · rw [h.counted_eq, h.stats_eq]
  · obtain ⟨dropped, hhistory, hold⟩ := h.kept
    have htotal : (window size bucketTime created run).total = slots.flatten.length :=
      congrArg Bucket.total h.stats_eq
    rw [htotal, hhistory, List.drop_left, mul_comm]
    intro e he
    have := hold e he
    omega
  · have := h.valid.index
    rwa [h.size_eq] at this

/-- Three buckets of ten nanoseconds: the first two outcomes are wiped by the reset,
and the third is pushed out by the last reading. -/
def shortRun : List Op :=
  [.record ⟨.success, 1⟩, .record ⟨.failure, 12⟩, .reset, .record ⟨.timeout, 15⟩,
    .record ⟨.failure, 25⟩, .record ⟨.success, 38⟩, .record ⟨.failure, 48⟩]

theorem recent_counted_shortRun :
    (window 3 10 0 shortRun).stats = ⟨1, 2, 0, 3⟩ ∧
      tally (counted (window 3 10 0 shortRun) (sinceReset shortRun)) = ⟨1, 2, 0, 3⟩ := by
  have h : (window 3 10 0 shortRun).stats =
      tally (counted (window 3 10 0 shortRun) (sinceReset shortRun)) :=
    (recent_counted (by decide) (by decide) (by decide)
      (show lastReading 0 shortRun ≤ 48 by decide)).1
  have hstats : (window 3 10 0 shortRun).stats = ⟨1, 2, 0, 3⟩ := by decide
  exact ⟨hstats, h.symm.trans hstats⟩

/-! ## Old outcomes -/

/-- After the last of the recordings no outcome is counted that was recorded more than
`size` bucket times before it. -/
def NoneStale (size : Nat) (bucketTime created : Int) (outcomes : List Outcome) : Prop :=
  ∀ e ∈ counted (window size bucketTime created (outcomes.map .record))
      (sinceReset (outcomes.map .record)),
    lastReading created (outcomes.map .record) - size * bucketTime ≤ e.time

instance (size : Nat) (bucketTime created : Int) (outcomes : List Outcome) :
    Decidable (NoneStale size bucketTime created outcomes) :=
  inferInstanceAs (Decidable (∀ e ∈ counted _ _, _ ≤ e.time))

def Fresh (size : Nat) (bucketTime : Int) : Prop :=
  ∀ (created : Int) (outcomes : List Outcome), Ordered created (outcomes.map .record) →
    NoneStale size bucketTime created outcomes

section Ages
variable {size : Nat} {bucketTime lost now : Int} {s : SlidingWindow} {history : List Outcome}
  {slots : List (List Outcome)}

/-- By how much an outcome can outlive `size` bucket times. -/
theorem Tracks.age_le (h : Tracks size bucketTime lost now s history slots) {e : Outcome}
    (he : e ∈ counted s history) :
    now - e.time < size * bucketTime + (size - 1) * (bucketTime - 1) ∧
      now - e.time < size * bucketTime + lost := by
  rw [h.counted_eq] at he
  obtain ⟨slot, hslot, he⟩ := List.mem_flatten.mp he
  obtain ⟨i, hi⟩ := List.mem_iff_getElem?.mp hslot
  obtain ⟨-, hrounded, hexact⟩ := h.inSlot i slot hi e he
  have hlt : i < size := by
    rw [← h.length]
    exact (List.getElem?_eq_some_iff.mp hi).1
  have hidle := h.idle
  have hclock := h.clock
  have hoften : (2 * bucketTime - 1) * (i : Int) ≤ (2 * bucketTime - 1) * (size - 1) :=
    mul_le_mul_of_nonneg_left (by omega) (by omega)
  have hfar : bucketTime * (i : Int) ≤ bucketTime * (size - 1) :=
    mul_le_mul_of_nonneg_left (by omega) (by omega)
  constructor <;> linarith

end Ages

theorem fresh_of_few {size : Nat} {bucketTime : Int} (hsize : 1 ≤ size) (hbt : 0 < bucketTime)
    (hfew : (size - 1) * (bucketTime - 1) ≤ 1) : Fresh size bucketTime := by
  intro created outcomes hrun e he
  obtain ⟨slots, h⟩ := run_tracks hsize hbt hrun
  have := (h.age_le he).1
  omega

theorem noneStale_of_lost {size : Nat} {bucketTime created : Int} (hsize : 1 ≤ size)
    (hbt : 0 < bucketTime) {outcomes : List Outcome}
    (hrun : Ordered created (outcomes.map .record))
    (hlost : lost (newSlidingWindow size bucketTime created) (outcomes.map .record) ≤ 1) :
    NoneStale size bucketTime created outcomes := by
  intro e he
  obtain ⟨slots, h⟩ := run_tracks hsize hbt hrun
  have := (h.age_le he).2
  omega

/-! ## Recordings a nanosecond short of two bucket times apart -/

def spaced (bucketTime : Int) (k : Nat) : List Outcome :=
  (List.range k).map fun i : Nat => ⟨.failure, (2 * bucketTime - 1) * i⟩

def oneFailure : Bucket := ⟨0, 1, 0, 1⟩

/-- Each of `k + 1` buckets counts one of the recordings. -/
structure Spread (size : Nat) (bucketTime : Int) (k : Nat) (s : SlidingWindow) : Prop where
  valid : s.Valid
  time_eq : s.bucketTime = bucketTime
  last : s.lastUpdate = (2 * bucketTime - 1) * k
  buckets : newest s = List.replicate (k + 1) oneFailure ++ List.replicate (size - 1 - k) .zero

theorem spread_zero {size : Nat} {bucketTime : Int} (hsize : 1 ≤ size) (hbt : 0 < bucketTime) :
    Spread size bucketTime 0
      (apply (newSlidingWindow size bucketTime 0) (.record ⟨.failure, 0⟩)) := by
  have hnew := newSlidingWindow_valid hsize bucketTime 0
  have hup : (newSlidingWindow size bucketTime 0).updateBuckets 0 =
      newSlidingWindow size bucketTime 0 := by
    rw [SlidingWindow.updateBuckets, if_pos]
    simpa [newSlidingWindow] using hbt
  rw [apply_record]
  refine ⟨record_valid hnew _ _, ?_, ?_, ?_⟩
  · rw [SlidingWindow.record, hup]; rfl
  · rw [SlidingWindow.record, hup]; simp [newSlidingWindow]
  · obtain ⟨m, rfl⟩ := Nat.exists_eq_add_of_le' hsize
    rw [newest_record hnew, hup, newest, newSlidingWindow, newestFirst_replicate]
    rfl

theorem Spread.succ {size : Nat} {bucketTime now : Int} {k : Nat} {s : SlidingWindow}
    (h : Spread size bucketTime k s) (hbt : 0 < bucketTime) (hk : k + 1 < size)
    (hnow : now = (2 * bucketTime - 1) * (k + 1 : Nat)) :
    Spread size bucketTime (k + 1) (apply s (.record ⟨.failure, now⟩)) := by
  have hgap : now - s.lastUpdate = 2 * bucketTime - 1 := by
    rw [hnow, h.last]
    push_cast
    linarith
  have hrec := newest_record h.valid (Outcome.count ⟨.failure, now⟩) now
  have hup := updateBuckets_updated h.valid (by rw [h.time_eq]; exact hbt) now
  rw [apply_record]
  suffices hmoved : newest (s.updateBuckets now) = push .zero 1 (newest s) ∧
      (s.updateBuckets now).lastUpdate = now ∧ Same s (s.updateBuckets now) by
    obtain ⟨hnewest, hlast, hsame⟩ := hmoved
    refine ⟨record_valid h.valid _ _, hsame.bucketTime.trans h.time_eq, hlast.trans hnow, ?_⟩
    have hroom : List.replicate (size - 1 - k) Bucket.zero =
        List.replicate (size - 1 - (k + 1)) .zero ++ [.zero] := by
      rw [← List.replicate_succ']
      congr 1
      omega
    rw [hrec, hnewest, h.buckets, hroom, ← List.append_assoc, push_concat]
    rfl
  generalize s.updateBuckets now = s' at hup
  cases hup with
  | early hlt =>
    rw [h.time_eq] at hlt
    omega
  | moved n fraction hn hf hlt hsum hnewest hlast hsame =>
    rw [h.time_eq] at hlt hsum
    have hone : n = 1 := by
      by_contra hne
      have : bucketTime * 2 ≤ bucketTime * (n : Int) :=
        mul_le_mul_of_nonneg_left (by omega) hbt.le
      omega
    subst hone
    exact ⟨hnewest, hlast, hsame⟩

theorem spaced_succ (bucketTime : Int) (k : Nat) :
    spaced bucketTime (k + 1) = spaced bucketTime k ++ [⟨.failure, (2 * bucketTime - 1) * k⟩] := by
  rw [spaced, List.range_succ, List.map_append]
  rfl

theorem window_append (size : Nat) (bucketTime created : Int) (run : List Op) (op : Op) :
    window size bucketTime created (run ++ [op]) =
      apply (window size bucketTime created run) op := by
  rw [window, List.foldl_append]
  rfl

theorem spaced_spread {size : Nat} {bucketTime : Int} (hbt : 0 < bucketTime) {k : Nat}
    (hk : k < size) :
    Spread size bucketTime k
      (window size bucketTime 0 ((spaced bucketTime (k + 1)).map .record)) := by
  induction k with
  | zero => simpa [spaced, window] using spread_zero hk hbt
  | succ k ih =>
    rw [spaced_succ, List.map_append]
    exact window_append _ _ _ _ _ ▸ (ih (by omega)).succ hbt hk rfl

theorem ordered_append {t : Int} {run : List Op} {op : Op} (h : Ordered t run)
    (hop : lastReading t run ≤ readAfter (lastReading t run) op) : Ordered t (run ++ [op]) := by
  induction run generalizing t with
  | nil => exact ⟨hop, trivial⟩
  | cons _ run ih => exact ⟨h.1, ih h.2 hop⟩

theorem lastReading_append (t : Int) (run : List Op) (op : Op) :
    lastReading t (run ++ [op]) = readAfter (lastReading t run) op := by
  rw [lastReading, List.foldl_append]
  rfl

theorem spaced_ordered {bucketTime : Int} (hbt : 0 < bucketTime) (k : Nat) :
    Ordered 0 ((spaced bucketTime (k + 1)).map .record) ∧
      lastReading 0 ((spaced bucketTime (k + 1)).map .record) = (2 * bucketTime - 1) * k := by
  induction k with
  | zero => simp [spaced, Ordered, lastReading, readAfter]
  | succ k ih =>
    rw [spaced_succ, List.map_append]
    refine ⟨ordered_append ih.1 ?_, lastReading_append _ _ _⟩
    rw [ih.2]
    exact mul_le_mul_of_nonneg_left (by simp) (by omega)

theorem total_eq (s : SlidingWindow) : s.total = ((newest s).map (·.total)).sum :=
  (((newestFirst_perm s.buckets s.currentIndex).map _).sum_eq).symm

theorem sinceReset_records (outcomes : List Outcome) :
    sinceReset (outcomes.map .record) = outcomes.reverse := by
  rw [sinceReset, List.foldl_map]
  exact List.foldl_flip_cons_eq_append'.trans (List.append_nil _)

/-- A recording within the bucket time. -/
theorem Spread.total_record {k : Nat} {bucketTime : Int} {s : SlidingWindow}
    (h : Spread (k + 1) bucketTime k s) (now : Int) (hnow : now - s.lastUpdate < bucketTime) :
    (apply s (.record ⟨.failure, now⟩)).total = k + 2 := by
  have hup : s.updateBuckets now = s := by
    rw [SlidingWindow.updateBuckets, if_pos]
    rwa [h.time_eq]
  rw [total_eq, apply_record, newest_record h.valid, hup, h.buckets, Nat.add_sub_cancel,
    Nat.sub_self, List.replicate_succ]
  simp [Outcome.count, oneFailure]
  omega

/-- The first of the spaced recordings is still counted after one more, a nanosecond
before the next bucket. -/
theorem few_of_fresh {size : Nat} {bucketTime : Int} (hsize : 1 ≤ size) (hbt : 0 < bucketTime)
    (h : Fresh size bucketTime) : (size - 1) * (bucketTime - 1) ≤ 1 := by
  obtain ⟨k, rfl⟩ := Nat.exists_eq_add_of_le' hsize
  have hspread := spaced_spread hbt (Nat.lt_succ_self k)
  obtain ⟨hordered, hlast⟩ := spaced_ordered hbt k
  let late : Outcome := ⟨.failure, (2 * bucketTime - 1) * k + bucketTime - 1⟩
  have hlate : Ordered 0 ((spaced bucketTime (k + 1) ++ [late]).map .record) := by
    rw [List.map_append]
    refine ordered_append hordered ?_
    rw [hlast]
    simp only [readAfter, late]
    omega
  have hfirst : (⟨.failure, 0⟩ : Outcome) ∈ spaced bucketTime (k + 1) :=
    List.mem_map.mpr ⟨0, by simp, by simp⟩
  have hread : lastReading 0 ((spaced bucketTime (k + 1) ++ [late]).map .record) = late.time := by
    rw [List.map_append, List.map_singleton, lastReading_append]
    rfl
  have htotal := hspread.total_record late.time (by
    rw [hspread.last]
    simp only [late]
    omega)
  rw [← window_append] at htotal
  have hage := h 0 _ hlate ⟨.failure, 0⟩ (by
    rw [counted, sinceReset_records, List.map_append, List.take_of_length_le]
    · simp [hfirst]
    · refine le_of_eq (Eq.trans ?_ htotal.symm)
      simp [spaced])
  rw [hread] at hage
  simp only [late] at hage
  push_cast at hage ⊢
  linarith

/-- Nothing recorded more than `size` bucket times before a recording is counted after
it, in any run, exactly when `(size - 1) * (bucketTime - 1) ≤ 1`. Whatever the two
are, it holds of each run whose updates lose no more than a nanosecond. -/
theorem fresh_iff {size : Nat} {bucketTime : Int} (hsize : 1 ≤ size) (hbt : 0 < bucketTime) :
    (Fresh size bucketTime ↔ (size - 1) * (bucketTime - 1) ≤ 1) ∧
    ∀ (created : Int) (outcomes : List Outcome), Ordered created (outcomes.map .record) →
      lost (newSlidingWindow size bucketTime created) (outcomes.map .record) ≤ 1 →
      NoneStale size bucketTime created outcomes :=
  ⟨⟨few_of_fresh hsize hbt, fresh_of_few hsize hbt⟩,
    fun _ _ hrun hlost => noneStale_of_lost hsize hbt hrun hlost⟩

/-- Seconds and whole bucket times in a breaker of one minute. -/
def onTheDot : List Outcome :=
  [⟨.failure, 3000000000⟩, ⟨.success, 6000000000⟩, ⟨.success, 60000000000⟩, ⟨.failure, 66000000000⟩]

theorem fresh_iff_onTheDot : Fresh 2 2 ∧ NoneStale 10 6000000000 0 onTheDot :=
  ⟨(fresh_iff (by decide) (by decide)).1.mpr (by decide),
    (fresh_iff (by decide) (by decide)).2 0 onTheDot (by decide) (by decide)⟩

/-- A failure at the start, one every twelve seconds but a nanosecond, and a last one
six seconds but a nanosecond after these. -/
def minuteRun : List Outcome :=
  [⟨.failure, 0⟩, ⟨.failure, 11999999999⟩, ⟨.failure, 23999999998⟩, ⟨.failure, 35999999997⟩,
    ⟨.failure, 47999999996⟩, ⟨.failure, 59999999995⟩, ⟨.failure, 71999999994⟩,
    ⟨.failure, 83999999993⟩, ⟨.failure, 95999999992⟩, ⟨.failure, 107999999991⟩,
    ⟨.failure, 113999999990⟩]

theorem minute_stale :
    ¬ ∀ (size : Nat) (bucketTime : Int), 1 ≤ size → 0 < bucketTime → Fresh size bucketTime := by
  intro h
  have hrun := h 10 6000000000 (by decide) (by decide) 0 minuteRun (by decide)
  exact absurd hrun (by decide)

end RpcInGo.Breaker.Counting
