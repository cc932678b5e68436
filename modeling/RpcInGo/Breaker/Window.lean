import Mathlib.Algebra.Order.BigOperators.Group.List
import Mathlib.Algebra.Order.Field.Rat
import Mathlib.Data.List.Basic

/-! `SlidingWindow` of `pkg/circuitbreaker/window.go`. Times and durations are
nanoseconds, counters do not wrap, and the failure rate is an exact rational.
`New` only makes windows with a positive `bucketTime`, so the division by it in
`updateBuckets` never panics. -/

namespace RpcInGo.Breaker.Window

structure Bucket where
  success : Nat
  failure : Nat
  timeout : Nat
  total : Nat
  deriving DecidableEq, Repr

def Bucket.zero : Bucket := ⟨0, 0, 0, 0⟩

structure SlidingWindow where
  buckets : List Bucket
  size : Nat
  bucketTime : Int
  currentIndex : Nat
  lastUpdate : Int
  deriving DecidableEq, Repr

def newSlidingWindow (size : Nat) (bucketTime now : Int) : SlidingWindow :=
  ⟨List.replicate size .zero, size, bucketTime, 0, now⟩

namespace SlidingWindow

def clear (s : SlidingWindow) : SlidingWindow := { s with buckets := s.buckets.map fun _ => .zero }

/-- The loop of `updateBuckets` that moves on bucket by bucket. -/
def advance (s : SlidingWindow) : Nat → SlidingWindow
  | 0 => s
  | n + 1 =>
    advance { s with
      currentIndex := (s.currentIndex + 1) % s.size
      buckets := s.buckets.set ((s.currentIndex + 1) % s.size) .zero } n

def updateBuckets (s : SlidingWindow) (now : Int) : SlidingWindow :=
  if now - s.lastUpdate < s.bucketTime then s
  else if (now - s.lastUpdate).tdiv s.bucketTime ≥ s.size then
    { s.clear with currentIndex := 0, lastUpdate := now }
  else { s.advance ((now - s.lastUpdate).tdiv s.bucketTime).toNat with lastUpdate := now }

/-- Record one outcome in the current bucket. -/
def record (count : Bucket → Bucket) (s : SlidingWindow) (now : Int) : SlidingWindow :=
  { s.updateBuckets now with
    buckets := (s.updateBuckets now).buckets.modify (s.updateBuckets now).currentIndex count }

def recordSuccess : SlidingWindow → Int → SlidingWindow :=
  record fun b => { b with success := b.success + 1, total := b.total + 1 }

def recordFailure : SlidingWindow → Int → SlidingWindow :=
  record fun b => { b with failure := b.failure + 1, total := b.total + 1 }

def recordTimeout : SlidingWindow → Int → SlidingWindow :=
  record fun b => { b with timeout := b.timeout + 1, total := b.total + 1 }

/-- `Stats`: the counters summed over all buckets. -/
def stats (s : SlidingWindow) : Bucket :=
  ⟨(s.buckets.map (·.success)).sum, (s.buckets.map (·.failure)).sum,
    (s.buckets.map (·.timeout)).sum, (s.buckets.map (·.total)).sum⟩

def failureRate (s : SlidingWindow) : Rat :=
  if s.stats.total = 0 then 0
  else (s.stats.failure + s.stats.timeout : Rat) / s.stats.total

def total (s : SlidingWindow) : Nat := s.stats.total

def reset (s : SlidingWindow) : SlidingWindow := s.clear

end SlidingWindow

/-- The current bucket exists. -/
structure SlidingWindow.Valid (s : SlidingWindow) : Prop where
  length : s.buckets.length = s.size
  index : s.currentIndex < s.size

theorem newSlidingWindow_valid {size : Nat} (h : 0 < size) (bucketTime now : Int) :
    (newSlidingWindow size bucketTime now).Valid :=
  ⟨List.length_replicate, h⟩

theorem clear_valid {s : SlidingWindow} (h : s.Valid) : s.clear.Valid :=
  ⟨(List.length_map _).trans h.length, h.index⟩

theorem advance_valid {s : SlidingWindow} (h : s.Valid) (n : Nat) : (s.advance n).Valid := by
  induction n generalizing s with
  | zero => exact h
  | succ n ih =>
    have hpos : 0 < s.size := Nat.zero_lt_of_lt h.index
    exact ih ⟨(List.length_set ..).trans h.length, Nat.mod_lt _ hpos⟩

theorem updateBuckets_valid {s : SlidingWindow} (h : s.Valid) (now : Int) :
    (s.updateBuckets now).Valid := by
  unfold SlidingWindow.updateBuckets
  split
  · exact h
  · split
    · exact ⟨(clear_valid h).length, Nat.zero_lt_of_lt h.index⟩
    · have hadv := advance_valid h ((now - s.lastUpdate).tdiv s.bucketTime).toNat
      exact ⟨hadv.length, hadv.index⟩

theorem record_valid {s : SlidingWindow} (h : s.Valid) (count : Bucket → Bucket) (now : Int) :
    (s.record count now).Valid := by
  have hup := updateBuckets_valid h now
  exact ⟨(List.length_modify ..).trans hup.length, hup.index⟩

/-- A window in which an outcome has just been recorded is not empty. -/
theorem record_total_pos {s : SlidingWindow} (h : s.Valid) {count : Bucket → Bucket}
    (hcount : ∀ b, 0 < (count b).total) (now : Int) : 0 < (s.record count now).total := by
  have hup := updateBuckets_valid h now
  have hlt : (s.updateBuckets now).currentIndex < (s.record count now).buckets.length := by
    rw [(record_valid h count now).length]
    exact hup.index
  have hmem := List.getElem_mem hlt
  have hpos : 0 < ((s.record count now).buckets.get ⟨_, hlt⟩).total := by
    simp [SlidingWindow.record, hcount]
  exact Nat.lt_of_lt_of_le hpos (List.single_le_sum (fun _ _ => Nat.zero_le _) _
    (List.mem_map_of_mem hmem))

theorem stats_reset (s : SlidingWindow) : s.reset.stats = .zero := by
  simp [SlidingWindow.reset, SlidingWindow.clear, SlidingWindow.stats, Bucket.zero]

end RpcInGo.Breaker.Window
