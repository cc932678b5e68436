import Mathlib.Data.List.Induction
import Mathlib.Data.List.Pairwise
import Mathlib.Tactic.Common

/-!
The sliding-window limiter against a limiter that keeps its whole history. The
list of the former is pruned by every call, the denied ones included; an entry
that one call drops is too old for every later call.

* `allowN_tracks`: a call decides as the limiter with the full history does, and
  keeps enough of the history for the calls that follow;
* `allowN_exact`: the decisions of a whole run, and the bound on the units
  granted in any interval of the window's length.
-/

namespace RpcInGo.RateLimit.SlidingWindow

/-- Times and the window are in nanoseconds. -/
structure SlidingWindowLimiter where
  limit : Int
  window : Int
  requests : List Int
  deriving DecidableEq, Repr

def newSlidingWindowLimiter (limit window : Int) : SlidingWindowLimiter := ⟨limit, window, []⟩

/-- The mutex makes a call one step; `now` is its clock reading. -/
def SlidingWindowLimiter.allowN (swl : SlidingWindowLimiter) (n now : Int) :
    Bool × SlidingWindowLimiter :=
  let windowStart := now - swl.window
  let validRequests := swl.requests.filter (windowStart < ·)
  let swl := { swl with requests := validRequests }
  if swl.requests.length + n > swl.limit then (false, swl)
  else (true, { swl with requests := swl.requests ++ List.replicate n.toNat now })

structure Call where
  n : Int
  now : Int
  deriving DecidableEq, Repr

/-- How many of these units have their time in `(lo, hi]`. -/
def unitsIn (lo hi : Int) (units : List Int) : Nat := units.countP fun t => lo < t && t ≤ hi

/-- The limiter that the code is meant to be: it forgets nothing. -/
structure FullHistory where
  limit : Int
  window : Int
  granted : List Int
  deriving DecidableEq, Repr

def FullHistory.allowN (full : FullHistory) (n now : Int) : Bool × FullHistory :=
  if unitsIn (now - full.window) now full.granted + n ≤ full.limit then
    (true, { full with granted := full.granted ++ List.replicate n.toNat now })
  else (false, full)

section Runs
variable {S : Type} (allow : S → Int → Int → Bool × S)

/-- One more call: its decision is added to those made so far. -/
def serve (acc : List Bool × S) (c : Call) : List Bool × S :=
  (acc.1 ++ [(allow acc.2 c.n c.now).1], (allow acc.2 c.n c.now).2)

/-- The decisions of a limiter on a sequence of calls, and the limiter after it. -/
def run (s : S) (calls : List Call) : List Bool × S := calls.foldl (serve allow) ([], s)

theorem run_snoc (s : S) (calls : List Call) (c : Call) :
    run allow s (calls ++ [c]) = serve allow (run allow s calls) c := by
  simp [run, List.foldl_append]

theorem run_length (s : S) (calls : List Call) : (run allow s calls).1.length = calls.length := by
  induction calls using List.reverseRecOn with
  | nil => rfl
  | append_singleton calls c ih => simp [run_snoc, serve, ih]

end Runs

/-- The units that were granted, each with the time of its call. -/
def units (calls : List Call) (decisions : List Bool) : List Int :=
  (calls.zip decisions).flatMap fun c => if c.2 then List.replicate c.1.n.toNat c.1.now else []

theorem units_snoc {calls : List Call} {decisions : List Bool} (c : Call) (ok : Bool)
    (h : decisions.length = calls.length) :
    units (calls ++ [c]) (decisions ++ [ok]) =
      units calls decisions ++ if ok then List.replicate c.n.toNat c.now else [] := by
  simp [units, List.zip_append h.symm]

/-! ## One call -/

/-- The limiter and the one with the full history after the same calls. -/
structure Tracks (limit window : Int) (calls : List Call) (swl : SlidingWindowLimiter)
    (full : FullHistory) : Prop where
  swl_eq : swl.limit = limit ∧ swl.window = window
  full_eq : full.limit = limit ∧ full.window = window
  -- what is missing in the list is older than the window of every call so far
  kept : ∀ lo, (∀ c ∈ calls, c.now - window ≤ lo) →
    swl.requests.filter (lo < ·) = full.granted.filter (lo < ·)
  sublist : swl.requests.Sublist full.granted
  sorted : full.granted.Pairwise (· ≤ ·)
  timed : ∀ t ∈ full.granted, ∃ c ∈ calls, t = c.now
  bounded : 0 ≤ limit → ∀ lo, unitsIn lo (lo + window) full.granted ≤ limit

section Calls
variable {limit window : Int} {calls : List Call} {swl : SlidingWindowLimiter}
  {full : FullHistory} {c : Call}

theorem unitsIn_append (lo hi : Int) (l l' : List Int) :
    unitsIn lo hi (l ++ l') = unitsIn lo hi l + unitsIn lo hi l' := List.countP_append

theorem unitsIn_replicate (lo hi : Int) (n : Nat) (t : Int) :
    unitsIn lo hi (List.replicate n t) = if lo < t ∧ t ≤ hi then n else 0 := by
  simp [unitsIn, List.countP_replicate]

theorem Tracks.le_now (h : Tracks limit window calls swl full) (hc : ∀ d ∈ calls, d.now ≤ c.now) :
    ∀ t ∈ full.granted, t ≤ c.now := by
  intro t ht
  obtain ⟨d, hd, rfl⟩ := h.timed t ht
  exact hc d hd

/-- The list that a call keeps is the part of the history in its window. -/
theorem Tracks.pruned (h : Tracks limit window calls swl full) (hc : ∀ d ∈ calls, d.now ≤ c.now) :
    swl.requests.filter (c.now - window < ·) = full.granted.filter (c.now - window < ·) :=
  h.kept _ fun d hd => Int.sub_le_sub_right (hc d hd) window

theorem Tracks.unitsIn_eq (h : Tracks limit window calls swl full)
    (hc : ∀ d ∈ calls, d.now ≤ c.now) :
    unitsIn (c.now - window) c.now full.granted =
      (swl.requests.filter (c.now - window < ·)).length := by
  rw [h.pruned hc, ← List.countP_eq_length_filter]
  apply List.countP_congr
  intro t ht
  simp [h.le_now hc t ht]

/-- Units granted to a call that fit in its own window fit in every interval of
that length. -/
theorem unitsIn_grant_le {history : List Int} {n now : Int} (hle : ∀ t ∈ history, t ≤ now)
    (hn : 0 ≤ n) (hfit : unitsIn (now - window) now history + n ≤ limit)
    (hold : ∀ lo, unitsIn lo (lo + window) history ≤ limit) (lo : Int) :
    unitsIn lo (lo + window) (history ++ List.replicate n.toNat now) ≤ limit := by
  rw [unitsIn_append, unitsIn_replicate]
  split
  · -- every unit in the interval is in the window that ends now
    have hsub : unitsIn lo (lo + window) history ≤ unitsIn (now - window) now history := by
      apply List.countP_mono_left
      intro t ht hin
      simp only [Bool.and_eq_true, decide_eq_true_eq] at hin ⊢
      exact ⟨by omega, hle t ht⟩
    omega
  · simpa using hold lo

theorem Tracks.denied (h : Tracks limit window calls swl full) (hc : ∀ d ∈ calls, d.now ≤ c.now) :
    Tracks limit window (calls ++ [c])
      { swl with requests := swl.requests.filter (c.now - swl.window < ·) } full where
  swl_eq := h.swl_eq
  full_eq := h.full_eq
  kept := by
    intro lo hlo
    rw [h.swl_eq.2]
    have hnow := hlo c (by simp)
    rw [h.pruned hc, List.filter_filter]
    apply List.filter_congr
    intro t _
    simp only [Bool.and_eq_left_iff_imp, decide_eq_true_eq]
    omega
  sublist := List.filter_sublist.trans h.sublist
  sorted := h.sorted
  timed t ht := by
    obtain ⟨d, hd, rfl⟩ := h.timed t ht
    exact ⟨d, by simp [hd], rfl⟩
  bounded := h.bounded

theorem Tracks.granted (h : Tracks limit window (calls ++ [c]) swl full)
    (hc : ∀ d ∈ calls, d.now ≤ c.now) (hn : 0 ≤ c.n)
    (hfit : unitsIn (c.now - window) c.now full.granted + c.n ≤ limit) :
    Tracks limit window (calls ++ [c])
      { swl with requests := swl.requests ++ List.replicate c.n.toNat c.now }
      { full with granted := full.granted ++ List.replicate c.n.toNat c.now } := by
  have hle : ∀ t ∈ full.granted, t ≤ c.now := h.le_now (by simpa [or_imp, forall_and] using hc)
  refine ⟨h.swl_eq, h.full_eq, ?_, ?_, ?_, ?_, ?_⟩
  · intro lo hlo
    simp only [List.filter_append, h.kept lo hlo]
  · exact h.sublist.append (List.Sublist.refl _)
  · rw [List.pairwise_append]
    refine ⟨h.sorted, List.pairwise_replicate.mpr (.inr (Int.le_refl _)), ?_⟩
    intro t ht t' ht'
    rw [List.eq_of_mem_replicate ht']
    exact hle t ht
  · intro t ht
    rcases List.mem_append.mp ht with ht | ht
    · exact h.timed t ht
    · exact ⟨c, by simp, List.eq_of_mem_replicate ht⟩
  · intro hlimit lo
    exact unitsIn_grant_le hle hn hfit (h.bounded hlimit) lo

theorem allowN_tracks (h : Tracks limit window calls swl full) (hc : ∀ d ∈ calls, d.now ≤ c.now)
    (hn : 0 ≤ c.n) :
    (swl.allowN c.n c.now).1 = (full.allowN c.n c.now).1 ∧
    Tracks limit window (calls ++ [c]) (swl.allowN c.n c.now).2 (full.allowN c.n c.now).2 := by
  have hcount := h.unitsIn_eq hc
  have hd := h.denied hc
  obtain ⟨hlimit, hwindow⟩ := h.full_eq
  obtain ⟨rfl, rfl⟩ := h.swl_eq
  by_cases hfit : unitsIn (c.now - swl.window) c.now full.granted + c.n ≤ swl.limit
  · have hfull : full.allowN c.n c.now =
        (true, { full with granted := full.granted ++ List.replicate c.n.toNat c.now }) :=
      if_pos (by rwa [hlimit, hwindow])
    have hswl : swl.allowN c.n c.now = (true, { swl with
        requests := swl.requests.filter (c.now - swl.window < ·) ++
          List.replicate c.n.toNat c.now }) :=
      if_neg (by simp only; omega)
    rw [hfull, hswl]
    exact ⟨rfl, hd.granted hc hn hfit⟩
  · have hfull : full.allowN c.n c.now = (false, full) := if_neg (by rwa [hlimit, hwindow])
    have hswl : swl.allowN c.n c.now =
        (false, { swl with requests := swl.requests.filter (c.now - swl.window < ·) }) :=
      if_pos (by simp only; omega)
    rw [hfull, hswl]
    exact ⟨rfl, hd⟩

end Calls

/-! ## Whole runs -/

section Whole
variable {calls : List Call}

/-- Calls for a number of units that is not negative, at non-decreasing times. -/
structure Timely (calls : List Call) : Prop where
  nonneg : ∀ c ∈ calls, 0 ≤ c.n
  ordered : calls.Pairwise fun c d => c.now ≤ d.now

theorem Timely.init {c : Call} (h : Timely (calls ++ [c])) :
    Timely calls ∧ (∀ d ∈ calls, d.now ≤ c.now) ∧ 0 ≤ c.n := by
  obtain ⟨hcalls, -, hlast⟩ := List.pairwise_append.mp h.ordered
  exact ⟨⟨fun d hd => h.nonneg d (by simp [hd]), hcalls⟩, fun d hd => hlast d hd c (by simp),
    h.nonneg c (by simp)⟩

theorem Timely.of_append {rest : List Call} (h : Timely (calls ++ rest)) : Timely calls :=
  ⟨fun d hd => h.nonneg d (by simp [hd]), (List.pairwise_append.mp h.ordered).1⟩

theorem run_tracks (limit window : Int) (h : Timely calls) :
    (run SlidingWindowLimiter.allowN (newSlidingWindowLimiter limit window) calls).1 =
      (run FullHistory.allowN ⟨limit, window, []⟩ calls).1 ∧
    Tracks limit window calls
      (run SlidingWindowLimiter.allowN (newSlidingWindowLimiter limit window) calls).2
      (run FullHistory.allowN ⟨limit, window, []⟩ calls).2 := by
  induction calls using List.reverseRecOn with
  | nil =>
    exact ⟨rfl, ⟨rfl, rfl⟩, ⟨rfl, rfl⟩, fun _ _ => rfl, .slnil, .nil, List.forall_mem_nil _,
      fun hl _ => hl⟩
  | append_singleton calls c ih =>
    obtain ⟨hcalls, hlast, hn⟩ := h.init
    obtain ⟨hdec, htracks⟩ := ih hcalls
    obtain ⟨hsame, htracks'⟩ := allowN_tracks htracks hlast hn
    rw [run_snoc, run_snoc]
    exact ⟨by rw [serve, serve, hdec, hsame], htracks'⟩

/-- The history of the full limiter is what its decisions have granted. -/
theorem granted_eq_units (limit window : Int) (calls : List Call) :
    (run FullHistory.allowN ⟨limit, window, []⟩ calls).2.granted =
      units calls (run FullHistory.allowN ⟨limit, window, []⟩ calls).1 := by
  induction calls using List.reverseRecOn with
  | nil => rfl
  | append_singleton calls c ih =>
    rw [run_snoc, serve, units_snoc _ _ (run_length _ _ _), ← ih, FullHistory.allowN]
    split <;> simp

/-- A call succeeds exactly when the units granted before it in its window and
those it asks for are within the limit, as if nothing were ever pruned; the list
kept is sorted; no interval of the window's length gets more than the limit. -/
theorem allowN_exact (limit window : Int) (h : Timely calls) :
    let final := run SlidingWindowLimiter.allowN (newSlidingWindowLimiter limit window) calls
    (∀ before c after, calls = before ++ c :: after →
      let swl := run SlidingWindowLimiter.allowN (newSlidingWindowLimiter limit window) before
      ((swl.2.allowN c.n c.now).1 = true ↔
        unitsIn (c.now - window) c.now (units before swl.1) + c.n ≤ limit)) ∧
    final.1 = (run FullHistory.allowN ⟨limit, window, []⟩ calls).1 ∧
    final.2.requests.Pairwise (· ≤ ·) ∧
    (0 ≤ limit → ∀ s, unitsIn s (s + window) (units calls final.1) ≤ limit) := by
  obtain ⟨hdec, htracks⟩ := run_tracks limit window h
  refine ⟨?_, hdec, htracks.sorted.sublist htracks.sublist, ?_⟩
  · rintro before c after rfl
    rw [← List.singleton_append, ← List.append_assoc] at h
    obtain ⟨hbefore, hlast, hn⟩ := h.of_append.init
    obtain ⟨hdec', htracks'⟩ := run_tracks limit window hbefore
    obtain ⟨hsame, -⟩ := allowN_tracks htracks' hlast hn
    simp only [hsame, hdec', ← granted_eq_units, FullHistory.allowN, htracks'.full_eq.1,
      htracks'.full_eq.2]
    split <;> simp_all
  · intro hlimit s
    rw [hdec, ← granted_eq_units]
    exact htracks.bounded hlimit s

end Whole

/-- Two units at a time, the second call refused, the third one window later. -/
def threeCalls : List Call := [⟨2, 0⟩, ⟨2, 5⟩, ⟨2, 10⟩]

theorem allowN_exact_threeCalls :
    (run SlidingWindowLimiter.allowN (newSlidingWindowLimiter 3 10) threeCalls).1 =
      [true, false, true] ∧
    ∀ s, unitsIn s (s + 10) (units threeCalls [true, false, true]) ≤ (3 : Int) := by
  have h : Timely threeCalls := ⟨by decide, by decide⟩
  have hdec : (run SlidingWindowLimiter.allowN (newSlidingWindowLimiter 3 10) threeCalls).1 =
      [true, false, true] := by decide
  have hbound := (allowN_exact 3 10 h).2.2.2 (by decide)
  rw [hdec] at hbound
  exact ⟨hdec, hbound⟩

end RpcInGo.RateLimit.SlidingWindow
