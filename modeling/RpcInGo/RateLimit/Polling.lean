import RpcInGo.RateLimit.TokenBucket

/-!
How often the token bucket is looked at does not matter. A refill counts whole
tokens and carries what is left over, so an attempt that takes nothing only splits
one refill in two.

* `refill_refill`: a refill forgets the refills before it;
* `polls_unnoticed`: attempts that are granted nothing can be added to a run, or
  taken out, without changing what the others are told.
-/

namespace RpcInGo.RateLimit.Polling
open Lib.Metering TokenBucket

/-- What a use of the limiter is told. -/
inductive Answer
  | allowed (granted : Bool)
  | waited (step : TokenBucketLimiter.WaitStep)
  deriving DecidableEq, Repr

def Answer.grants : Answer → Bool
  | .allowed granted => granted
  | .waited step => step = .acquired

def answer (tb : TokenBucketLimiter) : Attempt → Answer
  | .allowN n now => .allowed (tb.allowN n now).1
  | .waitN n now => .waited (tb.waitN n now).1

def answers : TokenBucketLimiter → List Attempt → List Answer
  | _, [] => []
  | tb, a :: run => answer tb a :: answers (a.serve tb).1 run

def after (tb : TokenBucketLimiter) (run : List Attempt) : TokenBucketLimiter :=
  run.foldl (fun tb a => (a.serve tb).1) tb

/-! ## Two refills -/

section Refills
variable {rate capacity : Int} {tb : TokenBucketLimiter}

theorem refill_early {t : Int} (h : t ≤ tb.lastUpdate) : tb.refill t = tb := by
  rw [TokenBucketLimiter.refill, if_pos (by omega)]

theorem nsPerToken_refill (tb : TokenBucketLimiter) (t : Int) :
    (tb.refill t).nsPerToken = tb.nsPerToken := by
  unfold TokenBucketLimiter.refill
  split
  · rfl
  split <;> rfl

/-- Quotient and remainder are determined by what they count. -/
theorem quotient_unique {q a r b s : Int} (hr : 0 ≤ r) (hrq : r < q) (hs : 0 ≤ s) (hsq : s < q)
    (h : q * a + r = q * b + s) : a = b ∧ r = s := by
  have hab : a = b := by
    have ha : (q * a + r) / q = a := by
      rw [Int.add_comm, Int.add_mul_ediv_left _ _ (by omega), Int.ediv_eq_zero_of_lt hr hrq]
      omega
    have hb : (q * b + s) / q = b := by
      rw [Int.add_comm, Int.add_mul_ediv_left _ _ (by omega), Int.ediv_eq_zero_of_lt hs hsq]
      omega
    rw [← ha, h, hb]
  subst hab
  exact ⟨rfl, by omega⟩

theorem refill_refill (hv : Valid rate capacity tb) {t₁ t₂ : Int} (ht : t₁ ≤ t₂) :
    (tb.refill t₁).refill t₂ = tb.refill t₂ := by
  have hns := nsPerToken_refill tb t₁
  have h₁ := refill_refilled hv t₁
  have h₁₂ := refill_refilled (h₁.valid hv) t₂
  have h₂ := refill_refilled hv t₂
  rcases le_or_gt t₁ tb.lastUpdate with hle | hlt
  · rw [refill_early hle]
  rcases ht.lt_or_eq with hlater | rfl
  swap
  · exact refill_early (h₁.lastUpdate_eq hlt.le).ge
  generalize tb.refill t₂ = w at h₂
  generalize (tb.refill t₁).refill t₂ = v at h₁₂
  generalize tb.refill t₁ = u at *
  -- each of the three refills is made after the last update, and either all of
  -- them fill the bucket or all of them count
  cases h₁ with
  | early h => omega
  | full _ hq =>
    cases h₁₂ with
    | early h => simp only at h; omega
    | counted _ _ hrem hrlt _ => omega
    | full _ _ =>
      cases h₂ with
      | early h => omega
      | counted _ _ hrem hrlt _ => omega
      | full _ _ => rfl
  | @counted add₁ rem₁ _ hadd₁ hrem₁ hlt₁ hsum₁ =>
    cases h₁₂ with
    | early h => simp only at h; omega
    | full _ hq => omega
    | @counted add₂ rem₂ _ hadd₂ hrem₂ hlt₂ hsum₂ =>
      cases h₂ with
      | early h => omega
      | full _ hq => omega
      | @counted add rem _ hadd hrem hlt' hsum =>
        rw [hns] at hlt₂ hsum₂
        simp only at hsum₂
        obtain ⟨rfl, rfl⟩ := quotient_unique hrem₂ hlt₂ hrem hlt'
          (show tb.nsPerToken * (add₁ + add₂) + rem₂ = tb.nsPerToken * add + rem by
            rw [mul_add]; omega)
        have hcap : min tb.capacity (min tb.capacity (tb.tokens + add₁) + add₂) =
            min tb.capacity (tb.tokens + (add₁ + add₂)) := by omega
        simp only [hcap]

end Refills

/-! ## Two runs -/

section Runs
variable {rate capacity : Int} {tb tb' : TokenBucketLimiter} {t : Int}

/-- From `t` on the two limiters cannot be told apart. -/
structure Alike (rate capacity t : Int) (tb tb' : TokenBucketLimiter) : Prop where
  left : Valid rate capacity tb
  right : Valid rate capacity tb'
  refill_eq : ∀ now, t ≤ now → tb.refill now = tb'.refill now

theorem Alike.refl (hv : Valid rate capacity tb) : Alike rate capacity t tb tb :=
  ⟨hv, hv, fun _ _ => rfl⟩

/-- An attempt that is granted nothing leaves the limiter as it was, but for a refill. -/
theorem serve_ungranted {a : Attempt} (h : (answer tb a).grants = false) :
    (a.serve tb).1 = tb ∨ (a.serve tb).1 = tb.refill a.now := by
  cases a with
  | allowN n now =>
    simp only [answer, Answer.grants, Attempt.serve, TokenBucketLimiter.allowN] at h ⊢
    split at h
    · cases h
    split at h
    · cases h
    · rename_i hn htokens
      simp [hn, htokens, Attempt.now]
  | waitN n now =>
    simp only [answer, Answer.grants, Attempt.serve, TokenBucketLimiter.waitN] at h ⊢
    split at h
    · simp at h
    split at h
    · rename_i hn hcap
      simp [hn, hcap]
    split at h
    · simp at h
    · rename_i hn hcap htokens
      simp [hn, hcap, htokens, Attempt.now]

theorem Alike.poll {a : Attempt} (h : Alike rate capacity t tb tb') (hnow : t ≤ a.now)
    (hun : (answer tb a).grants = false) : Alike rate capacity a.now (a.serve tb).1 tb' := by
  refine ⟨(serve_outcome tb a).valid h.left, h.right, fun now hle => ?_⟩
  have heq := h.refill_eq now (hnow.trans hle)
  rcases serve_ungranted hun with hs | hs
  · rw [hs, heq]
  · rw [hs, refill_refill h.left hle, heq]

/-- The same attempt on both limiters is told the same, and they stay alike. -/
theorem Alike.serve {a : Attempt} (h : Alike rate capacity t tb tb') (hnow : t ≤ a.now) :
    answer tb a = answer tb' a ∧ Alike rate capacity a.now (a.serve tb).1 (a.serve tb').1 := by
  have hrefill := h.refill_eq a.now hnow
  have hstay : Alike rate capacity a.now tb tb' :=
    ⟨h.left, h.right, fun now hle => h.refill_eq now (hnow.trans hle)⟩
  have hl := (serve_outcome tb a).valid h.left
  have hcap : tb.capacity = tb'.capacity := h.left.capacity_eq.trans h.right.capacity_eq.symm
  cases a with
  | allowN n now =>
    simp only [answer, Attempt.serve, TokenBucketLimiter.allowN, Attempt.now] at *
    by_cases hn : n ≤ 0
    · simpa [hn] using hstay
    · rw [if_neg hn] at hl
      rw [if_neg hn, if_neg hn, ← hrefill]
      exact ⟨rfl, .refl hl⟩
  | waitN n now =>
    simp only [answer, Attempt.serve, TokenBucketLimiter.waitN, Attempt.now, ← hcap] at *
    by_cases hn : n ≤ 0
    · simpa [hn] using hstay
    by_cases hbig : n > tb.capacity
    · simpa [hn, hbig] using hstay
    · rw [if_neg hn, if_neg hbig] at hl
      rw [if_neg hn, if_neg hn, if_neg hbig, if_neg hbig, ← hrefill]
      exact ⟨rfl, .refl hl⟩

end Runs

/-! ## Runs with polls -/

/-- The entries that are not marked. -/
def unmarked {α : Type} (l : List (α × Bool)) : List α :=
  l.filterMap fun x => if x.2 then none else some x.1

/-- The answers of a run, with the marks of its attempts. -/
def told (tb : TokenBucketLimiter) (run : List (Attempt × Bool)) : List (Answer × Bool) :=
  (answers tb (run.map Prod.fst)).zip (run.map Prod.snd)

/-- The marked attempts are granted nothing. -/
def Polls (tb : TokenBucketLimiter) (run : List (Attempt × Bool)) : Prop :=
  ∀ x ∈ told tb run, x.2 = true → x.1.grants = false

instance (tb : TokenBucketLimiter) (run : List (Attempt × Bool)) : Decidable (Polls tb run) :=
  inferInstanceAs (Decidable (∀ x ∈ told tb run, x.2 = true → x.1.grants = false))

theorem told_cons (tb : TokenBucketLimiter) (a : Attempt) (m : Bool) (run : List (Attempt × Bool)) :
    told tb ((a, m) :: run) = (answer tb a, m) :: told (a.serve tb).1 run := rfl

theorem Alike.unmarked_told {rate capacity t : Int} {tb tb' : TokenBucketLimiter}
    {run : List (Attempt × Bool)} (h : Alike rate capacity t tb tb')
    (hrun : Ordered meter t (run.map Prod.fst)) (hpolls : Polls tb run) :
    unmarked (told tb run) = answers tb' (unmarked run) := by
  induction run generalizing t tb tb' with
  | nil => rfl
  | cons x run ih =>
    obtain ⟨a, m⟩ := x
    obtain ⟨hnow, hrest⟩ := hrun
    rw [Polls, told_cons, List.forall_mem_cons] at hpolls
    rw [told_cons]
    cases m with
    | true => exact ih (h.poll hnow (hpolls.1 rfl)) hrest hpolls.2
    | false =>
      obtain ⟨hanswer, hserve⟩ := h.serve hnow
      change answer tb a :: unmarked (told (a.serve tb).1 run) =
        answer tb' a :: answers (a.serve tb').1 (unmarked run)
      rw [hanswer, ih hserve hrest hpolls.2]

theorem after_valid {rate capacity : Int} {tb : TokenBucketLimiter} (hv : Valid rate capacity tb)
    (run : List Attempt) : Valid rate capacity (after tb run) := by
  induction run generalizing tb with
  | nil => exact hv
  | cons a run ih => exact ih ((serve_outcome tb a).valid hv)

/-- Marked attempts that are granted nothing change no other answer of a run, and
a refill of the limiter the run leaves can be split at any earlier moment. -/
theorem polls_unnoticed {rate capacity : Int} (hc : 0 ≤ capacity) (created : Int)
    (run : List (Attempt × Bool)) (hrun : Ordered meter created (run.map Prod.fst))
    (hpolls : Polls (newTokenBucketLimiter rate capacity created) run) :
    unmarked (told (newTokenBucketLimiter rate capacity created) run) =
      answers (newTokenBucketLimiter rate capacity created) (unmarked run) ∧
    ∀ t₁ t₂, t₁ ≤ t₂ →
      ((after (newTokenBucketLimiter rate capacity created)
          (run.map Prod.fst)).refill t₁).refill t₂ =
        (after (newTokenBucketLimiter rate capacity created) (run.map Prod.fst)).refill t₂ := by
  have hv : Valid rate capacity (newTokenBucketLimiter rate capacity created) :=
    newTokenBucketLimiter_valid hc created
  exact ⟨(Alike.refl hv).unmarked_told hrun hpolls,
    fun _ _ ht => refill_refill (after_valid hv _) ht⟩

/-- A bucket of two, emptied and asked twice in vain before the third token is there. -/
def impatient : List (Attempt × Bool) :=
  [(.allowN 2 0, false), (.allowN 1 4000000, true), (.waitN 1 9000000, true),
    (.waitN 1 10000000, false), (.waitN 1 12000000, false)]

theorem polls_unnoticed_impatient :
    unmarked (told (newTokenBucketLimiter 100 2 0) impatient) =
        [.allowed true, .waited .acquired, .waited (.sleep 10000000)] ∧
      answers (newTokenBucketLimiter 100 2 0) (unmarked impatient) =
        [.allowed true, .waited .acquired, .waited (.sleep 10000000)] := by
  have h : unmarked (told (newTokenBucketLimiter 100 2 0) impatient) =
      answers (newTokenBucketLimiter 100 2 0) (unmarked impatient) :=
    (polls_unnoticed (by decide) 0 impatient (by decide) (by decide)).1
  have halone : answers (newTokenBucketLimiter 100 2 0) (unmarked impatient) =
      [.allowed true, .waited .acquired, .waited (.sleep 10000000)] := by decide
  exact ⟨h.trans halone, halone⟩

end RpcInGo.RateLimit.Polling
