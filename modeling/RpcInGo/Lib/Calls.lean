import Mathlib.Data.List.Forall2

/-! Calls on one object, one after the other. A call takes the object's state and its
arguments to a result and the new state, or panics (`none`). `Reached.invariant` is the
rule for what holds between calls, `serve_rule` the one for whole sequences of calls
that must not panic, and `serve_isSome_iff` says which sequences do not. -/

namespace RpcInGo.Lib.Calls

variable {S A R : Type}

/-- What a sequence of calls returns, and the state after it. -/
def serve (call : S → A → Option (R × S)) (s : S) : List A → Option (List R × S)
  | [] => some ([], s)
  | a :: rest =>
    match call s a with
    | none => none
    | some (r, t) =>
      match serve call t rest with
      | none => none
      | some (rs, u) => some (r :: rs, u)

/-- The states that calls which meet `ok` lead to. -/
inductive Reached (call : S → A → Option (R × S)) (ok : S → A → Prop) (s : S) : S → Prop
  | refl : Reached call ok s s
  | step {t u : S} {a : A} {r : R} : Reached call ok s t → ok t a → call t a = some (r, u) →
      Reached call ok s u

section Rules
variable {call : S → A → Option (R × S)} {ok : S → A → Prop} {s t u : S} {a : A} {r : R}
  {as : List A} {rs : List R}

/-- The invariant rule. -/
theorem Reached.invariant {I : S → Prop} (h : Reached call ok s t) (h0 : I s)
    (hI : ∀ s a r t, I s → ok s a → call s a = some (r, t) → I t) : I t := by
  induction h with
  | refl => exact h0
  | step _ hok hc ih => exact hI _ _ _ _ ih hok hc

theorem serve_cons : serve call s (a :: as) = some (rs, u) ↔
    ∃ r t rs', call s a = some (r, t) ∧ serve call t as = some (rs', u) ∧ rs = r :: rs' := by
  constructor
  · intro h
    unfold serve at h
    split at h
    · cases h
    · rename_i r t hc
      split at h
      · cases h
      · rename_i rs' u' hs
        cases h
        exact ⟨r, t, rs', hc, hs, rfl⟩
  · rintro ⟨r, t, rs', hc, hs, rfl⟩
    simp only [serve, hc, hs]

/-- A sequence of calls runs to its end if no call panics that it comes to. -/
theorem serve_isSome_iff : (serve call s as).isSome ↔ ∀ before a after rs t,
    as = before ++ a :: after → serve call s before = some (rs, t) → (call t a).isSome := by
  induction as generalizing s with
  | nil => simp [serve]
  | cons a as ih =>
    constructor
    · intro h before b after rs t heq hbefore
      obtain ⟨⟨rs', u⟩, hserve⟩ := Option.isSome_iff_exists.mp h
      obtain ⟨r, v, rs'', hcall, hrest, -⟩ := serve_cons.mp hserve
      cases before with
      | nil =>
        cases heq
        cases hbefore
        exact Option.isSome_iff_exists.mpr ⟨_, hcall⟩
      | cons x before =>
        cases heq
        obtain ⟨r', v', rs', hcall', hbefore, -⟩ := serve_cons.mp hbefore
        rw [hcall] at hcall'
        cases hcall'
        exact ih.mp (Option.isSome_iff_exists.mpr ⟨_, hrest⟩) before b after rs' t rfl hbefore
    · intro h
      obtain ⟨⟨r, v⟩, hcall⟩ := Option.isSome_iff_exists.mp (h [] a as [] s rfl rfl)
      have hrest : (serve call v as).isSome := ih.mpr fun before b after rs t heq hbefore =>
        h (a :: before) b after (r :: rs) t (by rw [heq, List.cons_append])
          (serve_cons.mpr ⟨r, v, rs, hcall, hbefore, rfl⟩)
      obtain ⟨⟨rs, u⟩, hserve⟩ := Option.isSome_iff_exists.mp hrest
      exact Option.isSome_iff_exists.mpr ⟨_, serve_cons.mpr ⟨r, v, rs, hcall, hserve, rfl⟩⟩

/-- Calls that find the invariant do not panic, and each returns what it should. -/
theorem serve_rule {I : S → Prop} {P : A → Prop} {Q : A → R → Prop} (h0 : I s)
    (hI : ∀ s a, I s → P a → ∃ r t, call s a = some (r, t) ∧ I t ∧ Q a r)
    (has : ∀ a ∈ as, P a) :
    ∃ rs t, serve call s as = some (rs, t) ∧ I t ∧ List.Forall₂ Q as rs := by
  induction as generalizing s with
  | nil => exact ⟨[], s, rfl, h0, .nil⟩
  | cons a as ih =>
    obtain ⟨ha, has⟩ := List.forall_mem_cons.mp has
    obtain ⟨r, t, hc, ht, hq⟩ := hI s a h0 ha
    obtain ⟨rs, u, hs, hu, hall⟩ := ih ht has
    exact ⟨r :: rs, u, serve_cons.mpr ⟨r, t, rs, hc, hs, rfl⟩, hu, .cons hq hall⟩

end Rules

end RpcInGo.Lib.Calls
