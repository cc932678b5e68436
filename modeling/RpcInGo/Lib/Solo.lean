import RpcInGo.Lib.Observe

/-! One goroutine while the others stand still. What the environment may answer it at a
program point is left open, so its runs need not be determined: `run_only` is the rule for
what they keep, `length_add_rank_le` bounds them by a rank that every step lowers, and
`finishes` says that with such a rank a goroutine that is never stuck comes to its end. -/

namespace RpcInGo.Lib.Solo
open Goroutine Observe

variable {G P E A : Type}

/-- Only goroutine `i` moves, on answers that `ok` allows at its program point. -/
def Only (i : Nat) (ok : P → E → Bool) (s : Config G P) (j : Nat) (e : E) : Prop :=
  j = i ∧ ∀ p ∈ s.threads[i]?, ok p e = true

instance (i : Nat) (ok : P → E → Bool) (s : Config G P) (j : Nat) (e : E) :
    Decidable (Only i ok s j e) :=
  inferInstanceAs (Decidable (_ ∧ _))

/-- What is observed of the goroutine that takes a step. -/
def seen (obs : P → E → List A) (s : Config G P) (j : Nat) (e : E) : List A :=
  match s.threads[j]? with
  | none => []
  | some p => obs p e

/-- The program takes the steps of `step` and starts no goroutines. -/
def Steps (prog : Program G P E) (step : G → P → E → Option (G × P)) : Prop :=
  ∀ g p e, prog.step g p e = (step g p e).map fun r => (r.1, r.2, [])

section Rules
variable {prog : Program G P E} {step : G → P → E → Option (G × P)} {ok : P → E → Bool}
  {s t : Config G P} {i : Nat} {p q : P} {e : E} {tr : List (Nat × E)}

theorem fire_only (hp : Steps prog step) (hi : s.threads[i]? = some p) {g : G}
    (hs : step s.shared p e = some (g, q)) :
    prog.fire s i e = some ⟨g, s.threads.set i q⟩ := by
  simp [Program.fire, hi, hp s.shared p e, hs]

theorem getElem?_set_of_some (hi : s.threads[i]? = some p) (q : P) :
    (s.threads.set i q)[i]? = some q := by
  obtain ⟨hlt, -⟩ := List.getElem?_eq_some_iff.mp hi
  exact List.getElem?_set_self hlt

/-- The invariant rule: `I` relates the state to the answers the goroutine has had and to
what was observed of it. -/
theorem run_only (obs : P → E → List A) {I : G → P → List E → List A → Prop}
    (hp : Steps prog step)
    (h : Run prog (Only i ok) s tr t) (hi : s.threads[i]? = some p) (h0 : I s.shared p [] [])
    (hI : ∀ g p es l e g' p', I g p es l → ok p e = true → step g p e = some (g', p') →
      I g' p' (es ++ [e]) (l ++ obs p e)) :
    ∃ q, t.threads = s.threads.set i q ∧
      I t.shared q (tr.map Prod.snd) (observe prog (seen obs) s tr) := by
  induction h with
  | refl => exact ⟨p, (set_same hi).symm, h0⟩
  | @step tr t j e u hr ho hf ih =>
    obtain ⟨q, hthreads, hq⟩ := ih
    obtain ⟨rfl, hok⟩ := ho
    have hj : t.threads[j]? = some q := by
      rw [hthreads]
      exact getElem?_set_of_some hi q
    obtain ⟨q', g, r, hj', hs, rfl⟩ := fire_alone hp hf
    rw [hj] at hj'
    cases hj'
    refine ⟨r, ?_, ?_⟩
    · rw [hthreads, List.set_set]
    · rw [observe_append hr, observe_single hf, List.map_append]
      simp only [seen, hj]
      exact hI _ _ _ _ _ _ _ hq (hok q hj) hs

/-- Every step lowers the rank, so the run is no longer than the rank it began with. -/
theorem length_add_rank_le {I : G → P → Prop} {rank : G → P → Nat} (hp : Steps prog step)
    (h : Run prog (Only i ok) s tr t) (hi : s.threads[i]? = some p) (h0 : I s.shared p)
    (hI : ∀ g p e g' p', I g p → ok p e = true → step g p e = some (g', p') →
      I g' p' ∧ rank g' p' < rank g p) :
    ∃ q, t.threads = s.threads.set i q ∧ tr.length + rank t.shared q ≤ rank s.shared p := by
  obtain ⟨q, ht, -, hle⟩ := run_only (fun _ _ => ([] : List Unit))
    (I := fun g q es _ => I g q ∧ es.length + rank g q ≤ rank s.shared p) hp h hi
    ⟨h0, by simp⟩ (by
      intro g q es _ e g' q' hq hok hs
      obtain ⟨hq', hlt⟩ := hI _ _ _ _ _ hq.1 hok hs
      refine ⟨hq', ?_⟩
      rw [List.length_append, List.length_singleton]
      omega)
  exact ⟨q, ht, by rwa [List.length_map] at hle⟩

/-- A goroutine that is never stuck before `done` comes to a point where it is done. -/
theorem finishes {I : G → P → Prop} {rank : G → P → Nat} {done : P → Prop} (hp : Steps prog step)
    (hI : ∀ g p e g' p', I g p → ok p e = true → step g p e = some (g', p') →
      I g' p' ∧ rank g' p' < rank g p)
    (hgo : ∀ g p, I g p → done p ∨ ∃ e g' p', ok p e = true ∧ step g p e = some (g', p'))
    (hi : s.threads[i]? = some p) (h0 : I s.shared p) :
    ∃ tr t q, Run prog (Only i ok) s tr t ∧ t.threads[i]? = some q ∧ done q := by
  induction hn : rank s.shared p using Nat.strong_induction_on generalizing s p with
  | h n ih =>
    rcases hgo _ _ h0 with hd | ⟨e, g', p', hok, hs⟩
    · exact ⟨[], s, p, .refl, hi, hd⟩
    · obtain ⟨hI', hlt⟩ := hI _ _ _ _ _ h0 hok hs
      obtain ⟨tr, t, q, hrun, hq, hd⟩ := ih (rank g' p') (by omega)
        (s := ⟨g', s.threads.set i p'⟩) (getElem?_set_of_some hi p') hI' rfl
      have hfirst : Run prog (Only i ok) s [(i, e)] ⟨g', s.threads.set i p'⟩ := by
        refine .step .refl ⟨rfl, fun r hr => ?_⟩ (fire_only hp hi hs)
        rw [hi] at hr
        cases hr
        exact hok
      exact ⟨[(i, e)] ++ tr, t, q, hfirst.trans hrun, hq, hd⟩

end Rules

end RpcInGo.Lib.Solo
