import RpcInGo.Lib.Goroutine

/-! What is observed along a run: each step contributes what `obs` says of it, and
the observations of the run are these, in order. `run_observed` is the rule for
invariants that relate the state reached to what was observed on the way. -/

namespace RpcInGo.Lib.Observe
open Goroutine

variable {G P E A : Type}

/-- The observations of a schedule, from a configuration on. -/
def observe (prog : Program G P E) (obs : Config G P → Nat → E → List A) (s : Config G P) :
    List (Nat × E) → List A
  | [] => []
  | (i, e) :: tr =>
    obs s i e ++
      match prog.fire s i e with
      | none => []
      | some t => observe prog obs t tr

section Runs
variable {prog : Program G P E} {ok : Config G P → Nat → E → Prop}
  {obs : Config G P → Nat → E → List A} {s t u : Config G P} {tr tr' : List (Nat × E)}

theorem observe_append (h : Run prog ok s tr t) :
    observe prog obs s (tr ++ tr') = observe prog obs s tr ++ observe prog obs t tr' := by
  induction h generalizing tr' with
  | refl => rfl
  | step _ _ hf ih =>
    rw [List.append_assoc, ih, ih, List.append_assoc]
    congr 1
    simp [observe, hf]

theorem observe_single {i : Nat} {e : E} (hf : prog.fire s i e = some t) :
    observe prog obs s [(i, e)] = obs s i e := by
  simp [observe, hf]

/-- The invariant rule. -/
theorem run_observed {I : Config G P → List A → Prop} (h : Run prog ok s tr t) (h0 : I s [])
    (hI : ∀ s i e t l, I s l → ok s i e → prog.fire s i e = some t → I t (l ++ obs s i e)) :
    I t (observe prog obs s tr) := by
  induction h with
  | refl => exact h0
  | step hr ho hf ih =>
    rw [observe_append hr, observe_single hf]
    exact hI _ _ _ _ _ ih ho hf

end Runs

end RpcInGo.Lib.Observe
