import RpcInGo.Lib.Observe

/-!
Objects that the goroutines of a system create as they go. Each object has a program of its
own, in which every goroutine of the system has a place, and a step of the system is an event
of that program or none.

* `run_object`: what a run of the system does to one object is a run of the object's program
  by the same goroutines, with the events of the run that are the object's.
-/

namespace RpcInGo.Lib.Objects
open Lib.Goroutine Lib.Observe

variable {S Q F G P E : Type}

/-- How the objects are found in a system: the state of the object with a number, the program
points at which a goroutine may be in it, and what a goroutine's step is for it. -/
structure Family (S Q F G P E : Type) where
  object : S → Nat → Option G
  place : Nat → Q → P → Prop
  event : Nat → S → Q → F → Option E

/-- What a step of the system adds to the trace of the object `n`. -/
def Family.seen (fam : Family S Q F G P E) (n : Nat) (s : Config S Q) (i : Nat) (f : F) :
    List (Nat × E) :=
  match s.threads[i]? with
  | none => []
  | some q => ((fam.event n s.shared q f).map (Prod.mk i)).toList

/-- The events of a schedule that are the object's. -/
def Family.trace (fam : Family S Q F G P E) (sys : Program S Q F) (n : Nat) :
    Config S Q → List (Nat × F) → List (Nat × E) :=
  observe sys (fam.seen n)

/-- What one step of a goroutine, from `q` to `q'`, can do to the object `n`. -/
inductive Touches (fam : Family S Q F G P E) (obj : Program G P E) (Init : G → Prop) (n : Nat)
    (s : S) (q : Q) (f : F) (s' : S) (q' : Q) : Prop
  | keeps : fam.event n s q f = none → fam.object s' n = fam.object s n →
      (∀ p, fam.place n q p → fam.place n q' p) → Touches fam obj Init n s q f s' q'
  | creates {g : G} : fam.event n s q f = none → fam.object s n = none →
      fam.object s' n = some g → Init g → (∀ p, fam.place n q p → fam.place n q' p) →
      Touches fam obj Init n s q f s' q'
  | steps {g g' : G} {e : E} : fam.event n s q f = some e → fam.object s n = some g →
      fam.object s' n = some g' →
      (∀ p, fam.place n q p → ∃ p', obj.step g p e = some (g', p', []) ∧ fam.place n q' p') →
      Touches fam obj Init n s q f s' q'

/-- The object with its goroutines, as a configuration of its own program. -/
structure Views (fam : Family S Q F G P E) (n : Nat) (s : Config S Q) (c : Config G P) :
    Prop where
  shared : fam.object s.shared n = some c.shared
  threads : List.Forall₂ (fam.place n) s.threads c.threads

section Runs
variable {fam : Family S Q F G P E} {obj : Program G P E} {Init : G → Prop} {n : Nat}
  {sys : Program S Q F} {step : S → Q → F → Option (S × Q)} {ok : Config S Q → Nat → F → Prop}
  {s t : Config S Q} {tr : List (Nat × F)}

/-- A step at a goroutine keeps the places of the others. -/
theorem forall₂_set_left {R : Q → P → Prop} {ts : List Q} {us : List P} {i : Nat} {q q' : Q}
    (h : List.Forall₂ R ts us) (hi : ts[i]? = some q) (hq : ∀ p, R q p → R q' p) :
    List.Forall₂ R (ts.set i q') us := by
  obtain ⟨p, hp, hr⟩ := forall₂_get h hi
  have := forall₂_set h (hq p hr) i
  rwa [set_same hp] at this

/-- Until an object is created nobody is in it; from then on it runs its own program. -/
def Followed (fam : Family S Q F G P E) (obj : Program G P E) (Init : G → Prop) (n : Nat) (p₀ : P)
    (threads : Nat) (t : Config S Q) (tr : List (Nat × E)) : Prop :=
  t.threads.length = threads ∧
  (tr = [] ∧ fam.object t.shared n = none ∧ (∀ q ∈ t.threads, fam.place n q p₀) ∨
    ∃ g c, Init g ∧ Run obj Any ⟨g, List.replicate threads p₀⟩ tr c ∧ Views fam n t c)

theorem seen_eq {i : Nat} {q : Q} {f : F} (hi : t.threads[i]? = some q) :
    fam.seen n t i f = ((fam.event n t.shared q f).map (Prod.mk i)).toList := by
  rw [Family.seen, hi]

theorem Followed.fire {p₀ : P} {threads i : Nat} {q q' : Q} {s' : S} {f : F} {l : List (Nat × E)}
    (hF : Followed fam obj Init n p₀ threads t l) (hi : t.threads[i]? = some q)
    (htouch : Touches fam obj Init n t.shared q f s' q') :
    Followed fam obj Init n p₀ threads ⟨s', t.threads.set i q'⟩ (l ++ fam.seen n t i f) := by
  obtain ⟨hlen, hF⟩ := hF
  refine ⟨by simpa using hlen, ?_⟩
  rw [seen_eq hi]
  rcases hF with ⟨rfl, hnone, hidle⟩ | ⟨g, c, hg, hrun, hshared, hthreads⟩
  · have hset (hplace : ∀ p, fam.place n q p → fam.place n q' p) :
        ∀ r ∈ t.threads.set i q', fam.place n r p₀ :=
      forall_set (R := fun r => fam.place n r p₀)
        (hplace p₀ (hidle q (List.mem_of_getElem? hi))) hidle fun _ h => h
    cases htouch with
    | keeps hev hobj hplace =>
      rw [hev]
      exact .inl ⟨rfl, hobj.trans hnone, hset hplace⟩
    | @creates g hev _ hobj hg hplace =>
      have hthreads := forall₂_replicate (hset hplace)
      rw [List.length_set, hlen] at hthreads
      rw [hev]
      exact .inr ⟨g, _, hg, .refl, hobj, hthreads⟩
    | steps _ hobj => exact absurd (hnone.symm.trans hobj) nofun
  · right
    cases htouch with
    | keeps hev hobj hplace =>
      rw [hev, Option.map_none, Option.toList_none, List.append_nil]
      exact ⟨g, c, hg, hrun, hobj.trans hshared, forall₂_set_left hthreads hi hplace⟩
    | creates _ hnone => exact absurd (hnone.symm.trans hshared) nofun
    | @steps g₁ g' e hev hobj hobj' hstep =>
      obtain rfl : c.shared = g₁ := Option.some.inj (hshared.symm.trans hobj)
      obtain ⟨p, hp, hplace⟩ := forall₂_get hthreads hi
      obtain ⟨p', hs, hplace'⟩ := hstep p hplace
      have hfire : obj.fire c i e = some ⟨g', c.threads.set i p'⟩ := by
        simp [Program.fire, hp, hs]
      rw [hev, Option.map_some, Option.toList_some]
      exact ⟨g, _, hg, .step hrun trivial hfire, hobj', forall₂_set hthreads hplace' i⟩

theorem run_object (halone : ∀ s q f, sys.step s q f = (step s q f).map fun r => (r.1, r.2, []))
    (htouch : ∀ s q f s' q', step s q f = some (s', q') → Touches fam obj Init n s q f s' q')
    {p₀ : P} (h : Run sys ok s tr t) (hnone : fam.object s.shared n = none)
    (hidle : ∀ q ∈ s.threads, fam.place n q p₀) {g : G} (hg : fam.object t.shared n = some g) :
    ∃ g₀ c, Init g₀ ∧
      Run obj Any ⟨g₀, List.replicate s.threads.length p₀⟩ (fam.trace sys n s tr) c ∧
      Views fam n t c := by
  have hall : Followed fam obj Init n p₀ s.threads.length t (fam.trace sys n s tr) := by
    refine run_observed (I := Followed fam obj Init n p₀ s.threads.length) h
      ⟨rfl, .inl ⟨rfl, hnone, hidle⟩⟩ fun t i f u l hF _ hfire => ?_
    obtain ⟨q, s', q', hi, hstep, rfl⟩ := fire_alone halone hfire
    exact hF.fire hi (htouch _ _ _ _ _ hstep)
  rcases hall.2 with ⟨-, hnone', -⟩ | hviews
  · exact absurd (hnone'.symm.trans hg) nofun
  · exact hviews

end Runs

end RpcInGo.Lib.Objects
