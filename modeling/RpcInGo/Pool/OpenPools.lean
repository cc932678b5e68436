import RpcInGo.Pool.Handout
import RpcInGo.Pool.Managed

/-!
Which pools of a `PoolManager` are open. A pool is closed by the manager only, once, and by the
goroutine that has taken it out of the map or is about to.

* `open_iff_kept`: no two open pools have one address, and while the mutex is free the open
  pools are those of the map;
* `close_shuts`: when `Close` returns, every pool created until then is closed and drained, and
  stays so.
-/

namespace RpcInGo.Pool.OpenPools
open Lib.Channel Lib.Goroutine Protocol.Message Options Model Accounting Shutdown
  Manager Managed

/-! ## One pool -/

/-- Program points of `Close`. -/
def inClose : Model.Pc → Bool
  | .closeLock | .closeDrain | .closeConn _ | .closeStat => true
  | _ => false

/-- How far the goroutine at `pc` has come with closing the pool. -/
def CloseAt (p : ConnectionPool) : Model.Pc → Prop
  | .closeLock => p.closed = false
  | .closeDrain | .closeConn _ | .closeStat => p.closed = true
  | _ => False

/-- The pool is closed and its idle connections are gone. -/
structure Shut (p : ConnectionPool) : Prop where
  closed : p.closed = true
  chan : p.pool.closed = true
  drained : p.pool.buf = []

section OnePool
variable {o : PoolOptions} {p p' : ConnectionPool} {pc pc' : Model.Pc} {e : Model.Ev}

theorem inClose_after (k : After) : inClose k.pc = false := by cases k <;> rfl

theorem recvStep_inClose {k : Option ConnId → Model.Pc} (hk : ∀ c, inClose (k c) = false)
    (h : recvStep p k = some (p', pc')) : inClose pc' = false := by
  obtain ⟨c, ch, -, -, -, -, rfl⟩ | ⟨-, -, rfl⟩ := recvStep_cases h
  · exact hk _
  · exact hk _

theorem sendStep_inClose {c : ConnId} {k : Model.Pc} (hk : inClose k = false)
    (h : sendStep p c k = some (p', pc')) : inClose pc' = false := by
  obtain ⟨ch, -, -, -, -, -, rfl⟩ | ⟨-, -, rfl⟩ := sendStep_cases h
  · exact hk
  · rfl

theorem emptyStep_inClose {k : Model.Pc} (hk : inClose k = false)
    (h : emptyStep p k = some (p', pc')) : inClose pc' = false := by
  obtain ⟨-, -, -, rfl⟩ := emptyStep_cases h
  exact hk

/-- Only the call of `Close` leads into it. -/
theorem poolStep_inClose (h : poolStep o p pc e = some (p', pc')) (hpc : inClose pc = false)
    (he : e ≠ .call .close) : inClose pc' = false := by
  obtain ⟨r, op, rfl, rfl, hs⟩ | h | h | h | h | h | h := poolStep_cases h
  · revert hs
    fun_cases callStep p op <;> intro hs <;> cases hs <;> first | rfl | exact absurd rfl he
  · revert h
    fun_cases getStep o p pc e <;> intro h <;> try contradiction
    all_goals first
      | exact recvStep_inClose (fun _ => rfl) h
      | exact emptyStep_inClose rfl h
      | cases h; rfl
  · revert h
    fun_cases discardStep p pc e <;> intro h <;> cases h
    · rfl
    · rfl
    · exact inClose_after _
  · revert h
    fun_cases putStep o p pc e <;> intro h <;> try contradiction
    all_goals cases h; rfl
  · revert h
    fun_cases cleanupStep o p pc e <;> intro h <;> try contradiction
    all_goals first
      | exact recvStep_inClose (fun _ => rfl) h
      | exact emptyStep_inClose rfl h
      | exact sendStep_inClose rfl h
      | cases h; rfl
  · revert h
    fun_cases healthStep p pc e <;> intro h <;> try contradiction
    all_goals first
      | exact recvStep_inClose (fun _ => rfl) h
      | exact emptyStep_inClose rfl h
      | exact sendStep_inClose rfl h
      | cases h; rfl
  · revert h
    fun_cases Model.closeStep p pc e <;> intro h <;> contradiction

/-- Outside of `Close` nothing changes the closed flag. -/
theorem poolStep_closed_same (h : poolStep o p pc e = some (p', pc')) (hpc : inClose pc = false) :
    p'.closed = p.closed := by
  obtain hsame | ⟨rfl, -⟩ := poolStep_closed h
  · exact hsame
  · cases hpc

/-- What `Close` does from an open pool on: it ends with the pool shut, and without an error. -/
theorem poolStep_closeAt (h : poolStep o p pc e = some (p', pc')) (hat : CloseAt p pc) :
    CloseAt p' pc' ∨ pc' = .returned .done ∧ Shut p' := by
  have hclose : Model.closeStep p pc e = some (p', pc') := by
    cases pc with
    | closeLock | closeDrain | closeConn | closeStat =>
      simpa [poolStep, getStep, discardStep, putStep, cleanupStep, healthStep] using h
    | _ => cases hat
  revert hclose
  fun_cases Model.closeStep p pc e <;> intro hclose <;> cases hclose
  case case2 hclosed => cases hclosed.symm.trans hat
  case case3 => exact .inl rfl
  case case4 => exact .inl hat
  case case6 hzero =>
    obtain ⟨hbuf, hcl⟩ := recv_zero hzero
    exact .inr ⟨rfl, hat, hcl, hbuf⟩
  case case8 => exact .inl hat
  case case9 => exact .inl hat

theorem recvStep_shut {k : Option ConnId → Model.Pc} (hs : Shut p)
    (h : recvStep p k = some (p', pc')) : Shut p' := by
  obtain ⟨c, ch, hbuf, -⟩ | ⟨-, rfl, -⟩ := recvStep_cases h
  · rw [hs.drained] at hbuf
    cases hbuf
  · exact hs

theorem sendStep_shut {c : ConnId} {k : Model.Pc} (hs : Shut p)
    (h : sendStep p c k = some (p', pc')) : Shut p' := by
  obtain ⟨ch, hopen, -⟩ | ⟨-, rfl, -⟩ := sendStep_cases h
  · cases hopen.symm.trans hs.chan
  · exact hs

theorem emptyStep_shut {k : Model.Pc} (hs : Shut p) (h : emptyStep p k = some (p', pc')) :
    Shut p' := by
  obtain ⟨-, -, rfl, -⟩ := emptyStep_cases h
  exact hs

theorem Shut.same (hs : Shut p) (hclosed : p'.closed = p.closed) (hpool : p'.pool = p.pool) :
    Shut p' :=
  ⟨hclosed.trans hs.closed, by rw [hpool, hs.chan], by rw [hpool, hs.drained]⟩

theorem putStep_shut (h : putStep o p pc e = some (p', pc')) (hs : Shut p) : Shut p' := by
  revert h
  fun_cases putStep o p pc e <;> intro h <;> cases h
  case case11 hsend => cases (send_ok hsend).2.2.2.symm.trans hs.chan
  all_goals exact hs.same rfl rfl

theorem closeStep_shut (h : Model.closeStep p pc e = some (p', pc')) (hs : Shut p) : Shut p' := by
  revert h
  fun_cases Model.closeStep p pc e <;> intro h <;> cases h
  case case3 hclosed => exact absurd hs.closed hclosed
  case case4 hrecv =>
    have hbuf := (recv_ok hrecv).1
    rw [hs.drained] at hbuf
    cases hbuf
  all_goals exact hs.same rfl rfl

/-- A shut pool stays shut, whatever operation goes on. -/
theorem poolStep_shut (h : poolStep o p pc e = some (p', pc')) (hs : Shut p) : Shut p' := by
  obtain ⟨r, op, rfl, rfl, hc⟩ | h | h | h | h | h | h := poolStep_cases h
  · revert hc
    fun_cases callStep p op <;> intro hc <;> cases hc <;> exact hs.same rfl rfl
  · revert h
    fun_cases getStep o p pc e <;> intro h <;> try contradiction
    all_goals first
      | exact recvStep_shut hs h
      | exact emptyStep_shut hs h
      | cases h; exact hs.same rfl rfl
  · revert h
    fun_cases discardStep p pc e <;> intro h <;> cases h <;> exact hs.same rfl rfl
  · exact putStep_shut h hs
  · revert h
    fun_cases cleanupStep o p pc e <;> intro h <;> try contradiction
    all_goals first
      | exact recvStep_shut hs h
      | exact emptyStep_shut hs h
      | exact sendStep_shut hs h
      | cases h; exact hs.same rfl rfl
  · revert h
    fun_cases healthStep p pc e <;> intro h <;> try contradiction
    all_goals first
      | exact recvStep_shut hs h
      | exact emptyStep_shut hs h
      | exact sendStep_shut hs h
      | cases h; exact hs.same rfl rfl
  · exact closeStep_shut h hs

end OnePool

/-! ## All pools -/

/-- The goroutine holds the mutex of the manager. -/
def holds : Managed.Pc → Bool
  | .removing _ _ | .closeRange | .closing _ _ _ => true
  | _ => false

/-- The pool that a goroutine is closing. -/
def closes : Managed.Pc → Option Nat
  | .removing n _ | .closing _ n _ => some n
  | _ => none

/-- What a goroutine knows of the pool it is in. -/
def Sound (m : ManagerState) : Managed.Pc → Prop
  | .inPool _ pc => inClose pc = false ∧ pc.idle = false
  | .removing n pc => n ∈ m.pm.closed ∧ ∃ p, m.pools[n]? = some p ∧ CloseAt p pc
  | .closing addr n pc => m.pm.pools addr = some n ∧ ∃ p, m.pools[n]? = some p ∧ CloseAt p pc
  | _ => True

/-- A pool that nobody is closing is shut once it has left the map, and open until then. -/
def Resting (m : ManagerState) (n : Nat) (p : ConnectionPool) : Prop :=
  if n ∈ m.pm.closed then Shut p else p.closed = false

/-- No two open pools have one address. -/
def Apart (m : ManagerState) : Prop :=
  ∀ (n n' : Nat) (p p' : ConnectionPool), m.pools[n]? = some p → m.pools[n']? = some p' →
    p.closed = false → p'.closed = false → m.pm.created[n]? = m.pm.created[n']? → n = n'

structure Settled (s : Config ManagerState Managed.Pc) : Prop where
  locks : s.threads.countP holds = s.shared.locked.toNat
  sound : ∀ q ∈ s.threads, Sound s.shared q
  resting : ∀ n p, s.shared.pools[n]? = some p → (∀ q ∈ s.threads, closes q ≠ some n) →
    Resting s.shared n p
  apart : Apart s.shared

section Steps
variable {cfg : ManagerConfig} {s : Config ManagerState Managed.Pc} {m m' : ManagerState}
  {q q' r : Managed.Pc} {i n k : Nat} {p p' : ConnectionPool}

theorem sound_of_not_holds (hr : holds r = false) (h : Sound m r) : Sound m' r := by
  cases r with
  | removing | closing => cases hr
  | inPool n pc => exact h
  | _ => trivial

theorem closes_of_not_holds (hr : holds r = false) : closes r = none := by
  cases r <;> first | rfl | cases hr

theorem holds_of_outside (hq : q.outside = true) : holds q = false := by
  cases q <;> first | rfl | cases hq

theorem sound_of_outside (hq : q.outside = true) : Sound m q := by
  cases q with
  | removing | closing | inPool => cases hq
  | _ => trivial

/-- Two goroutines do not hold the mutex at once. -/
theorem Settled.others (hS : Settled s) (hi : s.threads[i]? = some q) (hq : holds q = true)
    {j : Nat} (hij : i ≠ j) (hj : s.threads[j]? = some r) : holds r = false := by
  by_contra hr
  have hcount := countP_set (f := holds) (.returned .done) hi
  have hrmem : r ∈ s.threads.set i (.returned .done) := by
    rw [← List.append_nil (s.threads.set i _)]
    exact List.mem_of_getElem? (getElem?_fired_other _ hij hj)
  have hpos : 0 < (s.threads.set i (.returned .done)).countP holds :=
    List.countP_pos_iff.mpr ⟨r, hrmem, by simpa using hr⟩
  have hlocks := hS.locks
  have hle := Bool.toNat_le s.shared.locked
  have hret : holds (.returned .done) = false := rfl
  rw [hq, hret, Bool.toNat_true, Bool.toNat_false] at hcount
  omega

theorem Settled.locked_of_holds (hS : Settled s) (hi : s.threads[i]? = some q)
    (hq : holds q = true) : s.shared.locked = true := by
  have hpos : 0 < s.threads.countP holds :=
    List.countP_pos_iff.mpr ⟨q, List.mem_of_getElem? hi, hq⟩
  rw [hS.locks] at hpos
  cases hl : s.shared.locked with
  | true => rfl
  | false =>
    rw [hl] at hpos
    cases hpos

theorem Settled.nobody (hS : Settled s) (hfree : s.shared.locked = false) (hr : r ∈ s.threads) :
    holds r = false := by
  have hlocks := hS.locks
  rw [hfree, Bool.toNat_false, List.countP_eq_zero] at hlocks
  simpa using hlocks r hr

/-- While the mutex is free, nobody is closing a pool. -/
theorem Settled.rests (hS : Settled s) (hfree : s.shared.locked = false)
    (hp : s.shared.pools[n]? = some p) : Resting s.shared n p := by
  refine hS.resting n p hp fun r hr => ?_
  rw [closes_of_not_holds (hS.nobody hfree hr)]
  nofun

/-- Nor while `Close` is between two pools. -/
theorem Settled.rests_ranging (hS : Settled s) (hi : s.threads[i]? = some .closeRange)
    (hp : s.shared.pools[n]? = some p) : Resting s.shared n p := by
  refine hS.resting n p hp fun r hr => ?_
  obtain ⟨j, hj⟩ := List.mem_iff_getElem?.mp hr
  by_cases hij : i = j
  · subst hij
    rw [hi] at hj
    cases hj
    nofun
  · rw [closes_of_not_holds (hS.others hi rfl hij hj)]
    nofun

theorem Settled.kept_of_open (hS : Settled s) (hfree : s.shared.locked = false)
    (hp : s.shared.pools[n]? = some p) (hopen : p.closed = false) {addr : String}
    (haddr : s.shared.pm.created[n]? = some addr) : s.shared.pm.pools addr = some n := by
  refine (s.shared.pm.kept_iff addr n).mpr ⟨haddr, fun hmem => ?_⟩
  have hshut : Shut p := by
    have hrest := hS.rests hfree hp
    rwa [Resting, if_pos hmem] at hrest
  cases hopen.symm.trans hshut.closed

/-- The open pools of `m'` are open in `m`. -/
structure Frame (m m' : ManagerState) : Prop where
  created : m'.pm.created = m.pm.created
  opened : ∀ (n : Nat) (p' : ConnectionPool), m'.pools[n]? = some p' → p'.closed = false →
    ∃ p : ConnectionPool, m.pools[n]? = some p ∧ p.closed = false

theorem Frame.apart (hF : Frame m m') (h : Apart m) : Apart m' := by
  intro n n' p p' hp hp' hopen hopen' haddr
  obtain ⟨p₁, hp₁, hopen₁⟩ := hF.opened n p hp hopen
  obtain ⟨p₂, hp₂, hopen₂⟩ := hF.opened n' p' hp' hopen'
  rw [hF.created] at haddr
  exact h n n' p₁ p₂ hp₁ hp₂ hopen₁ hopen₂ haddr

theorem frame_same (hcreated : m'.pm.created = m.pm.created) (hpools : m'.pools = m.pools) :
    Frame m m' :=
  ⟨hcreated, fun _ p' hp' hopen => ⟨p', hpools ▸ hp', hopen⟩⟩

theorem frame_setPool (hcreated : m'.pm.created = m.pm.created)
    (hpools : m'.pools = m.pools.set n p') (hp : m.pools[n]? = some p)
    (hclosed : p.closed = true → p'.closed = true) : Frame m m' := by
  refine ⟨hcreated, fun k p₁ hp₁ hopen => ?_⟩
  rw [hpools, List.getElem?_set] at hp₁
  split at hp₁
  · rename_i hk
    subst hk
    split at hp₁
    · cases hp₁
      refine ⟨p, hp, Bool.eq_false_iff.mpr fun hc => ?_⟩
      rw [hclosed hc] at hopen
      cases hopen
    · cases hp₁
  · exact ⟨p₁, hp₁, hopen⟩

/-- What is left to show of a step. -/
theorem Settled.move (hS : Settled s) (hi : s.threads[i]? = some q)
    (hlocks : m'.locked.toNat + (holds q).toNat = s.shared.locked.toNat + (holds q').toNat)
    (hsound : Sound m' q')
    (hothers : ∀ j r, i ≠ j → s.threads[j]? = some r → Sound s.shared r → Sound m' r)
    (hrest : ∀ k p', m'.pools[k]? = some p' → closes q' ≠ some k →
      (closes q ≠ some k → ∀ p, s.shared.pools[k]? = some p → Resting s.shared k p) →
      Resting m' k p')
    (hapart : Apart m') : Settled ⟨m', s.threads.set i q'⟩ := by
  refine ⟨?_, ?_, ?_, hapart⟩
  · have hcount := countP_set (f := holds) q' hi
    have := hS.locks
    change (s.threads.set i q').countP holds = m'.locked.toNat
    omega
  · intro r hr
    obtain ⟨j, hj⟩ := List.mem_iff_getElem?.mp hr
    rw [← List.append_nil (s.threads.set i q')] at hj
    obtain ⟨-, rfl⟩ | ⟨hij, hj⟩ | hnil := getElem?_fired hj
    · exact hsound
    · exact hothers j r (Ne.symm hij) hj (hS.sound r (List.mem_of_getElem? hj))
    · cases hnil
  · intro k p' hp' hnone
    have hset := List.append_nil (s.threads.set i q')
    refine hrest k p' hp' (hnone q' ?_) fun hq p hp => hS.resting k p hp fun r hr => ?_
    · rw [← hset]
      exact List.mem_of_getElem? (getElem?_fired_self q' hi)
    · obtain ⟨j, hj⟩ := List.mem_iff_getElem?.mp hr
      by_cases hij : i = j
      · subst hij
        rw [hi] at hj
        cases hj
        exact hq
      · apply hnone r
        rw [← hset]
        exact List.mem_of_getElem? (getElem?_fired_other q' hij hj)

theorem getElem?_setPool (h : (m.setPool n p').pools[k]? = some p) :
    k = n ∧ p = p' ∨ k ≠ n ∧ m.pools[k]? = some p := by
  simp only [ManagerState.setPool, List.getElem?_set] at h
  split at h
  · rename_i hk
    split at h
    · exact .inl ⟨hk.symm, (Option.some.inj h).symm⟩
    · cases h
  · rename_i hk
    exact .inr ⟨Ne.symm hk, h⟩

/-- A step in a pool by a goroutine that does not close it. -/
theorem Settled.work (hS : Settled s) (hi : s.threads[i]? = some q) (hq : holds q = false)
    (hq' : holds q' = false) (hsound : ∀ m, Sound m q') (hp : s.shared.pools[n]? = some p)
    (hclosed : p'.closed = p.closed) (hshut : Shut p → Shut p') :
    Settled ⟨s.shared.setPool n p', s.threads.set i q'⟩ := by
  have hlt : n < s.shared.pools.length := (List.getElem?_eq_some_iff.mp hp).1
  -- whoever closes the pool is where it was
  have hat {k : Nat} {pc : Model.Pc}
      (h : ∃ p, s.shared.pools[k]? = some p ∧ CloseAt p pc) :
      ∃ p, (s.shared.setPool n p').pools[k]? = some p ∧ CloseAt p pc := by
    obtain ⟨p₁, hp₁, hc⟩ := h
    by_cases hk : k = n
    · subst hk
      rw [hp] at hp₁
      cases hp₁
      refine ⟨p', List.getElem?_set_self hlt, ?_⟩
      cases pc <;> first | exact hclosed.trans hc | exact hc
    · exact ⟨p₁, by rw [ManagerState.setPool, List.getElem?_set_ne (Ne.symm hk), hp₁], hc⟩
  refine hS.move hi (by simp [ManagerState.setPool, hq, hq']) (hsound _) ?_ ?_ ?_
  · intro j r _ _ hr
    cases r with
    | removing k pc => exact ⟨hr.1, hat hr.2⟩
    | closing addr k pc => exact ⟨hr.1, hat hr.2⟩
    | inPool k pc => exact hr
    | _ => trivial
  · intro k p₁ hp₁ _ hold
    have hrest := hold (by simp [closes_of_not_holds hq])
    obtain ⟨rfl, rfl⟩ | ⟨hk, hp₁⟩ := getElem?_setPool hp₁
    · have hrest := hrest p hp
      unfold Resting at hrest ⊢
      by_cases hmem : k ∈ s.shared.pm.closed
      · rw [if_pos hmem] at hrest
        exact (if_pos hmem).mpr (hshut hrest)
      · rw [if_neg hmem] at hrest
        exact (if_neg hmem).mpr (hclosed.trans hrest)
    · exact hrest p₁ hp₁
  · have hF : Frame s.shared (s.shared.setPool n p') :=
      frame_setPool rfl rfl hp (hclosed.trans ·)
    exact hF.apart hS.apart

/-- Nothing changes but the goroutine, and perhaps the mutex. -/
theorem Settled.stay (hS : Settled s) (hi : s.threads[i]? = some q) (hq : closes q = none)
    (hpm : m'.pm = s.shared.pm) (hpools : m'.pools = s.shared.pools)
    (hlocks : m'.locked.toNat + (holds q).toNat = s.shared.locked.toNat + (holds q').toNat)
    (hsound : Sound m' q') : Settled ⟨m', s.threads.set i q'⟩ := by
  refine hS.move hi hlocks hsound ?_ ?_ ?_
  · intro j r _ _ hr
    cases r with
    | removing | closing => simpa only [Sound, hpm, hpools] using hr
    | inPool k pc => exact hr
    | _ => trivial
  · intro k p hp _ hold
    rw [hpools] at hp
    simpa only [Resting, hpm] using hold (by simp [hq]) p hp
  · exact (frame_same (congrArg _ hpm) hpools).apart hS.apart

theorem Settled.create (hS : Settled s) {addr : String} (hnone : s.shared.pm.pools addr = none)
    (hi : s.threads[i]? = some (.getLock addr)) (hfree : s.shared.locked = false)
    (hopen : p.closed = false) :
    Settled ⟨s.shared.create addr hnone p, s.threads.set i (.getEnter n)⟩ := by
  have hpools {k : Nat} {p₁ : ConnectionPool}
      (h : (s.shared.create addr hnone p).pools[k]? = some p₁) :
      s.shared.pools[k]? = some p₁ ∧ k ≠ s.shared.pools.length ∨
        k = s.shared.pools.length ∧ p₁ = p := by
    simp only [ManagerState.create, List.getElem?_append] at h
    split at h
    · exact .inl ⟨h, by omega⟩
    · rw [List.getElem?_singleton] at h
      split at h
      · exact .inr ⟨by omega, (Option.some.inj h).symm⟩
      · cases h
  -- an open pool of the address would be in the map
  have hnew {k : Nat} {p₁ : ConnectionPool} (hp₁ : s.shared.pools[k]? = some p₁)
      (hopen₁ : p₁.closed = false) : s.shared.pm.created[k]? ≠ some addr := by
    intro haddr
    rw [hS.kept_of_open hfree hp₁ hopen₁ haddr] at hnone
    cases hnone
  refine hS.move hi rfl trivial ?_ ?_ ?_
  · intro j r _ hj hr
    exact sound_of_not_holds (hS.nobody hfree (List.mem_of_getElem? hj)) hr
  · intro k p₁ hp₁ _ hold
    obtain ⟨hold₁, -⟩ | ⟨rfl, rfl⟩ := hpools hp₁
    · exact hold (by simp [closes]) p₁ hold₁
    · have hnot : s.shared.pools.length ∉ s.shared.pm.closed := by
        intro hmem
        have := s.shared.pm.closed_lt _ hmem
        rw [← s.shared.sized] at this
        omega
      exact (if_neg hnot).mpr hopen
  · intro k k' p₁ p₂ hp₁ hp₂ hopen₁ hopen₂ haddr
    have hlast : (s.shared.pm.created ++ [addr])[s.shared.pools.length]? = some addr := by
      rw [s.shared.sized, List.getElem?_concat_length]
    have hlt {k : Nat} {p : ConnectionPool} (hp : s.shared.pools[k]? = some p) :
        (s.shared.pm.created ++ [addr])[k]? = s.shared.pm.created[k]? := by
      rw [List.getElem?_append_left]
      rw [← s.shared.sized]
      exact (List.getElem?_eq_some_iff.mp hp).1
    change (s.shared.pm.created ++ [addr])[k]? = (s.shared.pm.created ++ [addr])[k']? at haddr
    obtain ⟨hold₁, -⟩ | ⟨rfl, rfl⟩ := hpools hp₁ <;> obtain ⟨hold₂, -⟩ | ⟨rfl, rfl⟩ := hpools hp₂
    · rw [hlt hold₁, hlt hold₂] at haddr
      exact hS.apart k k' p₁ p₂ hold₁ hold₂ hopen₁ hopen₂ haddr
    · rw [hlt hold₁, hlast] at haddr
      exact absurd haddr (hnew hold₁ hopen₁)
    · rw [hlt hold₂, hlast] at haddr
      exact absurd haddr.symm (hnew hold₂ hopen₂)
    · rfl

/-- `RemovePool` takes a pool out of the map. -/
theorem Settled.remove (hS : Settled s) {addr : String} (hn : s.shared.pm.pools addr = some n)
    (hi : s.threads[i]? = some (.removeLock addr)) (hfree : s.shared.locked = false) :
    Settled ⟨(s.shared.remove addr).setLocked true,
      s.threads.set i (.removing n .closeLock)⟩ := by
  obtain ⟨p, hp⟩ := kept_pool hn
  have hrest := hS.rests hfree hp
  rw [Resting, if_neg (s.shared.pm.kept_open hn)] at hrest
  have hmem {k : Nat} : k ∈ (s.shared.pm.removePool addr).closed ↔
      n = k ∨ k ∈ s.shared.pm.closed := by
    rw [PoolManager.mem_removePool_closed, hn, Option.some.injEq]
  refine hS.move hi (by simp [ManagerState.setLocked, hfree, holds])
    ⟨hmem.mpr (.inl rfl), p, hp, hrest⟩ ?_ ?_ ?_
  · intro j r _ hj hr
    exact sound_of_not_holds (hS.nobody hfree (List.mem_of_getElem? hj)) hr
  · intro k p₁ hp₁ hk hold
    have hne : n ≠ k := fun h => hk (congrArg some h)
    have hold := hold (by simp [closes]) p₁ hp₁
    simpa [Resting, ManagerState.setLocked, ManagerState.remove, hmem, hne] using hold
  · have hF : Frame s.shared ((s.shared.remove addr).setLocked true) :=
      frame_same (PoolManager.removePool_created _ _) rfl
    exact hF.apart hS.apart

/-- `Close` turns to a pool. -/
theorem Settled.visit (hS : Settled s) {addr : String} (hn : s.shared.pm.pools addr = some n)
    (hi : s.threads[i]? = some .closeRange) :
    Settled ⟨s.shared, s.threads.set i (.closing addr n .closeLock)⟩ := by
  obtain ⟨p, hp⟩ := kept_pool hn
  have hrest := hS.rests_ranging hi hp
  rw [Resting, if_neg (s.shared.pm.kept_open hn)] at hrest
  refine hS.move hi rfl ⟨hn, p, hp, hrest⟩ ?_ ?_ hS.apart
  · intro j r _ _ hr
    exact hr
  · intro k p₁ hp₁ _ hold
    exact hold (by simp [closes]) p₁ hp₁

/-- A step of the goroutine that closes the pool `n`: it goes on, or the pool is shut and out of
the map. -/
theorem Settled.shutting (hS : Settled s) (hi : s.threads[i]? = some q) (hq : holds q = true)
    (hcloses : closes q = some n) (hp : s.shared.pools[n]? = some p)
    (hclosed : p.closed = true → p'.closed = true)
    (hpools : m'.pools = s.shared.pools.set n p')
    (hcreated : m'.pm.created = s.shared.pm.created)
    (hmem : ∀ k, k ≠ n → (k ∈ m'.pm.closed ↔ k ∈ s.shared.pm.closed))
    (hlocks : m'.locked.toNat + (holds q).toNat = s.shared.locked.toNat + (holds q').toNat)
    (hsound : Sound m' q') (hend : closes q' = some n ∨ n ∈ m'.pm.closed ∧ Shut p') :
    Settled ⟨m', s.threads.set i q'⟩ := by
  refine hS.move hi hlocks hsound ?_ ?_ ?_
  · intro j r hij hj hr
    exact sound_of_not_holds (hS.others hi hq hij hj) hr
  · intro k p₁ hp₁ hk hold
    have hset : m'.pools = (s.shared.setPool n p').pools := hpools
    rw [hset] at hp₁
    obtain ⟨rfl, rfl⟩ | ⟨hne, hp₁⟩ := getElem?_setPool hp₁
    · obtain hgo | ⟨hin, hshut⟩ := hend
      · exact absurd hgo hk
      · exact (if_pos hin).mpr hshut
    · have hold := hold (by rw [hcloses]; exact fun h => hne (Option.some.inj h).symm) p₁ hp₁
      simpa only [Resting, hmem k hne] using hold
  · exact (frame_setPool hcreated hpools hp hclosed).apart hS.apart

theorem closeAt_closed {pc pc' : Model.Pc} {e : Model.Ev} {o : PoolOptions}
    (h : poolStep o p pc e = some (p', pc')) (hat : CloseAt p pc) (hclosed : p.closed = true) :
    p'.closed = true := by
  obtain hsame | ⟨rfl, -⟩ := poolStep_closed h
  · exact hsame.trans hclosed
  · cases hclosed.symm.trans hat

/-- Whoever enters or works in a pool outside of `Close` stays there or leaves. -/
theorem sound_leave {pc : Model.Pc} (h : inClose pc = false) (n : Nat) (m : ManagerState) :
    Sound m (leave n pc) ∧ holds (leave n pc) = false := by
  cases pc <;> first | exact ⟨trivial, rfl⟩ | exact ⟨⟨h, rfl⟩, rfl⟩

theorem Settled.step {e : Managed.Ev} (hS : Settled s) (hi : s.threads[i]? = some q)
    (h : Stepped cfg s.shared q e m' q') : Settled ⟨m', s.threads.set i q'⟩ := by
  have hsound := hS.sound q (List.mem_of_getElem? hi)
  cases h with
  | outside hq hq' =>
    exact hS.stay hi (closes_of_not_holds (holds_of_outside hq)) rfl rfl
      (by rw [holds_of_outside hq, holds_of_outside hq']) (sound_of_outside hq')
  | @created addr hnone factory p hfree hnew =>
    exact hS.create hnone hi hfree (newConnectionPool_fresh hnew).opened
  | @entered _ _ n op p p' pc' hq hop _ hp hcall =>
    have hstep : poolStep cfg.poolOptions p (.returned .done) (.call op) = some (p', pc') :=
      poolStep_call rfl hcall
    have hpc' := poolStep_inClose hstep rfl fun he => hop (Model.Ev.call.inj he)
    exact hS.work hi (holds_of_outside hq) (sound_leave hpc' n s.shared).2
      (fun m => (sound_leave hpc' n m).1) hp (poolStep_closed_same hstep rfl) (poolStep_shut hstep)
  | @worked n pc pc' e p p' hp hstep =>
    have hpc' := poolStep_inClose hstep hsound.1 (Handout.poolStep_not_call hsound.2 hstep _)
    exact hS.work hi rfl (sound_leave hpc' n s.shared).2 (fun m => (sound_leave hpc' n m).1) hp
      (poolStep_closed_same hstep hsound.1) (poolStep_shut hstep)
  | removed hfree hn => exact hS.remove hn hi hfree
  | @removing n pc pc' e p p' _ _ hp hstep hnext =>
    obtain ⟨hmem, p₁, hp₁, hat⟩ := hsound
    obtain rfl : p = p₁ := Option.some.inj (hp.symm.trans hp₁)
    have hlt := (List.getElem?_eq_some_iff.mp hp).1
    obtain hat' | ⟨rfl, hshut⟩ := poolStep_closeAt hstep hat
    · have hgo : removingNext (s.shared.setPool n p') n pc' =
          (s.shared.setPool n p', .removing n pc') := by
        cases pc' <;> first | rfl | cases hat'
      cases hgo.symm.trans hnext
      exact hS.shutting hi rfl rfl hp (closeAt_closed hstep hat) rfl rfl (fun _ _ => Iff.rfl) rfl
        ⟨hmem, p', List.getElem?_set_self hlt, hat'⟩ (.inl rfl)
    · cases hnext
      refine hS.shutting hi rfl rfl hp (closeAt_closed hstep hat) rfl rfl (fun _ _ => Iff.rfl) ?_
        trivial (.inr ⟨hmem, hshut⟩)
      rw [hS.locked_of_holds hi rfl]
      rfl
  | locked hfree =>
    refine hS.stay hi rfl rfl rfl ?_ trivial
    rw [hfree]
    rfl
  | visited hn => exact hS.visit hn hi
  | @closing addr n pc pc' e p p' _ _ hp hstep hnext =>
    obtain ⟨hn, p₁, hp₁, hat⟩ := hsound
    obtain rfl : p = p₁ := Option.some.inj (hp.symm.trans hp₁)
    have hlt := (List.getElem?_eq_some_iff.mp hp).1
    obtain hat' | ⟨rfl, hshut⟩ := poolStep_closeAt hstep hat
    · have hgo : closingNext (s.shared.setPool n p') addr n pc' =
          (s.shared.setPool n p', .closing addr n pc') := by
        cases pc' <;> first | rfl | cases hat'
      cases hgo.symm.trans hnext
      exact hS.shutting hi rfl rfl hp (closeAt_closed hstep hat) rfl rfl (fun _ _ => Iff.rfl) rfl
        ⟨hn, p', List.getElem?_set_self hlt, hat'⟩ (.inl rfl)
    · cases hnext
      have hmem {k : Nat} : k ∈ (s.shared.pm.removePool addr).closed ↔
          n = k ∨ k ∈ s.shared.pm.closed := by
        rw [PoolManager.mem_removePool_closed, hn, Option.some.injEq]
      refine hS.shutting hi rfl rfl hp (closeAt_closed hstep hat) rfl
        (PoolManager.removePool_created _ _) (fun k hk => ?_) rfl trivial
        (.inr ⟨hmem.mpr (.inl rfl), hshut⟩)
      rw [ManagerState.remove, ManagerState.setPool, hmem]
      exact or_iff_right (Ne.symm hk)
  | closed _ =>
    refine hS.stay hi rfl rfl rfl ?_ trivial
    rw [hS.locked_of_holds hi rfl]
    rfl

end Steps

section Runs
variable {cfg : ManagerConfig} {k : Nat} {tr : List (Nat × Managed.Ev)}
  {t u v : Config ManagerState Managed.Pc}

theorem managerStart_settled (k : Nat) : Settled (managerStart k) := by
  have hidle : ∀ q ∈ (managerStart k).threads, q = .returned .done :=
    fun q hq => List.eq_of_mem_replicate hq
  refine ⟨?_, ?_, ?_, ?_⟩
  · change List.countP holds _ = 0
    rw [List.countP_eq_zero]
    intro q hq
    rw [hidle q hq]
    nofun
  · intro q hq
    rw [hidle q hq]
    trivial
  · intro n p hp
    cases hp
  · intro n n' p p' hp
    cases hp

theorem fire_settled {i : Nat} {e : Managed.Ev} (hS : Settled t)
    (h : (manager cfg).fire t i e = some u) : Settled u := by
  obtain ⟨q, m', q', hi, hstep, rfl⟩ := fire_manager h
  exact hS.step hi hstep

theorem run_settled (h : Run (manager cfg) Any (managerStart k) tr t) : Settled t :=
  h.invariant (managerStart_settled k) fun _ _ _ _ hS _ hf => fire_settled hS hf

/-- At no time are two pools of one address open. While the mutex is free the open pools are
those of the map, and the others are closed and drained. -/
theorem open_iff_kept (h : Run (manager cfg) Any (managerStart k) tr t) :
    Apart t.shared ∧
    (t.shared.locked = false → ∀ n p addr, t.shared.pools[n]? = some p →
      t.shared.pm.created[n]? = some addr →
      (p.closed = false ↔ t.shared.pm.pools addr = some n) ∧ (p.closed = true → Shut p)) := by
  have hS := run_settled h
  refine ⟨hS.apart, fun hfree n p addr hp haddr => ⟨⟨?_, fun hn => ?_⟩, fun hclosed => ?_⟩⟩
  · exact fun hopen => hS.kept_of_open hfree hp hopen haddr
  · have hrest := hS.rests hfree hp
    rwa [Resting, if_neg (t.shared.pm.kept_open hn)] at hrest
  · have hrest := hS.rests hfree hp
    unfold Resting at hrest
    split at hrest
    · exact hrest
    · cases hclosed.symm.trans hrest

/-- The pool is shut and out of the map. -/
def Gone (m : ManagerState) (n : Nat) : Prop :=
  n ∈ m.pm.closed ∧ ∃ p, m.pools[n]? = some p ∧ Shut p

theorem Gone.setPool {m m' : ManagerState} {n j : Nat} {p p' : ConnectionPool} (h : Gone m n)
    (hp : m.pools[j]? = some p) (hshut : Shut p → Shut p')
    (hpools : m'.pools = m.pools.set j p') (hmem : n ∈ m'.pm.closed) : Gone m' n := by
  obtain ⟨-, p₁, hp₁, hs⟩ := h
  by_cases hj : j = n
  · subst hj
    obtain rfl : p = p₁ := Option.some.inj (hp.symm.trans hp₁)
    have hlt := (List.getElem?_eq_some_iff.mp hp).1
    exact ⟨hmem, p', by rw [hpools, List.getElem?_set_self hlt], hshut hs⟩
  · exact ⟨hmem, p₁, by rw [hpools, List.getElem?_set_ne hj, hp₁], hs⟩

theorem mem_remove {m : ManagerState} {n : Nat} (addr : String) (h : n ∈ m.pm.closed) :
    n ∈ (m.remove addr).pm.closed :=
  PoolManager.mem_removePool_closed.mpr (.inr h)

theorem stepped_gone {m m' : ManagerState} {q q' : Managed.Pc} {e : Managed.Ev} {n : Nat}
    (h : Stepped cfg m q e m' q') (hg : Gone m n) : Gone m' n := by
  cases h with
  | outside | locked | visited | closed => exact hg
  | created =>
    obtain ⟨hmem, p, hp, hs⟩ := hg
    refine ⟨hmem, p, ?_, hs⟩
    rw [ManagerState.create, List.getElem?_append_left (List.getElem?_eq_some_iff.mp hp).1, hp]
  | @entered _ _ j op p p' pc' hq hop _ hp hcall =>
    have hstep : poolStep cfg.poolOptions p (.returned .done) (.call op) = some (p', pc') :=
      poolStep_call rfl hcall
    exact hg.setPool hp (poolStep_shut hstep) rfl hg.1
  | worked hp hstep => exact hg.setPool hp (poolStep_shut hstep) rfl hg.1
  | removed => exact ⟨mem_remove _ hg.1, hg.2⟩
  | @removing j pc pc' e p p' _ _ hp hstep hnext =>
    have hpools := (removingNext_follows hnext).1
    refine hg.setPool hp (poolStep_shut hstep) hpools ?_
    unfold removingNext at hnext
    split at hnext <;> cases hnext <;> exact hg.1
  | @closing addr j pc pc' e p p' _ _ hp hstep hnext =>
    have hpools := (closingNext_follows hnext).1
    refine hg.setPool hp (poolStep_shut hstep) hpools ?_
    unfold closingNext at hnext
    split at hnext <;> cases hnext
    · exact hg.1
    · exact mem_remove _ hg.1
    · exact hg.1

theorem run_gone {n : Nat} (h : Run (manager cfg) Any u tr v) (hg : Gone u.shared n) :
    Gone v.shared n := by
  refine h.invariant (I := fun s => Gone s.shared n) hg fun s i e t hg _ hf => ?_
  obtain ⟨q, m', q', hi, hstep, rfl⟩ := fire_manager hf
  exact stepped_gone hstep hg

/-- Once the map is empty, the goroutine that ranges over it finds every pool shut. -/
theorem Settled.gone_of_empty (hS : Settled t) {i : Nat} (hi : t.threads[i]? = some .closeRange)
    (hempty : t.shared.empty = true) {n : Nat} (hn : n < t.shared.pools.length) :
    Gone t.shared n := by
  have hp : t.shared.pools[n]? = some t.shared.pools[n] := List.getElem?_eq_getElem hn
  rw [t.shared.sized] at hn
  have haddr : t.shared.pm.created[n]? = some t.shared.pm.created[n] :=
    List.getElem?_eq_getElem hn
  have hnone : t.shared.pm.pools t.shared.pm.created[n] = none := by
    have hall := List.all_eq_true.mp hempty _ (List.getElem_mem hn)
    simpa using hall
  have hmem : n ∈ t.shared.pm.closed := by
    by_contra hnot
    have hkept := (t.shared.pm.kept_iff _ n).mpr ⟨haddr, hnot⟩
    rw [hnone] at hkept
    cases hkept
  have hrest := hS.rests_ranging hi hp
  rw [Resting, if_pos hmem] at hrest
  exact ⟨hmem, _, hp, hrest⟩

/-- When `Close` returns, every pool that was created until then is closed, drained and out of
the map, and it stays so whatever is called afterwards. -/
theorem close_shuts (h : Run (manager cfg) Any (managerStart k) tr t) {i : Nat}
    (hi : t.threads[i]? = some .closeRange) (hret : (manager cfg).fire t i .step = some u)
    {tr' : List (Nat × Managed.Ev)} (hlater : Run (manager cfg) Any u tr' v) {n : Nat}
    (hn : n < u.shared.pools.length) :
    ∃ p, v.shared.pools[n]? = some p ∧ Shut p ∧ ∀ addr, v.shared.pm.pools addr ≠ some n := by
  have hgone : Gone u.shared n := by
    obtain ⟨q, m', q', hi', hstep, rfl⟩ := fire_alone (fun _ _ _ => rfl) hret
    rw [hi] at hi'
    cases hi'
    by_cases hempty : t.shared.empty = true
    · simp only [managerStep, getConnectionStep, useStep, removePoolStep, Managed.closeStep,
        hempty, if_true, Option.none_or, Option.some.injEq, Prod.mk.injEq] at hstep
      obtain ⟨rfl, -⟩ := hstep
      exact (run_settled h).gone_of_empty hi hempty hn
    · simp [managerStep, getConnectionStep, useStep, removePoolStep, Managed.closeStep,
        hempty] at hstep
  obtain ⟨hmem, p, hp, hshut⟩ := run_gone hlater hgone
  exact ⟨p, hp, hshut, fun addr hkept => v.shared.pm.kept_open hkept hmem⟩

end Runs

/-! ## A `Close` beside a `GetConnection` -/

/-- `GetConnection` creates a pool, and `Close` closes it before `GetWithContext` looks. -/
def overtaken : List (Nat × Managed.Ev) :=
  [(0, .getConnection "a:1"), (0, .step), (0, .create fun _ => none), (0, .step),
   (1, .close), (1, .step), (1, .visit "a:1"), (1, .pool .step), (0, .pool .step),
   (1, .pool .step)]

theorem overtaken_runs :
    (exec (manager jsonManager) Any (managerStart 2) overtaken).isSome := by decide

def beforeReturn : Config ManagerState Managed.Pc :=
  (exec (manager jsonManager) Any (managerStart 2) overtaken).get overtaken_runs

theorem beforeReturn_run : Run (manager jsonManager) Any (managerStart 2) overtaken beforeReturn :=
  run_exec overtaken_runs

theorem close_returns : ((manager jsonManager).fire beforeReturn 1 .step).isSome := by decide

def afterReturn : Config ManagerState Managed.Pc :=
  ((manager jsonManager).fire beforeReturn 1 .step).get close_returns

theorem afterReturn_fire : (manager jsonManager).fire beforeReturn 1 .step = some afterReturn :=
  (Option.some_get close_returns).symm

/-- The pool that `GetConnection` has created. -/
def overtakenPool : ConnectionPool :=
  { emptyPool jsonManager.poolOptions with
    closed := true, getCount := 1, pool := (Chan.make 100).close }

theorem open_iff_kept_overtaken :
    (overtakenPool.closed = false ↔ afterReturn.shared.pm.pools "a:1" = some 0) ∧
      (overtakenPool.closed = true → Shut overtakenPool) :=
  (open_iff_kept (.step beforeReturn_run trivial afterReturn_fire)).2 rfl 0 overtakenPool "a:1"
    rfl rfl

theorem getFails_runs :
    (exec (manager jsonManager) Any afterReturn [(0, .pool .step)]).isSome := by decide

theorem close_shuts_overtaken :
    ∃ p, ((exec (manager jsonManager) Any afterReturn [(0, .pool .step)]).get
        getFails_runs).shared.pools[0]? = some p ∧ Shut p ∧
      ∀ addr, ((exec (manager jsonManager) Any afterReturn [(0, .pool .step)]).get
        getFails_runs).shared.pm.pools addr ≠ some 0 :=
  close_shuts beforeReturn_run rfl afterReturn_fire (run_exec getFails_runs) (by decide)

end RpcInGo.Pool.OpenPools
