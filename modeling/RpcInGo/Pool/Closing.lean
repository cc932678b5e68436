import RpcInGo.Pool.Model

/-! The idle channel of a pool is closed together with the pool, and for good.
Some program points are only reached after that; an open pool has no goroutine
there. -/

namespace RpcInGo.Pool.Closing
open Lib.Channel Lib.Goroutine Protocol.Message Options Model

def After.late : After → Bool
  | .create | .put => false
  | .cleanup rest | .healthCheck rest => rest.any Option.isNone

/-- Program points that only a closed pool leads to. -/
def late : Pc → Bool
  | .getHealthy none | .putClose _ | .putStat | .closeDrain | .closeConn _ | .closeStat => true
  | .discardClose _ k | .discardStat k | .discardSize k => After.late k
  | .cleanupDrain l | .cleanupCheck l | .healthDrain l | .healthCheck l => l.any Option.isNone
  | .cleanupSend _ l | .healthSend _ l => l.any Option.isNone
  | .panicked _ => true
  | _ => false

@[simp] theorem late_after (k : After) : late k.pc = After.late k := by cases k <;> rfl

/-- What a step of a goroutine leaves of the closed state. -/
structure Closes (p p' : ConnectionPool) (pc' : Pc) : Prop where
  chan : p'.pool.closed = p'.closed
  cap : p'.pool.cap = p.pool.cap
  mono : p.closed = true → p'.closed = true
  after : late pc' = true → p'.closed = true

section Steps
variable {o : PoolOptions} {p p' : ConnectionPool} {pc pc' : Pc} {e : Ev}

theorem Closes.same (hchan : p.pool.closed = p.closed) (hpool : p'.pool = p.pool)
    (hclosed : p'.closed = p.closed) (hlate : late pc' = true → p.closed = true) :
    Closes p p' pc' := by
  refine ⟨?_, by rw [hpool], ?_, ?_⟩
  · rw [hpool, hclosed, hchan]
  · rw [hclosed]
    exact id
  · rw [hclosed]
    exact hlate

theorem Closes.early (hchan : p.pool.closed = p.closed) (hpool : p'.pool = p.pool)
    (hclosed : p'.closed = p.closed) (hlate : late pc' = false) : Closes p p' pc' :=
  .same hchan hpool hclosed (by simp [hlate])

theorem recvStep_closes {k : Option ConnId → Pc} (hchan : p.pool.closed = p.closed)
    (hk : ∀ c, late (k (some c)) = late pc) (hl : late pc = true → p.closed = true)
    (h : recvStep p k = some (p', pc')) : Closes p p' pc' := by
  obtain ⟨c, ch, -, hcap, hcl, rfl, rfl⟩ | ⟨hcl, rfl, rfl⟩ := recvStep_cases h
  · exact ⟨hcl.trans hchan, hcap, id, fun hlate => hl (by rwa [hk] at hlate)⟩
  · exact .same hchan rfl rfl (fun _ => hchan ▸ hcl)

theorem send_closes {c : ConnId} {ch : Chan ConnId} (hchan : p.pool.closed = p.closed)
    (hs : p.pool.send c = .ok ch) (hl : late pc' = true → p.closed = true) :
    Closes p { p with pool := ch } pc' := by
  obtain ⟨-, hcap, hcl, -⟩ := send_ok hs
  exact ⟨hcl.trans hchan, hcap, id, hl⟩

theorem panic_closes {c : ConnId} (hchan : p.pool.closed = p.closed)
    (hs : p.pool.send c = .panic) : Closes p p (.panicked .sendOnClosedChannel) :=
  .same hchan rfl rfl (fun _ => hchan ▸ send_panic.mp hs)

theorem sendStep_closes {c : ConnId} {k : Pc} (h : sendStep p c k = some (p', pc'))
    (hchan : p.pool.closed = p.closed) (hl : late k = true → p.closed = true) :
    Closes p p' pc' := by
  unfold sendStep at h
  split at h <;> cases h
  · exact send_closes hchan (by assumption) hl
  · exact panic_closes hchan (by assumption)

theorem emptyStep_closes {k : Pc} (h : emptyStep p k = some (p', pc'))
    (hchan : p.pool.closed = p.closed) (hl : late k = true → p.closed = true) :
    Closes p p' pc' := by
  obtain ⟨-, -, rfl, rfl⟩ := emptyStep_cases h
  exact .same hchan rfl rfl hl

theorem getStep_closes (h : getStep o p pc e = some (p', pc'))
    (hchan : p.pool.closed = p.closed) (hl : late pc = true → p.closed = true) :
    Closes p p' pc' := by
  revert h
  fun_cases getStep o p pc e <;> intro h <;> try contradiction
  all_goals first
    | exact recvStep_closes hchan (fun _ => rfl) hl h
    | exact emptyStep_closes h hchan (by simp [late])
    | cases h; exact .early hchan rfl rfl rfl
    | cases h; exact .same hchan rfl rfl hl

theorem discardStep_closes (h : discardStep p pc e = some (p', pc'))
    (hchan : p.pool.closed = p.closed) (hl : late pc = true → p.closed = true) :
    Closes p p' pc' := by
  revert h
  fun_cases discardStep p pc e <;> intro h <;> cases h
  · exact .same hchan rfl rfl hl
  · exact .same hchan rfl rfl hl
  · exact .same hchan rfl rfl (by rw [late_after]; exact hl)

theorem putStep_closes (h : putStep o p pc e = some (p', pc'))
    (hchan : p.pool.closed = p.closed) (hl : late pc = true → p.closed = true) :
    Closes p p' pc' := by
  revert h
  fun_cases putStep o p pc e <;> intro h <;> try contradiction
  all_goals cases h
  all_goals first
    | exact .early hchan rfl rfl rfl
    | exact .same hchan rfl rfl hl
    | exact .same hchan rfl rfl (fun _ => by assumption)
    | exact send_closes hchan (by assumption) hl
    | exact panic_closes hchan (by assumption)

theorem cleanupStep_closes (h : cleanupStep o p pc e = some (p', pc'))
    (hchan : p.pool.closed = p.closed) (hl : late pc = true → p.closed = true) :
    Closes p p' pc' := by
  revert h
  fun_cases cleanupStep o p pc e <;> intro h <;> try contradiction
  all_goals first
    | exact recvStep_closes hchan (by simp [late]) hl h
    | exact emptyStep_closes h hchan hl
    | exact sendStep_closes h hchan hl
    | cases h; exact .early hchan rfl rfl rfl
    | cases h; exact .same hchan rfl rfl hl

theorem healthStep_closes (h : healthStep p pc e = some (p', pc'))
    (hchan : p.pool.closed = p.closed) (hl : late pc = true → p.closed = true) :
    Closes p p' pc' := by
  revert h
  fun_cases healthStep p pc e <;> intro h <;> try contradiction
  all_goals first
    | exact recvStep_closes hchan (by simp [late]) hl h
    | exact emptyStep_closes h hchan hl
    | exact sendStep_closes h hchan hl
    | cases h; exact .same hchan rfl rfl hl

theorem closeStep_closes (h : closeStep p pc e = some (p', pc'))
    (hchan : p.pool.closed = p.closed) (hl : late pc = true → p.closed = true) :
    Closes p p' pc' := by
  revert h
  fun_cases closeStep p pc e <;> intro h <;> try contradiction
  all_goals cases h
  all_goals first
    | exact .early hchan rfl rfl rfl
    | exact .same hchan rfl rfl hl
    | exact ⟨rfl, rfl, fun _ => rfl, fun _ => rfl⟩
    | exact ⟨((recv_ok (by assumption)).2.2).trans hchan, (recv_ok (by assumption)).2.1, id, hl⟩

theorem poolStep_closes (h : poolStep o p pc e = some (p', pc'))
    (hchan : p.pool.closed = p.closed) (hl : late pc = true → p.closed = true) :
    Closes p p' pc' := by
  obtain ⟨r, op, rfl, rfl, hs⟩ | h | h | h | h | h | h := poolStep_cases h
  · revert hs
    fun_cases callStep p op <;> intro hs <;> cases hs
    all_goals exact .early hchan rfl rfl rfl
  · exact getStep_closes h hchan hl
  · exact discardStep_closes h hchan hl
  · exact putStep_closes h hchan hl
  · exact cleanupStep_closes h hchan hl
  · exact healthStep_closes h hchan hl
  · exact closeStep_closes h hchan hl

end Steps

end RpcInGo.Pool.Closing
