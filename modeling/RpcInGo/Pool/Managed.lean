import RpcInGo.Lib.Objects
import RpcInGo.Pool.Manager
import RpcInGo.Pool.Shutdown

/-!
`PoolManager` with the pools it manages, under any interleaving of `GetConnection`,
`RemovePool`, `Close` and the operations on connections that were handed out. The mutex is held
across several steps only while a pool is being closed; every other section under it is one step
that needs it free. What `NewConnectionPool` does under it concerns nobody else, so that it is
one step as well.

* `managerStep_stepped`: what one step can do;
* `managed_pool_runs`: each pool runs as the single pool of `Pool.Model` does, under the
  operations that the trace of the manager makes on it.
-/

namespace RpcInGo.Pool.Managed
open Lib.Channel Lib.Goroutine Lib.Objects Protocol.Message Options Model Manager

/-- The fields of a `PoolManager` that its pools are made with. -/
structure ManagerConfig where
  codecType : CodecType
  compressType : CompressType
  maxPoolSize : Int
  minPoolSize : Int
  deriving DecidableEq, Repr

def newManagerConfig (codecType : CodecType) (compressType : CompressType) : ManagerConfig :=
  ⟨codecType, compressType, 100, 10⟩

def withManagerPoolSize (max min : Int) (cfg : ManagerConfig) : ManagerConfig :=
  { cfg with
    maxPoolSize := if max > 0 then max else cfg.maxPoolSize
    minPoolSize := if min ≥ 0 then min else cfg.minPoolSize }

def ManagerConfig.poolOptions (cfg : ManagerConfig) : PoolOptions :=
  withPoolCodec cfg.codecType cfg.compressType
    (withPoolSize cfg.maxPoolSize cfg.minPoolSize defaultPoolOptions)

/-- `NewConnectionPool` with the default validator and the default factory. -/
def ManagerConfig.newPool (cfg : ManagerConfig) (factory : Nat → Option Int) :
    Except GoError (Option ConnectionPool) :=
  match validate cfg.poolOptions with
  | some err => .error (.wrapf "invalid pool options: %w" [] err)
  | none =>
    if cfg.poolOptions.dialTimeout ≤ 0 then
      .error (.wrapf "invalid connection factory: %w" [] (.errorf "dialTimeout must be > 0" []))
    else .ok (newConnectionPool cfg.poolOptions factory)

/-- The manager with the state of each pool it has created. `locked`: `mu` is held for writing. -/
structure ManagerState where
  pm : PoolManager
  pools : List ConnectionPool
  locked : Bool
  sized : pools.length = pm.created.length

namespace ManagerState

def new : ManagerState := ⟨newPoolManager, [], false, rfl⟩

def setLocked (m : ManagerState) (locked : Bool) : ManagerState := { m with locked := locked }

def setPool (m : ManagerState) (n : Nat) (p : ConnectionPool) : ManagerState where
  pm := m.pm
  pools := m.pools.set n p
  locked := m.locked
  sized := by rw [List.length_set, m.sized]

def create (m : ManagerState) (addr : String) (h : m.pm.pools addr = none) (p : ConnectionPool) :
    ManagerState where
  pm := m.pm.create addr h
  pools := m.pools ++ [p]
  locked := m.locked
  sized := by simp [PoolManager.create, m.sized]

def remove (m : ManagerState) (addr : String) : ManagerState where
  pm := m.pm.removePool addr
  pools := m.pools
  locked := m.locked
  sized := by rw [PoolManager.removePool_created, m.sized]

/-- No address has a pool in the map. -/
def empty (m : ManagerState) : Bool := m.pm.created.all fun addr => (m.pm.pools addr).isNone

/-- One step inside the pool `n`. -/
def inPool (cfg : ManagerConfig) (m : ManagerState) (n : Nat) (pc : Model.Pc) (e : Model.Ev) :
    Option (ManagerState × Model.Pc) :=
  match m.pools[n]? with
  | none => none
  | some p => (poolStep cfg.poolOptions p pc e).map fun r => (m.setPool n r.1, r.2)

end ManagerState

/-- A connection is returned with the number of its pool. -/
inductive Return where
  | conn (n : Nat) (c : ConnId)
  | error (e : GoError)
  | done
  deriving DecidableEq, Repr

def Return.ofPool (n : Nat) : Result → Return
  | .conn c => .conn n c
  | .error e => .error e
  | .done => .done

inductive Pc where
  | returned (r : Return)
  | getLookup (addr : String)
  | getLock (addr : String)
  /-- `GetWithContext` is about to be called on the pool that was found. -/
  | getEnter (n : Nat)
  | inPool (n : Nat) (pc : Model.Pc)
  | removeLock (addr : String)
  /-- In `pool.Close()` of `RemovePool`. -/
  | removing (n : Nat) (pc : Model.Pc)
  | closeLock
  | closeRange
  /-- In `pool.Close()` of `Close`. -/
  | closing (addr : String) (n : Nat) (pc : Model.Pc)
  deriving DecidableEq, Repr

/-- `use` is an operation on a pool that does not go through the manager: `Put` by whoever
releases a connection, the background routines, and `Close` of a connection. `visit` is the next
entry in the order in which `Close` ranges over the map. -/
inductive Ev where
  | getConnection (addr : String)
  | removePool (addr : String)
  | close
  | use (n : Nat) (op : Op)
  | step
  | create (factory : Nat → Option Int)
  | visit (addr : String)
  | pool (e : Model.Ev)

/-- The operations of a pool that only the manager calls. -/
def managerOnly : Op → Bool
  | .get | .close => true
  | _ => false

/-- A goroutine in a pool, unless the operation has returned. -/
def leave (n : Nat) : Model.Pc → Pc
  | .returned r => .returned (.ofPool n r)
  | pc => .inPool n pc

section Steps
variable (cfg : ManagerConfig)

def getConnectionStep (m : ManagerState) : Pc → Ev → Option (ManagerState × Pc)
  | .returned _, .getConnection addr => some (m, .getLookup addr)
  | .getLookup addr, .step =>
    if m.locked then none
    else
      match m.pm.pools addr with
      | some n => some (m, .getEnter n)
      | none => some (m, .getLock addr)
  | .getLock addr, .create factory =>
    if m.locked then none
    else
      match h : m.pm.pools addr with
      | some n => some (m, .getEnter n)
      | none =>
        match cfg.newPool factory with
        | .error err => some (m, .returned (.error (.wrapf "new pool: %w" [] err)))
        -- a send to the idle channel blocks, with the mutex held
        | .ok none => none
        | .ok (some p) => some (m.create addr h p, .getEnter m.pools.length)
  | .getEnter n, .step =>
    (m.inPool cfg n (.returned .done) (.call .get)).map fun r => (r.1, leave n r.2)
  | _, _ => none

def useStep (m : ManagerState) : Pc → Ev → Option (ManagerState × Pc)
  | .returned _, .use n op =>
    if managerOnly op then none
    else (m.inPool cfg n (.returned .done) (.call op)).map fun r => (r.1, leave n r.2)
  | .inPool n pc, .pool e => (m.inPool cfg n pc e).map fun r => (r.1, leave n r.2)
  | _, _ => none

/-- `RemovePool` after `pool.Close()` has gone on to `pc`. -/
def removingNext (m : ManagerState) (n : Nat) : Model.Pc → ManagerState × Pc
  | .returned r => (m.setLocked false, .returned (.ofPool n r))
  | pc => (m, .removing n pc)

def removePoolStep (m : ManagerState) : Pc → Ev → Option (ManagerState × Pc)
  | .returned _, .removePool addr => some (m, .removeLock addr)
  | .removeLock addr, .step =>
    if m.locked then none
    else
      match m.pm.pools addr with
      | none => some (m, .returned .done)
      | some n =>
        (((m.remove addr).setLocked true).inPool cfg n (.returned .done) (.call .close)).map
          fun r => (r.1, .removing n r.2)
  | .removing n pc, .pool e => (m.inPool cfg n pc e).map fun r => removingNext r.1 n r.2
  | _, _ => none

/-- The loop of `Close` after `pool.Close()` has gone on to `pc`. -/
def closingNext (m : ManagerState) (addr : String) (n : Nat) : Model.Pc → ManagerState × Pc
  | .returned (.error err) =>
    (m.setLocked false, .returned (.error (.wrapf "close pool for %s: %w" [.str addr] err)))
  | .returned _ => (m.remove addr, .closeRange)
  | pc => (m, .closing addr n pc)

def closeStep (m : ManagerState) : Pc → Ev → Option (ManagerState × Pc)
  | .returned _, .close => some (m, .closeLock)
  | .closeLock, .step => if m.locked then none else some (m.setLocked true, .closeRange)
  | .closeRange, .visit addr =>
    match m.pm.pools addr with
    | none => none
    | some n =>
      (m.inPool cfg n (.returned .done) (.call .close)).map fun r => (r.1, .closing addr n r.2)
  | .closeRange, .step => if m.empty then some (m.setLocked false, .returned .done) else none
  | .closing addr n pc, .pool e =>
    (m.inPool cfg n pc e).map fun r => closingNext r.1 addr n r.2
  | _, _ => none

def managerStep (m : ManagerState) (pc : Pc) (e : Ev) : Option (ManagerState × Pc) :=
  (getConnectionStep cfg m pc e).or <| (useStep cfg m pc e).or <|
    (removePoolStep cfg m pc e).or (closeStep cfg m pc e)

end Steps

def manager (cfg : ManagerConfig) : Program ManagerState Pc Ev where
  step m pc e := (managerStep cfg m pc e).map fun r => (r.1, r.2, [])

/-- A new manager, and `k` goroutines that may call it. -/
def managerStart (k : Nat) : Config ManagerState Pc := ⟨.new, List.replicate k (.returned .done)⟩

/-! ## What a step can do -/

/-- The goroutine is neither in a pool nor holds the mutex. -/
def Pc.outside : Pc → Bool
  | .inPool _ _ | .removing _ _ | .closeRange | .closing _ _ _ => false
  | _ => true

/-- What a step of a goroutine is for the pool `n`. -/
def poolEvent (n : Nat) (m : ManagerState) : Pc → Ev → Option Model.Ev
  | .getEnter k, .step => if k = n then some (.call .get) else none
  | .returned _, .use k op => if k = n then some (.call op) else none
  | .inPool k _, .pool e | .removing k _, .pool e | .closing _ k _, .pool e =>
    if k = n then some e else none
  | .removeLock addr, .step | .closeRange, .visit addr =>
    if m.pm.pools addr = some n then some (.call .close) else none
  | _, _ => none

/-- The step is one of the pool `n`, and of no other. -/
def OnPool (m : ManagerState) (q : Pc) (e : Ev) (n : Nat) (ev : Model.Ev) : Prop :=
  ∀ k, poolEvent k m q e = if k = n then some ev else none

inductive Stepped (cfg : ManagerConfig) (m : ManagerState) : Pc → Ev → ManagerState → Pc → Prop
  | outside {q q' : Pc} {e : Ev} : q.outside = true → q'.outside = true →
      (∀ n, poolEvent n m q e = none) →
      (∀ n, q' = .getEnter n → m.locked = false ∧ ∃ addr, m.pm.pools addr = some n) →
      Stepped cfg m q e m q'
  | created {addr : String} {h : m.pm.pools addr = none} {factory : Nat → Option Int}
      {p : ConnectionPool} : m.locked = false → newConnectionPool cfg.poolOptions factory = some p →
      Stepped cfg m (.getLock addr) (.create factory) (m.create addr h p)
        (.getEnter m.pools.length)
  | entered {q : Pc} {e : Ev} {n : Nat} {op : Op} {p p' : ConnectionPool} {pc' : Model.Pc} :
      q.outside = true → op ≠ .close → OnPool m q e n (.call op) → m.pools[n]? = some p →
      Model.callStep p op = (p', pc') → Stepped cfg m q e (m.setPool n p') (leave n pc')
  | worked {n : Nat} {pc pc' : Model.Pc} {e : Model.Ev} {p p' : ConnectionPool} :
      m.pools[n]? = some p → poolStep cfg.poolOptions p pc e = some (p', pc') →
      Stepped cfg m (.inPool n pc) (.pool e) (m.setPool n p') (leave n pc')
  | removed {addr : String} {n : Nat} : m.locked = false → m.pm.pools addr = some n →
      Stepped cfg m (.removeLock addr) .step ((m.remove addr).setLocked true)
        (.removing n .closeLock)
  | removing {n : Nat} {pc pc' : Model.Pc} {e : Model.Ev} {p p' : ConnectionPool}
      {m' : ManagerState} {q' : Pc} :
      m.pools[n]? = some p → poolStep cfg.poolOptions p pc e = some (p', pc') →
      removingNext (m.setPool n p') n pc' = (m', q') →
      Stepped cfg m (.removing n pc) (.pool e) m' q'
  | locked : m.locked = false → Stepped cfg m .closeLock .step (m.setLocked true) .closeRange
  | visited {addr : String} {n : Nat} : m.pm.pools addr = some n →
      Stepped cfg m .closeRange (.visit addr) m (.closing addr n .closeLock)
  | closing {addr : String} {n : Nat} {pc pc' : Model.Pc} {e : Model.Ev}
      {p p' : ConnectionPool} {m' : ManagerState} {q' : Pc} :
      m.pools[n]? = some p → poolStep cfg.poolOptions p pc e = some (p', pc') →
      closingNext (m.setPool n p') addr n pc' = (m', q') →
      Stepped cfg m (.closing addr n pc) (.pool e) m' q'
  | closed : m.empty = true →
      Stepped cfg m .closeRange .step (m.setLocked false) (.returned .done)

section Inversion
variable {cfg : ManagerConfig} {m m' : ManagerState} {q q' : Pc} {e : Ev}

theorem inPool_cases {n : Nat} {pc pc' : Model.Pc} {e : Model.Ev}
    (h : m.inPool cfg n pc e = some (m', pc')) :
    ∃ p p', m.pools[n]? = some p ∧ poolStep cfg.poolOptions p pc e = some (p', pc') ∧
      m' = m.setPool n p' := by
  unfold ManagerState.inPool at h
  split at h
  · cases h
  · rename_i p hp
    obtain ⟨⟨p', pc₁⟩, hstep, heq⟩ := Option.map_eq_some_iff.mp h
    cases heq
    exact ⟨p, p', hp, hstep, rfl⟩

theorem inPool_call {n : Nat} {pc' : Model.Pc} {op : Op}
    (h : m.inPool cfg n (.returned .done) (.call op) = some (m', pc')) :
    ∃ p p', m.pools[n]? = some p ∧ Model.callStep p op = (p', pc') ∧ m' = m.setPool n p' := by
  obtain ⟨p, p', hp, hstep, rfl⟩ := inPool_cases h
  exact ⟨p, p', hp, Option.some.inj hstep, rfl⟩

theorem setPool_same {n : Nat} {p : ConnectionPool} (h : m.pools[n]? = some p) :
    m.setPool n p = m := by
  cases m
  simp only [ManagerState.setPool, ManagerState.mk.injEq, true_and, and_true]
  exact set_same h

theorem newPool_ok {factory : Nat → Option Int} {p : ConnectionPool}
    (h : cfg.newPool factory = .ok (some p)) :
    newConnectionPool cfg.poolOptions factory = some p := by
  unfold ManagerConfig.newPool at h
  split at h
  · cases h
  split at h
  · cases h
  · exact Except.ok.inj h

theorem getConnectionStep_stepped (h : getConnectionStep cfg m q e = some (m', q')) :
    Stepped cfg m q e m' q' := by
  revert h
  fun_cases getConnectionStep cfg m q e <;> intro h
  case case1 => cases h; exact .outside rfl rfl (fun _ => rfl) nofun
  case case3 addr hfree n hn =>
    cases h
    refine .outside rfl rfl (fun _ => rfl) fun n' hn' => ?_
    cases hn'
    exact ⟨by simpa using hfree, addr, hn⟩
  case case4 => cases h; exact .outside rfl rfl (fun _ => rfl) nofun
  case case6 addr _ hfree n hn =>
    cases h
    refine .outside rfl rfl (fun _ => rfl) fun n' hn' => ?_
    cases hn'
    exact ⟨by simpa using hfree, addr, hn⟩
  case case7 => cases h; exact .outside rfl rfl (fun _ => rfl) nofun
  case case9 addr factory hfree hnone p hp =>
    cases h
    exact .created (by simpa using hfree) (newPool_ok hp)
  case case10 n =>
    obtain ⟨⟨m₁, pc'⟩, hin, heq⟩ := Option.map_eq_some_iff.mp h
    cases heq
    obtain ⟨p, p', hp, hcall, rfl⟩ := inPool_call hin
    have hop : Op.get ≠ .close := nofun
    exact .entered rfl hop (fun k => by simp [poolEvent, eq_comm]) hp hcall
  all_goals cases h

theorem useStep_stepped (h : useStep cfg m q e = some (m', q')) : Stepped cfg m q e m' q' := by
  revert h
  fun_cases useStep cfg m q e <;> intro h
  case case2 n op hop =>
    obtain ⟨⟨m₁, pc'⟩, hin, heq⟩ := Option.map_eq_some_iff.mp h
    cases heq
    obtain ⟨p, p', hp, hcall, rfl⟩ := inPool_call hin
    refine .entered rfl ?_ (fun k => by simp [poolEvent, eq_comm]) hp hcall
    rintro rfl
    exact hop rfl
  case case3 n pc e =>
    obtain ⟨⟨m₁, pc'⟩, hin, heq⟩ := Option.map_eq_some_iff.mp h
    cases heq
    obtain ⟨p, p', hp, hstep, rfl⟩ := inPool_cases hin
    exact .worked hp hstep
  all_goals cases h

theorem removePoolStep_stepped (h : removePoolStep cfg m q e = some (m', q')) :
    Stepped cfg m q e m' q' := by
  revert h
  fun_cases removePoolStep cfg m q e <;> intro h
  case case1 => cases h; exact .outside rfl rfl (fun _ => rfl) nofun
  case case3 addr _ hn => cases h; exact .outside rfl rfl (fun n => by simp [poolEvent, hn]) nofun
  case case4 addr hfree n hn =>
    obtain ⟨⟨m₁, pc'⟩, hin, heq⟩ := Option.map_eq_some_iff.mp h
    cases heq
    obtain ⟨p, p', hp, hcall, rfl⟩ := inPool_call hin
    cases hcall
    rw [setPool_same hp]
    exact .removed (by simpa using hfree) hn
  case case5 n pc e =>
    obtain ⟨⟨m₁, pc'⟩, hin, heq⟩ := Option.map_eq_some_iff.mp h
    obtain ⟨p, p', hp, hstep, rfl⟩ := inPool_cases hin
    exact .removing hp hstep heq
  all_goals cases h

theorem closeStep_stepped (h : closeStep cfg m q e = some (m', q')) : Stepped cfg m q e m' q' := by
  revert h
  fun_cases closeStep cfg m q e <;> intro h
  case case1 => cases h; exact .outside rfl rfl (fun _ => rfl) nofun
  case case3 hfree => cases h; exact .locked (by simpa using hfree)
  case case5 addr n hn =>
    obtain ⟨⟨m₁, pc'⟩, hin, heq⟩ := Option.map_eq_some_iff.mp h
    cases heq
    obtain ⟨p, p', hp, hcall, rfl⟩ := inPool_call hin
    cases hcall
    rw [setPool_same hp]
    exact .visited hn
  case case6 hempty => cases h; exact .closed hempty
  case case8 addr n pc e =>
    obtain ⟨⟨m₁, pc'⟩, hin, heq⟩ := Option.map_eq_some_iff.mp h
    obtain ⟨p, p', hp, hstep, rfl⟩ := inPool_cases hin
    exact .closing hp hstep heq
  all_goals cases h

theorem managerStep_stepped (h : managerStep cfg m q e = some (m', q')) :
    Stepped cfg m q e m' q' := by
  simp only [managerStep, Option.or_eq_some_iff] at h
  rcases h with h | ⟨-, h | ⟨-, h | ⟨-, h⟩⟩⟩
  · exact getConnectionStep_stepped h
  · exact useStep_stepped h
  · exact removePoolStep_stepped h
  · exact closeStep_stepped h

theorem fire_manager {s t : Config ManagerState Pc} {i : Nat}
    (h : (manager cfg).fire s i e = some t) :
    ∃ q m' q', s.threads[i]? = some q ∧ Stepped cfg s.shared q e m' q' ∧
      t = ⟨m', s.threads.set i q'⟩ := by
  obtain ⟨q, m', q', hi, hstep, rfl⟩ := fire_alone (fun _ _ _ => rfl) h
  exact ⟨q, m', q', hi, managerStep_stepped hstep, rfl⟩

end Inversion

/-! ## Each pool by itself -/

/-- The pool a goroutine is in. -/
def Pc.within : Pc → Option (Nat × Model.Pc)
  | .inPool n pc | .removing n pc | .closing _ n pc => some (n, pc)
  | _ => none

/-- Seen from the pool `n`, a goroutine outside of it is between operations. -/
def Pc.at (n : Nat) (q : Pc) (pc : Model.Pc) : Prop :=
  match q.within with
  | none => pc.idle = true
  | some (k, pc') => if k = n then pc = pc' else pc.idle = true

def poolFamily : Family ManagerState Pc Ev ConnectionPool Model.Pc Model.Ev where
  object m n := m.pools[n]?
  place n q pc := q.at n pc
  event := poolEvent

/-- The operations on the pool `n` in a schedule, with the steps that they take. -/
def poolTrace (cfg : ManagerConfig) (k n : Nat) (tr : List (Nat × Ev)) : List (Nat × Model.Ev) :=
  poolFamily.trace (manager cfg) n (managerStart k) tr

/-- A pool as the manager creates it. -/
def NewPool (cfg : ManagerConfig) (p : ConnectionPool) : Prop :=
  ∃ factory, newConnectionPool cfg.poolOptions factory = some p

/-- The goroutine has gone on to `pc` in the pool `n`. -/
structure Pc.Follows (n : Nat) (pc : Model.Pc) (q : Pc) : Prop where
  here : q.at n pc
  elsewhere : ∀ k, k ≠ n → ∀ pc', q.at k pc' ↔ pc'.idle = true

section Places
variable {cfg : ManagerConfig} {m m' : ManagerState} {q q' : Pc} {e : Ev} {n k : Nat}
  {pc : Model.Pc}

theorem at_outside (h : q.within = none) : q.at n pc ↔ pc.idle = true := by
  simp [Pc.at, h]

theorem follows_within {pc' : Model.Pc} (h : q.within = some (n, pc')) : q.Follows n pc' := by
  constructor
  · simp [Pc.at, h]
  · intro k hk pc
    simp [Pc.at, h, Ne.symm hk]

theorem follows_outside {r : Result} (h : q.within = none) : q.Follows n (.returned r) :=
  ⟨(at_outside h).mpr rfl, fun _ _ _ => at_outside h⟩

theorem leave_follows (n : Nat) (pc : Model.Pc) : (leave n pc).Follows n pc := by
  unfold leave
  split
  · exact follows_outside rfl
  · exact follows_within rfl

theorem removingNext_follows (h : removingNext m n pc = (m', q')) :
    m'.pools = m.pools ∧ q'.Follows n pc := by
  unfold removingNext at h
  split at h <;> cases h
  · exact ⟨rfl, follows_outside rfl⟩
  · exact ⟨rfl, follows_within rfl⟩

theorem closingNext_follows {addr : String} (h : closingNext m addr n pc = (m', q')) :
    m'.pools = m.pools ∧ q'.Follows n pc := by
  unfold closingNext at h
  split at h <;> cases h
  · exact ⟨rfl, follows_outside rfl⟩
  · exact ⟨rfl, follows_outside rfl⟩
  · exact ⟨rfl, follows_within rfl⟩

theorem within_of_outside (h : q.outside = true) : q.within = none := by
  cases q <;> first | rfl | cases h

theorem poolStep_call {o : PoolOptions} {p p' : ConnectionPool} {op : Op} {pc pc' : Model.Pc}
    (hidle : pc.idle = true) (h : Model.callStep p op = (p', pc')) :
    poolStep o p pc (.call op) = some (p', pc') := by
  cases pc with
  | returned r => exact congrArg some h
  | _ => cases hidle

/-- A step in one pool touches that pool only. -/
theorem touches_pool {p p' : ConnectionPool} {pc' : Model.Pc} {ev : Model.Ev}
    (hev : OnPool m q e n ev) (hp : m.pools[n]? = some p) (hpools : m'.pools = m.pools.set n p')
    (hstep : ∀ pc, q.at n pc → poolStep cfg.poolOptions p pc ev = some (p', pc'))
    (helse : ∀ k, k ≠ n → ∀ pc, q.at k pc → pc.idle = true) (hfollows : q'.Follows n pc')
    (k : Nat) :
    Touches poolFamily (program cfg.poolOptions) (NewPool cfg) k m q e m' q' := by
  by_cases hk : k = n
  · subst hk
    have hlt : k < m.pools.length := (List.getElem?_eq_some_iff.mp hp).1
    have hp' : m'.pools[k]? = some p' := by rw [hpools, List.getElem?_set_self hlt]
    refine .steps ((hev k).trans (if_pos rfl)) hp hp' fun pc hat => ?_
    exact ⟨pc', by simp [program, hstep pc hat], hfollows.here⟩
  · refine .keeps ((hev k).trans (if_neg hk)) ?_
      fun pc hat => (hfollows.elsewhere k hk pc).mpr (helse k hk pc hat)
    change m'.pools[k]? = m.pools[k]?
    rw [hpools, List.getElem?_set_ne (Ne.symm hk)]

theorem onPool_within {ev : Model.Ev} (h : q.within = some (n, pc)) :
    OnPool m q (.pool ev) n ev := by
  intro k
  cases q <;> cases h
  all_goals simp only [poolEvent, eq_comm]

/-- The same for a goroutine that is in the pool already. -/
theorem touches_within {p p' : ConnectionPool} {pc' : Model.Pc} {ev : Model.Ev}
    (hq : q.within = some (n, pc)) (hp : m.pools[n]? = some p)
    (hstep : poolStep cfg.poolOptions p pc ev = some (p', pc'))
    (hpools : m'.pools = m.pools.set n p') (hfollows : q'.Follows n pc') (k : Nat) :
    Touches poolFamily (program cfg.poolOptions) (NewPool cfg) k m q (.pool ev) m' q' := by
  refine touches_pool (onPool_within hq) hp hpools (fun pc₁ hat => ?_)
    (fun k hk pc₁ => ((follows_within hq).elsewhere k hk pc₁).mp) hfollows k
  obtain rfl : pc₁ = pc := by simpa [Pc.at, hq] using hat
  exact hstep

/-- The same for one that calls an operation of the pool. -/
theorem touches_call {p p' : ConnectionPool} {pc' : Model.Pc} {op : Op}
    (hev : OnPool m q e n (.call op)) (hq : q.within = none) (hp : m.pools[n]? = some p)
    (hcall : Model.callStep p op = (p', pc')) (hpools : m'.pools = m.pools.set n p')
    (hfollows : q'.Follows n pc') (k : Nat) :
    Touches poolFamily (program cfg.poolOptions) (NewPool cfg) k m q e m' q' :=
  touches_pool hev hp hpools (fun _ hat => poolStep_call ((at_outside hq).mp hat) hcall)
    (fun _ _ _ => (at_outside hq).mp) hfollows k

/-- The pools of the map exist. -/
theorem kept_pool {addr : String} (h : m.pm.pools addr = some n) : ∃ p, m.pools[n]? = some p := by
  have hlt := (List.getElem?_eq_some_iff.mp (m.pm.kept_created h)).1
  rw [← m.sized] at hlt
  exact ⟨_, List.getElem?_eq_getElem hlt⟩

theorem onPool_kept {addr : String} (h : m.pm.pools addr = some n) :
    OnPool m (.removeLock addr) .step n (.call .close) ∧
      OnPool m .closeRange (.visit addr) n (.call .close) := by
  constructor <;> intro k <;> simp [poolEvent, h, eq_comm]

theorem stepped_touches (h : Stepped cfg m q e m' q') (k : Nat) :
    Touches poolFamily (program cfg.poolOptions) (NewPool cfg) k m q e m' q' := by
  cases h with
  | outside hq hq' hev =>
    refine .keeps (hev k) rfl fun pc hat => ?_
    exact (at_outside (within_of_outside hq')).mpr ((at_outside (within_of_outside hq)).mp hat)
  | @created addr hnone factory p hfree hnew =>
    by_cases hk : k = m.pools.length
    · subst hk
      refine .creates rfl (List.getElem?_eq_none (le_refl _)) ?_ ⟨factory, hnew⟩ fun _ hat => hat
      exact List.getElem?_concat_length
    · refine .keeps rfl ?_ fun _ hat => hat
      change (m.pools ++ [p])[k]? = m.pools[k]?
      rw [List.getElem?_append]
      split
      · rfl
      · rw [List.getElem?_eq_none (by simp; omega), List.getElem?_eq_none (by omega)]
  | entered hq hop hev hp hcall =>
    exact touches_call hev (within_of_outside hq) hp hcall rfl (leave_follows _ _) k
  | worked hp hstep => exact touches_within rfl hp hstep rfl (leave_follows _ _) k
  | @removed addr n hfree hn =>
    obtain ⟨p, hp⟩ := kept_pool hn
    have hcall : Model.callStep p .close = (p, .closeLock) := rfl
    have hpools : ((m.remove addr).setLocked true).pools = m.pools.set n p := (set_same hp).symm
    exact touches_call (onPool_kept hn).1 rfl hp hcall hpools (follows_within rfl) k
  | removing hp hstep hnext =>
    obtain ⟨hpools, hfollows⟩ := removingNext_follows hnext
    exact touches_within rfl hp hstep hpools hfollows k
  | locked => exact .keeps rfl rfl fun _ hat => hat
  | visited hn =>
    obtain ⟨p, hp⟩ := kept_pool hn
    have hcall : Model.callStep p .close = (p, .closeLock) := rfl
    exact touches_call (onPool_kept hn).2 rfl hp hcall (set_same hp).symm (follows_within rfl) k
  | closing hp hstep hnext =>
    obtain ⟨hpools, hfollows⟩ := closingNext_follows hnext
    exact touches_within rfl hp hstep hpools hfollows k
  | closed => exact .keeps rfl rfl fun _ hat => hat

end Places

/-- Whatever goes on in the other pools and in the manager, what happens to one pool is a run of
that pool alone, from the state in which it was created, under the operations made on it. -/
theorem managed_pool_runs {cfg : ManagerConfig} {k : Nat} {tr : List (Nat × Ev)}
    {t : Config ManagerState Pc} (h : Run (manager cfg) Any (managerStart k) tr t) {n : Nat}
    {p : ConnectionPool} (hp : t.shared.pools[n]? = some p) :
    ∃ factory p₀ c, newConnectionPool cfg.poolOptions factory = some p₀ ∧
      Run (program cfg.poolOptions) Any (start p₀ k) (poolTrace cfg k n tr) c ∧ c.shared = p ∧
      List.Forall₂ (fun q pc => q.at n pc) t.threads c.threads := by
  have hidle : ∀ q ∈ (managerStart k).threads, q.at n (.returned .done) := by
    intro q hq
    rw [List.eq_of_mem_replicate hq]
    rfl
  obtain ⟨p₀, c, ⟨factory, hnew⟩, hrun, hview⟩ :=
    run_object (fun _ _ _ => rfl)
      (fun m q e m' q' hs => stepped_touches (managerStep_stepped hs) n) h rfl hidle hp
  refine ⟨factory, p₀, c, hnew, ?_, ?_, hview.threads⟩
  · simpa [managerStart, start, poolTrace] using hrun
  · exact Option.some.inj (hview.shared.symm.trans hp)

def jsonManager : ManagerConfig := newManagerConfig codecTypeJSON 0

/-- Two goroutines ask for a connection to one address; both miss the pool at first. -/
def bothMiss : List (Nat × Ev) :=
  [(0, .getConnection "a:1"), (1, .getConnection "a:1"), (0, .step), (1, .step),
   (0, .create fun _ => none), (1, .create fun _ => none), (0, .step), (1, .step),
   (0, .pool .step), (1, .pool .step)]

theorem bothMiss_runs : (exec (manager jsonManager) Any (managerStart 2) bothMiss).isSome := by
  decide

theorem managed_pool_runs_bothMiss :
    ∃ factory p₀ c, newConnectionPool jsonManager.poolOptions factory = some p₀ ∧
      Run (program jsonManager.poolOptions) Any (start p₀ 2)
        [(0, .call .get), (1, .call .get), (0, .step), (1, .step)] c ∧
      c.shared = { emptyPool jsonManager.poolOptions with getCount := 2 } ∧
      List.Forall₂ (fun (q : Pc) pc => q.at 0 pc)
        [.inPool 0 .getClosed, .inPool 0 .getClosed] c.threads :=
  managed_pool_runs (run_exec bothMiss_runs) (n := 0) rfl

end RpcInGo.Pool.Managed
