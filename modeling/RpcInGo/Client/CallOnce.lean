import RpcInGo.Client.ErrorMap
import RpcInGo.Pool.Capacity
import RpcInGo.Pool.Handout

/-!
`Client.callOnce` over a `fixedSource`: any number of goroutines make calls on
one pool while cleanup and health passes run.

* `callOnce_simulates`: every run is, seen from the pool, a run in which callers
  put back only what they hold, so the accounting of the pool applies;
* `run_failedSends`: the connections closed by their callers are the failed sends;
* `callOnce_capacity`: between calls `currentSize` is the number of idle
  connections exactly when no send has failed, and then a `Get` never waits.
-/

namespace RpcInGo.Client.CallOnce
open Lib.Channel Lib.Goroutine Protocol.Message ErrorMap
open Pool.Options Pool.Model Pool.Accounting Pool.Capacity Pool.Handout

variable {Value : Type}

/-! ## The client's goroutines -/

/-- `abandoned` is bookkeeping of the model: the connections `callOnce` closed
after a failed send. -/
structure Shared where
  pool : ConnectionPool
  abandoned : List ConnId
  deriving DecidableEq

/-- Program points. Inside a pool operation they carry the pool's own. -/
inductive CallPc (Value : Type) where
  | idle (last : Option (Reply Value))
  | acquiring (pc : Pc)
  | sending (c : ConnId)
  | closing (c : ConnId) (e : GoError)
  | releasing (resp : Response Value) (pc : Pc)
  | background (pc : Pc)
  deriving DecidableEq

inductive CallEv (Value : Type) where
  | call
  | cleanup
  | healthCheck
  | pool (e : Ev)
  | responded (resp : Response Value)
  | sendFailed (e : GoError)
  | step

/-- `fixedSource.acquire` after the pool has gone on to `pc`. -/
def acquired : Pc → CallPc Value
  | .returned (.conn c) => .sending c
  | .returned (.error e) =>
    .idle (some (Attempt.acquireFailed (.wrapf "get connection: %w" [] e)).reply)
  | .returned .done => .idle none
  | pc => .acquiring pc

/-- `conn.Release()`, and the rest of `callOnce` when it has returned. -/
def released (resp : Response Value) : Pc → CallPc Value
  | .returned _ => .idle (some (Attempt.responded resp).reply)
  | pc => .releasing resp pc

def passed : Pc → CallPc Value
  | .returned _ => .idle none
  | pc => .background pc

/-- The goroutine is inside a pool operation and takes its next step there. -/
def onPool (o : PoolOptions) (g : Shared) (pc : Pc) (e : Ev) (k : Pc → CallPc Value) :
    Option (Shared × CallPc Value) :=
  if pc.idle then none
  else
    match poolStep o g.pool pc e with
    | none => none
    | some (p, pc') => some ({ g with pool := p }, k pc')

/-- The goroutine calls the pool operation `op`. -/
def enter (g : Shared) (op : Op) (k : Pc → CallPc Value) : Shared × CallPc Value :=
  ({ g with pool := (callStep g.pool op).1 }, k (callStep g.pool op).2)

def callOnceStep (o : PoolOptions) (g : Shared) :
    CallPc Value → CallEv Value → Option (Shared × CallPc Value)
  | .idle _, .call => some (enter g .get acquired)
  | .idle _, .cleanup => some (enter g .cleanup passed)
  | .idle _, .healthCheck => some (enter g .healthCheck passed)
  | .acquiring pc, .pool e => onPool o g pc e acquired
  | .sending c, .responded resp => some (enter g (.put (some c)) (released resp))
  | .sending c, .sendFailed e => some (g, .closing c e)
  -- `conn.Close()` closes the client and tells the pool nothing
  | .closing c e, .step =>
    some ({ pool := g.pool.closeConn c, abandoned := c :: g.abandoned },
      .idle (some (Attempt.sendFailed e).reply))
  | .releasing resp pc, .pool e => onPool o g pc e (released resp)
  | .background pc, .pool e => onPool o g pc e passed
  | _, _ => none

def client (o : PoolOptions) : Program Shared (CallPc Value) (CallEv Value) where
  step g pc e := (callOnceStep o g pc e).map fun (g, pc) => (g, pc, [])

def clientStart (p : ConnectionPool) (n : Nat) : Config Shared (CallPc Value) :=
  ⟨⟨p, []⟩, List.replicate n (.idle none)⟩

def CallPc.isIdle : CallPc Value → Bool
  | .idle _ => true
  | _ => false

/-- No call and no background pass is in progress. -/
def Quiet (s : Config Shared (CallPc Value)) : Prop := ∀ pc ∈ s.threads, pc.isIdle = true

instance (s : Config Shared (CallPc Value)) : Decidable (Quiet s) :=
  inferInstanceAs (Decidable (∀ _ ∈ _, _))

def CallEv.isFailure : CallEv Value → Bool
  | .sendFailed _ => true
  | _ => false

def failedSends (tr : List (Nat × CallEv Value)) : Nat := tr.countP fun a => a.2.isFailure

/-! ## The calls seen from the pool -/

/-- The connections a call holds outside the pool. -/
def kept : CallPc Value → List ConnId
  | .sending c | .closing c _ => [c]
  | _ => []

/-- The pool's program point of a goroutine of the client. -/
def At : CallPc Value → Pc → Prop
  | .idle _, q | .sending _, q | .closing _ _, q => q.idle = true
  | .acquiring pc, q | .releasing _ pc, q | .background pc, q => q = pc

def proper : CallPc Value → Bool
  | .releasing _ pc | .background pc => !getting pc
  | _ => true

structure Seen (s : Config Shared (CallPc Value)) (u : Config ConnectionPool Pc) : Prop where
  pool : u.shared = s.shared.pool
  threads : List.Forall₂ At s.threads u.threads
  held : ∀ c : Nat, (s.shared.pool.checkedOut.count c : Int) =
    total (fun pc => ((kept pc).count c : Int)) s.threads + s.shared.abandoned.count c
  proper : ∀ pc ∈ s.threads, proper pc = true

/-- What a step of one goroutine of the client is for the pool: one step of its
operation, or nothing. -/
structure Matched (o : PoolOptions) (g : Shared) (pc : CallPc Value) (g' : Shared)
    (pc' : CallPc Value) : Prop where
  view : ∀ q, At pc q →
    (∃ e q', poolStep o g.pool q e = some (g'.pool, q') ∧ At pc' q' ∧
      ∀ c, e = .call (.put (some c)) → c ∈ kept pc) ∨
    (g'.pool = g.pool ∧ At pc' q)
  held : ∀ c : Nat, (g'.pool.checkedOut.count c : Int) - (kept pc').count c
      - g'.abandoned.count c =
    g.pool.checkedOut.count c - (kept pc).count c - g.abandoned.count c
  proper : proper pc' = true

section Matching
variable {o : PoolOptions} {g g' : Shared} {pc pc' : CallPc Value} {e : CallEv Value}

/-- How the client goes on agrees with where the pool operation is. -/
structure Follows (k : Pc → CallPc Value) : Prop where
  at_ : ∀ q, At (k q) q
  proper : ∀ q, getting q = false → CallOnce.proper (k q) = true

theorem acquired_follows : Follows (acquired : Pc → CallPc Value) := by
  refine ⟨?_, ?_⟩
  · intro q
    cases q with
    | returned r => cases r <;> rfl
    | _ => rfl
  · intro q _
    cases q with
    | returned r => cases r <;> rfl
    | _ => rfl

theorem released_follows (resp : Response Value) : Follows (released resp) := by
  refine ⟨?_, ?_⟩
  · intro q
    cases q <;> rfl
  · intro q hq
    cases q <;> simp_all [released, proper]

theorem passed_follows : Follows (passed : Pc → CallPc Value) := by
  refine ⟨?_, ?_⟩
  · intro q
    cases q <;> rfl
  · intro q hq
    cases q <;> simp_all [passed, proper]

theorem kept_acquired (q : Pc) : kept (acquired q : CallPc Value) = given q := by
  cases q with
  | returned r => cases r <;> rfl
  | _ => rfl

theorem kept_released (resp : Response Value) (q : Pc) : kept (released resp q) = [] := by
  cases q <;> rfl

theorem kept_passed (q : Pc) : kept (passed q : CallPc Value) = [] := by cases q <;> rfl

theorem proper_acquired (q : Pc) : proper (acquired q : CallPc Value) = true := by
  cases q with
  | returned r => cases r <;> rfl
  | _ => rfl

/-- A call into the pool by a goroutine that is outside it. -/
theorem enter_view (op : Op) {k : Pc → CallPc Value} (hk : Follows k) {q : Pc}
    (hq : q.idle = true) :
    poolStep o g.pool q (.call op) = some ((enter g op k).1.pool, (callStep g.pool op).2) ∧
    At (enter g op k).2 (callStep g.pool op).2 := by
  cases q with
  | returned r => exact ⟨rfl, hk.at_ _⟩
  | _ => cases hq

theorem onPool_cases {q : Pc} {ev : Ev} {k : Pc → CallPc Value}
    (h : onPool o g q ev k = some (g', pc')) :
    q.idle = false ∧ ∃ p' q', poolStep o g.pool q ev = some (p', q') ∧
      g' = { g with pool := p' } ∧ pc' = k q' := by
  unfold onPool at h
  split at h
  · cases h
  · rename_i hq
    split at h
    · cases h
    · rename_i p' q' hs
      cases h
      exact ⟨by simpa using hq, p', q', hs, rfl, rfl⟩

/-- A step inside a pool operation that keeps what it is given. -/
theorem onPool_matched {q : Pc} {ev : Ev} {k : Pc → CallPc Value}
    (hat : ∀ r, At pc r → r = q) (hpc : kept pc = []) (hfollow : ∀ q, At (k q) q)
    (hkept : ∀ q', poolStep o g.pool q ev = some (g'.pool, q') → kept (k q') = given q')
    (hproper : ∀ q', poolStep o g.pool q ev = some (g'.pool, q') → proper (k q') = true)
    (h : onPool o g q ev k = some (g', pc')) : Matched o g pc g' pc' := by
  obtain ⟨hidle, p', q', hs, rfl, rfl⟩ := onPool_cases h
  have hout := (poolStep_handed hidle hs).out
  refine ⟨?_, ?_, hproper q' hs⟩
  · intro r hr
    obtain rfl := hat r hr
    exact Or.inl ⟨ev, q', hs, hfollow q',
      fun c hc => absurd hc (poolStep_not_call hidle hs _)⟩
  · intro c
    rw [hkept q' hs, hpc]
    simp only [hout, List.count_append, List.count_nil]
    omega

/-- A goroutine outside the pool starts an operation that takes nothing. -/
theorem enter_matched (op : Op) {k : Pc → CallPc Value} {last : Option (Reply Value)}
    (hk : Follows k) (hput : ∀ c, op ≠ .put (some c))
    (hout : (callStep g.pool op).1.checkedOut = g.pool.checkedOut)
    (hkept : kept (k (callStep g.pool op).2) = [])
    (hproper : proper (k (callStep g.pool op).2) = true) :
    Matched o g (.idle last) (enter g op k).1 (enter g op k).2 := by
  refine ⟨?_, ?_, hproper⟩
  · intro q hq
    obtain ⟨hs, hat⟩ := enter_view (o := o) (g := g) op hk hq
    exact Or.inl ⟨_, _, hs, hat, fun c hc => absurd (Ev.call.inj hc) (hput c)⟩
  · intro c
    simp only [enter, hout, hkept]
    rfl

theorem release_matched {c : ConnId} {resp : Response Value} (hc : c ∈ g.pool.checkedOut) :
    Matched o g (.sending c) (enter g (.put (some c)) (released resp)).1
      (enter g (.put (some c)) (released resp)).2 := by
  refine ⟨?_, ?_, rfl⟩
  · intro q hq
    obtain ⟨hs, hat⟩ := enter_view (o := o) (g := g) (.put (some c))
      (released_follows resp) hq
    refine Or.inl ⟨_, _, hs, hat, ?_⟩
    intro d hd
    cases hd
    exact List.mem_singleton_self c
  · intro d
    have hpos := List.count_pos_iff.mpr hc
    simp only [enter, callStep, released, kept, List.count_erase, List.count_cons, List.count_nil]
    by_cases hd : c = d
    · subst hd
      simp
      omega
    · simp [hd]

theorem close_matched {c : ConnId} {err : GoError} :
    Matched o g (.closing c err : CallPc Value)
      { pool := g.pool.closeConn c, abandoned := c :: g.abandoned }
      (.idle (some (Attempt.sendFailed err).reply)) := by
  refine ⟨?_, ?_, rfl⟩
  · intro q hq
    cases q with
    | returned r => exact Or.inl ⟨.call (.closeConn c), _, rfl, rfl, by simp⟩
    | _ => cases hq
  · intro d
    simp only [ConnectionPool.closeConn, kept, List.count_cons, List.count_nil]
    omega

theorem callOnceStep_matched (h : callOnceStep o g pc e = some (g', pc'))
    (hk : ∀ c ∈ kept pc, c ∈ g.pool.checkedOut) (hp : proper pc = true) :
    Matched o g pc g' pc' := by
  revert h
  fun_cases callOnceStep o g pc e <;> intro h <;> try contradiction
  · cases h
    exact enter_matched (k := acquired) .get acquired_follows (by simp) rfl rfl rfl
  · cases h
    exact enter_matched (k := passed) .cleanup passed_follows (by simp) rfl rfl rfl
  · cases h
    exact enter_matched (k := passed) .healthCheck passed_follows (by simp) rfl rfl rfl
  · exact onPool_matched (fun _ hr => hr) rfl acquired_follows.at_
      (fun q' _ => kept_acquired q') (fun q' _ => proper_acquired q') h
  · cases h
    exact release_matched (hk _ (List.mem_singleton_self _))
  · cases h
    exact ⟨fun q hq => Or.inr ⟨rfl, hq⟩, fun _ => rfl, rfl⟩
  · cases h
    exact close_matched
  · rename_i resp q ev
    have hg : getting q = false := by simpa [proper] using hp
    have hidle := (onPool_cases h).1
    refine onPool_matched (fun _ hr => hr) rfl (released_follows resp).at_ ?_ ?_ h
    · intro q' hs
      rw [kept_released, given_of_not_getting (poolStep_not_getting hidle hg hs)]
    · intro q' hs
      exact (released_follows resp).proper q' (poolStep_not_getting hidle hg hs)
  · rename_i q ev
    have hg : getting q = false := by simpa [proper] using hp
    have hidle := (onPool_cases h).1
    refine onPool_matched (fun _ hr => hr) rfl passed_follows.at_ ?_ ?_ h
    · intro q' hs
      rw [kept_passed, given_of_not_getting (poolStep_not_getting hidle hg hs)]
    · intro q' hs
      exact passed_follows.proper q' (poolStep_not_getting hidle hg hs)

end Matching

theorem fire_client {o : PoolOptions} {s t : Config Shared (CallPc Value)} {i : Nat}
    {e : CallEv Value} (h : (client o).fire s i e = some t) :
    ∃ pc g' pc', s.threads[i]? = some pc ∧ callOnceStep o s.shared pc e = some (g', pc') ∧
      t = ⟨g', s.threads.set i pc'⟩ :=
  fire_alone (fun _ _ _ => rfl) h

/-- A connection a call holds is checked out. -/
theorem Seen.mem_checkedOut {s : Config Shared (CallPc Value)} {u : Config ConnectionPool Pc}
    (hs : Seen s u) {pc : CallPc Value} (hpc : pc ∈ s.threads) {c : ConnId} (hc : c ∈ kept pc) :
    c ∈ s.shared.pool.checkedOut := by
  have hheld := hs.held c
  have hle := le_total_of_mem (w := fun pc : CallPc Value => ((kept pc).count c : Int))
    (fun _ => Int.natCast_nonneg _) hpc
  have hpos := List.count_pos_iff.mpr hc
  rw [← List.count_pos_iff]
  omega

/-- One step of a client is at most one step of the pool it is seen as. -/
theorem fire_seen {o : PoolOptions} {s t : Config Shared (CallPc Value)} {i : Nat}
    {e : CallEv Value} {u : Config ConnectionPool Pc} (hseen : Seen s u)
    (h : (client o).fire s i e = some t) :
    ∃ tr v, Run (program o) PutOnce u tr v ∧ Seen t v := by
  obtain ⟨pc, g', pc', hi, hs, rfl⟩ := fire_client h
  have hmem : pc ∈ s.threads := List.mem_of_getElem? hi
  have hm := callOnceStep_matched hs (fun c hc => hseen.mem_checkedOut hmem hc)
    (hseen.proper pc hmem)
  obtain ⟨q, hq, hat⟩ := forall₂_get hseen.threads hi
  have hheld : ∀ c : Nat, (g'.pool.checkedOut.count c : Int) =
      total (fun pc => ((kept pc).count c : Int)) (s.threads.set i pc') +
        g'.abandoned.count c := by
    intro c
    have := hseen.held c
    have := hm.held c
    rw [total_set _ _ hi]
    omega
  have hproper : ∀ pc ∈ s.threads.set i pc', proper pc = true :=
    forall_set hm.proper hseen.proper (fun _ hp => hp)
  obtain ⟨ev, q', hstep, hat', hput⟩ | ⟨hpool, hat'⟩ := hm.view q hat
  · refine ⟨[(i, ev)], ⟨g'.pool, u.threads.set i q'⟩, ?_, ?_⟩
    · refine .step .refl ?_ ?_
      · unfold PutOnce putOnce
        split
        · rename_i c
          simpa [hseen.pool] using hseen.mem_checkedOut hmem (hput c rfl)
        · rfl
      · simp [Program.fire, hq, program, hseen.pool, hstep]
    · exact ⟨rfl, forall₂_set hseen.threads hat' i, hheld, hproper⟩
  · refine ⟨[], u, .refl, ?_, ?_, hheld, hproper⟩
    · rw [hpool]
      exact hseen.pool
    · -- the pool's goroutine has not moved
      rw [← set_same hq]
      exact forall₂_set hseen.threads hat' i

theorem start_seen {o : PoolOptions} {p : ConnectionPool} (hf : Fresh o p) (n : Nat) :
    Seen (clientStart p n : Config Shared (CallPc Value)) (start p n) := by
  have hidle : ∀ pc ∈ (clientStart p n : Config Shared (CallPc Value)).threads, pc = .idle none :=
    fun pc hpc => List.eq_of_mem_replicate hpc
  refine ⟨rfl, ?_, ?_, ?_⟩
  · have hthreads := forall₂_replicate (R := At) fun pc hpc =>
      show At pc (.returned .done) by rw [hidle pc hpc]; rfl
    rwa [clientStart, List.length_replicate] at hthreads
  · intro c
    have h0 : total (fun pc => ((kept pc).count c : Int))
        (clientStart p n : Config Shared (CallPc Value)).threads = 0 :=
      total_eq_zero fun pc hpc => by rw [hidle pc hpc]; rfl
    rw [h0]
    simp [clientStart, hf.out]
  · intro pc hpc
    rw [hidle pc hpc]
    rfl

/-- Every run of the client is, for the pool, a run of well-behaved callers. -/
theorem callOnce_simulates {o : PoolOptions} {p : ConnectionPool} {n : Nat}
    {tr : List (Nat × CallEv Value)} {s : Config Shared (CallPc Value)} (hf : Fresh o p)
    (hr : Run (client o) Any (clientStart p n) tr s) :
    ∃ tr' u, Run (program o) PutOnce (start p n) tr' u ∧ Seen s u :=
  hr.simulate (start_seen hf n) (fun _ _ _ _ _ hseen _ h => fire_seen hseen h)

/-! ## Failed sends -/

/-- The send has failed and the connection is not closed yet. -/
def failing : CallPc Value → Int
  | .closing _ _ => 1
  | _ => 0

section Failing
variable {o : PoolOptions} {g g' : Shared} {pc pc' : CallPc Value} {e : CallEv Value}

theorem onPool_failing {q : Pc} {ev : Ev} {k : Pc → CallPc Value} (hk : ∀ q, failing (k q) = 0)
    (h : onPool o g q ev k = some (g', pc')) :
    g'.abandoned = g.abandoned ∧ failing pc' = 0 := by
  obtain ⟨-, p', q', -, rfl, rfl⟩ := onPool_cases h
  exact ⟨rfl, hk q'⟩

theorem failing_acquired (q : Pc) : failing (acquired q : CallPc Value) = 0 := by
  cases q with
  | returned r => cases r <;> rfl
  | _ => rfl

theorem failing_released (resp : Response Value) (q : Pc) : failing (released resp q) = 0 := by
  cases q <;> rfl

theorem failing_passed (q : Pc) : failing (passed q : CallPc Value) = 0 := by cases q <;> rfl

theorem callOnceStep_failing (h : callOnceStep o g pc e = some (g', pc')) :
    (g'.abandoned.length : Int) + failing pc' =
      g.abandoned.length + failing pc + if e.isFailure then 1 else 0 := by
  revert h
  fun_cases callOnceStep o g pc e <;> intro h <;> try contradiction
  case case4 =>
    obtain ⟨ha, hf⟩ := onPool_failing failing_acquired h
    rw [ha, hf]
    simp [failing, CallEv.isFailure]
  case case8 =>
    obtain ⟨ha, hf⟩ := onPool_failing (failing_released _) h
    rw [ha, hf]
    simp [failing, CallEv.isFailure]
  case case9 =>
    obtain ⟨ha, hf⟩ := onPool_failing failing_passed h
    rw [ha, hf]
    simp [failing, CallEv.isFailure]
  all_goals
    cases h
    simp [callStep, acquired, released, passed, failing, CallEv.isFailure]

end Failing

/-- Along a run, the connections closed by their callers are the failed sends,
but for those still to be closed. -/
theorem run_failedSends {o : PoolOptions} {p : ConnectionPool} {n : Nat}
    {tr : List (Nat × CallEv Value)} {s : Config Shared (CallPc Value)}
    (hr : Run (client o) Any (clientStart p n) tr s) :
    (s.shared.abandoned.length : Int) + total failing s.threads = failedSends tr := by
  induction hr with
  | refl =>
    have h0 : total failing (clientStart p n : Config Shared (CallPc Value)).threads = 0 := by
      apply total_eq_zero
      intro pc hpc
      rw [List.eq_of_mem_replicate hpc]
      rfl
    rw [h0]
    rfl
  | step _ _ hf ih =>
    rename_i e _ _ _
    obtain ⟨pc, g', pc', hi, hs, rfl⟩ := fire_client hf
    have hstep := callOnceStep_failing hs
    simp only [failedSends, List.countP_append, List.countP_cons, List.countP_nil] at ih ⊢
    rw [total_set _ _ hi]
    split_ifs at hstep ⊢ <;> omega

/-! ## Between calls -/

/-- Seen from a quiet client the pool is quiescent. -/
theorem Seen.quiescent {s : Config Shared (CallPc Value)} {u : Config ConnectionPool Pc}
    (hs : Seen s u) (hq : Quiet s) : Quiescent u := by
  have hall : ∀ {ts : List (CallPc Value)} {us : List Pc}, List.Forall₂ At ts us →
      (∀ pc ∈ ts, pc.isIdle = true) → ∀ q ∈ us, q.idle = true := by
    intro ts us h
    induction h with
    | nil => simp
    | cons hat _ ih =>
      rename_i pc q _ _ _
      intro hidle r hr
      rcases List.mem_cons.mp hr with rfl | hr
      · have := hidle pc (by simp)
        cases pc <;> first | exact hat | cases this
      · exact ih (fun p hp => hidle p (by simp [hp])) r hr
  exact hall hs.threads hq

/-- Between calls, `currentSize` exceeds the idle connections by the failed sends. -/
theorem quiet_size {o : PoolOptions} {factory : Nat → Option Int} {p : ConnectionPool} {n : Nat}
    {tr : List (Nat × CallEv Value)} {s : Config Shared (CallPc Value)}
    (h0 : newConnectionPool o factory = some p)
    (hr : Run (client o) Any (clientStart p n) tr s)
    (hopen : s.shared.pool.closed = false) (hq : Quiet s) :
    s.shared.pool.currentSize = s.shared.pool.pool.buf.length + failedSends tr ∧
    s.shared.pool.pool.cap = o.maxSize.toNat := by
  have hf := newConnectionPool_fresh h0
  obtain ⟨tr', u, hrun, hseen⟩ := callOnce_simulates hf hr
  have hquiet (w : CallPc Value → Int) (hw : ∀ r, w (.idle r) = 0) : total w s.threads = 0 := by
    apply total_eq_zero
    intro pc hpc
    have := hq pc hpc
    cases pc <;> first | exact hw _ | cases this
  have hsize := (run_balanced h0 hrun).quiescent_size (by rw [hseen.pool]; exact hopen)
    (hseen.quiescent hq)
  -- what is checked out between calls is what was closed after a failed send
  have hperm : s.shared.pool.checkedOut.Perm s.shared.abandoned := by
    rw [List.perm_iff_count]
    intro c
    have hheld := hseen.held c
    rw [hquiet _ (fun _ => rfl)] at hheld
    omega
  have hfailed := run_failedSends hr
  rw [hquiet _ (fun _ => rfl)] at hfailed
  have hlen := hperm.length_eq
  constructor
  · rw [hseen.pool] at hsize
    omega
  · rw [← hseen.pool, run_cap hrun]
    exact hf.cap

/-- Whenever no call is in progress on an open pool, `currentSize` is the number
of idle connections exactly when no `SendRequest` has failed so far; and then a
`Get` made on the pool never has to wait. -/
theorem callOnce_capacity {o : PoolOptions} {factory : Nat → Option Int} {p : ConnectionPool}
    {n : Nat} {tr : List (Nat × CallEv Value)} {s : Config Shared (CallPc Value)}
    (hv : validate o = none) (h0 : newConnectionPool o factory = some p)
    (hr : Run (client o) Any (clientStart p n) tr s)
    (hopen : s.shared.pool.closed = false) (hq : Quiet s) :
    (s.shared.pool.currentSize = s.shared.pool.pool.buf.length ↔ failedSends tr = 0) ∧
    (failedSends tr = 0 → ∀ tr' u,
      Run (program o) NoCall ⟨s.shared.pool, [.getCount]⟩ tr' u → .createWait ∉ u.threads) := by
  obtain ⟨hsize, hcap⟩ := quiet_size h0 hr hopen hq
  constructor
  · constructor
    · intro h
      omega
    · intro h
      omega
  · intro hnone tr' u hget
    exact run_unhindered hcap (validate_sizes hv).1 (by omega) hget

/-- One call: its `Get` creates the connection, the server answers, `Put`
returns the connection. -/
def okCall : List (Nat × CallEv Unit) :=
  [(0, .call), (0, .pool .step), (0, .pool .step), (0, .pool .otherwise), (0, .pool .step),
   (0, .pool (.created 1)), (0, .pool .step), (0, .pool .step),
   (0, .responded ⟨1, some (), none, none, 0, 0⟩),
   (0, .pool .step), (0, .pool .step), (0, .pool (.connected true)), (0, .pool (.now 2)),
   (0, .pool .step)]

/-- One call whose send fails on the connection its `Get` created. -/
def failedCall : List (Nat × CallEv Unit) :=
  [(0, .call), (0, .pool .step), (0, .pool .step), (0, .pool .otherwise), (0, .pool .step),
   (0, .pool (.created 1)), (0, .pool .step), (0, .pool .step),
   (0, .sendFailed (.sentinel .deadlineExceeded)), (0, .step)]

def oneClient : Config Shared (CallPc Unit) := clientStart (emptyPool onePool) 1

theorem okCall_runs : (exec (client onePool) Any oneClient okCall).isSome := by decide

theorem callOnce_capacity_okCall :
    let s := (exec (client onePool) Any oneClient okCall).get okCall_runs
    s.shared.pool.closed = false ∧ Quiet s ∧ failedSends okCall = 0 ∧
    (s.shared.pool.currentSize = s.shared.pool.pool.buf.length ↔ failedSends okCall = 0) ∧
    (failedSends okCall = 0 → ∀ tr' u,
      Run (program onePool) NoCall ⟨s.shared.pool, [.getCount]⟩ tr' u →
        .createWait ∉ u.threads) :=
  ⟨by decide, by decide, by decide,
    callOnce_capacity (o := onePool) (p := emptyPool onePool) (n := 1) (by decide)
      (show newConnectionPool onePool (fun _ => none) = _ by rfl) (run_exec okCall_runs)
      (by decide) (by decide)⟩

theorem failedCall_runs : (exec (client onePool) Any oneClient failedCall).isSome := by decide

/-- After one failed send the pool of one counts a connection nobody has. -/
theorem failed_send_keeps_capacity :
    ¬ ∀ (o : PoolOptions) (factory : Nat → Option Int) (p : ConnectionPool) (n : Nat)
      (tr : List (Nat × CallEv Unit)) (s : Config Shared (CallPc Unit)), validate o = none →
      newConnectionPool o factory = some p → Run (client o) Any (clientStart p n) tr s →
      s.shared.pool.closed = false → Quiet s →
      s.shared.pool.currentSize = s.shared.pool.pool.buf.length := by
  intro h
  have hbad := h onePool (fun _ => none) (emptyPool onePool) 1 failedCall _ (by decide) rfl
    (run_exec failedCall_runs) (by decide) (by decide)
  exact absurd hbad (by decide)

end RpcInGo.Client.CallOnce
