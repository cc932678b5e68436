import RpcInGo.Tcp.Multiplex

/-!
What becomes of a `SendRequest` of `tcp.Client`. It reads `pending`, `conn` and
`closeCh` without the lock under which `Dial` and `Close` write them.

* `fire_underway`: while `SendRequest` is called between `Dial` and `Close`, `Close` meets
  no `SendRequest` that has still to write, and `Dial` succeeds once, `closeWithError` goes
  through its phases once;
* `sendRequest_returns`: in such runs `SendRequest` meets neither a nil map nor a nil
  connection, and once the connection is gone it returns within a bounded number of its
  own steps, none of which has to wait;
* `undialled_panics`, `lifecycle_needed`: what happens otherwise.
-/

namespace RpcInGo.Tcp.SendReturns
open Lib.Goroutine Protocol.Message ClientModel Multiplex

variable {Value : Type}

/-! ## The conditions -/

/-- `SendRequest` before its write. -/
def unwritten : Pc Value → Bool
  | .insert _ | .write _ => true
  | _ => false

inductive Condition where
  /-- `SendRequest` is called after `Dial` and before `Close`. -/
  | sentWhileDialled
  /-- `Close` is called when no `SendRequest` has still to write. -/
  | closedWhenWritten
  /-- `Dial` is not called again when the connection is gone. -/
  | dialledOnce
  deriving DecidableEq

def asks (c : Condition) (s : Config Client (Pc Value)) (_ : Nat) (e : Ev) : Bool :=
  match c, e with
  | .sentWhileDialled, .sendRequest => s.shared.conn.isSome
  | .closedWhenWritten, .callClose => !s.shared.connected || !s.threads.any unwritten
  | .dialledOnce, .dial _ => s.shared.connected || s.shared.conns.isEmpty
  | _, _ => true

/-- All three conditions. -/
abbrev Lawful : Config Client (Pc Value) → Nat → Ev → Prop :=
  Meets asks [.sentWhileDialled, .closedWhenWritten, .dialledOnce]

/-! ## The phases of `closeWithError` -/

def signalling : Pc Value → Int
  | .onceCloseCh _ => 1
  | _ => 0

def marking : Pc Value → Int
  | .onceConnected _ => 1
  | _ => 0

def failing : Pc Value → Int
  | .onceFail _ => 1
  | _ => 0

/-- The goroutine of `readLoop`. -/
def looping : Pc Value → Int
  | .reading _ | .lookup _ _ | .deliver _ _ _ | .readLoopLeft => 1
  | .once .readLoop | .onceCloseCh .readLoop | .onceConnected .readLoop | .onceFail .readLoop => 1
  | _ => 0

theorem signalling_nonneg (pc : Pc Value) : 0 ≤ signalling pc := by
  unfold signalling
  split <;> decide

theorem marking_nonneg (pc : Pc Value) : 0 ≤ marking pc := by
  unfold marking
  split <;> decide

theorem failing_nonneg (pc : Pc Value) : 0 ≤ failing pc := by
  unfold failing
  split <;> decide

/-- How many goroutines are at the three points of `closeWithError`, and what that says
of `closeOnce`, of `closeCh` and of `connected`. -/
inductive Phase : Int → Int → Int → Once → List Bool → Bool → Prop
  | fresh {b : Bool} : Phase 0 0 0 .fresh [false] b
  | signal {b : Bool} : Phase 1 0 0 .running [false] b
  | mark {b : Bool} : Phase 0 1 0 .running [true] b
  | fail : Phase 0 0 1 .running [true] false
  | done : Phase 0 0 0 .done [true] false

section Phases
variable {x y z : Int} {o : Once} {chs : List Bool} {b : Bool}

theorem Phase.hungUp (h : Phase x y z o chs true) : Phase x y z o chs b := by
  cases h with
  | fresh => exact .fresh
  | signal => exact .signal
  | mark => exact .mark

theorem Phase.entered (h : Phase x y z .fresh chs b) : Phase (x + 1) y z .running chs b := by
  cases h
  exact .signal

theorem Phase.signalled (h : Phase x y z o chs b) (hx : 1 ≤ x) :
    chs = [false] ∧ Phase (x - 1) (y + 1) z o [true] b := by
  cases h with
  | signal => exact ⟨rfl, .mark⟩
  | _ => omega

theorem Phase.marked (h : Phase x y z o chs b) (hy : 1 ≤ y) :
    Phase x (y - 1) (z + 1) o chs false := by
  cases h with
  | mark => exact .fail
  | _ => omega

theorem Phase.failed (h : Phase x y z o chs b) (hz : 1 ≤ z) :
    Phase x y (z - 1) .done chs b := by
  cases h with
  | fail => exact .done
  | _ => omega

end Phases

/-- Where the goroutines of a client dialled once can be. -/
def Fits (g : Client) : Pc Value → Prop
  | .insert _ | .write _ => g.conn.isSome = true
  | .wait _ ch => ch = some 0
  | .readLoopLeft => g.closeOnce = .done
  | .panicked _ => False
  | _ => True

/-- One step of a client dialled once. -/
structure Effect (g : Client) (pc : Pc Value) (e : Ev) (g' : Client) (pc' : Pc Value)
    (new : List (Pc Value)) : Prop where
  alone : new = []
  conns : g'.conns.length = g.conns.length
  closeCh : g'.closeCh = g.closeCh
  pending : g'.pending.isSome = g.pending.isSome
  conn : g'.conn = g.conn ∨ (e = .callClose ∧ g.connected = true)
  done : g.closeOnce = .done → g'.closeOnce = .done
  loop : looping pc' = looping pc
  fits : Fits g' pc'
  phase : ∀ {x y z : Int}, Phase x y z g.closeOnce g.closeChs g.connected →
    signalling pc ≤ x → marking pc ≤ y → failing pc ≤ z →
    Phase (x - signalling pc + signalling pc') (y - marking pc + marking pc')
      (z - failing pc + failing pc') g'.closeOnce g'.closeChs g'.connected

/-- The client where `closeWithError` stands and what `Dial` has set. -/
structure Dialled (g : Client) : Prop where
  conns : g.conns.length = 1
  closeCh : g.closeCh = some 0
  pending : g.pending.isSome = true

section Steps
variable {decode : CodecType → List UInt8 → Except GoError (Response Value)} {g g' : Client}
  {pc pc' : Pc Value} {e : Ev} {new : List (Pc Value)}

/-- A step that leaves `closeWithError` alone. -/
theorem Effect.still (hnew : new = []) (hconns : g'.conns.length = g.conns.length)
    (hch : g'.closeCh = g.closeCh) (hpend : g'.pending.isSome = g.pending.isSome)
    (hconn : g'.conn = g.conn) (honce : g'.closeOnce = g.closeOnce)
    (hchs : g'.closeChs = g.closeChs) (hflag : g'.connected = g.connected)
    (hloop : looping pc' = looping pc) (h1 : signalling pc' = signalling pc)
    (h2 : marking pc' = marking pc) (h3 : failing pc' = failing pc) (hfits : Fits g' pc') :
    Effect g pc e g' pc' new := by
  refine ⟨hnew, hconns, hch, hpend, Or.inl hconn, fun h => honce.trans h, hloop, hfits, ?_⟩
  intro x y z hp _ _ _
  rw [h1, h2, h3, honce, hchs, hflag, Int.sub_add_cancel, Int.sub_add_cancel, Int.sub_add_cancel]
  exact hp

theorem dialStep_effect (h : dialStep g pc e = some (g', pc', new))
    (hdial : ∀ remote, e = .dial remote → g.connected = true) : Effect g pc e g' pc' new := by
  revert h
  fun_cases dialStep g pc e <;> intro h <;> try contradiction
  all_goals cases h
  all_goals first
    | exact .still rfl rfl rfl rfl rfl rfl rfl rfl rfl rfl rfl rfl trivial
    | skip
  rename_i remote hoff
  exact absurd (hdial remote rfl) hoff

theorem deleteID_isSome (g : Client) (id : UInt64) :
    (g.deleteID id).pending.isSome = g.pending.isSome := by
  simp [Client.deleteID]

theorem sendStep_effect (h : sendStep decode g pc e = some (g', pc', new)) (hd : Dialled g)
    (hpc : Fits g pc) (hsend : e = .sendRequest → g.conn.isSome = true) :
    Effect g pc e g' pc' new := by
  revert h
  fun_cases sendStep decode g pc e <;> intro h <;> try contradiction
  all_goals cases h
  all_goals first
    | exact .still rfl rfl rfl rfl rfl rfl rfl rfl rfl rfl rfl rfl trivial
    | exact .still rfl rfl rfl (deleteID_isSome _ _) rfl rfl rfl rfl rfl rfl rfl rfl trivial
    | exact .still rfl rfl rfl rfl rfl rfl rfl rfl rfl rfl rfl rfl (hsend rfl)
    | exact .still rfl rfl rfl rfl rfl rfl rfl rfl rfl rfl rfl rfl hd.closeCh
    | skip
  · rename_i hnone
    have := hd.pending
    rw [hnone] at this
    cases this
  · rename_i m hm
    exact .still rfl rfl rfl (by rw [hm]; rfl) rfl rfl rfl rfl rfl rfl rfl rfl hpc
  · rename_i hnone
    have hsome : g.conn.isSome = true := hpc
    rw [hnone] at hsome
    cases hsome

theorem closeStep_effect (h : closeStep g pc e = some (g', pc', new)) :
    Effect g pc e g' pc' new := by
  revert h
  fun_cases closeStep g pc e <;> intro h <;> try contradiction
  all_goals cases h
  all_goals first
    | exact .still rfl rfl rfl rfl rfl rfl rfl rfl rfl rfl rfl rfl trivial
    | exact .still rfl (List.length_set ..) rfl rfl rfl rfl rfl rfl rfl rfl rfl rfl trivial
    | skip
  rename_i hon
  refine ⟨rfl, rfl, rfl, rfl, Or.inr ⟨rfl, hon⟩, id, rfl, trivial, ?_⟩
  intro x y z hp _ _ _
  simp only [signalling, marking, failing, sub_zero, add_zero]
  rw [hon] at hp
  exact hp.hungUp

theorem readStep_effect (h : readStep g pc e = some (g', pc', new)) :
    Effect g pc e g' pc' new := by
  revert h
  fun_cases readStep g pc e <;> intro h <;> try contradiction
  all_goals cases h
  all_goals first
    | exact .still rfl rfl rfl rfl rfl rfl rfl rfl rfl rfl rfl rfl trivial
    | exact .still rfl rfl rfl (deleteID_isSome _ _) rfl rfl rfl rfl rfl rfl rfl rfl trivial

theorem looping_after (k : Closing) (pc : Pc Value)
    (hpc : pc = .once k ∨ pc = .onceFail k) : looping (k.after : Pc Value) = looping pc := by
  rcases hpc with rfl | rfl
  all_goals
    cases k with
    | readLoop => rfl
    | close err => cases err <;> rfl

theorem phase_after (Value : Type) (k : Closing) : signalling (k.after : Pc Value) = 0 ∧
    marking (k.after : Pc Value) = 0 ∧ failing (k.after : Pc Value) = 0 := by
  cases k with
  | readLoop => exact ⟨rfl, rfl, rfl⟩
  | close err => cases err <;> exact ⟨rfl, rfl, rfl⟩

theorem fits_after (k : Closing) (h : g.closeOnce = .done) : Fits g (k.after : Pc Value) := by
  cases k with
  | readLoop => exact h
  | close err => cases err <;> trivial

theorem onceStep_effect (h : onceStep g pc e = some (g', pc', new)) (hd : Dialled g)
    {x y z : Int} (hphase : Phase x y z g.closeOnce g.closeChs g.connected)
    (hx : signalling pc ≤ x) : Effect g pc e g' pc' new := by
  revert h
  fun_cases onceStep g pc e <;> intro h <;> try contradiction
  all_goals cases h
  case case1 k hfresh =>
    refine ⟨rfl, rfl, rfl, rfl, Or.inl rfl, fun hdone => ?_, by cases k <;> rfl, trivial, ?_⟩
    · rw [hfresh] at hdone
      cases hdone
    · intro x y z hp _ _ _
      rw [hfresh] at hp
      simpa [signalling, marking, failing] using hp.entered
  case case3 k hdone =>
    obtain ⟨h1, h2, h3⟩ := phase_after Value k
    exact .still rfl rfl rfl rfl rfl rfl rfl rfl (looping_after k _ (Or.inl rfl)) h1 h2 h3
      (fits_after k hdone)
  case case4 k hnone =>
    rw [hd.closeCh] at hnone
    cases hnone
  case case5 k ch hch hclosed =>
    obtain ⟨hopen, -⟩ := hphase.signalled hx
    rw [hd.closeCh] at hch
    cases hch
    rw [hopen] at hclosed
    cases hclosed
  case case6 k ch hch hopen =>
    refine ⟨rfl, rfl, rfl, rfl, Or.inl rfl, id, by cases k <;> rfl, trivial, ?_⟩
    intro x y z hp hx _ _
    obtain ⟨hchs, hnext⟩ := hp.signalled hx
    rw [hd.closeCh] at hch
    cases hch
    simpa [signalling, marking, failing, hchs] using hnext
  case case7 k =>
    refine ⟨rfl, rfl, rfl, rfl, Or.inl rfl, id, by cases k <;> rfl, trivial, ?_⟩
    intro x y z hp _ hy _
    simpa [signalling, marking, failing] using hp.marked hy
  case case8 k =>
    obtain ⟨h1, h2, h3⟩ := phase_after Value k
    refine ⟨rfl, rfl, rfl, by simp, Or.inl rfl, fun _ => rfl, looping_after k _ (Or.inr rfl),
      fits_after k rfl, ?_⟩
    intro x y z hp _ _ hz
    rw [h1, h2, h3]
    simpa [signalling, marking, failing] using hp.failed hz

end Steps

/-! ## Runs -/

/-- Before the first `Dial`. -/
structure Undialled (s : Config Client (Pc Value)) : Prop where
  conns : s.shared.conns = []
  conn : s.shared.conn = none
  connected : s.shared.connected = false
  closeOnce : s.shared.closeOnce = .fresh
  closeChs : s.shared.closeChs = []
  idle : ∀ pc ∈ s.threads, ∃ r, pc = .returned r

/-- After it. -/
structure Underway (s : Config Client (Pc Value)) : Prop where
  dialled : Dialled s.shared
  fits : ∀ pc ∈ s.threads, Fits s.shared pc
  loop : total looping s.threads = 1
  phase : Phase (total signalling s.threads) (total marking s.threads) (total failing s.threads)
    s.shared.closeOnce s.shared.closeChs s.shared.connected

section Runs
variable {decode : CodecType → List UInt8 → Except GoError (Response Value)} {n : Nat}
  {s t : Config Client (Pc Value)} {tr : List (Nat × Ev)} {i : Nat} {e : Ev}

/-- The first step that does something is a `Dial`. -/
theorem undialled_step {g' : Client} {r : Outcome Value} {pc' : Pc Value} {new : List (Pc Value)}
    (hu : Undialled s) (hok : Lawful s i e)
    (h : clientStep decode s.shared (.returned r) e = some (g', pc', new)) :
    (g' = s.shared ∧ (∃ r', pc' = .returned r') ∧ new = []) ∨
      (pc' = .returned .nothing ∧ new = [.reading 0] ∧
        g' = { s.shared with conn := some 0, connected := true, pending := some [],
                             closeCh := some 0, conns := [false], closeChs := [false] }) := by
  cases e <;> simp [clientStep, dialStep, sendStep, closeStep, readStep, onceStep, hu.connected,
    hu.conns, hu.closeChs] at h
  case sendRequest =>
    have hsend := hok .sentWhileDialled (by decide)
    simp [asks, hu.conn] at hsend
  case dial remote =>
    obtain ⟨rfl, rfl, rfl⟩ := h
    exact Or.inr ⟨rfl, rfl, rfl⟩
  all_goals
    obtain ⟨rfl, rfl, rfl⟩ := h
    exact Or.inl ⟨rfl, ⟨_, rfl⟩, rfl⟩

theorem total_returned {w : Pc Value → Int} (hw : ∀ r, w (.returned r) = 0)
    (h : ∀ pc ∈ s.threads, ∃ r, pc = .returned r) : total w s.threads = 0 := by
  apply total_eq_zero
  intro pc hpc
  obtain ⟨r, rfl⟩ := h pc hpc
  exact hw r

theorem fire_undialled (hu : Undialled s) (hok : Lawful s i e)
    (h : (client decode).fire s i e = some t) : Undialled t ∨ Underway t := by
  obtain ⟨pc, g', pc', new, hi, hs, rfl⟩ := fire_cases h
  obtain ⟨r, rfl⟩ := hu.idle pc (List.mem_of_getElem? hi)
  obtain ⟨rfl, ⟨r', rfl⟩, rfl⟩ | ⟨rfl, rfl, rfl⟩ := undialled_step hu hok hs
  · left
    refine ⟨hu.conns, hu.conn, hu.connected, hu.closeOnce, hu.closeChs, ?_⟩
    rw [List.append_nil]
    exact forall_set ⟨r', rfl⟩ hu.idle fun _ h => h
  · right
    have hset : ∀ pc ∈ s.threads.set i (.returned .nothing), ∃ r, pc = .returned r :=
      forall_set ⟨_, rfl⟩ hu.idle fun _ h => h
    have hzero : ∀ w : Pc Value → Int, (∀ r, w (.returned r) = 0) →
        total w (s.threads.set i (.returned .nothing) ++ [.reading 0]) = w (.reading 0) := by
      intro w hw
      rw [total_append, total_returned (s := ⟨s.shared, _⟩) hw hset]
      simp
    refine ⟨⟨rfl, rfl, rfl⟩, ?_, hzero _ fun _ => rfl, ?_⟩
    · intro pc hpc
      rcases List.mem_append.mp hpc with hpc | hpc
      · obtain ⟨r, rfl⟩ := hset pc hpc
        trivial
      · rw [List.mem_singleton] at hpc
        subst hpc
        trivial
    · rw [hzero _ fun _ => rfl, hzero _ fun _ => rfl, hzero _ fun _ => rfl]
      simp only [hu.closeOnce]
      exact .fresh

/-- What a step of a client dialled once does. -/
theorem fire_effect (hu : Underway s) (hok : Lawful s i e)
    (h : (client decode).fire s i e = some t) :
    ∃ pc pc', s.threads[i]? = some pc ∧ t.threads = s.threads.set i pc' ∧
      Effect s.shared pc e t.shared pc' [] := by
  obtain ⟨pc, g', pc', new, hi, rfl, hs⟩ := fire_client h
  have hmem := List.mem_of_getElem? hi
  have heff : Effect s.shared pc e g' pc' new := by
    rcases hs with hs | hs | hs | hs | hs
    · refine dialStep_effect hs ?_
      rintro remote rfl
      have hasks := hok .dialledOnce (by decide)
      have hlen := hu.dialled.conns
      simp only [asks, Bool.or_eq_true, List.isEmpty_iff] at hasks
      refine hasks.resolve_right fun hnil => ?_
      rw [hnil] at hlen
      cases hlen
    · refine sendStep_effect hs hu.dialled (hu.fits pc hmem) ?_
      rintro rfl
      exact hok .sentWhileDialled (by decide)
    · exact closeStep_effect hs
    · exact readStep_effect hs
    · exact onceStep_effect hs hu.dialled hu.phase (le_total_of_mem signalling_nonneg hmem)
  have hnew := heff.alone
  subst hnew
  exact ⟨pc, pc', hi, by simp, heff⟩

theorem Fits.keep {g g' : Client} {q : Pc Value} (hq : Fits g q)
    (hconn : g'.conn = g.conn ∨ unwritten q = false)
    (hdone : g.closeOnce = .done → g'.closeOnce = .done) : Fits g' q := by
  cases q with
  | insert x | write x =>
    obtain hconn | hq' := hconn
    · exact (congrArg Option.isSome hconn).trans hq
    · cases hq'
  | readLoopLeft => exact hdone hq
  | _ => exact hq

theorem fire_underway (hu : Underway s) (hok : Lawful s i e)
    (h : (client decode).fire s i e = some t) : Underway t := by
  obtain ⟨pc, pc', hi, hts, heff⟩ := fire_effect hu hok h
  have hmem := List.mem_of_getElem? hi
  refine ⟨⟨heff.conns.trans hu.dialled.conns, heff.closeCh.trans hu.dialled.closeCh,
    heff.pending.trans hu.dialled.pending⟩, ?_, ?_, ?_⟩
  · rw [hts]
    intro q hq
    rcases List.mem_or_eq_of_mem_set hq with hq | rfl
    · refine (hu.fits q hq).keep (heff.conn.imp_right ?_) heff.done
      rintro ⟨rfl, hon⟩
      have hasks := hok .closedWhenWritten (by decide)
      have hnone : s.threads.any unwritten = false := by simpa [asks, hon] using hasks
      simpa using List.any_eq_false.mp hnone q hq
    · exact heff.fits
  · rw [hts, total_set _ _ hi, heff.loop, hu.loop]
    omega
  · rw [hts, total_set _ _ hi, total_set _ _ hi, total_set _ _ hi]
    exact heff.phase hu.phase (le_total_of_mem signalling_nonneg hmem)
      (le_total_of_mem marking_nonneg hmem) (le_total_of_mem failing_nonneg hmem)

theorem start_undialled (n : Nat) : Undialled (start n : Config Client (Pc Value)) :=
  ⟨rfl, rfl, rfl, rfl, rfl, fun _ hpc => ⟨.nothing, List.eq_of_mem_replicate hpc⟩⟩

theorem run_tidy (hr : Run (client decode) Lawful (start n) tr s) : Undialled s ∨ Underway s := by
  refine hr.invariant (I := fun s => Undialled s ∨ Underway s) (Or.inl (start_undialled n)) ?_
  rintro s i e t (hu | hu) hok h
  · exact fire_undialled hu hok h
  · exact Or.inr (fire_underway hu hok h)

end Runs

/-! ## `SendRequest` -/

/-- `SendRequest` before it has returned, and the number of steps it has left. -/
def left : Pc Value → Nat
  | .insert _ => 5
  | .write _ => 4
  | .select _ => 3
  | .wait _ _ => 2
  | .dropWrite _ _ => 1
  | .dropWait _ _ => 1
  | _ => 0

/-- A `readLoop` or a `Close` is at work. -/
def busy : Pc Value → Bool
  | .reading _ | .lookup _ _ | .deliver _ _ _ | .close _ => true
  | .once _ | .onceCloseCh _ | .onceConnected _ | .onceFail _ => true
  | _ => false

/-- Every connection that was dialled is gone and its `readLoop` has returned. -/
def Gone (s : Config Client (Pc Value)) : Prop := ∀ pc ∈ s.threads, busy pc = false

/-- The answer that `SendRequest` waits for has arrived. -/
def completed (g : Client) : Pc Value → Bool
  | .wait x _ => g.calls[x]?.any fun c => 0 < c.closes
  | _ => true

/-- `SendRequest` has returned a response or an error. -/
def replied : Pc Value → Bool
  | .returned (.failed _) | .returned (.answered _ _) => true
  | _ => false

instance (s : Config Client (Pc Value)) : Decidable (Gone s) :=
  inferInstanceAs (Decidable (∀ pc ∈ s.threads, busy pc = false))

/-- Every `SendRequest` returns a response or an error: it meets no nil map and no nil
connection, each of its steps brings it closer to its return, and it has to wait for
nothing, its context included, when its answer is there or the connection is gone. -/
structure Answers (decode : CodecType → List UInt8 → Except GoError (Response Value))
    (s : Config Client (Pc Value)) : Prop where
  safe : ∀ pc ∈ s.threads, pc ≠ .panicked .nilMap ∧ pc ≠ .panicked .nilConn
  closer : ∀ (i : Nat) (pc : Pc Value) (e : Ev) (t : Config Client (Pc Value)),
    s.threads[i]? = some pc → 0 < left pc → (client decode).fire s i e = some t →
    ∃ pc', t.threads[i]? = some pc' ∧ left pc' < left pc ∧ (left pc' = 0 → replied pc' = true)
  ready : ∀ (i : Nat) (pc : Pc Value), s.threads[i]? = some pc → 0 < left pc →
    completed s.shared pc = true ∨ Gone s →
    ∃ e, (∀ err, e ≠ .ctxDone err) ∧ ((client decode).fire s i e).isSome = true

section Send
variable {decode : CodecType → List UInt8 → Except GoError (Response Value)} {g g' : Client}
  {pc pc' : Pc Value} {e : Ev} {new : List (Pc Value)} {s t : Config Client (Pc Value)} {i : Nat}

theorem Phase.closed {x y z : Int} {chs : List Bool} {b : Bool} (h : Phase x y z .done chs b) :
    chs = [true] ∧ b = false := by
  cases h
  exact ⟨rfl, rfl⟩

/-- When the connection is gone `closeWithError` has run to its end. -/
theorem Underway.ended (hu : Underway s) (hgone : Gone s) :
    s.shared.closeChs = [true] ∧ s.shared.connected = false := by
  have hex : ∃ pc ∈ s.threads, looping pc ≠ 0 := by
    by_contra hnone
    push Not at hnone
    have hloop := hu.loop
    rw [total_eq_zero hnone] at hloop
    cases hloop
  obtain ⟨pc, hpc, hlooping⟩ := hex
  have hidle := hgone pc hpc
  have hdone : s.shared.closeOnce = .done := by
    cases pc <;> first | exact hu.fits _ hpc | exact absurd rfl hlooping | cases hidle
  have hphase := hu.phase
  rw [hdone] at hphase
  exact hphase.closed

/-- The own step of `SendRequest`, with what the network may answer. -/
theorem send_enabled (hd : Dialled g) (hpc : Fits g pc) (hleft : 0 < left pc)
    (hready : completed g pc = true ∨ g.closeChs = [true]) :
    ∃ e, (∀ err, e ≠ .ctxDone err) ∧ (sendStep decode g pc e).isSome = true := by
  cases pc <;> try exact absurd hleft (lt_irrefl 0)
  case insert x =>
    obtain ⟨m, hm⟩ := Option.isSome_iff_exists.mp hd.pending
    exact ⟨.step, nofun, by simp [sendStep, hm]⟩
  case write x =>
    obtain ⟨k, hk⟩ := Option.isSome_iff_exists.mp (show g.conn.isSome = true from hpc)
    exact ⟨.written, nofun, by simp [sendStep, hk]⟩
  case dropWrite x err => exact ⟨.step, nofun, rfl⟩
  case select x => exact ⟨.step, nofun, rfl⟩
  case dropWait x err => exact ⟨.step, nofun, rfl⟩
  case wait x ch =>
    have hch : ch = some 0 := hpc
    subst hch
    rcases hready with hdone | hclosed
    · refine ⟨.done, nofun, ?_⟩
      simp only [completed, Option.any_eq_true, decide_eq_true_eq] at hdone
      obtain ⟨c, hc, hpos⟩ := hdone
      simp only [sendStep, hc]
      rw [if_neg (by omega)]
      split
      · rfl
      · split <;> rfl
    · exact ⟨.closed, nofun, by simp [sendStep, hclosed]⟩

/-- Every step of `SendRequest` brings it closer to its return. -/
theorem sendStep_left (h : sendStep decode g pc e = some (g', pc', new)) (hd : Dialled g)
    (hpc : Fits g pc) (hleft : 0 < left pc) :
    left pc' < left pc ∧ (left pc' = 0 → replied pc' = true) := by
  revert h
  fun_cases sendStep decode g pc e <;> intro h <;> try contradiction
  all_goals cases h
  case case2 x hnone =>
    have hsome := hd.pending
    rw [hnone] at hsome
    cases hsome
  case case4 x hnone =>
    have hsome : g.conn.isSome = true := hpc
    rw [hnone] at hsome
    cases hsome
  all_goals first
    | exact absurd hleft (lt_irrefl 0)
    | exact ⟨by simp [left], fun _ => rfl⟩
    | exact ⟨by simp [left], by simp [left]⟩

theorem others_not_sending (h : dialStep g pc e = some (g', pc', new) ∨
      closeStep g pc e = some (g', pc', new) ∨ readStep g pc e = some (g', pc', new) ∨
      onceStep g pc e = some (g', pc', new)) : left pc = 0 := by
  cases pc <;> first
    | rfl
    | (simp [dialStep, closeStep, readStep, onceStep] at h)

theorem fire_send (h : (client decode).fire s i e = some t) (hi : s.threads[i]? = some pc)
    (hleft : 0 < left pc) :
    ∃ pc' new, sendStep decode s.shared pc e = some (t.shared, pc', new) ∧
      t.threads[i]? = some pc' := by
  obtain ⟨q, g', pc', new, hq, rfl, hs⟩ := fire_client h
  obtain rfl := Option.some.inj (hi.symm.trans hq)
  rcases hs with hs | hs | hs
  · exact absurd (others_not_sending (Or.inl hs)) (Nat.ne_of_gt hleft)
  · exact ⟨pc', new, hs, getElem?_fired_self pc' hi⟩
  · exact absurd (others_not_sending (Or.inr hs)) (Nat.ne_of_gt hleft)

theorem fire_of_send (hi : s.threads[i]? = some pc)
    (h : (sendStep decode s.shared pc e).isSome = true) :
    ((client decode).fire s i e).isSome = true := by
  have hstep : ((client decode).step s.shared pc e).isSome = true := by
    simp [client, clientStep, h]
  exact fire_isSome hi hstep

/-- Nobody gets busy again. -/
theorem gone_step (hflag : g.connected = false) (hpc : busy pc = false)
    (h : dialStep g pc e = some (g', pc', new) ∨ sendStep decode g pc e = some (g', pc', new) ∨
      closeStep g pc e = some (g', pc', new) ∨ readStep g pc e = some (g', pc', new) ∨
      onceStep g pc e = some (g', pc', new)) : busy pc' = false := by
  rcases h with h | h | h | h | h <;> revert h
  · fun_cases dialStep g pc e <;> intro h <;> try contradiction
    all_goals cases h
    all_goals rfl
  · fun_cases sendStep decode g pc e <;> intro h <;> try contradiction
    all_goals cases h
    all_goals rfl
  · fun_cases closeStep g pc e <;> intro h <;> try contradiction
    all_goals cases h
    · rename_i hon
      rw [hflag] at hon
      cases hon
    all_goals rfl
  · fun_cases readStep g pc e <;> intro h <;> contradiction
  · fun_cases onceStep g pc e <;> intro h <;> contradiction

theorem fire_gone (hu : Underway s) (hok : Lawful s i e) (hgone : Gone s)
    (h : (client decode).fire s i e = some t) : Gone t := by
  obtain ⟨-, hoff⟩ := hu.ended hgone
  obtain ⟨-, q, -, hts, -⟩ := fire_effect hu hok h
  obtain ⟨pc, g', pc', new, hi, rfl, hs⟩ := fire_client h
  have hnew : new = [] := by
    have hlen := congrArg List.length hts
    simpa using hlen
  subst hnew
  rw [List.append_nil]
  exact forall_set (gone_step hoff (hgone pc (List.mem_of_getElem? hi)) hs) hgone fun _ h => h

theorem Undialled.answers (hu : Undialled s) : Answers decode s := by
  have hzero : ∀ (i : Nat) (pc : Pc Value), s.threads[i]? = some pc → ¬ 0 < left pc := by
    intro i pc hi
    obtain ⟨r, rfl⟩ := hu.idle pc (List.mem_of_getElem? hi)
    exact lt_irrefl 0
  refine ⟨fun pc hpc => ?_, fun i pc e t hi hleft _ => absurd hleft (hzero i pc hi),
    fun i pc hi hleft _ => absurd hleft (hzero i pc hi)⟩
  obtain ⟨r, rfl⟩ := hu.idle pc hpc
  exact ⟨nofun, nofun⟩

theorem Underway.answers (hu : Underway s) : Answers decode s := by
  refine ⟨fun pc hpc => ?_, fun i pc e t hi hleft h => ?_, fun i pc hi hleft hready => ?_⟩
  · refine ⟨?_, ?_⟩ <;> rintro rfl <;> exact hu.fits _ hpc
  · obtain ⟨pc', new, hs, hat⟩ := fire_send h hi hleft
    obtain ⟨hless, hreply⟩ :=
      sendStep_left hs hu.dialled (hu.fits pc (List.mem_of_getElem? hi)) hleft
    exact ⟨pc', hat, hless, hreply⟩
  · obtain ⟨e, he, hstep⟩ : ∃ e, (∀ err, e ≠ .ctxDone err) ∧
        (sendStep decode s.shared pc e).isSome = true :=
      send_enabled hu.dialled (hu.fits pc (List.mem_of_getElem? hi)) hleft
        (hready.imp_right fun hgone => (hu.ended hgone).1)
    exact ⟨e, he, fire_of_send hi hstep⟩

end Send

/-- While `SendRequest` is called between `Dial` and `Close`, `Close` never meets one that
has still to write, and `Dial` succeeds once, every `SendRequest` returns; and a connection
that is gone stays so. -/
theorem sendRequest_returns
    {decode : CodecType → List UInt8 → Except GoError (Response Value)} {n : Nat}
    {tr : List (Nat × Ev)} {s : Config Client (Pc Value)}
    (hr : Run (client decode) Lawful (start n) tr s) :
    Answers decode s ∧
      (Gone s → s.shared.conns ≠ [] →
        ∀ i e t, Lawful s i e → (client decode).fire s i e = some t → Gone t) := by
  obtain hu | hu := run_tidy hr
  · exact ⟨hu.answers, fun _ hne => absurd hu.conns hne⟩
  · exact ⟨hu.answers, fun hgone _ i e t hok h => fire_gone hu hok hgone h⟩

/-- The peer disconnects while a request waits for its answer. -/
def disconnected : List (Nat × Ev) :=
  [(0, .dial ""), (0, .sendRequest), (0, .step), (0, .written), (0, .step), (1, .readFailed),
    (1, .step), (1, .step), (1, .step), (1, .step)]

theorem disconnected_runs :
    (exec (client decodeAny) Lawful (start 1) disconnected).isSome := by decide

theorem sendRequest_returns_disconnected :
    let s := (exec (client decodeAny) Lawful (start 1) disconnected).get disconnected_runs
    s.threads.map left = [2, 0] ∧ Gone s ∧ Answers decodeAny s ∧
      (Gone s → s.shared.conns ≠ [] →
        ∀ i e t, Lawful s i e → (client decodeAny).fire s i e = some t → Gone t) :=
  ⟨by decide, by decide, sendRequest_returns (run_exec disconnected_runs)⟩

/-! ## What each condition is for -/

/-- A request before the first `Dial`. -/
def undialled : List (Nat × Ev) := [(0, .sendRequest), (0, .step)]

theorem undialled_runs :
    (exec (client decodeAny) (Meets asks [.closedWhenWritten, .dialledOnce]) (start 1)
      undialled).isSome := by decide

/-- It is inserted into the nil map. -/
theorem undialled_panics :
    ¬ ∀ (n : Nat) (tr : List (Nat × Ev)) (s : Config Client (Pc Unit)),
      Run (client decodeAny) Any (start n) tr s → Answers decodeAny s := by
  intro h
  have hall := h 1 undialled _ ((run_exec undialled_runs).mono fun _ _ _ _ => trivial)
  exact (hall.safe (.panicked .nilMap) (List.mem_singleton_self _)).1 rfl

/-- `Close` comes between the insertion of a call and its write. -/
def closedInBetween : List (Nat × Ev) :=
  [(0, .dial ""), (0, .sendRequest), (0, .step), (1, .callClose), (0, .written)]

theorem closedInBetween_runs :
    (exec (client decodeAny) (Meets asks [.sentWhileDialled, .dialledOnce]) (start 2)
      closedInBetween).isSome := by decide

/-- The peer disconnects, the client dials again and sends a request, and the peer
disconnects again: `closeOnce` was used up by the first connection. -/
def redialled : List (Nat × Ev) :=
  [(0, .dial ""), (1, .readFailed), (1, .step), (1, .step), (1, .step), (1, .step),
    (0, .dial ""), (0, .sendRequest), (0, .step), (0, .written), (0, .step), (2, .readFailed),
    (2, .step)]

theorem redialled_runs :
    (exec (client decodeAny) (Meets asks [.sentWhileDialled, .closedWhenWritten]) (start 1)
      redialled).isSome := by decide

/-- None of the three conditions can be dropped: without the first a request is inserted
into a nil map, without the second one is written to a nil connection, without the third
one waits for ever. -/
theorem lifecycle_needed (c : Condition) :
    ¬ ∀ (n : Nat) (tr : List (Nat × Ev)) (s : Config Client (Pc Unit)) (cs : List Condition),
      cs = [.sentWhileDialled, .closedWhenWritten, .dialledOnce].erase c →
      Run (client decodeAny) (Meets asks cs) (start n) tr s → Answers decodeAny s := by
  intro h
  cases c with
  | sentWhileDialled =>
    have hall := h 1 undialled _ _ rfl (run_exec undialled_runs)
    exact (hall.safe (.panicked .nilMap) (List.mem_singleton_self _)).1 rfl
  | closedWhenWritten =>
    have hall := h 2 closedInBetween _ _ rfl (run_exec closedInBetween_runs)
    exact (hall.safe (.panicked .nilConn) List.mem_cons_self).2 rfl
  | dialledOnce =>
    have hall := h 1 redialled _ _ rfl (run_exec redialled_runs)
    obtain ⟨e, hctx, hfire⟩ := hall.ready 0 (.wait 0 (some 1)) rfl (by decide)
      (Or.inr (by decide))
    cases e with
    | ctxDone err => exact hctx err rfl
    | _ => cases hfire

end RpcInGo.Tcp.SendReturns
