import RpcInGo.Tcp.SendReturns

/-!
A `tcp.Client` that is dialled more than once. `Dial` makes a new map of pending calls and
a new `closeCh` for each connection, but `closeOnce` belongs to the client: when the
`readLoop` of a second connection ends, its `closeWithError` does nothing.

* `step_moves`: what a step does that is not a successful `Dial`;
* `loop_placed`: which goroutine is the `readLoop` of which connection;
* `left_disconnects`: in runs with one successful `Dial`, the client is disconnected once
  that goroutine has left, and no request that was registered before is waiting for an
  answer with its entry still in the map;
* `redial_stays_connected`: with a second `Dial` neither is so.
-/

namespace RpcInGo.Tcp.Redial
open Lib.Goroutine Protocol.Message ClientModel Multiplex SendReturns

variable {Value : Type}

/-! ## Where a goroutine is -/

/-- In `readLoop`, or in the `closeWithError` that it defers. -/
def isLoop : Pc Value → Bool
  | .reading _ | .lookup _ _ | .deliver _ _ _ | .readLoopLeft => true
  | .once .readLoop | .onceCloseCh .readLoop | .onceConnected .readLoop
  | .onceFail .readLoop => true
  | _ => false

/-- In the `readLoop` of connection `m`, unless it has panicked. -/
def onLoop (m : Nat) : Pc Value → Bool
  | .reading k | .lookup k _ | .deliver k _ _ => k = m
  | .readLoopLeft | .panicked _ => true
  | .once .readLoop | .onceCloseCh .readLoop | .onceConnected .readLoop
  | .onceFail .readLoop => true
  | _ => false

/-- In `Close`, behind its first section. -/
def inClose : Pc Value → Bool
  | .close _ => true
  | .once (.close _) | .onceCloseCh (.close _) | .onceConnected (.close _)
  | .onceFail (.close _) => true
  | _ => false

def isFailing : Pc Value → Bool
  | .onceFail _ => true
  | _ => false

/-- The call whose answer `SendRequest` waits for. -/
def waitsFor : Pc Value → Option Nat
  | .select x | .wait x _ => some x
  | _ => none

/-- The call belongs to the `SendRequest` of this goroutine. -/
def concerns (x : Nat) : Pc Value → Int
  | .insert y | .write y | .dropWrite y _ | .select y | .wait y _ | .dropWait y _ =>
    if y = x then 1 else 0
  | _ => 0

/-- The call does not exist yet. -/
def beyond (g : Client) (x : Nat) : Int := if x < g.calls.length then 0 else 1

theorem place_of_failing {pc : Pc Value} (h : isFailing pc = true) :
    isLoop pc = true ∨ inClose pc = true := by
  cases pc with
  | onceFail k =>
    cases k with
    | readLoop => exact .inl rfl
    | close err => exact .inr rfl
  | _ => cases h

section Closing
variable (k : Closing)

@[simp] theorem inClose_after : inClose (k.after : Pc Value) = false := by
  rcases k with _ | _ | _ <;> rfl

@[simp] theorem isFailing_after : isFailing (k.after : Pc Value) = false := by
  rcases k with _ | _ | _ <;> rfl

@[simp] theorem waitsFor_after : waitsFor (k.after : Pc Value) = none := by
  rcases k with _ | _ | _ <;> rfl

@[simp] theorem concerns_after (x : Nat) : concerns x (k.after : Pc Value) = 0 := by
  rcases k with _ | _ | _ <;> rfl

@[simp] theorem after_ne_insert (x : Nat) : (k.after : Pc Value) ≠ .insert x := by
  rcases k with _ | _ | _ <;> simp [Closing.after]

end Closing

/-- Only the `readLoop` goes on in `readLoop`. -/
theorem readLoop_of_after {k : Closing} (h : isLoop (k.after : Pc Value) = true) :
    k = .readLoop := by
  rcases k with _ | _ | _
  · rfl
  · cases h
  · cases h

/-- The goroutine stays in the function it is in, or leaves `Close`. -/
structure Keeps (pc pc' : Pc Value) : Prop where
  loop : isLoop pc' = true → isLoop pc = true
  onLoop : ∀ m, Redial.onLoop m pc = true → Redial.onLoop m pc' = true
  closing : inClose pc' = true → inClose pc = true

section Once
variable (k : Closing)

theorem keeps_once : Keeps (.once k : Pc Value) (.onceCloseCh k) := by
  cases k <;> exact ⟨id, fun _ => id, id⟩

theorem keeps_onceCloseCh : Keeps (.onceCloseCh k : Pc Value) (.onceConnected k) := by
  cases k <;> exact ⟨id, fun _ => id, id⟩

theorem keeps_onceConnected : Keeps (.onceConnected k : Pc Value) (.onceFail k) := by
  cases k <;> exact ⟨id, fun _ => id, id⟩

/-- Leaving `closeOnce.Do`, from its end or because it was done before. -/
theorem keeps_after {pc : Pc Value} (h : pc = .once k ∨ pc = .onceFail k) : Keeps pc k.after := by
  refine ⟨fun hl => ?_, fun m => ?_, by simp⟩
  · rw [readLoop_of_after hl] at h
    rcases h with rfl | rfl <;> rfl
  · cases k with
    | readLoop => rcases h with rfl | rfl <;> exact id
    | close err => rcases h with rfl | rfl <;> simp [onLoop]

end Once

theorem readLoop_of_left {k : Closing} (h : (k.after : Pc Value) = .readLoopLeft) :
    k = .readLoop :=
  readLoop_of_after (by rw [h]; rfl : isLoop (k.after : Pc Value) = true)

/-! ## One step -/

/-- A successful `Dial`. -/
structure Dials (g : Client) (pc : Pc Value) (e : Ev) (g' : Client) (pc' : Pc Value)
    (new : List (Pc Value)) : Prop where
  event : ∃ remote, e = .dial remote
  before : ∃ r, pc = .returned r
  off : g.connected = false
  after : pc' = .returned .nothing
  spawned : new = [.reading g.conns.length]
  client : g' = { g with
    conn := some g.conns.length, connected := true, pending := some [],
    closeCh := some g.closeChs.length, conns := g.conns ++ [false],
    closeChs := g.closeChs ++ [false] }

/-- Any other step. -/
structure Moves (g : Client) (pc : Pc Value) (g' : Client) (pc' : Pc Value) : Prop where
  conns : g'.conns.length = g.conns.length
  connected : g'.connected = g.connected ∨ g'.connected = false
  conn : g'.conn = g.conn ∨ g'.conn = none ∧ g.connected = true
  loop : isLoop pc' = true → isLoop pc = true
  onLoop : ∀ m, onLoop m pc = true → onLoop m pc' = true
  closing : inClose pc' = true → inClose pc = true ∨ g'.conn = none ∧ g.connected = true
  fails : isFailing pc' = true → g'.connected = false
  done : g'.closeOnce = .done → g.closeOnce = .done ∨
    (∃ k, pc = .onceFail k ∧ pc' = k.after) ∧ g'.pending.getD [] = [] ∧
      g'.connected = g.connected ∧ g'.conn = g.conn
  stays : g.closeOnce = .done → g'.closeOnce = .done
  latch : g'.closeOnce = g.closeOnce ∨ isLoop pc = true ∨ inClose pc = true
  waits : ∀ x, waitsFor pc' = some x → waitsFor pc = some x ∨ pc = .write x ∧ g.conn ≠ none
  pending : ∀ p ∈ g'.pending.getD [], p ∈ g.pending.getD [] ∨ pc = .insert p.2
  unfinished : pc ≠ .readLoopLeft
  leaves : pc' = .readLoopLeft →
    pc = .onceFail .readLoop ∧ g'.closeOnce = .done ∧ g'.pending.getD [] = [] ∨
      pc = .once .readLoop ∧ g.closeOnce = .done ∧ g' = g
  inserts : ∀ x, pc' = .insert x → x = g.calls.length
  grows : g.calls.length ≤ g'.calls.length
  owner : ∀ x, concerns x pc' + beyond g' x ≤ concerns x pc + beyond g x

section Steps
variable {decode : CodecType → List UInt8 → Except GoError (Response Value)} {g g' : Client}
  {pc pc' : Pc Value} {e : Ev} {new : List (Pc Value)}

/-- A step that changes at most the map and the calls. -/
theorem Moves.still (hconns : g'.conns.length = g.conns.length) (hflag : g'.connected = g.connected)
    (hconn : g'.conn = g.conn) (honce : g'.closeOnce = g.closeOnce)
    (hcalls : g'.calls.length = g.calls.length)
    (hpend : ∀ p ∈ g'.pending.getD [], p ∈ g.pending.getD [])
    (hloop : isLoop pc' = true → isLoop pc = true)
    (hon : ∀ m, Redial.onLoop m pc = true → Redial.onLoop m pc' = true)
    (hclose : inClose pc' = true → inClose pc = true) (hfail : isFailing pc' = false)
    (hwaits : ∀ x, waitsFor pc' = some x → waitsFor pc = some x)
    (hpc : pc ≠ .readLoopLeft) (hleave : pc' ≠ .readLoopLeft) (hins : ∀ x, pc' ≠ .insert x)
    (howner : ∀ x, concerns x pc' ≤ concerns x pc) : Moves g pc g' pc' := by
  refine ⟨hconns, .inl hflag, .inl hconn, hloop, hon, fun h => .inl (hclose h), ?_, ?_, ?_,
    .inl honce, fun x h => .inl (hwaits x h), fun p h => .inl (hpend p h), hpc,
    fun h => absurd h hleave, fun x h => absurd h (hins x), hcalls.ge, fun x => ?_⟩
  · intro h
    rw [hfail] at h
    cases h
  · intro h
    exact .inl (honce ▸ h)
  · intro h
    rw [honce, h]
  · rw [beyond, beyond, hcalls]
    have := howner x
    omega

theorem deleteID_subset (g : Client) (id : UInt64) :
    ∀ p ∈ (g.deleteID id).pending.getD [], p ∈ g.pending.getD [] := by
  intro p hp
  simp only [Client.deleteID] at hp
  cases hpend : g.pending with
  | none => simp [hpend] at hp
  | some m =>
    rw [hpend] at hp
    exact List.mem_of_mem_filter hp

theorem dialStep_moves (h : dialStep g pc e = some (g', pc', new)) :
    Dials g pc e g' pc' new ∨ new = [] ∧ Moves g pc g' pc' := by
  revert h
  fun_cases dialStep g pc e <;> intro h <;> try contradiction
  all_goals cases h
  case case2 r remote hoff =>
    exact .inl ⟨⟨remote, rfl⟩, ⟨r, rfl⟩, Bool.eq_false_of_not_eq_true hoff, rfl, rfl, rfl⟩
  all_goals
    exact .inr ⟨rfl, .still rfl rfl rfl rfl rfl (fun _ h => h) (by simp [isLoop])
      (by simp [onLoop]) (by simp [inClose]) rfl (by simp [waitsFor]) (by simp) (by simp)
      (by simp) (by simp [concerns])⟩

theorem sendStep_moves (h : sendStep decode g pc e = some (g', pc', new)) :
    new = [] ∧ Moves g pc g' pc' := by
  revert h
  fun_cases sendStep decode g pc e <;> intro h <;> try contradiction
  all_goals cases h
  case case1 r =>
    refine ⟨rfl, rfl, .inl rfl, .inl rfl, by simp [isLoop], by simp [onLoop], by simp [inClose],
      by simp [isFailing], fun h => .inl h, fun h => h, .inl rfl, by simp [waitsFor],
      fun _ h => .inl h, by simp, by simp, ?_, by simp, fun x => ?_⟩
    · rintro x ⟨⟩
      rfl
    · simp only [concerns, beyond, List.length_append, List.length_singleton]
      split <;> split <;> split <;> omega
  case case3 x m hm =>
    refine ⟨rfl, rfl, .inl rfl, .inl rfl, by simp [isLoop], by simp [onLoop], by simp [inClose],
      by simp [isFailing], fun h => .inl h, fun h => h, .inl rfl, by simp [waitsFor],
      fun p hp => ?_, by simp, by simp, by simp, le_refl _, fun _ => le_refl _⟩
    rcases List.mem_cons.mp hp with rfl | hp
    · exact .inr rfl
    · rw [hm]
      exact .inl (List.mem_of_mem_filter hp)
  case case5 x k hk =>
    refine ⟨rfl, rfl, .inl rfl, .inl rfl, by simp [isLoop], by simp [onLoop], by simp [inClose],
      by simp [isFailing], fun h => .inl h, fun h => h, .inl rfl, fun y hy => ?_,
      fun _ h => .inl h, by simp, by simp, by simp, le_refl _, fun _ => le_refl _⟩
    cases hy
    exact .inr ⟨rfl, by rw [hk]; simp⟩
  all_goals
    refine ⟨rfl, .still rfl rfl rfl rfl rfl ?_ (by simp [isLoop]) (by simp [onLoop])
      (by simp [inClose]) rfl (by simp [waitsFor]) (by simp) (by simp) (by simp) fun x => ?_⟩
    · first
      | exact fun _ h => h
      | exact deleteID_subset _ _
    · simp only [concerns]
      first
      | exact le_refl _
      | (split <;> decide)

theorem closeStep_moves (h : closeStep g pc e = some (g', pc', new)) :
    new = [] ∧ Moves g pc g' pc' := by
  revert h
  fun_cases closeStep g pc e <;> intro h <;> try contradiction
  all_goals cases h
  case case1 r hon =>
    exact ⟨rfl, rfl, .inr rfl, .inr ⟨rfl, hon⟩, by simp [isLoop], by simp [onLoop],
      fun _ => .inr ⟨rfl, hon⟩, by simp [isFailing], fun h => .inl h, fun h => h, .inl rfl,
      by simp [waitsFor], fun _ h => .inl h, by simp, by simp, by simp, le_refl _,
      fun _ => le_refl _⟩
  all_goals
    exact ⟨rfl, .still (by simp) rfl rfl rfl rfl (fun _ h => h) (by simp [isLoop])
      (by simp [onLoop]) (by simp [inClose]) rfl (by simp [waitsFor]) (by simp) (by simp) (by simp)
      (by simp [concerns])⟩

theorem readStep_moves (h : readStep g pc e = some (g', pc', new)) :
    new = [] ∧ Moves g pc g' pc' := by
  revert h
  fun_cases readStep g pc e <;> intro h <;> try contradiction
  all_goals cases h
  all_goals
    refine ⟨rfl, .still rfl rfl rfl rfl (by simp [Client.deleteID]) ?_ (by simp [isLoop])
      (by simp [onLoop]) (by simp [inClose]) rfl (by simp [waitsFor]) (by simp) (by simp)
      (by simp) (by simp [concerns])⟩
    first
    | exact fun _ h => h
    | exact deleteID_subset _ _

theorem onceStep_moves (h : onceStep g pc e = some (g', pc', new)) :
    new = [] ∧ Moves g pc g' pc' := by
  revert h
  fun_cases onceStep g pc e <;> intro h <;> try contradiction
  all_goals cases h
  case case1 k hfresh =>
    have hplace : isLoop (.once k : Pc Value) = true ∨ inClose (.once k : Pc Value) = true := by
      cases k
      · exact .inl rfl
      · exact .inr rfl
    have hkeeps : Keeps (.once k : Pc Value) _ := keeps_once k
    refine ⟨rfl, rfl, .inl rfl, .inl rfl, hkeeps.loop, hkeeps.onLoop,
      fun h => .inl (hkeeps.closing h), by simp [isFailing], ?_, ?_, .inr hplace,
      by simp [waitsFor], fun _ h => .inl h, by simp, by simp, by simp, le_refl _,
      fun _ => le_refl _⟩
    · intro h
      cases h
    · intro h
      rw [hfresh] at h
      cases h
  case case3 k hdone =>
    have hkeeps : Keeps (.once k : Pc Value) _ := keeps_after k (.inl rfl)
    refine ⟨rfl, rfl, .inl rfl, .inl rfl, hkeeps.loop, hkeeps.onLoop,
      fun h => .inl (hkeeps.closing h), by simp, .inl, id, .inl rfl, by simp, fun _ h => .inl h,
      by simp, fun h => ?_, by simp, le_refl _, fun x => ?_⟩
    · rw [readLoop_of_left h]
      exact .inr ⟨rfl, hdone, rfl⟩
    · rw [concerns_after]
      exact le_refl _
  case case7 k =>
    have hkeeps : Keeps (.onceConnected k : Pc Value) _ := keeps_onceConnected k
    exact ⟨rfl, rfl, .inr rfl, .inl rfl, hkeeps.loop, hkeeps.onLoop,
      fun h => .inl (hkeeps.closing h), fun _ => rfl, .inl, id, .inl rfl, by simp [waitsFor],
      fun _ h => .inl h, by simp, by simp, by simp, le_refl _, fun _ => le_refl _⟩
  case case8 k =>
    have hempty : (g.pending.map fun _ => ([] : List (UInt64 × Nat))).getD [] = [] := by
      cases g.pending <;> rfl
    have hcalls : (failAll errClosed (g.pending.getD []) g.calls).length = g.calls.length :=
      failAll_length ..
    have hkeeps : Keeps (.onceFail k : Pc Value) _ := keeps_after k (.inr rfl)
    refine ⟨rfl, rfl, .inl rfl, .inl rfl, hkeeps.loop, hkeeps.onLoop,
      fun h => .inl (hkeeps.closing h), by simp, fun _ => .inr ⟨⟨k, rfl, rfl⟩, hempty, rfl, rfl⟩,
      fun _ => rfl, .inr (place_of_failing rfl), by simp, ?_, by simp, fun h => ?_, by simp,
      hcalls.ge, fun x => ?_⟩
    · rw [hempty]
      simp
    · rw [readLoop_of_left h]
      exact .inl ⟨rfl, rfl, hempty⟩
    · rw [concerns_after, beyond, beyond, hcalls]
      exact le_refl _
  case case6 k ch hch hopen =>
    have hkeeps : Keeps (.onceCloseCh k : Pc Value) _ := keeps_onceCloseCh k
    exact ⟨rfl, .still rfl rfl rfl rfl rfl (fun _ h => h) hkeeps.loop hkeeps.onLoop
      hkeeps.closing rfl (by simp [waitsFor]) (by simp) (by simp) (by simp) (by simp [concerns])⟩
  all_goals
    exact ⟨rfl, .still rfl rfl rfl rfl rfl (fun _ h => h) (by simp [isLoop]) (by simp [onLoop])
      (by simp [inClose]) rfl (by simp [waitsFor]) (by simp) (by simp) (by simp)
      (by simp [concerns])⟩

/-- A step is a successful `Dial`, or does not start a goroutine. -/
theorem clientStep_moves (h : clientStep decode g pc e = some (g', pc', new)) :
    Dials g pc e g' pc' new ∨ new = [] ∧ Moves g pc g' pc' := by
  rcases clientStep_cases h with hs | hs | hs | hs | hs
  · exact dialStep_moves hs
  · exact .inr (sendStep_moves hs)
  · exact .inr (closeStep_moves hs)
  · exact .inr (readStep_moves hs)
  · exact .inr (onceStep_moves hs)

theorem step_moves {s t : Config Client (Pc Value)} {i : Nat}
    (h : (client decode).fire s i e = some t) :
    ∃ pc pc' new, s.threads[i]? = some pc ∧ t.threads = s.threads.set i pc' ++ new ∧
      (Dials s.shared pc e t.shared pc' new ∨ new = [] ∧ Moves s.shared pc t.shared pc') := by
  obtain ⟨pc, g', pc', new, hi, hs, rfl⟩ := fire_cases h
  exact ⟨pc, pc', new, hi, rfl, clientStep_moves hs⟩

end Steps

/-! ## The goroutines of the connections -/

/-- The `readLoop` of connection `m` is the goroutine at `n + m`. -/
structure Placed (n : Nat) (s : Config Client (Pc Value)) : Prop where
  length : s.threads.length = n + s.shared.conns.length
  loops : ∀ m < s.shared.conns.length, ∃ pc, s.threads[n + m]? = some pc ∧ onLoop m pc = true
  only : ∀ (j : Nat) (pc : Pc Value), s.threads[j]? = some pc → isLoop pc = true → n ≤ j

section Runs
variable {decode : CodecType → List UInt8 → Except GoError (Response Value)} {n i : Nat} {e : Ev}
  {s t u : Config Client (Pc Value)} {tr tr' : List (Nat × Ev)}

theorem start_placed (n : Nat) : Placed n (start n : Config Client (Pc Value)) := by
  refine ⟨List.length_replicate, fun m hm => absurd hm (Nat.not_lt_zero m), fun j pc hj hloop => ?_⟩
  rw [List.eq_of_mem_replicate (List.mem_of_getElem? hj)] at hloop
  cases hloop

/-- The new goroutine of a `Dial`. -/
theorem spawned_at {pc pc' : Pc Value} {new : List (Pc Value)} (hp : Placed n s)
    (hts : t.threads = s.threads.set i pc' ++ new) (hd : Dials s.shared pc e t.shared pc' new) :
    t.shared.conns.length = s.shared.conns.length + 1 ∧
      t.threads[n + s.shared.conns.length]? = some (.reading s.shared.conns.length) := by
  refine ⟨by rw [hd.client, List.length_append, List.length_singleton], ?_⟩
  rw [hts, hd.spawned, ← hp.length, List.getElem?_append_right (by rw [List.length_set]),
    List.length_set, Nat.sub_self]
  rfl

theorem fire_placed (hp : Placed n s) (h : (client decode).fire s i e = some t) : Placed n t := by
  obtain ⟨pc, pc', new, hi, hts, hd | ⟨rfl, hm⟩⟩ := step_moves h
  · obtain ⟨hconns, hnew⟩ := spawned_at hp hts hd
    obtain ⟨r, rfl⟩ := hd.before
    refine ⟨?_, fun m hm => ?_, fun j q hj hq => ?_⟩
    · rw [hts, hconns, hd.spawned, List.length_append, List.length_set, hp.length]
      rfl
    · rcases Nat.lt_or_eq_of_le (Nat.lt_succ_iff.mp (hconns ▸ hm)) with hlt | rfl
      · obtain ⟨q, hq, hon⟩ := hp.loops m hlt
        rw [hts, hd.after]
        have hne : i ≠ n + m := by
          rintro rfl
          rw [hi] at hq
          cases hq
          cases hon
        exact ⟨q, getElem?_fired_other _ hne hq, hon⟩
      · exact ⟨_, hnew, by simp [onLoop]⟩
    · by_contra hlt
      have hold : j < (s.threads.set i pc').length := by rw [List.length_set, hp.length]; omega
      rw [hts, List.getElem?_append_left hold, ← List.append_nil (s.threads.set i pc')] at hj
      rcases getElem?_fired hj with ⟨-, rfl⟩ | ⟨-, hj⟩ | hnil
      · rw [hd.after] at hq
        cases hq
      · exact hlt (hp.only j q hj hq)
      · cases hnil
  · refine ⟨?_, fun m hlt => ?_, fun j q hj hq => ?_⟩
    · rw [hts, hm.conns, List.append_nil, List.length_set, hp.length]
    · rw [hm.conns] at hlt
      obtain ⟨q, hq, hon⟩ := hp.loops m hlt
      rw [hts]
      by_cases hne : i = n + m
      · rw [← hne, hi] at hq
        cases hq
        exact ⟨pc', hne ▸ getElem?_fired_self pc' hi, hm.onLoop m hon⟩
      · exact ⟨q, getElem?_fired_other _ hne hq, hon⟩
    · rw [hts] at hj
      rcases getElem?_fired hj with ⟨rfl, rfl⟩ | ⟨-, hj⟩ | hnew
      · exact hp.only j pc hi (hm.loop hq)
      · exact hp.only j q hj hq
      · cases hnew

theorem loop_placed (hr : Run (client decode) Any (start n) tr s) : Placed n s :=
  hr.invariant (start_placed n) fun _ _ _ _ hp _ h => fire_placed hp h

/-! ## Clients dialled once -/

/-- What holds while `Dial` has not succeeded twice. -/
structure Single (n : Nat) (s : Config Client (Pc Value)) : Prop where
  placed : Placed n s
  conns : s.shared.conns.length ≤ 1
  undialled : s.shared.conns.length = 0 → s.shared.connected = false ∧
    s.shared.closeOnce = .fresh ∧ ∀ pc ∈ s.threads, inClose pc = false
  hungUp : ∀ pc ∈ s.threads, inClose pc = true → s.shared.conn = none
  failing : ∀ pc ∈ s.threads, isFailing pc = true → s.shared.connected = false
  done : s.shared.closeOnce = .done → s.shared.connected = false ∧
    (s.shared.conn = none ∨ s.threads[n]? = some .readLoopLeft)
  settled : s.shared.closeOnce = .done → s.shared.conn = none → ∀ pc ∈ s.threads, ∀ x,
    waitsFor pc = some x → ∀ p ∈ s.shared.pending.getD [], p.2 ≠ x
  owner : ∀ x, total (concerns x) s.threads + beyond s.shared x ≤ 1

theorem concerns_nonneg (x : Nat) (pc : Pc Value) : 0 ≤ concerns x pc := by
  unfold concerns
  split <;> first | (split <;> decide) | decide

theorem beyond_nonneg (g : Client) (x : Nat) : 0 ≤ beyond g x := by
  unfold beyond
  split <;> decide

theorem concerns_of_waits {x : Nat} {pc : Pc Value} (h : waitsFor pc = some x) :
    concerns x pc = 1 := by
  cases pc <;> cases h <;> simp [concerns]

/-- With one connection, its `readLoop` is the goroutine at `n`. -/
theorem Single.loop_at (hs : Single n s) {j : Nat} {pc : Pc Value} (hj : s.threads[j]? = some pc)
    (hloop : isLoop pc = true) : j = n ∧ s.shared.conns.length = 1 := by
  have hle := hs.placed.only j pc hj hloop
  have hlt : j < s.threads.length := (List.getElem?_eq_some_iff.mp hj).1
  rw [hs.placed.length] at hlt
  have := hs.conns
  omega

theorem start_single (n : Nat) : Single n (start n : Config Client (Pc Value)) := by
  have hidle : ∀ pc ∈ (start n : Config Client (Pc Value)).threads, pc = .returned .nothing :=
    fun _ hpc => List.eq_of_mem_replicate hpc
  refine ⟨start_placed n, Nat.zero_le 1, fun _ => ⟨rfl, rfl, ?_⟩, ?_, ?_, ?_, ?_, fun x => ?_⟩
  · intro pc hpc
    rw [hidle pc hpc]
    rfl
  · intro pc hpc h
    rw [hidle pc hpc] at h
    cases h
  · intro pc hpc h
    rw [hidle pc hpc] at h
    cases h
  · intro h
    cases h
  · intro h
    cases h
  · rw [total_eq_zero fun pc hpc => by rw [hidle pc hpc]; rfl]
    exact Int.le_refl 1

theorem Single.dials {pc pc' : Pc Value} {new : List (Pc Value)} (hs : Single n s)
    (hok : Meets asks [.dialledOnce] s i e) (hi : s.threads[i]? = some pc)
    (hts : t.threads = s.threads.set i pc' ++ new) (hp : Placed n t)
    (hd : Dials s.shared pc e t.shared pc' new) : Single n t := by
  obtain ⟨⟨remote, rfl⟩, ⟨r, rfl⟩, hoff, rfl, rfl, hg⟩ := hd
  have hnil : s.shared.conns = [] := by
    have hasks := hok .dialledOnce List.mem_cons_self
    simpa [asks, hoff] using hasks
  have hzero : s.shared.conns.length = 0 := by rw [hnil]; rfl
  obtain ⟨-, hfresh, hclose⟩ := hs.undialled hzero
  have hconns : t.shared.conns.length = 1 := by rw [hg, hnil]; rfl
  have honce : t.shared.closeOnce = .fresh := by rw [hg]; exact hfresh
  have hidle : ∀ q ∈ t.threads, inClose q = false ∧ isFailing q = false := by
    intro q hq
    rw [hts] at hq
    rcases List.mem_append.mp hq with hq | hq
    · rcases List.mem_or_eq_of_mem_set hq with hq | rfl
      · refine ⟨hclose q hq, ?_⟩
        by_contra hfail
        rcases place_of_failing (Bool.eq_true_of_not_eq_false hfail) with hloop | hin
        · obtain ⟨j, hj⟩ := List.mem_iff_getElem?.mp hq
          obtain ⟨-, hone⟩ := hs.loop_at hj hloop
          omega
        · rw [hclose q hq] at hin
          cases hin
      · exact ⟨rfl, rfl⟩
    · rw [List.mem_singleton.mp hq]
      exact ⟨rfl, rfl⟩
  refine ⟨hp, hconns.le, fun h => by omega, ?_, ?_, ?_, ?_, fun x => ?_⟩
  · intro q hq h
    rw [(hidle q hq).1] at h
    cases h
  · intro q hq h
    rw [(hidle q hq).2] at h
    cases h
  · rw [honce]
    intro h
    cases h
  · rw [honce]
    intro h
    cases h
  · have howner := hs.owner x
    have hbeyond : beyond t.shared x = beyond s.shared x := by rw [hg]; rfl
    rw [hts, total_append, total_set _ _ hi, hbeyond]
    simp only [concerns, total_cons, total_nil]
    omega

section Moves
variable {pc pc' : Pc Value}

theorem Moves.stays_hungUp {g g' : Client} (hm : Moves g pc g' pc') (h : g.conn = none) :
    g'.conn = none := by
  rcases hm.conn with heq | ⟨heq, -⟩
  · rw [heq, h]
  · exact heq

theorem Moves.stays_off {g g' : Client} (hm : Moves g pc g' pc') (h : g.connected = false) :
    g'.connected = false := by
  rcases hm.connected with heq | heq
  · rw [heq, h]
  · exact heq

theorem mem_moved (hts : t.threads = s.threads.set i pc' ++ []) {q : Pc Value}
    (hq : q ∈ t.threads) : q ∈ s.threads ∨ q = pc' := by
  rw [hts, List.append_nil] at hq
  exact List.mem_or_eq_of_mem_set hq

theorem Single.moves_undialled (hs : Single n s) (hi : s.threads[i]? = some pc)
    (hts : t.threads = s.threads.set i pc' ++ []) (hm : Moves s.shared pc t.shared pc')
    (h : s.shared.conns.length = 0) : t.shared.connected = false ∧ t.shared.closeOnce = .fresh ∧
      ∀ q ∈ t.threads, inClose q = false := by
  obtain ⟨hflag, hfresh, hclose⟩ := hs.undialled h
  have hout := hclose pc (List.mem_of_getElem? hi)
  refine ⟨hm.stays_off hflag, ?_, fun q hq => ?_⟩
  · rcases hm.latch with heq | hloop | hin
    · rw [heq, hfresh]
    · obtain ⟨-, hone⟩ := hs.loop_at hi hloop
      omega
    · rw [hout] at hin
      cases hin
  · rcases mem_moved hts hq with hq | rfl
    · exact hclose q hq
    · by_contra hin
      rcases hm.closing (Bool.eq_true_of_not_eq_false hin) with hin | ⟨-, hon⟩
      · rw [hout] at hin
        cases hin
      · rw [hflag] at hon
        cases hon

theorem Single.moves_done (hs : Single n s) (hi : s.threads[i]? = some pc)
    (hts : t.threads = s.threads.set i pc' ++ []) (hm : Moves s.shared pc t.shared pc')
    (h : t.shared.closeOnce = .done) : t.shared.connected = false ∧
      (t.shared.conn = none ∨ t.threads[n]? = some .readLoopLeft) := by
  have hmem := List.mem_of_getElem? hi
  rcases hm.done h with hdone | ⟨⟨k, rfl, rfl⟩, -, hflag, hconn⟩
  · obtain ⟨hflag, hconn⟩ := hs.done hdone
    refine ⟨hm.stays_off hflag, hconn.imp hm.stays_hungUp fun hleft => ?_⟩
    have hne : i ≠ n := by
      rintro rfl
      rw [hi] at hleft
      cases hleft
      exact hm.unfinished rfl
    rw [hts]
    exact getElem?_fired_other _ hne hleft
  · refine ⟨hflag.trans (hs.failing _ hmem rfl), ?_⟩
    cases k with
    | readLoop =>
      obtain ⟨rfl, -⟩ := hs.loop_at hi rfl
      rw [hts]
      exact .inr (getElem?_fired_self _ hi)
    | close err => exact .inl (hconn.trans (hs.hungUp _ hmem rfl))

/-- A call that is about to be inserted belongs to one goroutine only, so nobody waits for
its answer. -/
theorem Single.insert_unawaited (hs : Single n s) {x : Nat}
    (hi : s.threads[i]? = some (.insert x)) : ∀ q ∈ s.threads, waitsFor q ≠ some x := by
  intro q hq hx
  obtain ⟨j, hj⟩ := List.mem_iff_getElem?.mp hq
  have hne : i ≠ j := by
    rintro rfl
    rw [hi] at hj
    cases hj
    cases hx
  have htwo := add_le_total (concerns_nonneg x) hne hi hj
  have howner := hs.owner x
  have hbeyond := beyond_nonneg s.shared x
  have hone : concerns x (.insert x : Pc Value) = 1 := if_pos rfl
  rw [concerns_of_waits hx, hone] at htwo
  omega

theorem Single.moves_settled (hs : Single n s) (hi : s.threads[i]? = some pc)
    (hts : t.threads = s.threads.set i pc' ++ []) (hm : Moves s.shared pc t.shared pc')
    (hdone : t.shared.closeOnce = .done) (hconn : t.shared.conn = none) {q : Pc Value}
    (hq : q ∈ t.threads) {x : Nat} (hx : waitsFor q = some x) {p : UInt64 × Nat}
    (hpend : p ∈ t.shared.pending.getD []) : p.2 ≠ x := by
  rcases hm.done hdone with hdone | ⟨-, hempty, -⟩
  · have hconn' : s.shared.conn = none := by
      rcases hm.conn with heq | ⟨-, hon⟩
      · rw [← heq, hconn]
      · rw [(hs.done hdone).1] at hon
        cases hon
    have hset := hs.settled hdone hconn'
    rcases hm.pending p hpend with hpend | rfl
    · rcases mem_moved hts hq with hq | rfl
      · exact hset q hq x hx p hpend
      · rcases hm.waits x hx with hwait | ⟨-, hsome⟩
        · exact hset pc (List.mem_of_getElem? hi) x hwait p hpend
        · exact absurd hconn' hsome
    · rintro rfl
      rcases mem_moved hts hq with hq | rfl
      · exact hs.insert_unawaited hi q hq hx
      · rcases hm.waits _ hx with hwait | ⟨hwrite, -⟩
        · cases hwait
        · cases hwrite
  · rw [hempty] at hpend
    cases hpend

theorem Single.moves (hs : Single n s) (hi : s.threads[i]? = some pc)
    (hts : t.threads = s.threads.set i pc' ++ []) (hp : Placed n t)
    (hm : Moves s.shared pc t.shared pc') : Single n t := by
  refine ⟨hp, hm.conns ▸ hs.conns, fun h => ?_, fun q hq h => ?_, fun q hq h => ?_,
    hs.moves_done hi hts hm,
    fun hdone hconn q hq x hx p hpend => hs.moves_settled hi hts hm hdone hconn hq hx hpend,
    fun x => ?_⟩
  · rw [hm.conns] at h
    exact hs.moves_undialled hi hts hm h
  · rcases mem_moved hts hq with hq | rfl
    · exact hm.stays_hungUp (hs.hungUp q hq h)
    · rcases hm.closing h with hin | ⟨heq, -⟩
      · exact hm.stays_hungUp (hs.hungUp pc (List.mem_of_getElem? hi) hin)
      · exact heq
  · rcases mem_moved hts hq with hq | rfl
    · exact hm.stays_off (hs.failing q hq h)
    · exact hm.fails h
  · have howner := hs.owner x
    have hstep := hm.owner x
    rw [hts, List.append_nil, total_set _ _ hi]
    omega

end Moves

theorem fire_single (hs : Single n s) (hok : Meets asks [.dialledOnce] s i e)
    (h : (client decode).fire s i e = some t) : Single n t := by
  obtain ⟨pc, pc', new, hi, hts, hd | ⟨rfl, hm⟩⟩ := step_moves h
  · exact hs.dials hok hi hts (fire_placed hs.placed h) hd
  · exact hs.moves hi hts (fire_placed hs.placed h) hm

/-! ## When the `readLoop` has left -/

/-- The call is registered: its `SendRequest` is past the insertion. -/
structure Registered (s : Config Client (Pc Value)) (x : Nat) : Prop where
  called : x < s.shared.calls.length
  inserted : ∀ pc ∈ s.threads, pc ≠ .insert x

/-- And its entry is gone. -/
structure Cleared (s : Config Client (Pc Value)) (x : Nat) : Prop extends Registered s x where
  gone : ∀ p ∈ s.shared.pending.getD [], p.2 ≠ x

/-- An entry that is gone does not come back. -/
theorem fire_cleared {x : Nat} (hc : Cleared s x) (h : (client decode).fire s i e = some t) :
    Cleared t x := by
  obtain ⟨pc, pc', new, hi, hts, hd | ⟨rfl, hm⟩⟩ := step_moves h
  · refine ⟨⟨by rw [hd.client]; exact hc.called, fun q hq => ?_⟩, fun p hp => ?_⟩
    · rw [hts, hd.after, hd.spawned] at hq
      rcases List.mem_append.mp hq with hq | hq
      · exact forall_set (R := (· ≠ .insert x)) (by simp) hc.inserted (fun _ h => h) q hq
      · rw [List.mem_singleton.mp hq]
        simp
    · rw [hd.client] at hp
      cases hp
  · refine ⟨⟨Nat.lt_of_lt_of_le hc.called hm.grows, fun q hq => ?_⟩, fun p hp => ?_⟩
    · rw [hts, List.append_nil] at hq
      rcases List.mem_or_eq_of_mem_set hq with hq | rfl
      · exact hc.inserted q hq
      · rintro rfl
        exact Nat.ne_of_lt hc.called (hm.inserts x rfl)
    · rcases hm.pending p hp with hp | hinsert
      · exact hc.gone p hp
      · rintro rfl
        exact hc.inserted pc (List.mem_of_getElem? hi) hinsert

/-- The `readLoop` of the connection that was dialled last. -/
def lastLoop (n : Nat) (s : Config Client (Pc Value)) : Option (Pc Value) :=
  s.threads[n + (s.shared.conns.length - 1)]?

/-- With this step it leaves, its `closeWithError` done. -/
def Leaves (n : Nat) (s t : Config Client (Pc Value)) : Prop :=
  lastLoop n s ≠ some .readLoopLeft ∧ lastLoop n t = some .readLoopLeft

/-- The client is disconnected, and of the calls registered before none is waiting with its
entry still in the map. -/
structure Disconnected (t u : Config Client (Pc Value)) : Prop where
  off : u.shared.connected = false
  unanswered : ∀ x, Registered t x → ∀ pc ∈ u.threads, waitsFor pc = some x →
    ∀ p ∈ u.shared.pending.getD [], p.2 ≠ x

/-- What the `readLoop` leaves behind: `closeWithError` has run, and either it was the one
that emptied the map, or `Close` had hung up before. -/
theorem Single.left (hs : Single n s) (h : (client decode).fire s i e = some t)
    (hleave : Leaves n s t) : t.shared.conns.length = 1 ∧ t.shared.closeOnce = .done ∧
      (t.shared.pending.getD [] = [] ∨ t.shared.conn = none) := by
  obtain ⟨hnot, hleft⟩ := hleave
  rw [lastLoop] at hnot hleft
  obtain ⟨pc, pc', new, hi, hts, hd | ⟨rfl, hm⟩⟩ := step_moves h
  · obtain ⟨hconns, hnew⟩ := spawned_at hs.placed hts hd
    rw [hconns, Nat.add_sub_cancel, hnew] at hleft
    cases hleft
  · rw [hm.conns, hts] at hleft
    rcases getElem?_fired hleft with ⟨hat, hpc'⟩ | ⟨-, hsame⟩ | hnil
    · rcases hm.leaves hpc'.symm with ⟨rfl, hdone, hempty⟩ | ⟨rfl, hdone, hsame⟩
      · obtain ⟨-, hone⟩ := hs.loop_at hi rfl
        exact ⟨hm.conns.trans hone, hdone, .inl hempty⟩
      · obtain ⟨rfl, hone⟩ := hs.loop_at hi rfl
        rw [hsame]
        refine ⟨hone, hdone, .inr ?_⟩
        refine (hs.done hdone).2.resolve_right fun hgone => ?_
        rw [hi] at hgone
        cases hgone
    · exact absurd hsame hnot
    · cases hnil

/-- In runs in which `Dial` succeeds once: from the step on with which the `readLoop` leaves,
the client is disconnected, and no call that was registered before waits with its entry
still in the map. -/
theorem left_disconnects (hr : Run (client decode) (Meets asks [.dialledOnce]) (start n) tr s)
    (hok : Meets asks [.dialledOnce] s i e) (h : (client decode).fire s i e = some t)
    (hleave : Leaves n s t) (hu : Run (client decode) (Meets asks [.dialledOnce]) t tr' u) :
    Disconnected t u := by
  have hs : Single n s := hr.invariant (start_single n) fun _ _ _ _ hs hok h => fire_single hs hok h
  obtain ⟨hone, hdone, hclear⟩ := hs.left h hleave
  have hinv : Single n u ∧ u.shared.conns.length = 1 ∧ u.shared.closeOnce = .done ∧
      (t.shared.conn = none → u.shared.conn = none) := by
    refine hu.invariant (I := fun u => Single n u ∧ u.shared.conns.length = 1 ∧
      u.shared.closeOnce = .done ∧ (t.shared.conn = none → u.shared.conn = none))
      ⟨fire_single hs hok h, hone, hdone, id⟩ ?_
    rintro v j e w ⟨hv, hone, hdone, hnone⟩ hok hfire
    have hw := fire_single hv hok hfire
    obtain ⟨pc, pc', new, hi, hts, hd | ⟨rfl, hm⟩⟩ := step_moves hfire
    · have hconns := (spawned_at hv.placed hts hd).1
      have hle := hw.conns
      omega
    · refine ⟨hw, hm.conns.trans hone, hm.stays hdone, fun h => ?_⟩
      rcases hm.conn with heq | ⟨heq, -⟩
      · rw [heq, hnone h]
      · exact heq
  obtain ⟨hsu, -, hdone, hnone⟩ := hinv
  refine ⟨(hsu.done hdone).1, fun x hx pc hpc hwait => ?_⟩
  rcases hclear with hempty | hconn
  · have hcleared : Cleared t x := ⟨hx, fun p hp => by rw [hempty] at hp; cases hp⟩
    exact (hu.invariant hcleared fun _ _ _ _ hc _ h => fire_cleared hc h).gone
  · exact hsu.settled hdone (hnone hconn) pc hpc x hwait

end Runs

/-- The peer disconnects while a request waits for its answer; the `readLoop` has still to
fail the request. -/
def peerGone : List (Nat × Ev) := disconnected.dropLast

theorem peerGone_runs :
    (exec (client decodeAny) (Meets asks [.dialledOnce]) (start 1) peerGone).isSome := by decide

theorem peerGone_leaves :
    ((client decodeAny).fire (Option.get _ peerGone_runs) 1 .step).isSome := by
  decide

theorem left_disconnects_peerGone :
    Leaves 1 (Option.get _ peerGone_runs) (Option.get _ peerGone_leaves) ∧
      (Option.get _ peerGone_leaves).threads[0]? = some (.wait 0 (some 0)) ∧
      Disconnected (Option.get _ peerGone_leaves) (Option.get _ peerGone_leaves) := by
  have hleave : Leaves 1 (Option.get _ peerGone_runs) (Option.get _ peerGone_leaves) :=
    ⟨fun h => (by cases h), rfl⟩
  exact ⟨hleave, rfl, left_disconnects (run_exec peerGone_runs) (by decide)
    (Option.some_get peerGone_leaves).symm hleave .refl⟩

/-! ## Clients dialled again -/

/-- The peer disconnects, the client dials again and sends a request, and the peer
disconnects again. -/
def goneTwice : List (Nat × Ev) := redialled.dropLast

theorem goneTwice_runs : (exec (client decodeAny) Any (start 1) goneTwice).isSome := by decide

theorem goneTwice_leaves :
    ((client decodeAny).fire (Option.get _ goneTwice_runs) 2 .step).isSome := by
  decide

/-- Nothing is left of `closeOnce` for the second connection: the client stays connected, and
the request waits. -/
theorem redial_stays_connected :
    (¬ ∀ n tr s i e t tr' u, Run (client decodeAny) Any (start n) tr s →
      (client decodeAny).fire s i e = some t → Leaves n s t → Run (client decodeAny) Any t tr' u →
      u.shared.conns.length = t.shared.conns.length → u.shared.connected = false) ∧
    ¬ ∀ n tr s i e t tr' u, Run (client decodeAny) Any (start n) tr s →
      (client decodeAny).fire s i e = some t → Leaves n s t → Run (client decodeAny) Any t tr' u →
      u.shared.conns.length = t.shared.conns.length → ∀ x, Registered t x →
      ∀ pc ∈ u.threads, waitsFor pc = some x → ∀ p ∈ u.shared.pending.getD [], p.2 ≠ x := by
  have hfire := (Option.some_get goneTwice_leaves).symm
  have hleave : Leaves 1 (Option.get _ goneTwice_runs) (Option.get _ goneTwice_leaves) :=
    ⟨fun h => (by cases h), rfl⟩
  constructor
  · intro h
    have hoff := h 1 goneTwice _ 2 .step _ [] _ (run_exec goneTwice_runs) hfire hleave .refl rfl
    cases hoff
  · intro h
    have hregistered : Registered (Option.get _ goneTwice_leaves) 0 := by
      have hthreads : (Option.get _ goneTwice_leaves).threads =
          [.wait 0 (some 1), .readLoopLeft, .readLoopLeft] := rfl
      refine ⟨by decide, ?_⟩
      rw [hthreads]
      simp
    exact h 1 goneTwice _ 2 .step _ [] _ (run_exec goneTwice_runs) hfire hleave .refl rfl 0
      hregistered (.wait 0 (some 1)) List.mem_cons_self rfl (1, 0) List.mem_cons_self rfl

end RpcInGo.Tcp.Redial
