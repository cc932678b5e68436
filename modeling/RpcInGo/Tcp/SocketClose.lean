import RpcInGo.Lib.Observe
import RpcInGo.Tcp.Multiplex

/-!
Who closes the sockets that `tcp.Client` dials. `closeWithError`, which `readLoop` runs
when the peer disconnects, resets `connected` and leaves the socket open; `Close` does
nothing on a client that is not connected.

* `run_ledger`: in every run a socket is held by the client, or in the hands of one
  `Close`, or was closed once, and only one of them;
* `close_closes`: if no `Close` comes after the disconnect was noticed and no `Dial`
  follows on an open socket, every socket dialled before a `Close` has been closed exactly
  once when that `Close` has returned;
* `noticed_leaks`, `attention_needed`: otherwise it can stay open.
-/

namespace RpcInGo.Tcp.SocketClose
open Lib.Goroutine Lib.Observe Protocol.Message ClientModel Multiplex

variable {Value : Type}

/-- The calls of `Close` of a `net.Conn`, each named by its connection. -/
def socketCloses (s : Config Client (Pc Value)) (i : Nat) (e : Ev) : List Nat :=
  match s.threads[i]?, e with
  | some (.close (some m)), .closeOk => [m]
  | some (.close (some m)), .closeFailed _ => [m]
  | _, _ => []

/-! ## Where a socket is -/

/-- `Close` of the client, about to close socket `m`. -/
def closing (m : Nat) : Pc Value → Int
  | .close c => if c = some m then 1 else 0
  | _ => 0

/-- The client refers to socket `m`, or it was not dialled yet. -/
def held (g : Client) (m : Nat) : Int :=
  (if g.conn = some m then 1 else 0) + if m < g.conns.length then 0 else 1

theorem closing_nonneg (m : Nat) (pc : Pc Value) : 0 ≤ closing m pc := by
  unfold closing
  split
  · split <;> decide
  · decide

theorem held_nonneg (g : Client) (m : Nat) : 0 ≤ held g m := by
  unfold held
  split <;> split <;> decide

/-- A new socket takes the place of one that was not dialled yet. -/
theorem held_dial {g g' : Client} (hconn : g'.conn = some g.conns.length)
    (hconns : g'.conns = g.conns ++ [false]) (m : Nat) : held g' m ≤ held g m := by
  simp only [held, hconn, hconns, List.length_append, List.length_singleton, Option.some.injEq]
  split_ifs <;> omega

/-- What a step of a goroutine does to the sockets. -/
inductive Handles (g : Client) (pc : Pc Value) (e : Ev) (g' : Client) (pc' : Pc Value)
    (new : List (Pc Value)) : List Nat → Prop
  | none (hconn : g'.conn = g.conn) (hconns : g'.conns = g.conns)
      (hflag : g'.connected = true → g.connected = true)
      (h0 : ∀ m, closing m pc = 0) (h1 : ∀ m, closing m pc' = 0) (hnew : new = []) :
      Handles g pc e g' pc' new []
  | dials (he : ∃ remote, e = .dial remote) (hoff : g.connected = false)
      (hconn : g'.conn = some g.conns.length) (hconns : g'.conns = g.conns ++ [false])
      (h0 : ∀ m, closing m pc = 0) (h1 : ∀ m, closing m pc' = 0)
      (hnew : new = [.reading g.conns.length]) : Handles g pc e g' pc' new []
  | takes (hon : g.connected = true) (hconn : g'.conn = .none) (hconns : g'.conns = g.conns)
      (hflag : g'.connected = false) (h0 : ∀ m, closing m pc = 0) (h1 : pc' = .close g.conn)
      (hnew : new = []) : Handles g pc e g' pc' new []
  | closes (m : Nat) (hconn : g'.conn = g.conn) (hconns : g'.conns = g.conns.set m true)
      (hflag : g'.connected = g.connected) (h0 : pc = .close (some m))
      (h1 : ∀ m, closing m pc' = 0) (hnew : new = []) : Handles g pc e g' pc' new [m]

section Steps
variable {decode : CodecType → List UInt8 → Except GoError (Response Value)} {g g' : Client}
  {pc pc' : Pc Value} {e : Ev} {new : List (Pc Value)} {s t : Config Client (Pc Value)} {i : Nat}

theorem closing_after (k : Closing) (m : Nat) : closing m (k.after : Pc Value) = 0 := by
  cases k with
  | readLoop => rfl
  | close err => cases err <;> rfl

theorem socketCloses_other (hi : s.threads[i]? = some pc) (h0 : ∀ m, closing m pc = 0) :
    socketCloses s i e = [] := by
  cases pc with
  | close c =>
    cases c with
    | none => cases e <;> simp [socketCloses, hi]
    | some m =>
      have := h0 m
      simp [closing] at this
  | _ => simp [socketCloses, hi]

theorem fire_handles (h : (client decode).fire s i e = some t) :
    ∃ pc pc' new, s.threads[i]? = some pc ∧ t.threads = s.threads.set i pc' ++ new ∧
      Handles s.shared pc e t.shared pc' new (socketCloses s i e) := by
  obtain ⟨pc, g', pc', new, hi, rfl, hs⟩ := fire_client h
  refine ⟨pc, pc', new, hi, rfl, ?_⟩
  rcases hs with hs | hs | hs | hs | hs <;> revert hs
  · fun_cases dialStep s.shared pc e <;> intro h <;> try contradiction
    all_goals cases h
    all_goals rw [socketCloses_other hi fun _ => rfl]
    all_goals first
      | exact .none rfl rfl id (fun _ => rfl) (fun _ => rfl) rfl
      | exact .dials ⟨_, rfl⟩ (by simpa using ‹¬ s.shared.connected = true›) rfl rfl
          (fun _ => rfl) (fun _ => rfl) rfl
  · fun_cases sendStep decode s.shared pc e <;> intro h <;> try contradiction
    all_goals cases h
    all_goals rw [socketCloses_other hi fun _ => rfl]
    all_goals exact .none rfl rfl id (fun _ => rfl) (fun _ => rfl) rfl
  · fun_cases closeStep s.shared pc e <;> intro h <;> try contradiction
    all_goals cases h
    · rename_i hon
      rw [socketCloses_other hi fun _ => rfl]
      exact .takes hon rfl rfl rfl (fun _ => rfl) rfl rfl
    · rw [socketCloses_other hi fun _ => rfl]
      exact .none rfl rfl id (fun _ => rfl) (fun _ => rfl) rfl
    · rw [socketCloses_other hi fun _ => rfl]
      exact .none rfl rfl id (fun _ => rfl) (fun _ => rfl) rfl
    · rename_i m
      have hlog : socketCloses s i .closeOk = [m] := by simp [socketCloses, hi]
      rw [hlog]
      exact .closes m rfl rfl rfl rfl (fun _ => rfl) rfl
    · rename_i m err
      have hlog : socketCloses s i (.closeFailed err) = [m] := by simp [socketCloses, hi]
      rw [hlog]
      exact .closes m rfl rfl rfl rfl (fun _ => rfl) rfl
  · fun_cases readStep s.shared pc e <;> intro h <;> try contradiction
    all_goals cases h
    all_goals rw [socketCloses_other hi fun _ => rfl]
    all_goals exact .none rfl rfl id (fun _ => rfl) (fun _ => rfl) rfl
  · fun_cases onceStep s.shared pc e <;> intro h <;> try contradiction
    all_goals cases h
    all_goals rw [socketCloses_other hi fun _ => rfl]
    all_goals first
      | exact .none rfl rfl id (fun _ => rfl) (fun _ => rfl) rfl
      | exact .none rfl rfl (fun h => absurd h Bool.false_ne_true) (fun _ => rfl) (fun _ => rfl)
          rfl
      | exact .none rfl rfl id (fun _ => rfl) (closing_after _) rfl

end Steps

/-- The sockets and the calls that closed them. -/
structure Ledger (s : Config Client (Pc Value)) (log : List Nat) : Prop where
  once : ∀ m, (log.count m : Int) + total (closing m) s.threads + held s.shared m ≤ 1
  flags : ∀ (m : Nat) (b : Bool), s.shared.conns[m]? = some b → (b = true ↔ 0 < log.count m)
  front : s.shared.connected = true →
    ∃ m, s.shared.conn = some m ∧ m + 1 = s.shared.conns.length

section Runs
variable {decode : CodecType → List UInt8 → Except GoError (Response Value)}
  {s t : Config Client (Pc Value)} {i : Nat} {e : Ev} {log : List Nat}

/-- A socket in the hands of a `Close` was dialled and not closed. -/
theorem Ledger.of_closing {m : Nat} (hl : Ledger s log)
    (hi : s.threads[i]? = some (.close (some m))) :
    log.count m = 0 ∧ m < s.shared.conns.length ∧ total (closing m) s.threads = 1 ∧
      s.shared.conn ≠ some m := by
  have hle : closing m (.close (some m) : Pc Value) ≤ total (closing m) s.threads :=
    le_total_of_mem (closing_nonneg m) (List.mem_of_getElem? hi)
  have hone := hl.once m
  simp only [closing, ↓reduceIte] at hle
  unfold held at hone
  refine ⟨?_, ?_, ?_, ?_⟩
  · split at hone <;> split at hone <;> omega
  · by_contra hlt
    rw [if_neg hlt] at hone
    split at hone <;> omega
  · split at hone <;> split at hone <;> omega
  · intro hconn
    rw [if_pos hconn] at hone
    split at hone <;> omega

/-- A socket that was not dialled yet cannot have been closed. -/
theorem Ledger.undialled (hl : Ledger s log) {m : Nat} (h : ¬ m < s.shared.conns.length) :
    log.count m = 0 := by
  have hone := hl.once m
  have hnn : 0 ≤ total (closing m) s.threads := total_nonneg fun q _ => closing_nonneg m q
  unfold held at hone
  rw [if_neg h] at hone
  split at hone <;> omega

/-- The socket that a `Dial` adds was never closed. -/
theorem Ledger.flags_dialled (hl : Ledger s log) {m : Nat} {b : Bool}
    (hb : (s.shared.conns ++ [false])[m]? = some b) : b = true ↔ 0 < log.count m := by
  by_cases hlt : m < s.shared.conns.length
  · rw [List.getElem?_append_left hlt] at hb
    exact hl.flags m b hb
  · have hfalse : b = false := by
      rw [List.getElem?_append_right (by omega)] at hb
      have := List.mem_of_getElem? hb
      simpa using this
    simp [hfalse, hl.undialled hlt]

theorem Ledger.flags_closed (hl : Ledger s log) {m k : Nat} {b : Bool}
    (hlt : m < s.shared.conns.length) (hb : (s.shared.conns.set m true)[k]? = some b) :
    b = true ↔ 0 < (log ++ [m]).count k := by
  by_cases hk : m = k
  · subst hk
    rw [List.getElem?_set_self hlt] at hb
    cases hb
    simp
  · rw [List.getElem?_set_ne hk] at hb
    simpa [List.count_append, List.count_singleton, hk] using hl.flags k b hb

theorem fire_ledger (hl : Ledger s log) (h : (client decode).fire s i e = some t) :
    Ledger t (log ++ socketCloses s i e) := by
  obtain ⟨pc, pc', new, hi, hts, hstep⟩ := fire_handles h
  have hsum : ∀ m, total (closing m) t.threads = total (closing m) s.threads - closing m pc +
      closing m pc' + total (closing m) new := by
    intro m
    rw [hts, total_append, total_set _ _ hi]
  generalize hobs : socketCloses s i e = obs at hstep
  cases hstep with
  | none hconn hconns hflag h0 h1 hnew =>
    subst hnew
    refine ⟨fun m => ?_, ?_, fun hon => ?_⟩
    · have := hl.once m
      rw [hsum, h0, h1]
      simpa [held, hconn, hconns] using this
    · simpa [hconns] using hl.flags
    · rw [hconn, hconns]
      exact hl.front (hflag hon)
  | dials _ _ hconn hconns h0 h1 hnew =>
    subst hnew
    refine ⟨fun m => ?_, ?_, fun _ => ⟨_, hconn, by simp [hconns]⟩⟩
    · have hone := hl.once m
      have hle := held_dial hconn hconns m
      rw [hsum, h0, h1]
      simp only [List.append_nil, total_cons, total_nil, closing]
      omega
    · intro m b hb
      rw [hconns] at hb
      rw [List.append_nil]
      exact hl.flags_dialled hb
  | takes hon hconn hconns hflag h0 h1 hnew =>
    subst hnew
    subst h1
    refine ⟨fun m => ?_, by simpa [hconns] using hl.flags, fun hon' => ?_⟩
    · -- the socket passes from the client to the goroutine
      have hone := hl.once m
      rw [hsum, h0]
      simp only [held, hconn, hconns, closing, List.append_nil, total_nil] at hone ⊢
      simp only [reduceCtorEq, ↓reduceIte]
      omega
    · rw [hflag] at hon'
      cases hon'
  | closes m hconn hconns hflag h0 h1 hnew =>
    subst hnew
    subst h0
    obtain ⟨hzero, hlt, -, -⟩ := hl.of_closing hi
    refine ⟨fun k => ?_, fun k b hb => ?_, fun hon => ?_⟩
    · have hone := hl.once k
      rw [hsum, h1]
      simp only [held, hconn, hconns, closing, List.length_set, total_nil, List.count_append,
        List.count_singleton, Option.some.injEq, beq_iff_eq] at hone ⊢
      by_cases hk : m = k
      · subst hk
        simp only [↓reduceIte]
        push_cast
        omega
      · rw [if_neg hk, if_neg hk]
        push_cast
        omega
    · rw [hconns] at hb
      exact hl.flags_closed hlt hb
    · rw [hconn, hconns, List.length_set]
      exact hl.front (hflag.symm.trans hon)

theorem start_ledger (n : Nat) : Ledger (start n : Config Client (Pc Value)) [] := by
  refine ⟨fun m => ?_, ?_, nofun⟩
  · have hnone : total (closing m) (start n : Config Client (Pc Value)).threads = 0 := by
      apply total_eq_zero
      intro pc hpc
      rw [List.eq_of_mem_replicate hpc]
      rfl
    rw [hnone]
    simp [held, start, newClient]
  · intro m b hb
    simp [start, newClient] at hb

/-- The calls that closed a socket in a run. -/
abbrev closeLog (decode : CodecType → List UInt8 → Except GoError (Response Value)) (n : Nat)
    (tr : List (Nat × Ev)) : List Nat :=
  observe (client decode) socketCloses (start n) tr

theorem run_ledger {ok : Config Client (Pc Value) → Nat → Ev → Prop} {n : Nat}
    {tr : List (Nat × Ev)} (hr : Run (client decode) ok (start n) tr s) :
    Ledger s (closeLog decode n tr) :=
  run_observed hr (start_ledger n) fun _ _ _ _ _ hl _ h => fire_ledger hl h

/-- A socket that was closed stays so. -/
theorem fire_closed {m : Nat} (h : (client decode).fire s i e = some t)
    (hm : s.shared.conns[m]? = some true) : t.shared.conns[m]? = some true := by
  obtain ⟨hlt, -⟩ := List.getElem?_eq_some_iff.mp hm
  obtain ⟨pc, pc', new, -, -, hstep⟩ := fire_handles h
  generalize socketCloses s i e = obs at hstep
  cases hstep with
  | none _ hconns | takes _ _ hconns => rw [hconns, hm]
  | dials _ _ _ hconns => rw [hconns, List.getElem?_append_left hlt, hm]
  | closes k _ hconns =>
    rw [hconns, List.getElem?_set]
    split
    · simp_all
    · exact hm

end Runs

/-! ## The conditions -/

inductive Condition where
  /-- No `Close` on a client that is not connected while one of its sockets is open. -/
  | closedInTime
  /-- No `Dial` on such a client. -/
  | dialledAfterClose
  deriving DecidableEq

def attended (g : Client) : Bool := g.connected || g.conns.all id

def asks (c : Condition) (s : Config Client (Pc Value)) (_ : Nat) (e : Ev) : Bool :=
  match c, e with
  | .closedInTime, .callClose => attended s.shared
  | .dialledAfterClose, .dial _ => attended s.shared
  | _, _ => true

/-- Both conditions. -/
abbrev Attended : Config Client (Pc Value) → Nat → Ev → Prop :=
  Meets asks [.closedInTime, .dialledAfterClose]

/-- The sockets before the last one are closed. -/
def Behind (s : Config Client (Pc Value)) : Prop :=
  ∀ m, m + 1 < s.shared.conns.length → s.shared.conns[m]? = some true

section Runs
variable {decode : CodecType → List UInt8 → Except GoError (Response Value)} {n : Nat}
  {tr : List (Nat × Ev)} {s t : Config Client (Pc Value)} {i j : Nat} {e : Ev}

theorem closed_of_all {g : Client} (h : g.conns.all id = true) {m : Nat}
    (hm : m < g.conns.length) : g.conns[m]? = some true := by
  rw [List.getElem?_eq_getElem hm]
  exact congrArg some (List.all_eq_true.mp h _ (List.getElem_mem hm))

theorem fire_behind (hb : Behind s) (hok : Attended s i e)
    (h : (client decode).fire s i e = some t) : Behind t := by
  obtain ⟨pc, pc', new, -, -, hstep⟩ := fire_handles h
  intro m hm
  have hkeep : m + 1 < s.shared.conns.length → t.shared.conns[m]? = some true :=
    fun hm => fire_closed h (hb m hm)
  generalize socketCloses s i e = obs at hstep
  cases hstep with
  | none _ hconns | takes _ _ hconns =>
    rw [hconns] at hm
    exact hkeep hm
  | dials he hoff _ hconns =>
    obtain ⟨remote, rfl⟩ := he
    have hasks := hok .dialledAfterClose (by decide)
    have hall : s.shared.conns.all id = true := by
      simpa only [asks, attended, hoff, Bool.false_or] using hasks
    rw [hconns, List.length_append, List.length_singleton] at hm
    exact fire_closed h (closed_of_all hall (by omega))
  | closes k _ hconns =>
    rw [hconns, List.length_set] at hm
    exact hkeep hm

theorem run_behind (hr : Run (client decode) Attended (start n) tr s) : Behind s :=
  hr.invariant (fun _ h => absurd h (Nat.not_lt_zero _))
    fun _ _ _ _ hb hok h => fire_behind hb hok h

/-- `Close`, called by goroutine `i` on a client with `l` sockets, has closed them all or
is about to close the last one. -/
inductive Shutting (i l : Nat) (t : Config Client (Pc Value)) : Prop
  | shut (h : ∀ m < l, t.shared.conns[m]? = some true) : Shutting i l t
  | last (m : Nat) (hl : m + 1 = l) (hi : t.threads[i]? = some (.close (some m)))
      (h : ∀ k < m, t.shared.conns[k]? = some true) : Shutting i l t

/-- `Close` takes the socket of a connected client, and does nothing on any other. -/
theorem callClose_cases (h : (client decode).fire s i .callClose = some t) :
    (s.shared.connected = true ∧ t.shared.conns = s.shared.conns ∧
      t.threads[i]? = some (.close s.shared.conn)) ∨ s.shared.connected = false := by
  obtain ⟨pc, g', pc', new, hi, rfl, hs⟩ := fire_client h
  generalize he : Ev.callClose = e at hs
  rcases hs with hs | hs | hs | hs | hs <;> revert hs
  · fun_cases dialStep s.shared pc e <;> intro hs <;> cases hs <;> cases he
  · fun_cases sendStep decode s.shared pc e <;> intro hs <;> cases hs <;> cases he
  · fun_cases closeStep s.shared pc e <;> intro hs <;> cases hs <;> cases he
    · rename_i hon
      exact Or.inl ⟨hon, rfl, getElem?_fired_self _ hi⟩
    · rename_i hoff
      exact Or.inr (by simpa using hoff)
  · fun_cases readStep s.shared pc e <;> intro hs <;> cases hs <;> cases he
  · fun_cases onceStep s.shared pc e <;> intro hs <;> cases hs <;> cases he

/-- `Close` finds a client that is connected or whose sockets are all closed. -/
theorem callClose_shutting {log : List Nat} (hl : Ledger s log) (hb : Behind s)
    (hok : Attended s i .callClose) (h : (client decode).fire s i .callClose = some t) :
    Shutting i s.shared.conns.length t := by
  have hasks := hok .closedInTime (by decide)
  simp only [asks, attended, Bool.or_eq_true] at hasks
  obtain ⟨hon, hconns, hat⟩ | hoff := callClose_cases h
  · obtain ⟨m, hconn, hlast⟩ := hl.front hon
    rw [hconn] at hat
    refine .last m hlast hat fun k hk => ?_
    rw [hconns]
    exact hb k (by omega)
  · have hall : s.shared.conns.all id = true := by simpa [hoff] using hasks
    exact .shut fun m hm => fire_closed h (closed_of_all hall hm)

theorem fire_shutting {l : Nat} {log : List Nat} (hl : Ledger s log) (hsh : Shutting i l s)
    (h : (client decode).fire s j e = some t) : Shutting i l t := by
  cases hsh with
  | shut hall => exact .shut fun m hm => fire_closed h (hall m hm)
  | last m hm hi hall =>
    obtain ⟨pc, pc', new, hj, hts, hstep⟩ := fire_handles h
    by_cases hij : j = i
    · subst hij
      obtain rfl := Option.some.inj (hi.symm.trans hj)
      have hne : closing m (.close (some m) : Pc Value) ≠ 0 := by simp [closing]
      generalize hobs : socketCloses s j e = obs at hstep
      cases hstep with
      | none _ _ _ h0 | dials _ _ _ _ h0 | takes _ _ _ _ h0 => exact absurd (h0 m) hne
      | closes k _ hconns _ h0 =>
        cases h0
        refine .shut fun p hp => ?_
        by_cases hpm : p = m
        · subst hpm
          rw [hconns, List.getElem?_set_self (hl.of_closing hi).2.1]
        · exact fire_closed h (hall p (by omega))
    · refine .last m hm ?_ fun k hk => fire_closed h (hall k hk)
      rw [hts]
      exact getElem?_fired_other pc' hij hi

theorem run_shutting {ok : Config Client (Pc Value) → Nat → Ev → Prop} {l : Nat} {log : List Nat}
    (hr : Run (client decode) ok s tr t) (hl : Ledger s log) (hsh : Shutting i l s) :
    Shutting i l t := by
  have h := hr.invariant (I := fun s => (∃ log, Ledger s log) ∧ Shutting i l s) ⟨⟨log, hl⟩, hsh⟩ ?_
  · exact h.2
  · rintro s j e t ⟨⟨log, hl⟩, hsh⟩ - hf
    exact ⟨⟨_, fire_ledger hl hf⟩, fire_shutting hl hsh hf⟩

theorem run_closed {ok : Config Client (Pc Value) → Nat → Ev → Prop} {m : Nat}
    (hr : Run (client decode) ok s tr t) (hm : s.shared.conns[m]? = some true) :
    t.shared.conns[m]? = some true :=
  hr.invariant (I := fun s => s.shared.conns[m]? = some true) hm fun _ _ _ _ h _ hf =>
    fire_closed hf h

/-- A socket known to be closed was closed by one call. -/
theorem Ledger.count_eq_one {log : List Nat} {m : Nat} (hl : Ledger s log)
    (hm : s.shared.conns[m]? = some true) : log.count m = 1 := by
  have hpos := (hl.flags m true hm).mp rfl
  have hone := hl.once m
  have h1 : 0 ≤ total (closing m) s.threads := total_nonneg fun q _ => closing_nonneg m q
  have h2 := held_nonneg s.shared m
  omega

end Runs

/-- A `Close` is called by goroutine `i` in state `s` and has returned in state `t`. If no
`Close` and no `Dial` meets a client that is no longer connected with a socket still open,
then from `t` on every socket dialled before the call has been closed exactly once. -/
theorem close_closes {decode : CodecType → List UInt8 → Except GoError (Response Value)}
    {n i : Nat} {tr tr' tr'' : List (Nat × Ev)} {s s' t u : Config Client (Pc Value)}
    {r : Outcome Value} (hr : Run (client decode) Attended (start n) tr s)
    (hok : Attended s i .callClose) (hcall : (client decode).fire s i .callClose = some s')
    (hr' : Run (client decode) Attended s' tr' t) (hret : t.threads[i]? = some (.returned r))
    (hr'' : Run (client decode) Attended t tr'' u) :
    ∀ m < s.shared.conns.length,
      (closeLog decode n (tr ++ [(i, .callClose)] ++ tr' ++ tr'')).count m = 1 := by
  intro m hm
  have hs' : Run (client decode) Attended (start n) (tr ++ [(i, .callClose)]) s' :=
    .step hr hok hcall
  have hsh : Shutting i s.shared.conns.length t :=
    run_shutting hr' (run_ledger hs')
      (callClose_shutting (run_ledger hr) (run_behind hr) hok hcall)
  have hclosed : t.shared.conns[m]? = some true := by
    cases hsh with
    | shut hall => exact hall m hm
    | last k _ hi =>
      rw [hret] at hi
      cases hi
  exact (run_ledger ((hs'.trans hr').trans hr'')).count_eq_one (run_closed hr'' hclosed)

/-- A connection is closed in time and another one is dialled. -/
def inTime : List (Nat × Ev) :=
  [(0, .dial ""), (0, .callClose), (0, .closeOk), (1, .readFailed), (0, .step), (0, .step),
    (0, .step), (0, .step), (1, .step), (0, .dial "")]

/-- The peer disconnects while the second `Close` is at work. -/
def atWork : List (Nat × Ev) := [(2, .readFailed), (0, .closeOk), (0, .step)]

theorem inTime_runs : (exec (client decodeAny) Attended (start 1) inTime).isSome := by decide

theorem inTime_closes :
    ((client decodeAny).fire ((exec (client decodeAny) Attended (start 1) inTime).get inTime_runs) 0
      .callClose).isSome := by decide

theorem atWork_runs :
    (exec (client decodeAny) Attended (((client decodeAny).fire ((exec (client decodeAny) Attended
      (start 1) inTime).get inTime_runs) 0 .callClose).get inTime_closes) atWork).isSome := by
  decide

theorem close_closes_atWork :
    ((exec (client decodeAny) Attended (start 1) inTime).get inTime_runs).shared.conns =
      [true, false] ∧
    ∀ m < 2, (closeLog decodeAny 1 (inTime ++ [(0, .callClose)] ++ atWork ++ [])).count m = 1 :=
  ⟨by decide, close_closes (run_exec inTime_runs) (by decide) (Option.some_get inTime_closes).symm
    (run_exec atWork_runs) rfl .refl⟩

/-! ## What each condition is for -/

/-- The peer disconnects and `readLoop` notices. -/
def noticed : List (Nat × Ev) :=
  [(0, .dial ""), (1, .readFailed), (1, .step), (1, .step), (1, .step), (1, .step)]

theorem noticed_runs :
    (exec (client decodeAny) (Meets asks [.dialledAfterClose]) (start 1) noticed).isSome := by
  decide

theorem noticed_closes :
    ((client decodeAny).fire ((exec (client decodeAny) (Meets asks [.dialledAfterClose]) (start 1)
      noticed).get noticed_runs) 0 .callClose).isSome := by decide

/-- `Close` then returns without having closed the socket. -/
theorem noticed_leaks :
    ¬ ∀ (n i : Nat) (tr tr' : List (Nat × Ev)) (s s' t : Config Client (Pc Unit))
      (r : Outcome Unit), Run (client decodeAny) Any (start n) tr s →
      (client decodeAny).fire s i .callClose = some s' → Run (client decodeAny) Any s' tr' t →
      t.threads[i]? = some (.returned r) → ∀ m < s.shared.conns.length,
      (closeLog decodeAny n (tr ++ [(i, .callClose)] ++ tr')).count m = 1 := by
  intro h
  have hone := h 1 0 noticed [] _ _ _ _ ((run_exec noticed_runs).mono fun _ _ _ _ => trivial)
    (Option.some_get noticed_closes).symm .refl rfl 0 (by decide)
  exact absurd hone (by decide)

/-- The client dials again instead, and closes the second socket. -/
def dialledAgain : List (Nat × Ev) := noticed ++ [(0, .dial "")]

theorem dialledAgain_runs :
    (exec (client decodeAny) (Meets asks [.closedInTime]) (start 1) dialledAgain).isSome := by
  decide

theorem dialledAgain_closes :
    ((client decodeAny).fire ((exec (client decodeAny) (Meets asks [.closedInTime]) (start 1)
      dialledAgain).get dialledAgain_runs) 0 .callClose).isSome := by decide

theorem secondClosed_runs :
    (exec (client decodeAny) (Meets asks [.closedInTime]) (((client decodeAny).fire
      ((exec (client decodeAny) (Meets asks [.closedInTime]) (start 1) dialledAgain).get
        dialledAgain_runs) 0 .callClose).get dialledAgain_closes)
      [(0, .closeOk), (0, .step)]).isSome := by decide

/-- Neither condition can be dropped. -/
theorem attention_needed (c : Condition) :
    ¬ ∀ (n i : Nat) (tr tr' : List (Nat × Ev)) (s s' t : Config Client (Pc Unit))
      (r : Outcome Unit) (cs : List Condition),
      cs = [.closedInTime, .dialledAfterClose].erase c →
      Run (client decodeAny) (Meets asks cs) (start n) tr s → Meets asks cs s i .callClose →
      (client decodeAny).fire s i .callClose = some s' →
      Run (client decodeAny) (Meets asks cs) s' tr' t →
      t.threads[i]? = some (.returned r) → ∀ m < s.shared.conns.length,
      (closeLog decodeAny n (tr ++ [(i, .callClose)] ++ tr')).count m = 1 := by
  intro h
  cases c with
  | closedInTime =>
    have hone := h 1 0 noticed [] _ _ _ _ _ rfl (run_exec noticed_runs) (by decide)
      (Option.some_get noticed_closes).symm .refl rfl 0 (by decide)
    exact absurd hone (by decide)
  | dialledAfterClose =>
    have hone := h 1 0 dialledAgain _ _ _ _ _ _ rfl (run_exec dialledAgain_runs) (by decide)
      (Option.some_get dialledAgain_closes).symm (run_exec secondClosed_runs) rfl 0 (by decide)
    exact absurd hone (by decide)

end RpcInGo.Tcp.SocketClose
