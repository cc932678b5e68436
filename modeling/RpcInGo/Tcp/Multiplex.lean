import RpcInGo.Tcp.ClientModel

/-!
Many calls over one connection of `tcp.Client`, under every interleaving of
callers, cancellations, `readLoop`, `Close` and `closeWithError`.

* `clientStep_effect`: what one step does to the calls, the frames and the
  `pending` map;
* `run_multiplexed`: in every run a call is waiting to be inserted, or pending,
  or being delivered, or done, and only one of them; and so is a frame;
* `multiplex_correct`: no `done` channel is closed twice, a call is answered
  from a frame that carries its own ID, no frame completes two calls, and until
  the counter wraps no two calls have the same ID.
-/

namespace RpcInGo.Tcp.Multiplex
open Lib.Goroutine Protocol.Message ClientModel

variable {Value : Type}

/-! ## Where a call and a frame are -/

/-- The goroutine will insert call `x` in `pending`, or close its `done`. -/
def holds (x : Nat) : Pc Value → Int
  | .insert y | .deliver _ _ y => if y = x then 1 else 0
  | _ => 0

/-- The goroutine may complete a call with frame `n`. -/
def carries (n : Nat) : Pc Value → Int
  | .lookup _ m | .deliver _ m _ => if m = n then 1 else 0
  | _ => 0

def closesOf (g : Client) (x : Nat) : Int :=
  match g.calls[x]? with
  | none => 1
  | some c => c.closes

/-- A call that does not exist yet counts as used up, so that the bound below
says that nobody refers to it. -/
def loadOf (g : Client) (x : Nat) : Int :=
  closesOf g x + (g.pending.getD []).countP (fun p => p.2 = x)

def completes (n : Nat) (c : PendingCall) : Int := if c.completedBy = some n then 1 else 0

def useOf (g : Client) (n : Nat) : Int :=
  total (completes n) g.calls + if n < g.frames.length then 0 else 1

/-- The call has what frame `n` says. -/
def FromFrame (g : Client) (c : PendingCall) (n : Nat) : Prop :=
  ∃ f : Frame, g.frames[n]? = some f ∧ f.header.requestID = c.id ∧ c.respBody = f.body ∧
    c.respCodec = f.header.codec

structure CallOk (g : Client) (c : PendingCall) : Prop where
  frame : ∀ n, c.completedBy = some n → FromFrame g c n
  closed : 0 < c.closes → c.err.isSome ∨ c.completedBy.isSome

/-- Call `x` exists and has this ID. -/
def HasID (g : Client) (x : Nat) (id : UInt64) : Prop := ∃ c, g.calls[x]? = some c ∧ c.id = id

def PcOk (decode : CodecType → List UInt8 → Except GoError (Response Value)) (g : Client) :
    Pc Value → Prop
  | .insert x => x < g.calls.length
  | .deliver _ n x => ∃ f : Frame, g.frames[n]? = some f ∧ HasID g x f.header.requestID
  | .returned (.answered x resp) =>
    ∃ (n : Nat) (f : Frame), g.frames[n]? = some f ∧ HasID g x f.header.requestID ∧
      decode f.header.codec f.body = .ok resp
  | _ => True

/-- What holds of the client alone. -/
structure ClientOk (g : Client) : Prop where
  next : g.nextID = UInt64.ofNat g.calls.length
  ids : ∀ (x : Nat) (c : PendingCall), g.calls[x]? = some c → c.id = UInt64.ofNat (x + 1)
  keyed : ∀ p ∈ g.pending.getD [], HasID g p.2 p.1
  calls : ∀ c ∈ g.calls, CallOk g c

/-! ## One step -/

/-- Calls keep their IDs and frames stay. -/
structure Grows (g g' : Client) : Prop where
  ids : ∀ x id, HasID g x id → HasID g' x id
  frames : ∀ (n : Nat) (f : Frame), g.frames[n]? = some f → g'.frames[n]? = some f
  length : g.calls.length ≤ g'.calls.length

structure Effect (decode : CodecType → List UInt8 → Except GoError (Response Value)) (g : Client)
    (pc : Pc Value) (g' : Client) (pc' : Pc Value) (new : List (Pc Value)) : Prop where
  grows : Grows g g'
  ok : ClientOk g'
  load : ∀ x, loadOf g' x + (holds x pc' + total (holds x) new) ≤ loadOf g x + holds x pc
  use : ∀ n, useOf g' n + (carries n pc' + total (carries n) new) ≤ useOf g n + carries n pc
  next : PcOk decode g' pc' ∧ ∀ q ∈ new, PcOk decode g' q

theorem holds_nonneg (x : Nat) (pc : Pc Value) : 0 ≤ holds x pc := by
  unfold holds
  split <;> first | (split <;> decide) | decide

theorem carries_nonneg (n : Nat) (pc : Pc Value) : 0 ≤ carries n pc := by
  unfold carries
  split <;> first | (split <;> decide) | decide

theorem PcOk.mono {decode : CodecType → List UInt8 → Except GoError (Response Value)}
    {g g' : Client} (hg : Grows g g') {pc : Pc Value} (h : PcOk decode g pc) :
    PcOk decode g' pc := by
  unfold PcOk at h ⊢
  split
  · exact lt_of_lt_of_le h hg.length
  · obtain ⟨f, hf, hid⟩ := h
    exact ⟨f, hg.frames _ f hf, hg.ids _ _ hid⟩
  · obtain ⟨n, f, hf, hid, hd⟩ := h
    exact ⟨n, f, hg.frames n f hf, hg.ids _ _ hid, hd⟩
  · trivial

section Steps
variable {decode : CodecType → List UInt8 → Except GoError (Response Value)} {g g' : Client}
  {pc pc' : Pc Value} {e : Ev} {new : List (Pc Value)}

/-- A step that leaves the calls and the frames alone, and `pending` too or
smaller. -/
theorem Effect.quiet (hok : ClientOk g) (hnext : g'.nextID = g.nextID)
    (hcalls : g'.calls = g.calls) (hframes : g'.frames = g.frames)
    (hpend : (g'.pending.getD []).Sublist (g.pending.getD []))
    (hh : ∀ x, holds x pc' + total (holds x) new = 0)
    (hc : ∀ n, carries n pc' + total (carries n) new ≤ carries n pc)
    (hpc : PcOk decode g' pc' ∧ ∀ q ∈ new, PcOk decode g' q) :
    Effect decode g pc g' pc' new := by
  have hid : ∀ x id, HasID g' x id ↔ HasID g x id := by
    intro x id
    simp only [HasID, hcalls]
  refine ⟨⟨fun x id => (hid x id).mpr, ?_, ?_⟩, ⟨?_, ?_, ?_, ?_⟩, ?_, ?_, hpc⟩
  · intro n f hf
    rwa [hframes]
  · rw [hcalls]
  · rw [hnext, hcalls]
    exact hok.next
  · rw [hcalls]
    exact hok.ids
  · intro p hp
    exact (hid _ _).mpr (hok.keyed p (hpend.subset hp))
  · intro c hmem
    rw [hcalls] at hmem
    obtain ⟨hf, hcl⟩ := hok.calls c hmem
    refine ⟨?_, hcl⟩
    intro n hn
    simpa only [FromFrame, hframes] using hf n hn
  · intro x
    have := holds_nonneg x pc
    have := hh x
    have hle := hpend.countP_le (p := fun p : UInt64 × Nat => p.2 = x)
    simp only [loadOf, closesOf, hcalls] at hle ⊢
    omega
  · intro n
    have := hc n
    simp only [useOf, hcalls, hframes]
    omega

theorem deleteID_sublist (g : Client) (id : UInt64) :
    ((g.deleteID id).pending.getD []).Sublist (g.pending.getD []) := by
  unfold Client.deleteID
  cases g.pending with
  | none => exact List.Sublist.refl _
  | some m => exact List.filter_sublist

theorem hasID_lt {x : Nat} {id : UInt64} (h : HasID g x id) : x < g.calls.length := by
  obtain ⟨c, hc, -⟩ := h
  exact (List.getElem?_eq_some_iff.mp hc).1

/-- A new call: nothing refers to it but its caller. -/
theorem sendRequest_effect {r : Outcome Value} (hok : ClientOk g) :
    Effect decode g (.returned r)
      { g with nextID := g.nextID + 1, calls := g.calls ++ [newPendingCall (g.nextID + 1)] }
      (.insert g.calls.length) [] := by
  have hgrow : ∀ x id, HasID g x id → HasID { g with
      nextID := g.nextID + 1
      calls := g.calls ++ [newPendingCall (g.nextID + 1)] } x id := by
    rintro x id ⟨c, hc, rfl⟩
    refine ⟨c, ?_, rfl⟩
    rw [List.getElem?_append_left (List.getElem?_eq_some_iff.mp hc).1]
    exact hc
  have hnext : g.nextID + 1 = UInt64.ofNat (g.calls.length + 1) := by
    rw [hok.next, UInt64.ofNat_add]
    rfl
  refine ⟨⟨hgrow, fun _ _ h => h, by simp⟩, ⟨?_, ?_, ?_, ?_⟩, ?_, ?_, ?_, by simp⟩
  · simpa using hnext
  · intro x c hc
    rcases Nat.lt_trichotomy x g.calls.length with hlt | rfl | hgt
    · rw [List.getElem?_append_left hlt] at hc
      exact hok.ids x c hc
    · simp at hc
      subst hc
      exact hnext
    · rw [List.getElem?_eq_none (by simp; omega)] at hc
      cases hc
  · intro p hp
    exact hgrow _ _ (hok.keyed p hp)
  · intro c hc
    rcases List.mem_append.mp hc with hc | hc
    · exact ⟨(hok.calls c hc).frame, (hok.calls c hc).closed⟩
    · rw [List.mem_singleton] at hc
      subst hc
      exact ⟨by simp [newPendingCall], by simp [newPendingCall]⟩
  · intro x
    simp only [loadOf, closesOf, holds, total_nil]
    rcases Nat.lt_trichotomy x g.calls.length with hlt | rfl | hgt
    · rw [List.getElem?_append_left hlt]
      simp [Nat.ne_of_gt hlt]
    · simp [newPendingCall, Int.add_comm]
    · rw [List.getElem?_eq_none (by simp; omega), List.getElem?_eq_none (by omega)]
      simp [Nat.ne_of_lt hgt]
  · intro n
    simp [useOf, carries, completes, newPendingCall]
  · simp [PcOk]

theorem callID_of_lt {x : Nat} (hx : x < g.calls.length) : HasID g x (g.callID x) := by
  refine ⟨g.calls[x], List.getElem?_eq_getElem hx, ?_⟩
  simp [Client.callID, hx]

/-- The call moves from its caller's hands into `pending`. -/
theorem insert_effect {x : Nat} {m : List (UInt64 × Nat)} (hok : ClientOk g)
    (hm : g.pending = some m) (hx : x < g.calls.length) :
    Effect decode g (.insert x)
      { g with pending := some ((g.callID x, x) :: m.filter fun p => p.1 ≠ g.callID x) }
      (.write x) [] := by
  refine ⟨⟨fun _ _ h => h, fun _ _ h => h, le_refl _⟩, ⟨hok.next, hok.ids, ?_, ?_⟩, ?_, ?_,
    trivial, by simp⟩
  · intro p hp
    rcases List.mem_cons.mp hp with rfl | hp
    · exact callID_of_lt hx
    · refine hok.keyed p ?_
      rw [hm]
      exact List.mem_of_mem_filter hp
  · exact fun c hc => ⟨(hok.calls c hc).frame, (hok.calls c hc).closed⟩
  · intro y
    have hle := (List.filter_sublist (l := m) (p := fun p => p.1 ≠ g.callID x)).countP_le
      (p := fun p : UInt64 × Nat => p.2 = y)
    simp only [loadOf, closesOf, holds, hm, Option.getD_some, List.countP_cons, total_nil,
      decide_eq_true_eq] at hle ⊢
    split_ifs <;> omega
  · intro n
    simp [useOf, carries]

theorem frame_effect {k : Nat} {f : Frame} (hok : ClientOk g) :
    Effect decode g (.reading k) { g with frames := g.frames ++ [f] } (.lookup k g.frames.length)
      [] := by
  have hgrow : ∀ (n : Nat) (f' : Frame), g.frames[n]? = some f' →
      (g.frames ++ [f])[n]? = some f' := by
    intro n f' hn
    rw [List.getElem?_append_left (List.getElem?_eq_some_iff.mp hn).1]
    exact hn
  refine ⟨⟨fun _ _ h => h, hgrow, le_refl _⟩, ⟨hok.next, hok.ids, hok.keyed, ?_⟩, ?_, ?_,
    trivial, by simp⟩
  · intro c hc
    refine ⟨?_, (hok.calls c hc).closed⟩
    intro n hn
    obtain ⟨f', hf, hrest⟩ := (hok.calls c hc).frame n hn
    exact ⟨f', hgrow n f' hf, hrest⟩
  · intro x
    simp [loadOf, closesOf, holds]
  · intro n
    simp only [useOf, carries, List.length_append, List.length_cons, List.length_nil, total_nil]
    split_ifs <;> omega

/-- Deleting an ID removes the entry that was found under it. -/
theorem countP_delete {m : List (UInt64 × Nat)} {p : UInt64 × Nat} (hp : p ∈ m) (x : Nat) :
    (m.filter fun q => q.1 ≠ p.1).countP (fun q => q.2 = x) + (if p.2 = x then 1 else 0) ≤
      m.countP (fun q => q.2 = x) := by
  induction m with
  | nil => simp at hp
  | cons q m ih =>
    have hsub := (List.filter_sublist (l := m) (p := fun q => q.1 ≠ p.1)).countP_le
      (p := fun q : UInt64 × Nat => q.2 = x)
    rcases List.mem_cons.mp hp with rfl | hp
    · simp only [ne_eq, not_true_eq_false, decide_false, Bool.false_eq_true, not_false_eq_true,
        List.filter_cons_of_neg, List.countP_cons, decide_eq_true_eq] at hsub ⊢
      omega
    · have := ih hp
      by_cases hq : q.1 = p.1
      · simp only [hq, ne_eq, not_true_eq_false, decide_false, Bool.false_eq_true,
          not_false_eq_true, List.filter_cons_of_neg, List.countP_cons] at this ⊢
        omega
      · simp only [hq, ne_eq, not_false_eq_true, decide_true, List.filter_cons_of_pos,
          List.countP_cons] at this ⊢
        omega

/-- The call is taken out of `pending` by the frame that carries its ID. -/
theorem lookup_effect {k n : Nat} {f : Frame} {p : UInt64 × Nat} (hok : ClientOk g)
    (hf : g.frames[n]? = some f)
    (hp : (g.pending.getD []).find? (fun p => p.1 = f.header.requestID) = some p) :
    Effect decode g (.lookup k n) (g.deleteID f.header.requestID) (.deliver k n p.2) [] := by
  have hmem := List.mem_of_find?_eq_some hp
  have hkey : p.1 = f.header.requestID := by simpa using List.find?_some hp
  have hid := hok.keyed p hmem
  obtain ⟨m, hm⟩ : ∃ m, g.pending = some m := by
    cases h : g.pending with
    | none => simp [h] at hmem
    | some m => exact ⟨m, rfl⟩
  refine ⟨⟨fun _ _ h => h, fun _ _ h => h, le_refl _⟩, ⟨hok.next, hok.ids, ?_, ?_⟩, ?_, ?_, ?_,
    by simp⟩
  · intro q hq
    exact hok.keyed q ((deleteID_sublist g _).subset hq)
  · exact fun c hc => ⟨(hok.calls c hc).frame, (hok.calls c hc).closed⟩
  · intro x
    -- the entry that was found is gone
    have hdel := countP_delete (m := m) (p := p) (by simpa [hm] using hmem) x
    rw [hkey] at hdel
    simp only [loadOf, closesOf, holds, Client.deleteID, hm, Option.map_some, Option.getD_some,
      total_nil]
    split_ifs at hdel ⊢ <;> omega
  · intro j
    simp [useOf, carries, Client.deleteID]
  · exact ⟨f, hf, by rw [← hkey]; exact hid⟩

/-- Changing calls without touching their IDs, and without making any of them
wrong. -/
theorem ClientOk.update (hok : ClientOk g) (calls : List PendingCall) (o : Once)
    (m : Option (List (UInt64 × Nat))) (hlen : calls.length = g.calls.length)
    (hid : ∀ (x : Nat) (c' : PendingCall), calls[x]? = some c' →
      ∃ c, g.calls[x]? = some c ∧ c'.id = c.id)
    (hcall : ∀ c ∈ calls, CallOk g c)
    (hm : ∀ p ∈ m.getD [], p ∈ g.pending.getD []) :
    Grows g { g with calls := calls, pending := m, closeOnce := o } ∧
    ClientOk { g with calls := calls, pending := m, closeOnce := o } := by
  have hback : ∀ x id, HasID g x id →
      HasID { g with calls := calls, pending := m, closeOnce := o } x id := by
    intro x id h
    have hlt := hasID_lt h
    rw [← hlen] at hlt
    obtain ⟨c, hc, hcid⟩ := hid x calls[x] (List.getElem?_eq_getElem hlt)
    obtain ⟨c', hc', rfl⟩ := h
    rw [hc] at hc'
    cases hc'
    exact ⟨calls[x], List.getElem?_eq_getElem hlt, hcid⟩
  refine ⟨⟨hback, fun _ _ h => h, hlen.symm.le⟩, ?_, ?_, ?_, ?_⟩
  · show g.nextID = _
    rw [hok.next]
    show _ = UInt64.ofNat calls.length
    rw [hlen]
  · intro x c' hc'
    obtain ⟨c, hc, hcid⟩ := hid x c' hc'
    rw [hcid]
    exact hok.ids x c hc
  · intro p hp
    exact hback _ _ (hok.keyed p (hm p hp))
  · intro c hc
    exact ⟨(hcall c hc).frame, (hcall c hc).closed⟩

/-- `close(call.done)` after the body and the codec of the frame were stored. -/
theorem deliver_effect {k n x : Nat} {f : Frame} (hok : ClientOk g) (hf : g.frames[n]? = some f)
    (hx : HasID g x f.header.requestID) :
    Effect decode g (.deliver k n x)
      { g with calls := g.calls.modify x fun c =>
          { c with respBody := f.body, respCodec := f.header.codec, closes := c.closes + 1,
                   completedBy := some n } }
      (.reading k) [] := by
  obtain ⟨c, hc, hcid⟩ := hx
  obtain ⟨hlt, -⟩ := List.getElem?_eq_some_iff.mp hc
  let d : PendingCall :=
    { c with respBody := f.body, respCodec := f.header.codec, closes := c.closes + 1,
             completedBy := some n }
  have hset : (g.calls.modify x fun c =>
      { c with respBody := f.body, respCodec := f.header.codec, closes := c.closes + 1,
               completedBy := some n }) = g.calls.set x d := by
    rw [List.modify_eq_set_getElem?, hc]
    rfl
  rw [hset]
  have hupd := hok.update (g.calls.set x d) g.closeOnce g.pending (by simp) ?_ ?_ (fun p hp => hp)
  · refine ⟨hupd.1, hupd.2, ?_, ?_, trivial, by simp⟩
    · intro y
      simp only [loadOf, closesOf, holds, total_nil]
      by_cases hy : x = y
      · subst hy
        rw [List.getElem?_set_self hlt, hc]
        simp only [d, ↓reduceIte]
        omega
      · simp [hy]
    · intro j
      have hj := carries_nonneg j (.deliver k n x : Pc Value)
      simp only [useOf, total_set _ _ hc, carries, completes, d, Option.some.injEq, total_nil]
        at hj ⊢
      split_ifs <;> omega
  · intro y c' hc'
    by_cases hy : x = y
    · subst hy
      rw [List.getElem?_set_self hlt] at hc'
      cases hc'
      exact ⟨c, hc, rfl⟩
    · rw [List.getElem?_set_ne hy] at hc'
      exact ⟨c', hc', rfl⟩
  · intro c' hc'
    rcases List.mem_or_eq_of_mem_set hc' with hc' | rfl
    · exact hok.calls c' hc'
    · refine ⟨?_, fun _ => Or.inr rfl⟩
      intro j hj
      cases hj
      exact ⟨f, hf, hcid.symm, rfl, rfl⟩

/-! ### `closeWithError` -/

theorem failAll_cons (err : GoError) (p : UInt64 × Nat) (m : List (UInt64 × Nat))
    (calls : List PendingCall) :
    failAll err (p :: m) calls = failAll err m (calls.modify p.2 (.fail err)) := rfl

theorem failAll_length (err : GoError) (m : List (UInt64 × Nat)) (calls : List PendingCall) :
    (failAll err m calls).length = calls.length := by
  induction m generalizing calls with
  | nil => rfl
  | cons p m ih => rw [failAll_cons, ih, List.length_modify]

theorem failAll_getElem? (err : GoError) (m : List (UInt64 × Nat)) (calls : List PendingCall)
    (x : Nat) :
    (failAll err m calls)[x]? = calls[x]?.map fun c =>
      { c with closes := c.closes + m.countP (fun p => p.2 = x),
               err := if m.countP (fun p => p.2 = x) = 0 then c.err else some err } := by
  induction m generalizing calls with
  | nil => simp [failAll]
  | cons p m ih =>
    rw [failAll_cons, ih, List.getElem?_modify]
    cases calls[x]? with
    | none => rfl
    | some c =>
      by_cases hp : p.2 = x
      · have hcount : (p :: m).countP (fun p => p.2 = x) = m.countP (fun p => p.2 = x) + 1 := by
          simp [hp]
        rw [hcount]
        simp [hp, PendingCall.fail]
        omega
      · have hcount : (p :: m).countP (fun p => p.2 = x) = m.countP (fun p => p.2 = x) := by
          simp [hp]
        rw [hcount]
        simp [hp]

theorem failAll_completedBy (err : GoError) (m : List (UInt64 × Nat)) (calls : List PendingCall)
    (n : Nat) : total (completes n) (failAll err m calls) = total (completes n) calls := by
  induction m generalizing calls with
  | nil => rfl
  | cons p m ih =>
    rw [failAll_cons, ih]
    cases hc : calls[p.2]? with
    | none => rw [List.modify_eq_self (List.getElem?_eq_none_iff.mp hc)]
    | some c =>
      rw [List.modify_eq_set_getElem?, hc]
      simp [total_set _ _ hc, completes, PendingCall.fail]

theorem after_holds (k : Closing) (x : Nat) : holds x (k.after : Pc Value) = 0 := by
  cases k with
  | readLoop => rfl
  | close e => cases e <;> rfl

theorem after_carries (k : Closing) (n : Nat) : carries n (k.after : Pc Value) = 0 := by
  cases k with
  | readLoop => rfl
  | close e => cases e <;> rfl

theorem after_ok (k : Closing) : PcOk decode g (k.after : Pc Value) := by
  cases k with
  | readLoop => trivial
  | close e => cases e <;> trivial

theorem onceFail_effect {k : Closing} (hok : ClientOk g) :
    Effect decode g (.onceFail k : Pc Value)
      { g with calls := failAll errClosed (g.pending.getD []) g.calls,
               pending := g.pending.map fun _ => [], closeOnce := .done } k.after [] := by
  have hget := failAll_getElem? errClosed (g.pending.getD []) g.calls
  have hpend : (g.pending.map fun _ => ([] : List (UInt64 × Nat))).getD [] = [] := by
    cases g.pending <;> rfl
  have hupd := hok.update (failAll errClosed (g.pending.getD []) g.calls) .done
    (g.pending.map fun _ => []) (failAll_length _ _ _) ?_ ?_ ?_
  · refine ⟨hupd.1, hupd.2, ?_, ?_, ?_, by simp⟩
    · intro x
      rw [after_holds]
      simp only [loadOf, closesOf, hpend, hget, holds, total_nil, List.countP_nil]
      cases g.calls[x]? with
      | none =>
        simp only [Option.map_none]
        omega
      | some c =>
        simp only [Option.map_some]
        omega
    · intro n
      rw [after_carries]
      simp [useOf, failAll_completedBy, carries]
    · exact after_ok k
  · intro x c' hc'
    rw [hget] at hc'
    obtain ⟨c, hc, rfl⟩ := Option.map_eq_some_iff.mp hc'
    exact ⟨c, hc, rfl⟩
  · intro c' hc'
    obtain ⟨x, hx⟩ := List.mem_iff_getElem?.mp hc'
    rw [hget] at hx
    obtain ⟨c, hc, rfl⟩ := Option.map_eq_some_iff.mp hx
    have hcall := hok.calls c (List.mem_of_getElem? hc)
    refine ⟨hcall.frame, ?_⟩
    intro hpos
    simp only at hpos ⊢
    split
    · rename_i h0
      exact hcall.closed (by omega)
    · exact Or.inl rfl
  · intro p hp
    rw [hpend] at hp
    simp at hp

/-! ### All steps -/

/-- A step that changes none of calls, frames and `pending`, to a point that
holds no call and carries no frame. -/
theorem Effect.idle (hok : ClientOk g) (hnext : g'.nextID = g.nextID)
    (hcalls : g'.calls = g.calls) (hframes : g'.frames = g.frames)
    (hpend : g'.pending = g.pending) (hh : ∀ x, holds x pc' = 0) (hc : ∀ n, carries n pc' = 0)
    (hpc : PcOk decode g' pc') : Effect decode g pc g' pc' [] := by
  refine .quiet hok hnext hcalls hframes (by rw [hpend]) ?_ ?_ ⟨hpc, by simp⟩
  · intro x
    simp [hh]
  · intro n
    simpa [hc] using carries_nonneg n pc

theorem dialStep_effect (h : dialStep g pc e = some (g', pc', new)) (hok : ClientOk g) :
    Effect decode g pc g' pc' new := by
  revert h
  fun_cases dialStep g pc e <;> intro h <;> try contradiction
  all_goals cases h
  all_goals first
    | exact .idle hok rfl rfl rfl rfl (fun _ => rfl) (fun _ => rfl) trivial
    | exact .quiet hok rfl rfl rfl (List.nil_sublist _) (by simp [holds]) (by simp [carries])
        ⟨trivial, by simp [PcOk]⟩

theorem sendStep_effect (h : sendStep decode g pc e = some (g', pc', new)) (hok : ClientOk g)
    (hpc : PcOk decode g pc) : Effect decode g pc g' pc' new := by
  revert h
  fun_cases sendStep decode g pc e <;> intro h <;> try contradiction
  all_goals cases h
  all_goals first
    | exact sendRequest_effect hok
    | exact insert_effect hok (by assumption) hpc
    | exact .idle hok rfl rfl rfl rfl (fun _ => rfl) (fun _ => rfl) trivial
    | exact .quiet hok rfl rfl rfl (deleteID_sublist g _) (by simp [holds]) (by simp [carries])
        ⟨trivial, by simp⟩
    | skip
  -- the call is done without an error, so a frame completed it
  rename_i x ch c hc hcl herr resp hd
  refine .idle hok rfl rfl rfl rfl (fun _ => rfl) (fun _ => rfl) ?_
  obtain ⟨hframe, hclosed⟩ := hok.calls c (List.mem_of_getElem? hc)
  rcases hclosed (Nat.pos_of_ne_zero hcl) with he | hby
  · rw [herr] at he
    cases he
  · obtain ⟨n, hn⟩ := Option.isSome_iff_exists.mp hby
    obtain ⟨f, hf, hid, hbody, hcodec⟩ := hframe n hn
    refine ⟨n, f, hf, ⟨c, hc, hid.symm⟩, ?_⟩
    rw [← hcodec, ← hbody]
    exact hd

theorem closeStep_effect (h : closeStep g pc e = some (g', pc', new)) (hok : ClientOk g) :
    Effect decode g pc g' pc' new := by
  revert h
  fun_cases closeStep g pc e <;> intro h <;> try contradiction
  all_goals
    cases h
    exact .idle hok rfl rfl rfl rfl (fun _ => rfl) (fun _ => rfl) trivial

theorem readStep_effect (h : readStep g pc e = some (g', pc', new)) (hok : ClientOk g)
    (hpc : PcOk decode g pc) : Effect decode g pc g' pc' new := by
  revert h
  fun_cases readStep g pc e <;> intro h <;> try contradiction
  all_goals cases h
  all_goals first
    | exact frame_effect hok
    | exact .idle hok rfl rfl rfl rfl (fun _ => rfl) (fun _ => rfl) trivial
    | exact lookup_effect hok (by assumption) (by assumption)
    | skip
  rename_i k n x f hf
  obtain ⟨f', hf', hid⟩ := hpc
  rw [hf] at hf'
  cases hf'
  exact deliver_effect hok hf hid

theorem onceStep_effect (h : onceStep g pc e = some (g', pc', new)) (hok : ClientOk g) :
    Effect decode g pc g' pc' new := by
  revert h
  fun_cases onceStep g pc e <;> intro h <;> try contradiction
  all_goals cases h
  all_goals first
    | exact onceFail_effect hok
    | exact .idle hok rfl rfl rfl rfl (fun _ => rfl) (fun _ => rfl) trivial
    | exact .idle hok rfl rfl rfl rfl (after_holds _) (after_carries _) (after_ok _)

end Steps

/-! ## Every run -/

structure Multiplexed (decode : CodecType → List UInt8 → Except GoError (Response Value))
    (s : Config Client (Pc Value)) : Prop where
  ok : ClientOk s.shared
  load : ∀ x, loadOf s.shared x + total (holds x) s.threads ≤ 1
  use : ∀ n, useOf s.shared n + total (carries n) s.threads ≤ 1
  points : ∀ pc ∈ s.threads, PcOk decode s.shared pc

section Runs
variable {decode : CodecType → List UInt8 → Except GoError (Response Value)}
  {s t : Config Client (Pc Value)} {i n : Nat} {e : Ev} {tr : List (Nat × Ev)}

theorem clientStep_effect (hm : Multiplexed decode s) (h : (client decode).fire s i e = some t) :
    ∃ pc pc' new, s.threads[i]? = some pc ∧ t.threads = s.threads.set i pc' ++ new ∧
      Effect decode s.shared pc t.shared pc' new := by
  obtain ⟨pc, g', pc', new, hi, rfl, hs⟩ := fire_client h
  have hpc := hm.points pc (List.mem_of_getElem? hi)
  refine ⟨pc, pc', new, hi, rfl, ?_⟩
  rcases hs with h | h | h | h | h
  · exact dialStep_effect h hm.ok
  · exact sendStep_effect h hm.ok hpc
  · exact closeStep_effect h hm.ok
  · exact readStep_effect h hm.ok hpc
  · exact onceStep_effect h hm.ok

theorem fire_multiplexed (hm : Multiplexed decode s) (h : (client decode).fire s i e = some t) :
    Multiplexed decode t := by
  obtain ⟨pc, pc', new, hi, hthreads, heff⟩ := clientStep_effect hm h
  refine ⟨heff.ok, ?_, ?_, ?_⟩
  · intro x
    have := heff.load x
    have := hm.load x
    rw [hthreads, total_append, total_set _ _ hi]
    omega
  · intro n
    have := heff.use n
    have := hm.use n
    rw [hthreads, total_append, total_set _ _ hi]
    omega
  · intro q hq
    rw [hthreads] at hq
    rcases List.mem_append.mp hq with hq | hq
    · exact forall_set heff.next.1 hm.points (fun p hp => hp.mono heff.grows) q hq
    · exact heff.next.2 q hq

theorem start_multiplexed (n : Nat) : Multiplexed decode (start n) := by
  have h0 (w : Pc Value → Int) (hw : w (.returned .nothing) = 0) :
      total w (start n : Config Client (Pc Value)).threads = 0 := by
    apply total_eq_zero
    intro pc hpc
    rw [List.eq_of_mem_replicate hpc, hw]
  refine ⟨⟨rfl, ?_, ?_, ?_⟩, ?_, ?_, ?_⟩
  · simp [start, newClient]
  · simp [start, newClient]
  · simp [start, newClient]
  · intro x
    rw [h0 _ rfl]
    simp [start, newClient, loadOf, closesOf]
  · intro m
    rw [h0 _ rfl]
    simp [start, newClient, useOf]
  · intro pc hpc
    rw [List.eq_of_mem_replicate hpc]
    trivial

theorem run_multiplexed (hr : Run (client decode) Any (start n) tr s) : Multiplexed decode s :=
  hr.invariant (start_multiplexed n) (fun _ _ _ _ hm _ hf => fire_multiplexed hm hf)

end Runs

/-! ## What callers see -/

theorem completes_nonneg (n : Nat) (c : PendingCall) : 0 ≤ completes n c := by
  unfold completes
  split <;> decide

/-- Two calls completed by one frame are one call. -/
theorem completes_inj {calls : List PendingCall} {n x y : Nat} {c d : PendingCall}
    (h : total (completes n) calls ≤ 1) (hx : calls[x]? = some c) (hy : calls[y]? = some d)
    (hc : c.completedBy = some n) (hd : d.completedBy = some n) : x = y := by
  by_contra hxy
  -- put an unused call in place of the first: the second still counts
  have hset := total_set (completes n) (newPendingCall 0) hx
  have hy' : (calls.set x (newPendingCall 0))[y]? = some d := by
    rw [List.getElem?_set_ne hxy]
    exact hy
  have hle := le_total_of_mem (completes_nonneg n) (List.mem_of_getElem? hy')
  have h1 : completes n c = 1 := by simp [completes, hc]
  have h2 : completes n d = 1 := by simp [completes, hd]
  have h3 : completes n (newPendingCall 0) = 0 := by simp [completes, newPendingCall]
  omega

/-- Until the counter wraps, the ID tells the call. -/
theorem ClientOk.id_inj {g : Client} (hok : ClientOk g) (hwrap : g.calls.length < 2 ^ 64)
    {x y : Nat} {c d : PendingCall} (hx : g.calls[x]? = some c) (hy : g.calls[y]? = some d)
    (hid : c.id = d.id) : x = y := by
  obtain ⟨hxlt, -⟩ := List.getElem?_eq_some_iff.mp hx
  obtain ⟨hylt, -⟩ := List.getElem?_eq_some_iff.mp hy
  rw [hok.ids x c hx, hok.ids y d hy] at hid
  have hnat := congrArg UInt64.toNat hid
  rw [UInt64.toNat_ofNat_of_lt' (by show x + 1 < 2 ^ 64; omega),
    UInt64.toNat_ofNat_of_lt' (by show y + 1 < 2 ^ 64; omega)] at hnat
  omega

/-- In every run: each `done` channel is closed at most once; a call is answered
with the decoding of a frame that carries the call's own ID; no frame completes
two calls; and before the counter wraps no two calls have the same ID. -/
theorem multiplex_correct
    {decode : CodecType → List UInt8 → Except GoError (Response Value)} {n : Nat}
    {tr : List (Nat × Ev)} {s : Config Client (Pc Value)}
    (hr : Run (client decode) Any (start n) tr s) :
    (∀ (x : Nat) (c : PendingCall), s.shared.calls[x]? = some c → c.closes ≤ 1) ∧
    (∀ (x : Nat) (resp : Response Value), .returned (.answered x resp) ∈ s.threads →
      ∃ (m : Nat) (f : Frame) (c : PendingCall), s.shared.frames[m]? = some f ∧
        s.shared.calls[x]? = some c ∧ f.header.requestID = c.id ∧
        decode f.header.codec f.body = .ok resp) ∧
    (∀ (m x y : Nat) (c d : PendingCall), s.shared.calls[x]? = some c →
      s.shared.calls[y]? = some d → c.completedBy = some m → d.completedBy = some m → x = y) ∧
    (s.shared.calls.length < 2 ^ 64 → ∀ (x y : Nat) (c d : PendingCall),
      s.shared.calls[x]? = some c → s.shared.calls[y]? = some d → c.id = d.id → x = y) := by
  have hm := run_multiplexed hr
  refine ⟨?_, ?_, ?_, ?_⟩
  · intro x c hc
    have hload := hm.load x
    have hnn : 0 ≤ total (holds x) s.threads := total_nonneg (fun q _ => holds_nonneg x q)
    simp only [loadOf, closesOf, hc] at hload
    omega
  · intro x resp hmem
    obtain ⟨m, f, hf, ⟨c, hc, hid⟩, hd⟩ := hm.points _ hmem
    exact ⟨m, f, c, hf, hc, hid.symm, hd⟩
  · intro m x y c d hx hy hcm hdm
    refine completes_inj ?_ hx hy hcm hdm
    have huse := hm.use m
    have hnn : 0 ≤ total (carries m) s.threads := total_nonneg (fun q _ => carries_nonneg m q)
    simp only [useOf] at huse
    split_ifs at huse <;> omega
  · intro hwrap x y c d hx hy hid
    exact hm.ok.id_inj hwrap hx hy hid

def aFrame (id : UInt64) : Frame :=
  ⟨⟨0, 1, msgTypeResponse, codecTypeJSON, 0, (0, 0), id, 0⟩, []⟩

def decodeAny : CodecType → List UInt8 → Except GoError (Response Unit) :=
  fun _ _ => .ok ⟨0, some (), none, none, 0, 0⟩

/-- Two calls on one connection: the second is answered first, the first is
cancelled and its late frame finds nobody. -/
def outOfOrder : List (Nat × Ev) :=
  [(0, .dial ""), (0, .sendRequest), (1, .sendRequest), (1, .step), (0, .step), (0, .written),
   (1, .written), (0, .step), (1, .step), (2, .frame (aFrame 2)), (2, .step),
   (0, .ctxDone .canceled), (2, .step), (1, .done), (0, .step), (2, .frame (aFrame 1)), (2, .step)]

theorem outOfOrder_runs : (exec (client decodeAny) Any (start 2) outOfOrder).isSome := by decide

theorem multiplex_correct_outOfOrder :
    let s := (exec (client decodeAny) Any (start 2) outOfOrder).get outOfOrder_runs
    s.shared.calls.map PendingCall.closes = [0, 1] ∧
    (∀ (x : Nat) (c : PendingCall), s.shared.calls[x]? = some c → c.closes ≤ 1) ∧
    (∀ (x : Nat) (resp : Response Unit), .returned (.answered x resp) ∈ s.threads →
      ∃ (m : Nat) (f : Frame) (c : PendingCall), s.shared.frames[m]? = some f ∧
        s.shared.calls[x]? = some c ∧ f.header.requestID = c.id ∧
        decodeAny f.header.codec f.body = .ok resp) ∧
    (∀ (m x y : Nat) (c d : PendingCall), s.shared.calls[x]? = some c →
      s.shared.calls[y]? = some d → c.completedBy = some m → d.completedBy = some m → x = y) ∧
    (s.shared.calls.length < 2 ^ 64 → ∀ (x y : Nat) (c d : PendingCall),
      s.shared.calls[x]? = some c → s.shared.calls[y]? = some d → c.id = d.id → x = y) :=
  ⟨by decide, multiplex_correct (run_exec outOfOrder_runs)⟩

end RpcInGo.Tcp.Multiplex
