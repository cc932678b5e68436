import Mathlib.Data.List.Nodup
import Mathlib.Data.List.Perm.Basic

/-!
Rows under keys, the changes that are made to them, and whoever follows the reported changes.

* `Changed.follows`: whoever starts from the rows, or from those of some keys, and makes the
  reported changes one by one has the rows at the end;
* `Store`: rows that hang on leases and go with them, with the changes of each operation.
-/

namespace RpcInGo.Lib.Leased

/-- `isNew` says that the key had no row before. -/
inductive Change (K V : Type)
  | put (key : K) (value : V) (isNew : Bool)
  | delete (key : K) (prev : V)
  deriving DecidableEq, Repr

/-- The row that was put, or the one that is gone. -/
def Change.row {K V : Type} : Change K V → K × V
  | .put key value _ => (key, value)
  | .delete key prev => (key, prev)

variable {K V : Type} [DecidableEq K]

/-- The rows before and after the change; their order is left open. -/
def Change.Made (rows rows' : List (K × V)) : Change K V → Prop
  | .put key value isNew => (isNew = true ↔ key ∉ rows.map Prod.fst) ∧
      rows'.Perm ((key, value) :: rows.filter (·.1 ≠ key))
  | .delete key prev => (key, prev) ∈ rows ∧ rows'.Perm (rows.filter (·.1 ≠ key))

/-- The changes lead from these rows to those, one after the other. -/
inductive Changed (rows : List (K × V)) : List (Change K V) → List (K × V) → Prop
  | nil {rows' : List (K × V)} : rows'.Perm rows → Changed rows [] rows'
  | snoc {cs : List (Change K V)} {ch : Change K V} {rows' rows'' : List (K × V)} :
      Changed rows cs rows' → ch.Made rows' rows'' → Changed rows (cs ++ [ch]) rows''

section Changes
variable {rows rows' rows'' : List (K × V)} {cs cs' : List (Change K V)} {ch : Change K V}

theorem Change.Made.perm (h : ch.Made rows rows') (hperm : rows''.Perm rows') :
    ch.Made rows rows'' := by
  cases ch with
  | put | delete => exact ⟨h.1, hperm.trans h.2⟩

theorem Changed.trans (h : Changed rows cs rows') (h' : Changed rows' cs' rows'') :
    Changed rows (cs ++ cs') rows'' := by
  induction h' with
  | nil hperm =>
    rw [List.append_nil]
    cases h with
    | nil h => exact .nil (hperm.trans h)
    | snoc h hmade => exact .snoc h (hmade.perm hperm)
  | snoc _ hmade ih =>
    rw [← List.append_assoc]
    exact .snoc ih hmade

theorem Change.Made.nodup (h : ch.Made rows rows') (hnodup : (rows.map Prod.fst).Nodup) :
    (rows'.map Prod.fst).Nodup := by
  have hrest : ∀ key : K, ((rows.filter (·.1 ≠ key)).map Prod.fst).Nodup :=
    fun key => hnodup.sublist (List.filter_sublist.map _)
  cases ch with
  | put key value isNew =>
    rw [(h.2.map _).nodup_iff, List.map_cons, List.nodup_cons]
    refine ⟨fun hmem => ?_, hrest key⟩
    obtain ⟨row, hrow, heq⟩ := List.mem_map.mp hmem
    exact absurd heq (by simpa using (List.mem_filter.mp hrow).2)
  | delete key prev =>
    rw [(h.2.map _).nodup_iff]
    exact hrest key

theorem Changed.nodup (h : Changed rows cs rows') (hnodup : (rows.map Prod.fst).Nodup) :
    (rows'.map Prod.fst).Nodup := by
  induction h with
  | nil hperm => exact (hperm.map _).nodup_iff.mpr hnodup
  | snoc _ hmade ih => exact hmade.nodup ih

/-- A row was there before, or it was put. -/
theorem Changed.mem (h : Changed rows cs rows') {row : K × V} (hrow : row ∈ rows') :
    row ∈ rows ∨ ∃ isNew, .put row.1 row.2 isNew ∈ cs := by
  induction h with
  | nil hperm => exact .inl (hperm.mem_iff.mp hrow)
  | @snoc cs ch mid rows' _ hmade ih =>
    have hkept : row ∈ mid → row ∈ rows ∨ ∃ isNew, .put row.1 row.2 isNew ∈ cs ++ [ch] :=
      fun hmid => (ih hmid).imp_right fun ⟨b, hb⟩ => ⟨b, List.mem_append_left _ hb⟩
    cases ch with
    | put key value isNew =>
      rcases List.mem_cons.mp (hmade.2.mem_iff.mp hrow) with rfl | hmid
      · exact .inr ⟨isNew, List.mem_append_right _ List.mem_cons_self⟩
      · exact hkept (List.mem_filter.mp hmid).1
    | delete key prev => exact hkept (List.mem_filter.mp (hmade.2.mem_iff.mp hrow)).1

/-- What a change tells of was there before, or was put. -/
theorem Changed.told (h : Changed rows cs rows') (hch : ch ∈ cs) :
    ch.row ∈ rows ∨ ∃ isNew, .put ch.row.1 ch.row.2 isNew ∈ cs := by
  induction h with
  | nil => cases hch
  | @snoc cs last mid rows' hcs hmade ih =>
    have hmore : (ch.row ∈ rows ∨ ∃ isNew, .put ch.row.1 ch.row.2 isNew ∈ cs) →
        ch.row ∈ rows ∨ ∃ isNew, .put ch.row.1 ch.row.2 isNew ∈ cs ++ [last] :=
      Or.imp_right fun ⟨b, hb⟩ => ⟨b, List.mem_append_left _ hb⟩
    rcases List.mem_append.mp hch with hch | hlast
    · exact hmore (ih hch)
    · rw [List.mem_singleton.mp hlast] at hmore ⊢
      cases last with
      | put key value isNew =>
        exact .inr ⟨isNew, List.mem_append_right _ List.mem_cons_self⟩
      | delete key prev => exact hmore (hcs.mem hmade.1)

end Changes

/-! ## Following the changes -/

/-- The first row with the key gets the value. -/
def replaceRow (key : K) (value : V) : List (K × V) → List (K × V)
  | [] => []
  | row :: rows => if row.1 = key then (key, value) :: rows else row :: replaceRow key value rows

/-- A list of rows after a reported change. -/
def follow (rows : List (K × V)) : Change K V → List (K × V)
  | .put key value isNew => if isNew then rows ++ [(key, value)] else replaceRow key value rows
  | .delete key _ => rows.filter (·.1 ≠ key)

/-- A change is followed if its key is selected. -/
def followAll (sel : K → Bool) (own : List (K × V)) (cs : List (Change K V)) : List (K × V) :=
  (cs.filter (sel ·.row.1)).foldl follow own

section Follow
variable {sel : K → Bool} {rows rows' own : List (K × V)} {cs : List (Change K V)}
  {ch : Change K V} {key : K} {value : V}

theorem followAll_snoc :
    followAll sel own (cs ++ [ch]) =
      if sel ch.row.1 then follow (followAll sel own cs) ch else followAll sel own cs := by
  rw [followAll, List.filter_append, List.foldl_append]
  cases hsel : sel ch.row.1 <;> simp [hsel, followAll]

/-- A key without a row has none to leave out. -/
theorem filter_absent (h : key ∉ rows.map Prod.fst) : rows.filter (·.1 ≠ key) = rows := by
  rw [List.filter_eq_self]
  intro row hrow
  have hne : row.1 ≠ key := fun heq => h (heq ▸ List.mem_map_of_mem hrow)
  simpa using hne

/-- A row that is replaced goes to its place. -/
theorem replaceRow_perm (hnodup : (rows.map Prod.fst).Nodup) (hmem : key ∈ rows.map Prod.fst) :
    (replaceRow key value rows).Perm ((key, value) :: rows.filter (·.1 ≠ key)) := by
  induction rows with
  | nil => cases hmem
  | cons row rows ih =>
    rw [List.map_cons, List.nodup_cons] at hnodup
    by_cases hrow : row.1 = key
    · rw [replaceRow, if_pos hrow, List.filter_cons_of_neg (by simpa using hrow),
        filter_absent (hrow ▸ hnodup.1)]
    · have hin := (List.mem_cons.mp hmem).resolve_left fun heq => hrow heq.symm
      rw [replaceRow, if_neg hrow, List.filter_cons_of_pos (by simpa using hrow)]
      exact ((ih hnodup.2 hin).cons row).trans (.swap ..)

/-- Leaving a key out, and then those that are not selected. -/
theorem filter_selected (key : K) (rows : List (K × V)) :
    (rows.filter (·.1 ≠ key)).filter (sel ·.1) = (rows.filter (sel ·.1)).filter (·.1 ≠ key) := by
  rw [List.filter_filter, List.filter_filter]
  simp [Bool.and_comm]

omit [DecidableEq K] in
theorem unselected_absent (h : sel key = false) :
    key ∉ (rows.filter (sel ·.1)).map Prod.fst := by
  intro hmem
  obtain ⟨row, hrow, rfl⟩ := List.mem_map.mp hmem
  cases h.symm.trans (List.mem_filter.mp hrow).2

theorem Change.Made.follows (h : ch.Made rows rows') (hnodup : (rows.map Prod.fst).Nodup)
    (hown : own.Perm (rows.filter (sel ·.1))) :
    (if sel ch.row.1 then follow own ch else own).Perm (rows'.filter (sel ·.1)) := by
  cases ch with
  | put key value isNew =>
    refine .trans ?_ (h.2.filter _).symm
    rw [List.filter_cons, filter_selected, Change.row]
    cases hsel : sel key with
    | false =>
      rw [filter_absent (unselected_absent hsel)]
      exact hown
    | true =>
      simp only [if_true, follow]
      cases isNew with
      | true =>
        have habsent : key ∉ (rows.filter (sel ·.1)).map Prod.fst := fun hmem =>
          h.1.mp rfl (List.filter_sublist.map Prod.fst |>.subset hmem)
        rw [if_pos rfl, filter_absent habsent]
        exact (hown.append_right _).trans List.perm_append_comm
      | false =>
        have hmem : key ∈ rows.map Prod.fst := by simpa using h.1
        obtain ⟨row, hrow, rfl⟩ := List.mem_map.mp hmem
        have hin : row.1 ∈ own.map Prod.fst := List.mem_map_of_mem
          (hown.mem_iff.mpr (List.mem_filter.mpr ⟨hrow, hsel⟩))
        have hkeys : (own.map Prod.fst).Nodup :=
          (hown.map _).nodup_iff.mpr (hnodup.sublist (List.filter_sublist.map _))
        exact (replaceRow_perm hkeys hin).trans ((hown.filter _).cons _)
  | delete key prev =>
    refine .trans ?_ (h.2.filter _).symm
    rw [filter_selected, Change.row]
    cases hsel : sel key with
    | false =>
      rw [filter_absent (unselected_absent hsel)]
      exact hown
    | true => exact hown.filter _

theorem Changed.follows (h : Changed rows cs rows') (hnodup : (rows.map Prod.fst).Nodup)
    (hown : own.Perm (rows.filter (sel ·.1))) :
    (followAll sel own cs).Perm (rows'.filter (sel ·.1)) := by
  induction h with
  | nil hperm => exact hown.trans (hperm.filter _).symm
  | snoc hcs hmade ih =>
    rw [followAll_snoc]
    exact hmade.follows (hcs.nodup hnodup) ih

end Follow

/-! ## A store with leases -/

/-- An entry is a key with its value and its lease; `granted` is the last lease. -/
structure Store (K V : Type) where
  entries : List (K × V × Nat)
  leases : List Nat
  granted : Nat

namespace Store

def rows (st : Store K V) : List (K × V) := st.entries.map fun e => (e.1, e.2.1)

def new : Store K V := ⟨[], [], 0⟩

def grant (st : Store K V) : Store K V :=
  { st with leases := (st.granted + 1) :: st.leases, granted := st.granted + 1 }

def put (st : Store K V) (key : K) (value : V) (lease : Nat) : Store K V × List (Change K V) :=
  ({ st with entries := (key, value, lease) :: st.entries.filter (·.1 ≠ key) },
    [.put key value (key ∉ st.entries.map Prod.fst)])

def delete (st : Store K V) (key : K) : Store K V × List (Change K V) :=
  match st.entries.find? (·.1 = key) with
  | none => (st, [])
  | some e => ({ st with entries := st.entries.filter (·.1 ≠ key) }, [.delete key e.2.1])

def deleteAll (st : Store K V) : List K → Store K V × List (Change K V)
  | [] => (st, [])
  | key :: keys =>
    let rest := (st.delete key).1.deleteAll keys
    (rest.1, (st.delete key).2 ++ rest.2)

/-- A lease is given up, or expires: its keys go with it. -/
def revoke (st : Store K V) (lease : Nat) : Store K V × List (Change K V) :=
  Store.deleteAll { st with leases := st.leases.filter (· ≠ lease) }
    ((st.entries.filter (·.2.2 = lease)).map Prod.fst)

variable {st : Store K V}

theorem put_changed (key : K) (value : V) (lease : Nat) :
    Changed st.rows (st.put key value lease).2 (st.put key value lease).1.rows := by
  have hmade : (Change.put key value (key ∉ st.entries.map Prod.fst)).Made st.rows
      (st.put key value lease).1.rows := by
    refine ⟨by simp [rows], ?_⟩
    simp only [rows, put, List.map_cons, List.filter_map]
    exact .refl _
  exact .snoc (.nil (.refl _)) hmade

theorem delete_changed (key : K) :
    Changed st.rows (st.delete key).2 (st.delete key).1.rows := by
  unfold delete
  split
  · exact .nil (.refl _)
  · rename_i e he
    have hkey : e.1 = key := by simpa using List.find?_some he
    have hin : (key, e.2.1) ∈ st.rows :=
      List.mem_map.mpr ⟨e, List.mem_of_find?_eq_some he, by rw [hkey]⟩
    refine .snoc (.nil (.refl _)) ⟨hin, ?_⟩
    simp only [rows, List.filter_map]
    exact .refl _

theorem deleteAll_changed (st : Store K V) (keys : List K) :
    Changed st.rows (st.deleteAll keys).2 (st.deleteAll keys).1.rows := by
  induction keys generalizing st with
  | nil => exact .nil (.refl _)
  | cons key keys ih => exact (delete_changed key).trans (ih _)

theorem revoke_changed (lease : Nat) :
    Changed st.rows (st.revoke lease).2 (st.revoke lease).1.rows :=
  deleteAll_changed { st with leases := st.leases.filter (· ≠ lease) } _

/-- Deleting puts nothing. -/
theorem deleteAll_puts {keys : List K} {key : K} {value : V} {isNew : Bool} :
    .put key value isNew ∉ (st.deleteAll keys).2 := by
  induction keys generalizing st with
  | nil => exact List.not_mem_nil
  | cons k keys ih =>
    intro hmem
    rcases List.mem_append.mp hmem with hmem | hmem
    · unfold delete at hmem
      split at hmem <;> simp at hmem
    · exact ih hmem

end Store

end RpcInGo.Lib.Leased
