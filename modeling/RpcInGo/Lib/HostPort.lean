import Mathlib.Algebra.Group.Int.Defs
import Mathlib.Data.List.Basic

/-!
Network addresses as text: `net.SplitHostPort`, which finds the port after the last colon and
removes the brackets around a host with colons of its own, and `strconv.Atoi`.

* `splitHostPort_ok`: what it accepts is `host:port` or `[host]:port`, without further brackets;
* `splitHostPort_concat`: what becomes of a host and a port joined by a colon;
* `atoi_itoa`: numbers are read back as printed.
-/

namespace RpcInGo.Lib.HostPort

/-! ## Splitting at a separator -/

section Separators
variable {α : Type*} [DecidableEq α]

/-- What is before and behind the first `c`. -/
def splitFirst (c : α) : List α → Option (List α × List α)
  | [] => none
  | x :: l =>
    if x = c then some ([], l)
    else match splitFirst c l with
      | some (a, b) => some (x :: a, b)
      | none => none

/-- What is before and behind the last `c`. -/
def splitLast (c : α) : List α → Option (List α × List α)
  | [] => none
  | x :: l =>
    match splitLast c l with
    | some (a, b) => some (x :: a, b)
    | none => if x = c then some ([], l) else none

theorem splitFirst_eq_some {c : α} {l a b : List α} :
    splitFirst c l = some (a, b) ↔ l = a ++ c :: b ∧ c ∉ a := by
  induction l generalizing a with
  | nil => simp [splitFirst]
  | cons x l ih =>
    rw [splitFirst]
    by_cases hx : x = c
    · subst hx
      rw [if_pos rfl]
      cases a with
      | nil => simp [eq_comm]
      | cons y a =>
        simp only [Option.some.injEq, Prod.mk.injEq, List.cons_append, List.cons.injEq,
          List.mem_cons, not_or]
        grind
    · rw [if_neg hx]
      cases a with
      | nil =>
        have hne : ¬ (x = c ∧ l = b) := fun h => hx h.1
        simp only [List.nil_append, List.cons.injEq, hne, false_and, iff_false]
        split <;> simp
      | cons y a =>
        have ih := @ih a
        cases hs : splitFirst c l with
        | none => grind
        | some p => grind

theorem splitLast_eq_none {c : α} {l : List α} : splitLast c l = none ↔ c ∉ l := by
  induction l with
  | nil => simp [splitLast]
  | cons x l ih =>
    rw [splitLast]
    cases hs : splitLast c l with
    | none =>
      have := ih.mp hs
      grind
    | some p =>
      have : c ∈ l := by
        by_contra h
        rw [ih.mpr h] at hs
        cases hs
      grind

theorem splitLast_eq_some {c : α} {l a b : List α} :
    splitLast c l = some (a, b) ↔ l = a ++ c :: b ∧ c ∉ b := by
  induction l generalizing a with
  | nil => simp [splitLast]
  | cons x l ih =>
    rw [splitLast]
    cases hs : splitLast c l with
    | none =>
      have hmem := splitLast_eq_none.mp hs
      cases a with
      | nil => grind
      | cons y a => grind
    | some p =>
      have hmem : c ∈ l := by
        by_contra h
        rw [splitLast_eq_none.mpr h] at hs
        cases hs
      cases a with
      | nil => grind
      | cons y a =>
        have := @ih a
        grind

end Separators

/-! ## `net.SplitHostPort` -/

/-- The error of an `AddrError`, which also names the address. -/
inductive AddrErr
  | missingPort
  | tooManyColons
  | missingBracket
  | unexpectedOpen
  | unexpectedClose
  deriving DecidableEq, Repr

def AddrErr.text : AddrErr → String
  | .missingPort => "missing port in address"
  | .tooManyColons => "too many colons in address"
  | .missingBracket => "missing ']' in address"
  | .unexpectedOpen => "unexpected '[' in address"
  | .unexpectedClose => "unexpected ']' in address"

/-- A `]` in front of the last colon ends the host of an address that starts with `[`. -/
def splitHostPort (hostport : List Char) : Except AddrErr (List Char × List Char) :=
  match splitLast ':' hostport with
  | none => .error .missingPort
  | some (before, port) =>
    match hostport with
    | '[' :: rest =>
      match splitFirst ']' rest with
      | none => .error .missingBracket
      | some (_, []) => .error .missingPort
      | some (host, x :: tail) =>
        if x :: tail = ':' :: port then
          if '[' ∈ rest then .error .unexpectedOpen
          else if ']' ∈ x :: tail then .error .unexpectedClose
          else .ok (host, port)
        else if x = ':' then .error .tooManyColons
        else .error .missingPort
    | _ =>
      if ':' ∈ before then .error .tooManyColons
      else if '[' ∈ hostport then .error .unexpectedOpen
      else if ']' ∈ hostport then .error .unexpectedClose
      else .ok (before, port)

/-- Neither bracket occurs. -/
def Unbracketed (s : List Char) : Prop := '[' ∉ s ∧ ']' ∉ s

instance (s : List Char) : Decidable (Unbracketed s) := inferInstanceAs (Decidable (_ ∧ _))

theorem splitHostPort_ok {hostport host port : List Char}
    (h : splitHostPort hostport = .ok (host, port)) :
    (hostport = host ++ ':' :: port ∧ ':' ∉ host ∨ hostport = '[' :: host ++ ']' :: ':' :: port) ∧
      ':' ∉ port ∧ Unbracketed host ∧ Unbracketed port := by
  unfold splitHostPort at h
  split at h
  · cases h
  rename_i before port' hlast
  obtain ⟨hport, hcolon⟩ := splitLast_eq_some.mp hlast
  split at h
  · rename_i rest
    split at h
    · cases h
    · cases h
    · rename_i host' x tail hfirst
      obtain ⟨hrest, hclose⟩ := splitFirst_eq_some.mp hfirst
      split at h
      · rename_i htail
        split at h
        · cases h
        split at h
        · cases h
        · rename_i hopen hclose'
          cases h
          rw [htail] at hclose' hrest
          subst hrest
          simp only [List.mem_append, List.mem_cons, not_or] at hopen hclose'
          exact ⟨.inr rfl, hcolon, ⟨hopen.1, hclose⟩, hopen.2.2.2, hclose'.2⟩
      · split at h <;> cases h
  · split at h
    · cases h
    split at h
    · cases h
    split at h
    · cases h
    · rename_i hbefore hopen hclose
      cases h
      rw [hport] at hopen hclose
      simp only [List.mem_append, List.mem_cons, not_or] at hopen hclose
      exact ⟨.inl ⟨hport, hbefore⟩, hcolon, ⟨hopen.1, hclose.1⟩, hopen.2.2, hclose.2.2⟩

/-- A host and a port that are joined by a colon come apart again, unless the host has a colon. -/
theorem splitHostPort_concat {host port : List Char} (hhost : Unbracketed host)
    (hport : Unbracketed port) (hcolon : ':' ∉ port) :
    splitHostPort (host ++ ':' :: port) =
      if ':' ∈ host then .error .tooManyColons else .ok (host, port) := by
  have hlast : splitLast ':' (host ++ ':' :: port) = some (host, port) :=
    splitLast_eq_some.mpr ⟨rfl, hcolon⟩
  have hopen : '[' ∉ host ++ ':' :: port := by
    simp [hhost.1, hport.1]
  have hclose : ']' ∉ host ++ ':' :: port := by
    simp [hhost.2, hport.2]
  unfold splitHostPort
  rw [hlast]
  simp only
  split
  · rename_i rest heq
    rw [heq] at hopen
    simp at hopen
  · rw [if_neg hopen, if_neg hclose]

/-! ## `strconv.Atoi` -/

inductive NumErr
  | errSyntax
  | errRange
  deriving DecidableEq, Repr

def NumErr.text : NumErr → String
  | .errSyntax => "invalid syntax"
  | .errRange => "value out of range"

/-- The digits behind the sign, which must be there. -/
def digits (ds : List Char) : Except NumErr Nat :=
  if ds.isEmpty ∨ ¬ ds.all Char.isDigit then .error .errSyntax
  else .ok (Nat.ofDigitChars 10 ds 0)

/-- The result is an `int` of 64 bits. -/
def ranged (n : Int) : Except NumErr Int :=
  if -2 ^ 63 ≤ n ∧ n < 2 ^ 63 then .ok n else .error .errRange

def atoi (s : List Char) : Except NumErr Int :=
  match s with
  | '-' :: ds => (digits ds).bind fun n => ranged (-n)
  | '+' :: ds => (digits ds).bind fun n => ranged n
  | ds => (digits ds).bind fun n => ranged n

/-- How `%d` prints a number. -/
def itoa (n : Int) : List Char :=
  if 0 ≤ n then Nat.toDigits 10 n.toNat else '-' :: Nat.toDigits 10 (-n).toNat

theorem toList_repr (n : Int) : n.repr.toList = itoa n := by
  rw [Int.repr_eq_if, itoa]
  split <;> simp [Nat.repr_eq_ofList_toDigits]

theorem digits_toDigits (n : Nat) : digits (Nat.toDigits 10 n) = .ok n := by
  have hne : ¬ (Nat.toDigits 10 n).isEmpty := by simp
  have hall : (Nat.toDigits 10 n).all Char.isDigit := by
    rw [List.all_eq_true]
    exact fun c hc => Nat.isDigit_of_mem_toDigits (by decide) (by decide) hc
  rw [digits, if_neg (by simp [hne, hall]), Nat.ofDigitChars_ten_toDigits]

theorem atoi_of_digit {s : List Char} (h : ∀ c ∈ s, c.isDigit) :
    atoi s = (digits s).bind fun n => ranged n := by
  unfold atoi
  split
  · exact absurd (h '-' List.mem_cons_self) (by decide)
  · exact absurd (h '+' List.mem_cons_self) (by decide)
  · rfl

theorem atoi_neg (ds : List Char) :
    atoi ('-' :: ds) = (digits ds).bind fun n => ranged (-n) := rfl

theorem ranged_ok {m n : Int} : ranged m = .ok n ↔ m = n ∧ -2 ^ 63 ≤ n ∧ n < 2 ^ 63 := by
  unfold ranged
  split
  · simp only [Except.ok.injEq]
    grind
  · simp only [reduceCtorEq, false_iff]
    grind

theorem ok_bind {ε α β : Type*} (a : α) (f : α → Except ε β) :
    (Except.ok a : Except ε α).bind f = f a := rfl

theorem atoi_itoa (n : Int) : atoi (itoa n) = ranged n := by
  unfold itoa
  split
  · have hcast : (n.toNat : Int) = n := by omega
    rw [atoi_of_digit fun c hc => Nat.isDigit_of_mem_toDigits (by decide) (by decide) hc,
      digits_toDigits, ok_bind, hcast]
  · have hcast : -((-n).toNat : Int) = n := by omega
    rw [atoi_neg, digits_toDigits, ok_bind, hcast]

theorem atoi_ok {s : List Char} {n : Int} (h : atoi s = .ok n) : -2 ^ 63 ≤ n ∧ n < 2 ^ 63 := by
  have hdigits : ∀ (f : Nat → Int) (ds : List Char),
      ((digits ds).bind fun m => ranged (f m)) = .ok n → -2 ^ 63 ≤ n ∧ n < 2 ^ 63 := by
    intro f ds hds
    cases hd : digits ds with
    | error e =>
      rw [hd] at hds
      cases hds
    | ok m =>
      rw [hd] at hds
      exact (ranged_ok.mp hds).2
  unfold atoi at h
  split at h
  · exact hdigits (fun m => -m) _ h
  · exact hdigits (fun m => m) _ h
  · exact hdigits (fun m => m) _ h

theorem mem_itoa {n : Int} {c : Char} (h : c ∈ itoa n) : c = '-' ∨ c.isDigit := by
  unfold itoa at h
  split at h
  · exact .inr (Nat.isDigit_of_mem_toDigits (by decide) (by decide) h)
  · exact (List.mem_cons.mp h).imp_right
      (Nat.isDigit_of_mem_toDigits (by decide) (by decide))

end RpcInGo.Lib.HostPort
