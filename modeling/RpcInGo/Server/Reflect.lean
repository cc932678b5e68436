import Mathlib.Data.List.Forall2

/-!
What the server uses of package `reflect`: types with their kinds and method
sets, and the checks of `Func.Call` on its arguments.

* `funcCall_ok_iff`: a call is made exactly when every argument is a valid value
  that is assignable to its parameter.
-/

namespace RpcInGo.Server.Reflect

/-- The kinds other than `Interface` and `Pointer`, numbers of all sizes in one. -/
inductive BaseKind
  | bool
  | int
  | uint
  | float
  | complex
  | string
  | array
  | struct
  | chan
  | func
  | map
  | slice
  | unsafePointer
  deriving DecidableEq, Repr

inductive Kind
  | base (k : BaseKind)
  | interface
  | pointer
  deriving DecidableEq, Repr

/-- `IsNil` panics on values of the other kinds. -/
def Kind.nilable : Kind → Bool
  | .interface | .pointer => true
  | .base k => k ∈ [.chan, .func, .map, .slice, .unsafePointer]

/-- A Go type. The name is empty for a type literal, methods are written with
their signature, and `ptrMethods` are those with a pointer receiver. -/
inductive GoType
  | iface (name : String) (methods : List String)
  | base (name : String) (kind : BaseKind) (underlying : String) (methods ptrMethods : List String)
  | ptr (elem : GoType)
  | definedPtr (name : String) (elem : GoType)
  deriving DecidableEq, Repr

namespace GoType

def kind : GoType → Kind
  | .iface _ _ => .interface
  | .base _ k _ _ _ => .base k
  | .ptr _ | .definedPtr _ _ => .pointer

/-- `Elem` of a pointer type. -/
def elem : GoType → GoType
  | .ptr t | .definedPtr _ t => t
  | t => t

def named : GoType → Bool
  | .iface name _ | .base name _ _ _ _ => name ≠ ""
  | .ptr _ => false
  | .definedPtr _ _ => true

/-- A defined pointer type has no methods. -/
def methodSet : GoType → List String
  | .iface _ methods => methods
  | .base _ _ _ methods _ => methods
  | .ptr (.base _ _ _ methods ptrMethods) => methods ++ ptrMethods
  | .ptr _ | .definedPtr _ _ => []

/-- `t.Implements(u)` for an interface type `u`. -/
def implements (t u : GoType) : Bool := u.methodSet.all t.methodSet.contains

def sameUnderlying : GoType → GoType → Bool
  | .base _ k u _ _, .base _ k' u' _ _ => k = k' ∧ u = u'
  | .ptr t, .definedPtr _ t' | .definedPtr _ t, .ptr t' => t = t'
  | _, _ => false

/-- A value of type `t` may be used where type `u` is expected. -/
def assignableTo (t u : GoType) : Bool :=
  t = u || (!(t.named && u.named) && t.sameUnderlying u) || (u.kind = .interface && t.implements u)

end GoType

def errType : GoType := .iface "error" ["Error() string"]

def ctxType : GoType := .iface "context.Context"
  ["Deadline() (time.Time, bool)", "Done() <-chan struct {}", "Err() error",
   "Value(interface {}) interface {}"]

def emptyIface : GoType := .iface "" []

def protoMsgType : GoType := .iface "proto.Message" ["ProtoReflect() protoreflect.Message"]

theorem assignableTo_self (t : GoType) : t.assignableTo t = true := by
  simp [GoType.assignableTo]

theorem assignableTo_emptyIface (t : GoType) : t.assignableTo emptyIface = true := by
  simp [GoType.assignableTo, emptyIface, GoType.kind, GoType.implements, GoType.methodSet]

theorem assignableTo_of_implements {t : GoType} {name : String} {methods : List String}
    (h : t.implements (.iface name methods) = true) :
    t.assignableTo (.iface name methods) = true := by
  simp [GoType.assignableTo, GoType.kind, h]

/-- A pointer type that has methods is the pointer type of its element. -/
theorem ptr_elem {t : GoType} (hkind : t.kind = .pointer) (hmethods : t.methodSet ≠ []) :
    .ptr t.elem = t := by
  cases t with
  | iface => cases hkind
  | base => cases hkind
  | ptr t => rfl
  | definedPtr => exact absurd rfl hmethods

/-! ## Calls -/

/-- The type of a method, the receiver first among its parameters. -/
structure FuncType where
  ins : List GoType
  outs : List GoType
  deriving DecidableEq, Repr

/-- A valid `reflect.Value`: its type and what it holds. -/
structure Val (D : Type) where
  type : GoType
  data : D

/-- Why the code of the dispatch panics. -/
inductive Panic
  | argumentCount
  | zeroValue
  | notAssignable
  | isNil
  deriving DecidableEq, Repr

/-- The checks of `Func.Call`, which come before the call; `none` among the
arguments is the zero `Value`. -/
def funcCall {D : Type} (mt : FuncType) (args : List (Option (Val D))) :
    Except Panic (List (Val D)) :=
  if args.length ≠ mt.ins.length then .error .argumentCount
  else
    match args.mapM id with
    | none => .error .zeroValue
    | some vals =>
      if (vals.zip mt.ins).all fun p => p.1.type.assignableTo p.2 then .ok vals
      else .error .notAssignable

section Checks
variable {D : Type} {mt : FuncType} {args : List (Option (Val D))} {vals : List (Val D)}

theorem mapM_id_eq_some {α : Type} {l : List (Option α)} {l' : List α} :
    l.mapM id = some l' ↔ l = l'.map some := by
  induction l generalizing l' with
  | nil => cases l' <;> simp
  | cons a l ih =>
    rw [List.mapM_cons]
    cases a with
    | none => cases l' <;> simp
    | some a =>
      cases l' with
      | nil => cases l.mapM id <;> simp
      | cons b l' =>
        have ih' : l.mapM id = some l' ↔ l = l'.map some := ih
        cases h : l.mapM id with
        | none =>
          rw [h] at ih'
          simpa using fun _ => ih'
        | some vals =>
          rw [h] at ih'
          simpa using fun _ => by simpa using ih'

theorem funcCall_ok_iff : funcCall mt args = .ok vals ↔
    args = vals.map some ∧ List.Forall₂ (fun v t => v.type.assignableTo t = true) vals mt.ins := by
  rw [List.forall₂_iff_zip]
  unfold funcCall
  constructor
  · intro h
    split at h
    · cases h
    rename_i hlen
    split at h
    · cases h
    rename_i hvals
    split at h
    · rename_i hall
      cases h
      obtain rfl := mapM_id_eq_some.mp hvals
      refine ⟨rfl, by simpa using hlen, fun {v t} hmem => ?_⟩
      exact List.all_eq_true.mp hall (v, t) hmem
    · cases h
  · rintro ⟨rfl, hlen, hall⟩
    rw [if_neg (by simpa using hlen), mapM_id_eq_some.mpr rfl]
    exact if_pos (List.all_eq_true.mpr fun p hp => hall hp)

end Checks

end RpcInGo.Server.Reflect
