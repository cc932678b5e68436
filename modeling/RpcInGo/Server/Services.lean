import RpcInGo.Server.Dispatch

/-!
The registration of a service (`pkg/server/service.go`): `RegisterService` registers the eligible
methods of an implementation one by one, and returns at the first whose name is taken.

* `registerService_cases`: what it does, by where the first conflict is;
* `registerService_atomic_iff`: it adds all eligible methods or leaves the registry as it was,
  unless the first eligible method is new and a later one is not;
* `conflict_leaves_first`: the methods before the conflict stay.
-/

namespace RpcInGo.Server.Services
open Protocol.Message Reflect Dispatch

/-! ## The registry -/

structure Service (H : Type) where
  name : String
  methods : String → Option H

structure ServiceRegistry (H : Type) where
  services : String → Option (Service H)

variable {H : Type}

def newService (name : String) : Service H := ⟨name, fun _ => none⟩

def newServiceRegistry : ServiceRegistry H := ⟨fun _ => none⟩

def Service.registerMethod (s : Service H) (method : String) (handler : H) :
    Service H × Option GoError :=
  match s.methods method with
  | some _ =>
    (s, some (.errorf "method %s already registered in service %s" [.str method, .str s.name]))
  | none => ({ s with methods := Function.update s.methods method (some handler) }, none)

namespace ServiceRegistry

/-- The service is created on first use. -/
def registerMethod (sr : ServiceRegistry H) (service method : String) (handler : H) :
    ServiceRegistry H × Option GoError :=
  let svc := (sr.services service).getD (newService service)
  let registered := svc.registerMethod method handler
  (⟨Function.update sr.services service (some registered.1)⟩, registered.2)

def handler? (sr : ServiceRegistry H) (service method : String) : Option H :=
  (sr.services service).bind (·.methods method)

/-- The registry with one more handler. -/
def add (sr : ServiceRegistry H) (service method : String) (handler : H) : ServiceRegistry H :=
  let svc := (sr.services service).getD (newService service)
  ⟨Function.update sr.services service
    (some { svc with methods := Function.update svc.methods method (some handler) })⟩

def addAll (sr : ServiceRegistry H) (service : String) : List (String × H) → ServiceRegistry H
  | [] => sr
  | (method, handler) :: es => (sr.add service method handler).addAll service es

end ServiceRegistry

/-- `reflect.Method`, its type with the receiver first. -/
structure GoMethod where
  name : String
  pkgPath : String
  type : FuncType
  deriving DecidableEq

/-- A service implementation: its type, how that is printed, and its methods, which have
different names. -/
structure Impl where
  type : GoType
  text : String
  methods : List GoMethod
  names_nodup : (methods.map (·.name)).Nodup

/-- Pointers to structs can be services. -/
def Impl.structPointer (impl : Impl) : Bool :=
  impl.type.kind = .pointer ∧ impl.type.elem.kind = .base .struct

section Registration
-- `makeMethodHandler` for the implementation
variable (handlerOf : GoMethod → RpcMethodKind → H)

/-- The loop over the methods; `registered` counts those it has registered. -/
def registerMethods (sr : ServiceRegistry H) (serviceName : String) (registered : Nat) :
    List GoMethod → ServiceRegistry H × Nat × Option GoError
  | [] => (sr, registered, none)
  | m :: ms =>
    if m.pkgPath ≠ "" then registerMethods sr serviceName registered ms
    else
      match methodKind m.type with
      | none => registerMethods sr serviceName registered ms
      | some kind =>
        match sr.registerMethod serviceName m.name (handlerOf m kind) with
        | (sr, some err) =>
          (sr, registered,
            some (.wrapf "register method %s.%s: %w" [.str serviceName, .str m.name] err))
        | (sr, none) => registerMethods sr serviceName (registered + 1) ms

/-- `none` is a nil implementation. -/
def registerService (sr : ServiceRegistry H) (serviceName : String) (serviceImpl : Option Impl) :
    ServiceRegistry H × Option GoError :=
  match serviceImpl with
  | none => (sr, some (.errorf "service implementation is nil" []))
  | some impl =>
    if !impl.structPointer then
      (sr, some (.errorf "service must be a pointer to struct, got %s" [.str impl.text]))
    else
      match registerMethods handlerOf sr serviceName 0 impl.methods with
      | (sr, _, some err) => (sr, some err)
      | (sr, registered, none) =>
        if registered = 0 then
          (sr, some (.errorf "no valid rpc methods found in service %q (%s)"
            [.str serviceName, .str impl.text]))
        else (sr, none)

/-- The methods that the loop tries to register, with their handlers. -/
def eligible : List GoMethod → List (String × H)
  | [] => []
  | m :: ms =>
    if m.pkgPath ≠ "" then eligible ms
    else
      match methodKind m.type with
      | none => eligible ms
      | some kind => (m.name, handlerOf m kind) :: eligible ms

/-- The registry gets exactly one handler for each of the methods, which had none. -/
structure Added (sr sr' : ServiceRegistry H) (service : String) (es : List (String × H)) :
    Prop where
  new : ∀ e ∈ es, sr.handler? service e.1 = none ∧ sr'.handler? service e.1 = some e.2
  old : ∀ s m, ¬ (s = service ∧ m ∈ es.map Prod.fst) → sr'.handler? s m = sr.handler? s m
  services : ∀ s, (sr'.services s).isSome ↔ (sr.services s).isSome ∨ s = service

/-- All or nothing. -/
def Atomic (sr : ServiceRegistry H) (serviceName : String) (serviceImpl : Option Impl) : Prop :=
  match registerService handlerOf sr serviceName serviceImpl with
  | (sr', none) =>
    ∃ impl, serviceImpl = some impl ∧ Added sr sr' serviceName (eligible handlerOf impl.methods)
  | (sr', some _) => sr' = sr

/-- The first eligible method of the implementation is new, a later one is not. -/
def Torn (sr : ServiceRegistry H) (serviceName : String) (serviceImpl : Option Impl) : Prop :=
  ∃ impl first rest, serviceImpl = some impl ∧ impl.structPointer ∧
    eligible handlerOf impl.methods = first :: rest ∧
    sr.handler? serviceName first.1 = none ∧ ∃ e ∈ rest, sr.handler? serviceName e.1 ≠ none

end Registration

/-! ## One method -/

section Methods
variable {sr : ServiceRegistry H} {service method : String} {handler : H}

theorem registerMethod_taken (h : sr.handler? service method ≠ none) :
    ∃ err, sr.registerMethod service method handler = (sr, some err) := by
  unfold ServiceRegistry.handler? at h
  cases hsvc : sr.services service with
  | none => simp [hsvc] at h
  | some svc =>
    cases hm : svc.methods method with
    | none => simp [hsvc, hm] at h
    | some old =>
      refine ⟨.errorf "method %s already registered in service %s"
        [.str method, .str svc.name], ?_⟩
      simp only [ServiceRegistry.registerMethod, hsvc, Option.getD_some, Service.registerMethod, hm]
      rw [← hsvc, Function.update_eq_self]

theorem registerMethod_free (h : sr.handler? service method = none) :
    sr.registerMethod service method handler = (sr.add service method handler, none) := by
  have hm : ((sr.services service).getD (newService service)).methods method = none := by
    unfold ServiceRegistry.handler? at h
    cases hsvc : sr.services service with
    | none => rfl
    | some svc => simpa [hsvc] using h
  simp only [ServiceRegistry.registerMethod, Service.registerMethod, hm, ServiceRegistry.add]

theorem handler?_add (s m : String) :
    (sr.add service method handler).handler? s m =
      if s = service ∧ m = method then some handler else sr.handler? s m := by
  unfold ServiceRegistry.handler? ServiceRegistry.add
  by_cases hs : s = service
  · subst hs
    simp only [Function.update_self, Option.bind_some, true_and, Function.update_apply]
    split
    · rfl
    · cases sr.services s <;> rfl
  · simp [hs]

theorem services_add (s : String) :
    ((sr.add service method handler).services s).isSome ↔
      (sr.services s).isSome ∨ s = service := by
  unfold ServiceRegistry.add
  by_cases hs : s = service
  · simp [hs]
  · simp [hs]

end Methods

/-! ## Several methods -/

section Lists
variable {sr : ServiceRegistry H} {service : String} {es : List (String × H)}

theorem handler?_addAll_of_not_mem {s m : String} (h : ¬ (s = service ∧ m ∈ es.map Prod.fst)) :
    (sr.addAll service es).handler? s m = sr.handler? s m := by
  induction es generalizing sr with
  | nil => rfl
  | cons e es ih =>
    simp only [List.map_cons, List.mem_cons] at h
    rw [ServiceRegistry.addAll, ih (by tauto), handler?_add, if_neg (by tauto)]

theorem handler?_addAll_of_mem (hnd : (es.map Prod.fst).Nodup) {e : String × H} (he : e ∈ es) :
    (sr.addAll service es).handler? service e.1 = some e.2 := by
  induction es generalizing sr with
  | nil => cases he
  | cons x es ih =>
    obtain ⟨hx, hnd⟩ := List.nodup_cons.mp hnd
    rcases List.mem_cons.mp he with rfl | he
    · rw [ServiceRegistry.addAll, handler?_addAll_of_not_mem (fun h => hx h.2), handler?_add,
        if_pos ⟨rfl, rfl⟩]
    · exact ih hnd he

theorem services_addAll (s : String) :
    ((sr.addAll service es).services s).isSome ↔
      (sr.services s).isSome ∨ (s = service ∧ es ≠ []) := by
  induction es generalizing sr with
  | nil => simp [ServiceRegistry.addAll]
  | cons e es ih =>
    rw [ServiceRegistry.addAll, ih, services_add]
    simp only [ne_eq, reduceCtorEq, not_false_eq_true, and_true]
    tauto

/-- Methods that are all new are added. -/
theorem added_addAll (hfree : ∀ e ∈ es, sr.handler? service e.1 = none)
    (hnd : (es.map Prod.fst).Nodup) (hne : es ≠ []) :
    Added sr (sr.addAll service es) service es where
  new e he := ⟨hfree e he, handler?_addAll_of_mem hnd he⟩
  old _ _ h := handler?_addAll_of_not_mem h
  services s := by simp [services_addAll, hne]

theorem addAll_ne {e : String × H} (hfree : sr.handler? service e.1 = none)
    (hnd : (es.map Prod.fst).Nodup) (he : e ∈ es) : sr.addAll service es ≠ sr := by
  intro heq
  have hsome : (sr.addAll service es).handler? service e.1 = some e.2 :=
    handler?_addAll_of_mem hnd he
  rw [heq, hfree] at hsome
  cases hsome

/-- Either all methods are new, or one is the first that is not. -/
theorem first_taken (sr : ServiceRegistry H) (service : String) (es : List (String × H)) :
    (∀ e ∈ es, sr.handler? service e.1 = none) ∨
      ∃ pre e post, es = pre ++ e :: post ∧ (∀ x ∈ pre, sr.handler? service x.1 = none) ∧
        sr.handler? service e.1 ≠ none := by
  induction es with
  | nil => exact .inl (by simp)
  | cons x es ih =>
    by_cases hx : sr.handler? service x.1 = none
    · rcases ih with hall | ⟨pre, e, post, rfl, hpre, he⟩
      · exact .inl (List.forall_mem_cons.mpr ⟨hx, hall⟩)
      · exact .inr ⟨x :: pre, e, post, rfl, List.forall_mem_cons.mpr ⟨hx, hpre⟩, he⟩
    · exact .inr ⟨[], x, es, rfl, by simp, hx⟩

end Lists

/-! ## The loop -/

section Loop
variable {handlerOf : GoMethod → RpcMethodKind → H} {sr : ServiceRegistry H} {service : String}
  {ms : List GoMethod}

theorem eligible_sublist : ((eligible handlerOf ms).map Prod.fst).Sublist (ms.map (·.name)) := by
  induction ms with
  | nil => exact .slnil
  | cons m ms ih =>
    rw [eligible]
    split
    · exact ih.cons _
    split
    · exact ih.cons _
    · exact ih.cons_cons _

/-- The loop without the methods that it skips. -/
def registerAll (sr : ServiceRegistry H) (service : String) (n : Nat) :
    List (String × H) → ServiceRegistry H × Nat × Option GoError
  | [] => (sr, n, none)
  | (method, handler) :: es =>
    match sr.registerMethod service method handler with
    | (sr, some err) =>
      (sr, n, some (.wrapf "register method %s.%s: %w" [.str service, .str method] err))
    | (sr, none) => registerAll sr service (n + 1) es

theorem registerMethods_eq (n : Nat) :
    registerMethods handlerOf sr service n ms =
      registerAll sr service n (eligible handlerOf ms) := by
  induction ms generalizing sr n with
  | nil => rfl
  | cons m ms ih =>
    rw [registerMethods, eligible]
    by_cases hpkg : m.pkgPath ≠ ""
    · rw [if_pos hpkg, if_pos hpkg, ih]
    rw [if_neg hpkg, if_neg hpkg]
    cases hkind : methodKind m.type with
    | none => exact ih n
    | some kind =>
      simp only [registerAll]
      split
      · rfl
      · exact ih (n + 1)

variable {es : List (String × H)}

theorem registerAll_free (n : Nat) (hfree : ∀ e ∈ es, sr.handler? service e.1 = none)
    (hnd : (es.map Prod.fst).Nodup) :
    registerAll sr service n es = (sr.addAll service es, n + es.length, none) := by
  induction es generalizing sr n with
  | nil => rfl
  | cons e es ih =>
    obtain ⟨he, hnd⟩ := List.nodup_cons.mp hnd
    have hrest : ∀ x ∈ es, (sr.add service e.1 e.2).handler? service x.1 = none := by
      intro x hx
      have hne : ¬ (service = service ∧ x.1 = e.1) := fun h => he (h.2 ▸ List.mem_map_of_mem hx)
      rw [handler?_add, if_neg hne]
      exact hfree x (List.mem_cons_of_mem e hx)
    rw [registerAll, registerMethod_free (hfree e List.mem_cons_self)]
    simp only [ih (n + 1) hrest hnd, ServiceRegistry.addAll, List.length_cons]
    rw [Nat.add_right_comm, Nat.add_assoc]

theorem registerAll_taken (n : Nat) {e : String × H} {post : List (String × H)}
    (hfree : ∀ x ∈ es, sr.handler? service x.1 = none)
    (hnd : ((es ++ e :: post).map Prod.fst).Nodup) (htaken : sr.handler? service e.1 ≠ none) :
    ∃ k err, registerAll sr service n (es ++ e :: post) = (sr.addAll service es, k, some err) := by
  induction es generalizing sr n with
  | nil =>
    obtain ⟨err, herr⟩ : ∃ err, sr.registerMethod service e.1 e.2 = (sr, some err) :=
      registerMethod_taken htaken
    rw [List.nil_append, registerAll, herr]
    exact ⟨n, _, rfl⟩
  | cons x es ih =>
    obtain ⟨hx, hnd⟩ := List.nodup_cons.mp hnd
    have hrest : ∀ y ∈ es ++ e :: post,
        (sr.add service x.1 x.2).handler? service y.1 = sr.handler? service y.1 := by
      intro y hy
      have hne : ¬ (service = service ∧ y.1 = x.1) := fun h => hx (h.2 ▸ List.mem_map_of_mem hy)
      rw [handler?_add, if_neg hne]
    rw [List.cons_append, registerAll, registerMethod_free (hfree x List.mem_cons_self)]
    refine ih (n + 1) (fun y hy => ?_) hnd ?_
    · rw [hrest y (List.mem_append_left _ hy)]
      exact hfree y (List.mem_cons_of_mem x hy)
    · rwa [hrest e (by simp)]

end Loop

/-! ## The whole registration -/

section Services
variable {handlerOf : GoMethod → RpcMethodKind → H} {sr : ServiceRegistry H} {service : String}

/-- How a registration ends: refused before any method is registered, with all eligible methods
added, or at the first one whose name is taken. -/
inductive Outcome (handlerOf : GoMethod → RpcMethodKind → H) (sr : ServiceRegistry H)
    (service : String) : Option Impl → ServiceRegistry H × Option GoError → Prop
  | nil {err} : Outcome handlerOf sr service none (sr, some err)
  | notStruct {impl err} : impl.structPointer = false →
      Outcome handlerOf sr service (some impl) (sr, some err)
  | noMethods {impl err} : eligible handlerOf impl.methods = [] →
      Outcome handlerOf sr service (some impl) (sr, some err)
  | added {impl} : impl.structPointer → eligible handlerOf impl.methods ≠ [] →
      (∀ e ∈ eligible handlerOf impl.methods, sr.handler? service e.1 = none) →
      Outcome handlerOf sr service (some impl)
        (sr.addAll service (eligible handlerOf impl.methods), none)
  | conflict {impl err pre e post} : impl.structPointer →
      eligible handlerOf impl.methods = pre ++ e :: post →
      (∀ x ∈ pre, sr.handler? service x.1 = none) → sr.handler? service e.1 ≠ none →
      Outcome handlerOf sr service (some impl) (sr.addAll service pre, some err)

theorem eligible_nodup (handlerOf : GoMethod → RpcMethodKind → H) (impl : Impl) :
    ((eligible handlerOf impl.methods).map Prod.fst).Nodup :=
  impl.names_nodup.sublist eligible_sublist

theorem registerService_cases (serviceImpl : Option Impl) :
    Outcome handlerOf sr service serviceImpl
      (registerService handlerOf sr service serviceImpl) := by
  cases serviceImpl with
  | none => exact .nil
  | some impl =>
    rw [registerService]
    by_cases hptr : impl.structPointer
    · simp only [hptr, Bool.not_true, Bool.false_eq_true, ↓reduceIte, registerMethods_eq]
      have hnd := eligible_nodup handlerOf impl
      rcases first_taken sr service (eligible handlerOf impl.methods) with
        hfree | ⟨pre, e, post, hes, hpre, he⟩
      · rw [registerAll_free 0 hfree hnd]
        simp only [Nat.zero_add, List.length_eq_zero_iff]
        split
        · rename_i hnil
          rw [hnil]
          exact .noMethods hnil
        · rename_i hne
          exact .added hptr hne hfree
      · rw [hes] at hnd ⊢
        obtain ⟨k, err, hreg⟩ := registerAll_taken 0 hpre hnd he
        rw [hreg]
        exact .conflict hptr hes hpre he
    · rw [if_pos (by simpa using hptr)]
      exact .notStruct (by simpa using hptr)

/-- A registration is all or nothing exactly if it is not torn: the methods in front of the first
conflict stay in the registry. -/
theorem registerService_atomic_iff (handlerOf : GoMethod → RpcMethodKind → H)
    (sr : ServiceRegistry H) (serviceName : String) (serviceImpl : Option Impl) :
    Atomic handlerOf sr serviceName serviceImpl ↔ ¬ Torn handlerOf sr serviceName serviceImpl := by
  have hcases : Outcome handlerOf sr serviceName serviceImpl
      (registerService handlerOf sr serviceName serviceImpl) := registerService_cases serviceImpl
  unfold Atomic Torn
  generalize registerService handlerOf sr serviceName serviceImpl = r at hcases
  cases hcases with
  | nil => simp
  | notStruct hptr => simp [hptr]
  | noMethods hnil => simp [hnil]
  | @added impl hptr hne hfree =>
    refine iff_of_true ⟨impl, rfl, added_addAll hfree (eligible_nodup handlerOf impl) hne⟩ ?_
    rintro ⟨_, first, rest, heq, -, hes, -, e, he, htaken⟩
    cases heq
    exact htaken (hfree e (hes ▸ List.mem_cons_of_mem first he))
  | @conflict impl _ pre e post hptr hes hpre he =>
    cases pre with
    | nil =>
      refine iff_of_true rfl ?_
      rintro ⟨_, first, rest, heq, -, hes', hfirst, -⟩
      cases heq
      rw [hes] at hes'
      cases hes'
      exact he hfirst
    | cons x pre =>
      have hx : sr.handler? serviceName x.1 = none := hpre x List.mem_cons_self
      have hnd : ((x :: pre).map Prod.fst).Nodup := by
        have hnd := eligible_nodup handlerOf impl
        rw [hes, List.map_append] at hnd
        exact hnd.of_append_left
      refine iff_of_false (addAll_ne hx hnd List.mem_cons_self) (not_not.mpr ?_)
      exact ⟨impl, x, pre ++ e :: post, rfl, hptr, hes, hx, e, by simp, he⟩

end Services

/-- A service with two methods of the simplest kind. -/
def twoMethods : Impl where
  type := .ptr (.base "Echo" .struct "struct \x7b\x7d" [] [])
  text := "*main.Echo"
  methods := [⟨"Echo", "", ⟨[emptyIface, emptyIface], [emptyIface, errType]⟩⟩,
    ⟨"Ping", "", ⟨[emptyIface, emptyIface], [emptyIface, errType]⟩⟩]
  names_nodup := by decide

/-- With a `Ping` in the registry, the service is refused and its `Echo` stays. -/
theorem conflict_leaves_first :
    ¬ ∀ (handlerOf : GoMethod → RpcMethodKind → Nat) (sr : ServiceRegistry Nat)
      (serviceName : String) (serviceImpl : Option Impl),
      Atomic handlerOf sr serviceName serviceImpl := by
  intro h
  have heq := h (fun _ _ => 1) (newServiceRegistry.add "echo" "Ping" 0) "echo" (some twoMethods)
  have hecho := congrArg (fun sr => ServiceRegistry.handler? sr "echo" "Echo") heq
  exact absurd hecho (by decide)

end RpcInGo.Server.Services
