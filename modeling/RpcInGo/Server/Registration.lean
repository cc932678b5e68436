import RpcInGo.Lib.HostPort
import RpcInGo.Protocol.Message
import RpcInGo.Registry.Instance

/-!
The address that a server registers. `registerService` takes the listener's address apart with
`net.SplitHostPort`, which removes the brackets of an IPv6 host, and `Endpoint` joins host and
port with a colon again, without brackets.

* `endpoint_split`: what a client that splits the endpoint gets;
* `registered_splits_iff`: host and port of the listener, exactly if the host has no colon;
* `wildcard_lost`: the default listen address has one.
-/

namespace RpcInGo.Server.Registration
open Lib Protocol.Message Registry.Instance

def splitHostPort (hostport : String) : Except HostPort.AddrErr (String × String) :=
  match HostPort.splitHostPort hostport.toList with
  | .ok (host, port) => .ok (String.ofList host, String.ofList port)
  | .error e => .error e

def atoi (s : String) : Except HostPort.NumErr Int := HostPort.atoi s.toList

/-- The text of an `AddrError`. -/
def addrError (addr : String) (e : HostPort.AddrErr) : GoError :=
  .foreign (if addr = "" then e.text else "address " ++ addr ++ ": " ++ e.text)

/-- The text of a `NumError`. -/
def numError (num : String) (e : HostPort.NumErr) : GoError :=
  .errorf "strconv.Atoi: parsing %q: %s" [.str num, .str e.text]

/-- `addr` is the address of the listener, `register` the answer of the registry. -/
def registerService (serviceName serviceVersion addr : String) (now : Int)
    (register : ServiceInstance → Option GoError) : Except GoError ServiceInstance :=
  match splitHostPort addr with
  | .error e => .error (.wrapf "invalid address format: %w" [] (addrError addr e))
  | .ok (host, portStr) =>
    match atoi portStr with
    | .error e => .error (.wrapf "invalid port %q: %w" [.str portStr] (numError portStr e))
    | .ok port =>
      let inst := newServiceInstance serviceName host port now
      let inst := if serviceVersion ≠ "" then { inst with version := serviceVersion } else inst
      match register inst with
      | some err => .error (.wrapf "register to registry: %w" [] err)
      | none => .ok inst

/-- The text comes apart into host and port of a listener. A port that the listener printed as a
number comes back to the letter. -/
def GivesBack (endpoint host portStr : String) (port : Int) : Prop :=
  ∃ p, splitHostPort endpoint = .ok (host, p) ∧ atoi p = .ok port ∧
    ∀ n : Int, portStr = toString n → p = portStr

section Registered
variable {serviceName serviceVersion addr host portStr : String} {now port : Int}
  {register : ServiceInstance → Option GoError} {inst : ServiceInstance}

theorem splitHostPort_eq_ok :
    splitHostPort addr = .ok (host, portStr) ↔
      HostPort.splitHostPort addr.toList = .ok (host.toList, portStr.toList) := by
  unfold splitHostPort
  constructor
  · intro h
    split at h
    · cases h
      simpa using by assumption
    · cases h
  · intro h
    rw [h]
    simp

/-- A service that was registered has host and port of its listener. -/
theorem registerService_ok
    (h : registerService serviceName serviceVersion addr now register = .ok inst)
    (hsplit : splitHostPort addr = .ok (host, portStr)) :
    inst.address = host ∧ atoi portStr = .ok inst.port := by
  unfold registerService at h
  rw [hsplit] at h
  simp only at h
  split at h
  · cases h
  split at h
  · cases h
  · rename_i port hport _ _
    cases h
    split <;> exact ⟨rfl, hport⟩

theorem endpoint_toList (inst : ServiceInstance) :
    inst.endpoint.toList = inst.address.toList ++ ':' :: HostPort.itoa inst.port := by
  simp [ServiceInstance.endpoint, HostPort.toList_repr]

/-- The endpoint of an instance whose address came out of `net.SplitHostPort`. -/
theorem endpoint_split (hsplit : splitHostPort addr = .ok (inst.address, portStr)) :
    splitHostPort inst.endpoint =
      if ':' ∈ inst.address.toList then .error .tooManyColons
      else .ok (inst.address, toString inst.port) := by
  obtain ⟨-, -, hhost, -⟩ := HostPort.splitHostPort_ok (splitHostPort_eq_ok.mp hsplit)
  have hmem : ∀ c ∈ HostPort.itoa inst.port, c = '-' ∨ c.isDigit := fun c => HostPort.mem_itoa
  have hport : HostPort.Unbracketed (HostPort.itoa inst.port) :=
    ⟨fun h => absurd (hmem _ h) (by decide), fun h => absurd (hmem _ h) (by decide)⟩
  have hcolon : ':' ∉ HostPort.itoa inst.port := fun h => absurd (hmem _ h) (by decide)
  rw [splitHostPort, endpoint_toList, HostPort.splitHostPort_concat hhost hport hcolon]
  by_cases hhas : ':' ∈ inst.address.toList
  · rw [if_pos hhas, if_pos hhas]
  · rw [if_neg hhas, if_neg hhas, ← HostPort.toList_repr]
    simp

theorem atoi_toString (n : Int) : atoi (toString n) = HostPort.ranged n := by
  rw [atoi, Int.toString_eq_repr, HostPort.toList_repr, HostPort.atoi_itoa]

/-- The endpoint that a server registers gives back host and port of its listener exactly if the
host has no colon. -/
theorem registered_splits_iff
    (hreg : registerService serviceName serviceVersion addr now register = .ok inst)
    (hsplit : splitHostPort addr = .ok (host, portStr)) (hport : atoi portStr = .ok port) :
    GivesBack inst.endpoint host portStr port ↔ ':' ∉ host.toList := by
  obtain ⟨rfl, hinst⟩ := registerService_ok hreg hsplit
  rw [hinst] at hport
  cases hport
  rw [GivesBack, endpoint_split hsplit]
  constructor
  · rintro ⟨p, hp, -⟩ hmem
    rw [if_pos hmem] at hp
    cases hp
  · intro hmem
    refine ⟨toString inst.port, if_neg hmem, ?_, fun n hprinted => ?_⟩
    · rw [atoi_toString]
      exact HostPort.ranged_ok.mpr ⟨rfl, HostPort.atoi_ok hinst⟩
    · rw [hprinted, atoi_toString] at hinst
      rw [hprinted, (HostPort.ranged_ok.mp hinst).1]

end Registered

theorem registered_splits_iff_ipv4 :
    GivesBack (newServiceInstance "echo" "10.0.0.1" 8080 1700000000).endpoint
      "10.0.0.1" "8080" 8080 := by
  have hreg : registerService "echo" "" "10.0.0.1:8080" 1700000000 (fun _ => none) =
      .ok (newServiceInstance "echo" "10.0.0.1" 8080 1700000000) := rfl
  exact (registered_splits_iff hreg (by decide) (by decide)).mpr (by decide)

/-- A server that listens on `:8080` registers `:::8080`. -/
theorem wildcard_lost :
    ¬ ∀ (serviceName serviceVersion addr host portStr : String) (now port : Int)
      (register : ServiceInstance → Option GoError) (inst : ServiceInstance),
      registerService serviceName serviceVersion addr now register = .ok inst →
      splitHostPort addr = .ok (host, portStr) → atoi portStr = .ok port →
      GivesBack inst.endpoint host portStr port := by
  intro h
  obtain ⟨p, hp, -⟩ := h "echo" "" "[::]:8080" "::" "8080" 1700000000 8080 (fun _ => none)
    (newServiceInstance "echo" "::" 8080 1700000000) rfl (by decide) (by decide)
  have herr : splitHostPort (newServiceInstance "echo" "::" 8080 1700000000).endpoint =
      .error .tooManyColons := by decide
  rw [herr] at hp
  cases hp

end RpcInGo.Server.Registration
