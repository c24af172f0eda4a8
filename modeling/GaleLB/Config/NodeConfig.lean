import GaleLB.Common.TextFields
import Mathlib.Data.Int.Notation

/-!
# The load balancer addresses of a node's command line

An address is given as `hostname:ip:port`. The text is cut at its first two colons, and
the port is then taken from the configuration: the port's text is used as the name of a
key there. An address is read back as it was written exactly when the configuration stores
its port number under the key that spells this number.
-/

namespace GaleLB.Config

open TextFields

/-- The address of a load balancer. -/
structure Address where
  hostname : String
  ip : String
  port : ℤ
deriving DecidableEq, Repr

/-- The number of parts of an address. -/
def loadBalancerAddressArguments : ℕ := 3

/-- The configuration as `viper` sees it: the integers that are stored under its keys. -/
abbrev Viper := String → Option ℤ

/-- `viper.GetInt`. -/
def Viper.getInt (viper : Viper) (key : String) : ℤ := (viper key).getD 0

/-- `strings.SplitN` at colons. -/
def splitColons (s : String) (n : ℕ) : List String := (splitN ':' n s.toList).map String.ofList

/-- Read the address at an index of the list. -/
def parseLBAddress (viper : Viper) (idx : ℕ) (addr : String) : Except String Address :=
  match splitColons addr loadBalancerAddressArguments with
  | [hostname, ip, port] => .ok ⟨hostname, ip, viper.getInt port⟩
  | _ => .error ("invalid load balancer address at index " ++ toString idx ++ ": " ++ addr)

/-- The loop of `parseLBAddresses`, from an index on and with the addresses read so far. -/
def parseLBAddressesFrom (viper : Viper) (idx : ℕ) (addrs : List Address) :
    List String → Except String (List Address)
  | [] => .ok addrs
  | addr :: rest =>
    match parseLBAddress viper idx addr with
    | .error err => .error err
    | .ok address => parseLBAddressesFrom viper (idx + 1) (addrs ++ [address]) rest

/-- Read a list of addresses; the first malformed one is an error. -/
def parseLBAddresses (viper : Viper) (addrsStr : List String) : Except String (List Address) :=
  parseLBAddressesFrom viper 0 [] addrsStr

/-- The text of an address, as it is given on the command line. -/
def Address.format (a : Address) : String := a.hostname ++ ":" ++ a.ip ++ ":" ++ toString a.port

/-- Neither the hostname nor the address contains a colon, and the port is one. -/
structure Address.WellFormed (a : Address) : Prop where
  hostname : ':' ∉ a.hostname.toList
  ip : ':' ∉ a.ip.toList
  port_ge : 1 ≤ a.port
  port_le : a.port ≤ 65535

/-- The text of an address is cut into its parts. -/
theorem splitColons_format {a : Address} (h : a.WellFormed) :
    splitColons a.format loadBalancerAddressArguments = [a.hostname, a.ip, toString a.port] := by
  have htext : a.format.toList = a.hostname.toList ++ ':' :: (a.ip.toList ++ ':' :: (toString a.port).toList) := by
    unfold Address.format
    simp only [String.toList_append, List.append_assoc]
    rfl
  unfold splitColons loadBalancerAddressArguments
  rw [htext, splitN_append_cons h.hostname 1, splitN_append_cons h.ip 0]
  simp only [splitN, List.map_cons, List.map_nil, String.ofList_toList]

/-- The hostname and the address are read back, the port is looked up. -/
theorem parseLBAddress_format (viper : Viper) (idx : ℕ) {a : Address} (h : a.WellFormed) :
    parseLBAddress viper idx a.format = .ok { a with port := viper.getInt (toString a.port) } := by
  unfold parseLBAddress
  rw [splitColons_format h]

/-- The loop reads well-formed addresses in order. -/
theorem parseLBAddressesFrom_format (viper : Viper) (idx : ℕ) (before : List Address) {addrs : List Address}
    (h : ∀ a ∈ addrs, a.WellFormed) :
    parseLBAddressesFrom viper idx before (addrs.map Address.format) =
      .ok (before ++ addrs.map fun a => { a with port := viper.getInt (toString a.port) }) := by
  induction addrs generalizing idx before with
  | nil => rw [List.map_nil, List.map_nil, List.append_nil, parseLBAddressesFrom]
  | cons a rest ih =>
    rw [List.forall_mem_cons] at h
    rw [List.map_cons, parseLBAddressesFrom, parseLBAddress_format viper idx h.1]
    dsimp only
    rw [ih _ _ h.2, List.append_assoc]
    rfl

/-- A well-formed port is looked up correctly exactly when it is stored under its own text. -/
theorem getInt_eq_port_iff (viper : Viper) {a : Address} (h : a.WellFormed) :
    viper.getInt (toString a.port) = a.port ↔ viper (toString a.port) = some a.port := by
  have hport := h.port_ge
  unfold Viper.getInt
  cases viper (toString a.port) with
  | none =>
    rw [Option.getD_none]
    exact iff_of_false (by omega) nofun
  | some port => rw [Option.getD_some, Option.some.injEq]

/-- For every configuration and every list of well-formed addresses, the list is read back from its
texts exactly when the configuration stores every port under the key that spells it. -/
theorem parseLBAddresses_format_iff (viper : Viper) (addrs : List Address) (h : ∀ a ∈ addrs, a.WellFormed) :
    parseLBAddresses viper (addrs.map Address.format) = .ok addrs ↔
      ∀ a ∈ addrs, viper (toString a.port) = some a.port := by
  unfold parseLBAddresses
  rw [parseLBAddressesFrom_format viper 0 [] h, List.nil_append, Except.ok.injEq]
  nth_rewrite 2 [← List.map_id addrs]
  rw [List.map_inj_left]
  refine forall₂_congr fun a ha => ?_
  rw [← getInt_eq_port_iff viper (h a ha)]
  constructor
  · intro hsame
    exact congrArg Address.port hsame
  · intro hport
    rw [hport]
    rfl

/-- A load balancer that is given by its name. -/
def sampleAddress : Address := ⟨"lb-0.local", "", 7070⟩

/-- A second load balancer, given by its IP address as well. -/
def otherAddress : Address := ⟨"lb-1.local", "192.168.0.11", 7071⟩

/-- The sample address is well formed. -/
theorem sampleAddress_wellFormed : sampleAddress.WellFormed :=
  ⟨by decide +kernel, by decide +kernel, by decide, by decide⟩

/-- The second address is well formed. -/
theorem otherAddress_wellFormed : otherAddress.WellFormed :=
  ⟨by decide +kernel, by decide +kernel, by decide, by decide⟩

/-- A configuration with entries `7070 = 7070` and `7071 = 7071` makes the ports come out right. -/
theorem parseLBAddresses_sample :
    parseLBAddresses (fun key => if key = "7070" then some 7070 else if key = "7071" then some 7071 else none)
      ([sampleAddress, otherAddress].map Address.format) = .ok [sampleAddress, otherAddress] := by
  refine (parseLBAddresses_format_iff _ [sampleAddress, otherAddress] ?_).mpr ?_
  · exact List.forall_mem_cons.mpr ⟨sampleAddress_wellFormed, List.forall_mem_singleton.mpr otherAddress_wellFormed⟩
  · exact List.forall_mem_cons.mpr ⟨by decide +kernel, List.forall_mem_singleton.mpr (by decide +kernel)⟩

/-- Without such an entry the port is lost. -/
theorem parseLBAddresses_loses_port :
    sampleAddress.WellFormed ∧ sampleAddress.format = "lb-0.local::7070" ∧
      parseLBAddresses (fun _ => none) [sampleAddress.format] = .ok [⟨"lb-0.local", "", 0⟩] :=
  ⟨sampleAddress_wellFormed, by decide +kernel,
    parseLBAddressesFrom_format _ 0 [] (List.forall_mem_singleton.mpr sampleAddress_wellFormed)⟩

end GaleLB.Config
