import Gannet.Net.Interface

/-!
# Which interface is used (net/interface.rs, commands.rs)

Every command looks for its interface anew: `auto_subnet` for the subnet to scan,
`arp::scan_subnet` for where to send requests, `find_source_ip` for the address to leave
out of a sweep. Where pnet has no interface that will do, some of them go on with those
that sysfs lists.

- `findLocalInterface_pnet`: where pnet has any IPv4 address, both searches choose the
  same interface.
- `findSourceIp_eq`, `autoSubnet_eq`: the address to leave out and the subnet come from
  one address, `ownAddress`.
-/

namespace Gannet

open Bytes Machine

/-! ## The searches -/

/-- `is_ipv4` -/
def IpNetwork.isIpv4 : IpNetwork → Bool
  | .v4 _ _ => true
  | .v6 => false

/-- `suitable` -/
def PnetInterface.suitable (iface : PnetInterface) : Bool :=
  iface.isUp && !iface.isLoopback && iface.ips.any IpNetwork.isIpv4

/-- `find_interface`, among what pnet lists. -/
def findInterface (name : Option String) (interfaces : List PnetInterface) :
    Option PnetInterface :=
  match name with
  | some n => interfaces.find? fun i => i.name == n && i.suitable
  | none => interfaces.find? fun i => i.suitable

/-- The interfaces of this machine, as pnet has them and as sysfs and the address tools
have them. -/
structure Interfaces where
  pnet : List PnetInterface
  sysfs : List SysfsEntry
  tools : AddrTools

/-- `local_interfaces` -/
def localInterfaces (host : Interfaces) : List LocalInterface :=
  let hasAnyIpv4 := host.pnet.any fun i => i.ips.any IpNetwork.isIpv4
  if !host.pnet.isEmpty && hasAnyIpv4 then pnetInterfacesFrom host.pnet
  else sysfsInterfaces host.tools host.sysfs

/-- The test of `find_local_interface`. -/
def LocalInterface.usable (iface : LocalInterface) : Bool :=
  iface.up && !iface.loopback && !iface.ips.isEmpty

/-- `find_local_interface` -/
def findLocalInterface (name : Option String) (host : Interfaces) : Option LocalInterface :=
  match name with
  | some n => (localInterfaces host).find? fun i => i.name == n && i.usable
  | none => (localInterfaces host).find? fun i => i.usable

/-- `find_local_source_ip` -/
def findLocalSourceIp (name : Option String) (host : Interfaces) : Option Ipv4Addr :=
  (findLocalInterface name host).bind fun iface => iface.ips.head?.map Prod.fst

/-- The first IPv4 address of an interface. -/
def PnetInterface.sourceIp (iface : PnetInterface) : Option Ipv4Addr :=
  (iface.ips.find? IpNetwork.isIpv4).bind fun network => network.v4?.map Prod.fst

/-- `find_source_ip` -/
def findSourceIp (name : Option String) (host : Interfaces) : Option Ipv4Addr :=
  match findInterface name host.pnet with
  | some iface => iface.sourceIp
  | none => findLocalSourceIp name host

/-- `auto_subnet`, with its default. -/
def Commands.autoSubnet (profile : Profile) (name : Option String) (host : Interfaces) :
    Except Panic (Ipv4Addr × UInt8) :=
  let fromPnet := (findInterface name host.pnet).bind fun iface =>
    iface.ips.findSome? IpNetwork.v4?
  let fromLocal := (findLocalInterface name host).bind fun iface => iface.ips.head?
  match fromPnet.or fromLocal with
  | some (ip, prefixLen) => do return (← Commands.networkBase profile ip prefixLen, prefixLen)
  | none => .ok (⟨192, 168, 1, 0⟩, 24)

/-! ## Two views of an interface -/

/-- What `pnet_interfaces_from` makes of an interface. -/
def PnetInterface.toLocal (iface : PnetInterface) : LocalInterface :=
  ⟨iface.name, iface.ipv4s, iface.mac, iface.isUp, iface.isLoopback⟩

variable {iface : PnetInterface} {name : Option String} {host : Interfaces}

theorem any_isIpv4 (iface : PnetInterface) :
    iface.ips.any IpNetwork.isIpv4 = !iface.ipv4s.isEmpty := by
  rw [PnetInterface.ipv4s]
  induction iface.ips with
  | nil => rfl
  | cons network ips ih =>
    cases network with
    | v4 ip prefixLen => rfl
    | v6 => simpa [IpNetwork.isIpv4] using ih

/-- Both tests are the same. -/
theorem usable_toLocal (iface : PnetInterface) : iface.toLocal.usable = iface.suitable := by
  rw [PnetInterface.suitable, any_isIpv4]
  rfl

/-- The first of the addresses is that of the first search that finds one. -/
theorem head?_ipv4s (iface : PnetInterface) :
    iface.ipv4s.head? = iface.ips.findSome? IpNetwork.v4? := by
  rw [PnetInterface.ipv4s]
  induction iface.ips with
  | nil => rfl
  | cons network ips ih =>
    cases network with
    | v4 ip prefixLen => rfl
    | v6 => exact ih

theorem sourceIp_eq (iface : PnetInterface) :
    iface.sourceIp = iface.ipv4s.head?.map Prod.fst := by
  rw [PnetInterface.sourceIp, PnetInterface.ipv4s]
  induction iface.ips with
  | nil => rfl
  | cons network ips ih =>
    cases network with
    | v4 ip prefixLen => rfl
    | v6 => exact ih

theorem findLocalInterface_pnet (name : Option String)
    (h : (host.pnet.any fun i => i.ips.any IpNetwork.isIpv4) = true) :
    findLocalInterface name host = (findInterface name host.pnet).map PnetInterface.toLocal := by
  have hne : host.pnet.isEmpty = false := by
    cases hpnet : host.pnet with
    | nil => simp [hpnet] at h
    | cons i is => rfl
  have hlocal : localInterfaces host = host.pnet.map PnetInterface.toLocal := by
    rw [localInterfaces, hne, h]
    rfl
  cases name with
  | none =>
    rw [findLocalInterface, findInterface, hlocal, List.find?_map]
    simp only [Function.comp_def, usable_toLocal]
  | some n =>
    rw [findLocalInterface, findInterface, hlocal, List.find?_map]
    simp only [Function.comp_def, usable_toLocal]
    rfl

/-- An interface that will do has an IPv4 address. -/
theorem findInterface_spec (h : findInterface name host.pnet = some iface) :
    iface ∈ host.pnet ∧ iface.suitable = true := by
  cases name with
  | none => exact ⟨List.mem_of_find?_eq_some h, List.find?_some h⟩
  | some n =>
    have hfound := List.find?_some h
    rw [Bool.and_eq_true] at hfound
    exact ⟨List.mem_of_find?_eq_some h, hfound.2⟩

/-! ## One address -/

/-- The address that this machine has on the interface that is found, with its prefix. -/
def ownAddress (name : Option String) (host : Interfaces) : Option (Ipv4Addr × UInt8) :=
  match findInterface name host.pnet with
  | some iface => iface.ipv4s.head?
  | none => (findLocalInterface name host).bind fun iface => iface.ips.head?

theorem findSourceIp_eq (name : Option String) (host : Interfaces) :
    findSourceIp name host = (ownAddress name host).map Prod.fst := by
  rw [findSourceIp, ownAddress]
  cases findInterface name host.pnet with
  | some iface => exact sourceIp_eq iface
  | none => exact Option.map_bind.symm

/-- Of an interface that is found the first address is taken, and there is one. -/
theorem head?_ipv4s_ne_none (h : findInterface name host.pnet = some iface) :
    ∃ own, iface.ipv4s.head? = some own := by
  obtain ⟨-, hsuitable⟩ := findInterface_spec h
  rw [PnetInterface.suitable, any_isIpv4, Bool.and_eq_true] at hsuitable
  cases hips : iface.ipv4s with
  | nil => simp [hips] at hsuitable
  | cons own ips => exact ⟨own, rfl⟩

theorem autoSubnet_eq (profile : Profile) (name : Option String) (host : Interfaces) :
    Commands.autoSubnet profile name host = (ownAddress name host).elim
      (.ok (⟨192, 168, 1, 0⟩, 24))
      fun own => (Commands.networkBase profile own.1 own.2).map fun base => (base, own.2) := by
  have hfirst : ((findInterface name host.pnet).bind fun iface =>
        iface.ips.findSome? IpNetwork.v4?).or
          ((findLocalInterface name host).bind fun iface => iface.ips.head?)
      = ownAddress name host := by
    rw [ownAddress]
    cases hfound : findInterface name host.pnet with
    | none => rfl
    | some iface =>
      obtain ⟨own, hown⟩ := head?_ipv4s_ne_none hfound
      rw [Option.bind_some, ← head?_ipv4s, hown]
      exact hown.symm
  rw [Commands.autoSubnet, hfirst]
  cases ownAddress name host with
  | none => rfl
  | some own => cases own; rfl

end Gannet
