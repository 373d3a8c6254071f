import Gannet.Discovery.Gateways
import Gannet.Discovery.Upnp

/-!
# The subnets a survey probes (survey.rs)

The survey gathers the networks of its gateways, what these answer over UPnP and
the surroundings of its own network in a map from networks to where they come
from. The map tells networks apart by their keys, so a block that comes in two
forms is probed twice.

- `networkBase_iff`: `network_base` clears the host bits unless the prefix is 0.
- `candidates_canonical_iff`: every key is a network without host bits, and
  different keys are different blocks, iff this holds of the routers in the UPnP
  replies, which alone do not go through `network_base`.
-/

namespace Gannet

open Bytes KeyMap Loop Machine

namespace Survey

/-! ## Gathering -/

/-- The networks of the gateways. -/
def gatewayTargets (gateways : List GatewayInfo) : List Target :=
  gateways.filterMap fun gw =>
    gw.subnet.map fun (net, prefixLen) => (net, prefixLen, .gatewayRoute)

/-- The first IPv4 address of an interface. -/
def firstIpv4 (interface : NetworkInterface) : Option (Ipv4Addr × UInt8) :=
  interface.ips.findSome? IpNetwork.v4?

/-- `local_subnet`, with its default. -/
def localSubnet (profile : Profile) (interface : Option NetworkInterface) :
    Except Panic (Ipv4Addr × UInt8) :=
  match interface.bind firstIpv4 with
  | some (ip, prefixLen) => do return (← Survey.networkBase profile ip prefixLen, prefixLen)
  | none => .ok (⟨192, 168, 1, 0⟩, 24)

/-- What the survey finds around it: gateways, the locations each announces when
it is asked for its WAN and for its routes, and the local interface. -/
structure Surroundings where
  gateways : List GatewayInfo
  wanLocations : Ipv4Addr → List Location
  routeLocations : Ipv4Addr → List Location
  interface : Option NetworkInterface

/-- The adjacent networks of the local one. -/
def adjacentTargets (profile : Profile) (order : SetOrder (Nat × Nat))
    (interface : Option NetworkInterface) : Except Panic (List Target) := do
  let (base, prefixLen) ← localSubnet profile interface
  return adjacentSubnetsFrom order base prefixLen

/-- What is put into `all_subnets`, in order. -/
def candidateTargets (profile : Profile) (order : SetOrder (Nat × Nat)) (around : Surroundings) :
    Except Panic (List Target) := do
  let upnp ← appendAll (fun gw =>
    probeGatewayUpnp profile (around.wanLocations gw.ip) (around.routeLocations gw.ip))
    around.gateways
  let adjacent ← adjacentTargets profile order around.interface
  return gatewayTargets around.gateways ++ upnp ++ adjacent

/-- The targets in a map, each with the source it was first put in with. -/
def subnetMap (targets : List Target) : Map (Ipv4Addr × UInt8) SubnetSource :=
  fill ∅ (targets.map fun (net, prefixLen, source) => ((net, prefixLen), source))

/-- `all_subnets` -/
def allSubnets (profile : Profile) (order : SetOrder (Nat × Nat)) (around : Surroundings) :
    Except Panic (Map (Ipv4Addr × UInt8) SubnetSource) := do
  return subnetMap (← candidateTargets profile order around)

/-- The map has the subnets of all targets. -/
theorem mem_subnetMap {targets : List Target} {net : Ipv4Addr} {prefixLen : UInt8} :
    (net, prefixLen) ∈ subnetMap targets ↔ ∃ source, (net, prefixLen, source) ∈ targets := by
  rw [subnetMap, mem_fill_empty]
  simp

/-! ## Host bits -/

/-- All bits after the top `prefixLen` are zero. -/
def HostBitsZero (ip : Ipv4Addr) (prefixLen : UInt8) : Prop :=
  2 ^ (32 - prefixLen.toNat) ∣ ip.toU32.toNat

/-- The mask for the prefix works, or there is nothing to clear. -/
def Maskable (profile : Profile) (ip : Ipv4Addr) (prefixLen : UInt8) : Prop :=
  prefixLen ≠ 0 ∨ profile = .release ∧ ip = .unspecified

variable {profile : Profile} {ip net : Ipv4Addr} {prefixLen : UInt8}

/-- A network base has no host bits. -/
theorem hostBitsZero_clearLow (ip : Ipv4Addr) (hle : prefixLen ≤ 32) :
    HostBitsZero (ip.clearLow prefixLen) prefixLen := by
  rw [HostBitsZero, (eq_clearLow_iff hle).mp rfl]
  exact Nat.dvd_mul_left _ _

/-- Only 0.0.0.0 has no bits at all. -/
theorem hostBitsZero_zero_iff : HostBitsZero ip 0 ↔ ip = .unspecified := by
  constructor
  · intro h
    refine Ipv4Addr.toU32_inj (UInt32.toNat_inj.mp ?_)
    exact Nat.eq_zero_of_dvd_of_lt h ip.toU32.toNat_lt
  · rintro rfl
    exact Nat.dvd_zero _

/-- The last octets of a block of 256 and of one of 65536. -/
theorem hostBitsZero_24_iff : HostBitsZero ip 24 ↔ ip.d = 0 := by
  have hd : (0 : UInt8).toNat = 0 := rfl
  show 2 ^ 8 ∣ ip.toU32.toNat ↔ _
  rw [Nat.dvd_iff_mod_eq_zero, ← ip.toNat_d, ← UInt8.toNat_inj, hd]

/-- Of a /16 the last two octets are the host bits. -/
theorem hostBitsZero_16_iff : HostBitsZero ip 16 ↔ ip.c = 0 ∧ ip.d = 0 := by
  have hzero : (0 : UInt8).toNat = 0 := rfl
  have hc := ip.c.toNat_lt
  have hd := ip.d.toNat_lt
  show 2 ^ 16 ∣ ip.toU32.toNat ↔ _
  rw [Nat.dvd_iff_mod_eq_zero, Ipv4Addr.toNat_toU32, ← UInt8.toNat_inj, ← UInt8.toNat_inj, hzero]
  omega

/-- Blocks without host bits are told apart by their networks. -/
theorem eq_of_block {ip ip' : Ipv4Addr} (h : HostBitsZero ip prefixLen)
    (h' : HostBitsZero ip' prefixLen) (htop : ip.topBits prefixLen = ip'.topBits prefixLen) :
    ip = ip' := by
  refine Ipv4Addr.toU32_inj (UInt32.toNat_inj.mp ?_)
  rw [← Nat.div_mul_cancel h, ← Nat.div_mul_cancel h']
  exact congrArg (· * _) htop

/-- `network_base` returns a network without host bits iff it has a mask. -/
theorem networkBase_iff (hle : prefixLen ≤ 32) :
    (∃ base, Survey.networkBase profile ip prefixLen = .ok base ∧ HostBitsZero base prefixLen) ↔
      Maskable profile ip prefixLen := by
  by_cases hpos : prefixLen = 0
  · subst hpos
    rw [Maskable, or_iff_right (not_not.mpr rfl)]
    cases profile with
    | debug =>
      refine iff_of_false ?_ fun h => nomatch h.1
      rintro ⟨base, hbase, -⟩
      cases (networkBase_zero_debug ip).symm.trans hbase
    | release =>
      constructor
      · rintro ⟨base, hbase, hzero⟩
        obtain rfl := Except.ok.inj ((networkBase_zero_release ip).symm.trans hbase)
        exact ⟨rfl, hostBitsZero_zero_iff.mp hzero⟩
      · rintro ⟨-, rfl⟩
        exact ⟨_, networkBase_zero_release _, hostBitsZero_zero_iff.mpr rfl⟩
  · exact iff_of_true ⟨_, networkBase_spec hle hpos, hostBitsZero_clearLow ip hle⟩ (.inl hpos)

/-! ## Where candidates come from -/

/-- The network of the candidate has no host bits. -/
def Canonical (target : Target) : Prop := HostBitsZero target.1 target.2.1

/-- The network of an address is canonical iff its mask can be built. -/
theorem baseEntry_allOk_iff (hle : prefixLen ≤ 32) :
    AllOk Canonical (baseEntry profile ip prefixLen) ↔ Maskable profile ip prefixLen := by
  rw [← networkBase_iff hle, baseEntry]
  cases Survey.networkBase profile ip prefixLen with
  | error e => exact iff_of_false not_allOk_error fun ⟨_, h, _⟩ => nomatch h
  | ok base =>
    show AllOk Canonical (.ok [(base, prefixLen, .upnpDiscovery)]) ↔ _
    rw [allOk_ok, List.forall_mem_singleton]
    exact ⟨fun h => ⟨base, rfl, h⟩, fun ⟨_, h, hzero⟩ => Except.ok.inj h ▸ hzero⟩

/-- The common prefixes have masks. -/
theorem commonSubnets_allOk (profile : Profile) (response : List Char) :
    AllOk Canonical (commonSubnets profile response) := by
  unfold commonSubnets
  cases wanIp response with
  | none => exact ⟨[], rfl, fun _ h => nomatch h⟩
  | some ip =>
    dsimp only
    by_cases hpublic : (!ip.isUnspecified && !ip.isPrivate) = true
    · rw [if_pos hpublic, allOk_appendAll]
      intro prefixLen hmem
      have hlength : prefixLen ≤ 32 ∧ prefixLen ≠ 0 := by
        simp only [List.mem_cons, List.not_mem_nil, or_false] at hmem
        rcases hmem with rfl | rfl | rfl | rfl <;> decide
      exact (baseEntry_allOk_iff hlength.1).mpr (.inl hlength.2)
    · rw [if_neg hpublic]
      exact ⟨[], rfl, fun _ h => nomatch h⟩

/-- A mask in the reply may be empty. -/
theorem wanSubnets_allOk_iff {response : List Char} :
    AllOk Canonical (wanSubnets profile response) ↔ ∀ ip mask, wanIp response = some ip →
      wanMask response = some mask → Maskable profile ip (maskToPrefix mask) := by
  rw [wanSubnets, allOk_append, and_iff_right (commonSubnets_allOk profile response),
    maskedSubnets]
  cases wanMask response with
  | none => exact iff_of_true ⟨[], rfl, fun _ h => nomatch h⟩ fun _ _ _ h => nomatch h
  | some mask =>
    cases wanIp response with
    | none => exact iff_of_true ⟨[], rfl, fun _ h => nomatch h⟩ fun _ _ h => nomatch h
    | some ip =>
      dsimp only
      rw [baseEntry_allOk_iff (maskToPrefix_le mask)]
      constructor
      · rintro h ip' mask' hip' hmask'
        rw [← Option.some.inj hip', ← Option.some.inj hmask']
        exact h
      · exact fun h => h ip mask rfl rfl

/-- A router counts as a /16 of its own address, without a mask. -/
theorem routerSubnets_iff {response : List Char} :
    (∀ target ∈ routerSubnets response, Canonical target) ↔
      ∀ router ∈ routersIn response, router.c = 0 ∧ router.d = 0 := by
  rw [routerSubnets, List.forall_mem_flatMap]
  refine forall₂_congr fun router _ => ?_
  rw [List.forall_mem_cons, List.forall_mem_singleton]
  show HostBitsZero router 24 ∧ HostBitsZero router 16 ↔ _
  rw [hostBitsZero_24_iff, hostBitsZero_16_iff]
  exact and_iff_right_of_imp fun h => h.2

/-- What makes the networks of a location canonical. -/
structure Location.Aligned (profile : Profile) (location : Location) : Prop where
  wan : ∀ reply ∈ location.wanReplies, ∀ ip mask, wanIp reply = some ip →
    wanMask reply = some mask → Maskable profile ip (maskToPrefix mask)
  routers : ∀ reply ∈ location.routerReplies, ∀ router ∈ routersIn reply,
    router.c = 0 ∧ router.d = 0

/-- Of the locations only those for the WAN address bring subnets. -/
theorem probeGatewayUpnp_allOk_iff {wanLocations routeLocations : List Location} :
    AllOk Canonical (probeGatewayUpnp profile wanLocations routeLocations) ↔
      ∀ location ∈ wanLocations, location.Aligned profile := by
  rw [probeGatewayUpnp, allOk_append_ok, and_iff_left (fun _ h => nomatch h), queryUpnpWan,
    allOk_appendAll]
  refine forall₂_congr fun location _ => ?_
  rw [allOk_append_ok, allOk_appendAll, List.forall_mem_flatMap]
  constructor
  · rintro ⟨hwan, hrouters⟩
    exact ⟨fun reply hreply => wanSubnets_allOk_iff.mp (hwan reply hreply),
      fun reply hreply => routerSubnets_iff.mp (hrouters reply hreply)⟩
  · rintro ⟨hwan, hrouters⟩
    exact ⟨fun reply hreply => wanSubnets_allOk_iff.mpr (hwan reply hreply),
      fun reply hreply => routerSubnets_iff.mpr (hrouters reply hreply)⟩

theorem mem_of_firstIpv4 {interface : NetworkInterface}
    (h : firstIpv4 interface = some (ip, prefixLen)) : .v4 ip prefixLen ∈ interface.ips := by
  obtain ⟨network, hmem, heq⟩ := List.exists_of_findSome?_eq_some h
  cases network with
  | v6 => cases heq
  | v4 ip' prefixLen' =>
    obtain ⟨rfl, rfl⟩ := Prod.mk.inj (Option.some.inj heq)
    exact hmem

/-- The neighbours of a network are /24 networks; else it is the only one. -/
theorem adjacentSubnetsFrom_canonical {base : Ipv4Addr} (order : SetOrder (Nat × Nat)) :
    (∀ target ∈ adjacentSubnetsFrom order base prefixLen, Canonical target) ↔
      prefixLen = 24 ∨ HostBitsZero base prefixLen := by
  by_cases h24 : prefixLen = 24
  · subst h24
    refine iff_of_true ?_ (.inl rfl)
    rintro ⟨net, prefixLen, source⟩ hmem
    obtain ⟨hlength, hd⟩ := adjacentSubnetsFrom_octets order base _ hmem
    dsimp only at hlength hd
    subst hlength
    exact hostBitsZero_24_iff.mpr hd
  · rw [adjacentSubnetsFrom, if_pos h24, List.forall_mem_singleton, or_iff_right h24]
    rfl

/-- The adjacent subnets are canonical wherever the own mask can be built. -/
theorem adjacentTargets_allOk_iff (order : SetOrder (Nat × Nat))
    {interface : Option NetworkInterface} :
    AllOk Canonical (adjacentTargets profile order interface) ↔
      ∀ ip prefixLen, interface.bind firstIpv4 = some (ip, prefixLen) →
        Maskable profile ip prefixLen := by
  rw [adjacentTargets, localSubnet]
  cases hfirst : interface.bind firstIpv4 with
  | none =>
    refine iff_of_true ⟨_, rfl, ?_⟩ fun _ _ h => nomatch h
    exact (adjacentSubnetsFrom_canonical order).mpr (.inl rfl)
  | some first =>
    obtain ⟨ip, prefixLen⟩ := first
    obtain ⟨interface, -, hfirst⟩ := Option.bind_eq_some_iff.mp hfirst
    have hle := interface.prefix_le ip prefixLen (mem_of_firstIpv4 hfirst)
    have hiff : (∀ ip' prefixLen', some (ip, prefixLen) = some (ip', prefixLen') →
        Maskable profile ip' prefixLen') ↔ Maskable profile ip prefixLen := by
      constructor
      · exact fun h => h ip prefixLen rfl
      · rintro h ip' prefixLen' heq
        obtain ⟨rfl, rfl⟩ := Prod.mk.inj (Option.some.inj heq)
        exact h
    rw [hiff, ← networkBase_iff hle]
    dsimp only
    cases hbase : Survey.networkBase profile ip prefixLen with
    | error e => exact iff_of_false not_allOk_error fun ⟨_, h, _⟩ => nomatch h
    | ok base =>
      show AllOk Canonical (.ok (adjacentSubnetsFrom order base prefixLen)) ↔ _
      rw [allOk_ok, adjacentSubnetsFrom_canonical]
      constructor
      · rintro (rfl | hzero)
        · obtain ⟨base', hbase', hzero⟩ := (networkBase_iff hle).mpr (.inl (by decide))
          exact ⟨base, rfl, Except.ok.inj (hbase.symm.trans hbase') ▸ hzero⟩
        · exact ⟨base, rfl, hzero⟩
      · rintro ⟨base', hbase', hzero⟩
        exact .inr (Except.ok.inj hbase' ▸ hzero)

/-! ## All candidates -/

/-- The gateway's subnet is one that was read from an interface. -/
def GatewayInfo.Detected (profile : Profile) (gw : GatewayInfo) : Prop :=
  ∃ interface : NetworkInterface,
    Survey.subnetFromInterface profile interface.ips = .ok gw.subnet

/-- Such are the gateways that `detect_gateways_passive` reports. -/
theorem detectGatewaysPassive_detected {orders : Orders} {interface : Option NetworkInterface}
    {frames : Option (List (List UInt8))} {gateways : List GatewayInfo}
    (h : detectGatewaysPassive profile orders interface frames = .ok gateways) :
    ∀ gw ∈ gateways, gw.Detected profile := by
  cases interface with
  | none =>
    obtain rfl := Except.ok.inj h
    exact fun _ h => nomatch h
  | some interface =>
    unfold detectGatewaysPassive at h
    cases hsubnet : Survey.subnetFromInterface profile interface.ips with
    | error e =>
      simp only [hsubnet, bind, Except.bind] at h
      cases h
    | ok localSubnet =>
      simp only [hsubnet, bind, Except.bind] at h
      cases frames with
      | none =>
        obtain rfl := Except.ok.inj h
        exact fun _ h => nomatch h
      | some frames =>
        obtain ⟨st, hst, -⟩ := sniff_spec hsubnet frames
        simp only [hst] at h
        obtain rfl := Except.ok.inj h
        intro gw hgw
        exact ⟨interface, by rw [hsubnet, report_subnet hgw]⟩

/-- So are the gateways' subnets. -/
theorem gatewayTargets_canonical_iff {gateways : List GatewayInfo}
    (hdetected : ∀ gw ∈ gateways, gw.Detected profile) :
    (∀ target ∈ gatewayTargets gateways, Canonical target) ↔
      ∀ gw ∈ gateways, ∀ net prefixLen, gw.subnet = some (net, prefixLen) →
        Maskable profile net prefixLen := by
  -- a subnet read from an interface went through the mask
  have hsubnet : ∀ gw ∈ gateways, ∀ net prefixLen, gw.subnet = some (net, prefixLen) →
      (HostBitsZero net prefixLen ↔ Maskable profile net prefixLen) := by
    intro gw hgw net prefixLen hgwSubnet
    obtain ⟨interface, hinterface⟩ := hdetected gw hgw
    rw [hgwSubnet] at hinterface
    obtain ⟨hle, hzero⟩ := interface.prefix_spec hinterface
    obtain ⟨ip, -, hbase⟩ := subnetOfInterface_some hinterface
    by_cases hpos : prefixLen = 0
    · rw [Maskable, hzero hpos, hpos, hostBitsZero_zero_iff]
      simp
    · obtain ⟨base, hbase', hbits⟩ := (networkBase_iff hle).mpr (.inl hpos)
      exact iff_of_true (Except.ok.inj (hbase'.symm.trans hbase) ▸ hbits) (.inl hpos)
  constructor
  · intro h gw hgw net prefixLen hgwSubnet
    refine (hsubnet gw hgw net prefixLen hgwSubnet).mp (h (net, prefixLen, .gatewayRoute) ?_)
    exact List.mem_filterMap.mpr ⟨gw, hgw, by rw [hgwSubnet]; rfl⟩
  · intro h target htarget
    obtain ⟨gw, hgw, heq⟩ := List.mem_filterMap.mp htarget
    obtain ⟨⟨net, prefixLen⟩, hgwSubnet, rfl⟩ := Option.map_eq_some_iff.mp heq
    exact (hsubnet gw hgw net prefixLen hgwSubnet).mpr (h gw hgw net prefixLen hgwSubnet)

/-- What makes the candidates canonical: no prefix of 0 comes up, other than with
0.0.0.0 where the shift wraps, and every router is at an address that ends in
.0.0. -/
structure Aligned (profile : Profile) (around : Surroundings) : Prop where
  gateways : ∀ gw ∈ around.gateways, ∀ net prefixLen, gw.subnet = some (net, prefixLen) →
    Maskable profile net prefixLen
  locations : ∀ gw ∈ around.gateways, ∀ location ∈ around.wanLocations gw.ip,
    location.Aligned profile
  interface : ∀ ip prefixLen, around.interface.bind firstIpv4 = some (ip, prefixLen) →
    Maskable profile ip prefixLen

/-- All targets are canonical iff every source of them is aligned. -/
theorem candidateTargets_allOk_iff (order : SetOrder (Nat × Nat)) {around : Surroundings}
    (hdetected : ∀ gw ∈ around.gateways, gw.Detected profile) :
    AllOk Canonical (candidateTargets profile order around) ↔ Aligned profile around := by
  have hparts : AllOk Canonical (candidateTargets profile order around) ↔
      (∀ target ∈ gatewayTargets around.gateways, Canonical target) ∧
        AllOk Canonical (appendAll (fun gw => probeGatewayUpnp profile
          (around.wanLocations gw.ip) (around.routeLocations gw.ip)) around.gateways) ∧
        AllOk Canonical (adjacentTargets profile order around.interface) := by
    unfold candidateTargets
    cases appendAll (fun gw => probeGatewayUpnp profile (around.wanLocations gw.ip)
        (around.routeLocations gw.ip)) around.gateways with
    | error e => exact iff_of_false not_allOk_error fun h => not_allOk_error h.2.1
    | ok upnp =>
      cases adjacentTargets profile order around.interface with
      | error e => exact iff_of_false not_allOk_error fun h => not_allOk_error h.2.2
      | ok adjacent =>
        show AllOk Canonical (.ok (gatewayTargets around.gateways ++ upnp ++ adjacent)) ↔ _
        rw [allOk_ok, allOk_ok, allOk_ok, List.forall_mem_append, List.forall_mem_append,
          and_assoc]
  rw [hparts, gatewayTargets_canonical_iff hdetected, allOk_appendAll,
    adjacentTargets_allOk_iff order]
  simp only [probeGatewayUpnp_allOk_iff]
  exact ⟨fun ⟨hgateways, hlocations, hinterface⟩ => ⟨hgateways, hlocations, hinterface⟩,
    fun ⟨hgateways, hlocations, hinterface⟩ => ⟨hgateways, hlocations, hinterface⟩⟩

/-- **Candidates**: for every set of gateways, whatever they reply and whatever the
local interface, the survey gathers its candidates so that each key is a network
without host bits and no two keys are the same block, iff no address or router is
in the way. -/
theorem candidates_canonical_iff (order : SetOrder (Nat × Nat)) {around : Surroundings}
    (hdetected : ∀ gw ∈ around.gateways, gw.Detected profile) :
    (∃ subnets, allSubnets profile order around = .ok subnets ∧
        (∀ net prefixLen, (net, prefixLen) ∈ subnets → HostBitsZero net prefixLen) ∧
        ∀ net net' prefixLen, (net, prefixLen) ∈ subnets → (net', prefixLen) ∈ subnets →
          net.topBits prefixLen = net'.topBits prefixLen → net = net') ↔
      Aligned profile around := by
  rw [← candidateTargets_allOk_iff order hdetected, allSubnets]
  cases candidateTargets profile order around with
  | error e => exact iff_of_false (fun ⟨_, h, _⟩ => nomatch h) not_allOk_error
  | ok targets =>
    rw [allOk_ok]
    constructor
    · rintro ⟨subnets, hsubnets, hzero, -⟩ ⟨net, prefixLen, source⟩ hmem
      have hmap : subnetMap targets = subnets := Except.ok.inj hsubnets
      exact hzero net prefixLen (hmap ▸ mem_subnetMap.mpr ⟨source, hmem⟩)
    · intro hcanonical
      refine ⟨subnetMap targets, rfl, ?_, ?_⟩
      · intro net prefixLen hmem
        obtain ⟨source, htarget⟩ := mem_subnetMap.mp hmem
        exact hcanonical (net, prefixLen, source) htarget
      · intro net net' prefixLen hmem hmem' htop
        obtain ⟨source, htarget⟩ := mem_subnetMap.mp hmem
        obtain ⟨source', htarget'⟩ := mem_subnetMap.mp hmem'
        exact eq_of_block (hcanonical (net, prefixLen, source) htarget)
          (hcanonical (net', prefixLen, source') htarget') htop

/-- The candidates of the map, in its order, each with its gateway, if it has one,
and with what its probe meets. -/
def candidatesOf (subnets : Map (Ipv4Addr × UInt8) SubnetSource)
    (gatewayOf : Ipv4Addr × UInt8 → Option Ipv4Addr) (probe : Ipv4Addr × UInt8 → Probe) :
    List Candidate :=
  subnets.entries.map fun entry => {
    network := entry.1.1
    prefixLen := entry.1.2
    source := entry.2
    gateway := gatewayOf entry.1
    probe := probe entry.1 }

/-- From a map without host bits no block is reported twice. -/
theorem survey_blocks {subnets : Map (Ipv4Addr × UInt8) SubnetSource}
    (hzero : ∀ net prefixLen, (net, prefixLen) ∈ subnets → HostBitsZero net prefixLen)
    (gatewayOf : Ipv4Addr × UInt8 → Option Ipv4Addr) (probe : Ipv4Addr × UInt8 → Probe)
    (profile : Profile) (verbose : Bool) :
    (survey profile verbose (candidatesOf subnets gatewayOf probe)).Pairwise fun a b =>
      a.prefixLen = b.prefixLen →
        a.network.topBits a.prefixLen ≠ b.network.topBits b.prefixLen := by
  have hdiscovered : ∀ (candidate : Candidate) subnet,
      candidate.discovered profile verbose = some subnet →
      subnet.network = candidate.network ∧ subnet.prefixLen = candidate.prefixLen := by
    intro candidate subnet h
    unfold Candidate.discovered at h
    split at h
    · obtain rfl := Option.some.inj h
      exact ⟨rfl, rfl⟩
    · cases h
  rw [survey, (List.mergeSort_perm _ _).pairwise_iff fun h heq htop => h heq.symm htop.symm,
    List.pairwise_filterMap, candidatesOf, List.pairwise_map]
  have hkeys : subnets.entries.Pairwise fun entry entry' => entry.1 ≠ entry'.1 :=
    List.pairwise_map.mp subnets.nodupKeys
  refine hkeys.imp_of_mem fun {entry entry'} hentry hentry' hne a ha b hb hlength htop => ?_
  obtain ⟨hnetwork, hlen⟩ := hdiscovered _ a ha
  obtain ⟨hnetwork', hlen'⟩ := hdiscovered _ b hb
  rw [hnetwork, hnetwork', hlen, hlen'] at htop
  rw [hlen, hlen'] at hlength
  have hmem := hzero entry.1.1 entry.1.2 (AList.mem_keys.mpr (List.mem_map_of_mem hentry))
  have hmem' := hzero entry'.1.1 entry'.1.2 (AList.mem_keys.mpr (List.mem_map_of_mem hentry'))
  dsimp only at hlength htop
  rw [← hlength] at hmem' htop
  exact hne (Prod.ext (eq_of_block hmem hmem' htop) hlength)

/-! ## Two forms of one block -/

/-- The gateway of the home network, which lists itself as a router. -/
def homeRouter : Location where
  url := "http://192.168.1.1:5000/rootDesc.xml".toList
  respond := fun _ =>
    some "HTTP/1.1 200 OK\r\n\r\n<NewIPRouters>192.168.1.1</NewIPRouters>".toList

/-- The home network with its gateway, and what the gateway announces. -/
def homeWith (locations : List Location) : Surroundings where
  gateways := [⟨⟨192, 168, 1, 1⟩, ⟨2, 0, 0, 0, 0, 9⟩, some (⟨192, 168, 1, 0⟩, 24)⟩]
  wanLocations := fun _ => locations
  routeLocations := fun _ => locations
  interface := some homeInterface

/-- 192.168.1.0/24 is a candidate a second time, as 192.168.1.1/24. -/
theorem home_probed_twice :
    ∃ subnets, allSubnets .release (.dedup _) (homeWith [homeRouter]) = .ok subnets ∧
      (⟨192, 168, 1, 0⟩, 24) ∈ subnets ∧ (⟨192, 168, 1, 1⟩, 24) ∈ subnets ∧
      Ipv4Addr.topBits ⟨192, 168, 1, 0⟩ 24 = Ipv4Addr.topBits ⟨192, 168, 1, 1⟩ 24 ∧
      ¬ HostBitsZero ⟨192, 168, 1, 1⟩ 24 := by
  have htargets : (candidateTargets .release (.dedup _) (homeWith [homeRouter])).toOption.map
      (·.take 2) = some [(⟨192, 168, 1, 0⟩, 24, .gatewayRoute),
        (⟨192, 168, 1, 1⟩, 24, .upnpDiscovery)] := by decide +kernel
  rw [allSubnets]
  cases hresult : candidateTargets .release (.dedup _) (homeWith [homeRouter]) with
  | error e =>
    rw [hresult] at htargets
    cases htargets
  | ok targets =>
    rw [hresult] at htargets
    have htake : targets.take 2 = _ := Option.some.inj htargets
    have hmem : ∀ target ∈ targets.take 2, target ∈ targets := fun _ h => List.mem_of_mem_take h
    rw [htake] at hmem
    refine ⟨subnetMap targets, rfl, mem_subnetMap.mpr ⟨.gatewayRoute, hmem _ (by simp)⟩,
      mem_subnetMap.mpr ⟨.upnpDiscovery, hmem _ (by simp)⟩, by decide, fun h => ?_⟩
    exact absurd (hostBitsZero_24_iff.mp h) (by decide)

/-- The gateway of the home network, with an external address, its mask and two routers. -/
def wanRouter : Location where
  url := "http://192.168.1.1:5000/rootDesc.xml".toList
  respond := fun _ => some <| ("HTTP/1.1 200 OK\r\n\r\n" ++
    "<NewExternalIPAddress>203.0.113.77</NewExternalIPAddress>" ++
    "<NewSubnetMask>255.255.255.192</NewSubnetMask>" ++
    "<NewIPRouters>10.1.0.0, 10.2.0.0</NewIPRouters>").toList

/-- Its WAN address has a mask, and its routers end in 0.0. -/
theorem wanRouter_aligned : wanRouter.Aligned .debug where
  wan := by
    have hmasks : ∀ reply ∈ wanRouter.wanReplies,
        wanMask reply = some ⟨255, 255, 255, 192⟩ := by decide +kernel
    intro reply hreply ip mask _ hmask
    obtain rfl := Option.some.inj ((hmasks reply hreply).symm.trans hmask)
    exact .inl (by decide)
  routers := by decide +kernel

/-- With the networks of its external address and of the routers the home network and its
neighbours are canonical. -/
theorem home_canonical :
    ∃ subnets, allSubnets .debug (.dedup _) (homeWith [wanRouter]) = .ok subnets ∧
      (⟨203, 0, 113, 64⟩, 26) ∈ subnets ∧ (⟨10, 1, 0, 0⟩, 16) ∈ subnets ∧
      (⟨10, 2, 0, 0⟩, 24) ∈ subnets ∧
      ∀ net prefixLen, (net, prefixLen) ∈ subnets → HostBitsZero net prefixLen := by
  have hdetected : ∀ gw ∈ (homeWith [wanRouter]).gateways, gw.Detected .debug := by
    intro gw hgw
    rw [List.mem_singleton.mp hgw]
    exact ⟨homeInterface, by decide⟩
  have haligned : Aligned .debug (homeWith [wanRouter]) := by
    refine ⟨fun gw hgw net prefixLen h => ?_, fun _ _ location hlocation => ?_,
      fun ip prefixLen h => ?_⟩
    · rw [List.mem_singleton.mp hgw] at h
      obtain ⟨rfl, rfl⟩ := Prod.mk.inj (Option.some.inj h)
      exact .inl (by decide)
    · rw [List.mem_singleton.mp hlocation]
      exact wanRouter_aligned
    · obtain ⟨rfl, rfl⟩ := Prod.mk.inj (Option.some.inj h)
      exact .inl (by decide)
  obtain ⟨subnets, hsubnets, hzero, -⟩ :=
    (candidates_canonical_iff (.dedup _) hdetected).mpr haligned
  have htargets : ∀ targets ∈ (candidateTargets .debug (.dedup _) (homeWith [wanRouter])).toOption,
      (⟨203, 0, 113, 64⟩, 26, .upnpDiscovery) ∈ targets ∧
        (⟨10, 1, 0, 0⟩, 16, .upnpDiscovery) ∈ targets ∧
        (⟨10, 2, 0, 0⟩, 24, .upnpDiscovery) ∈ targets := by decide +kernel
  rw [allSubnets] at hsubnets
  cases hresult : candidateTargets .debug (.dedup _) (homeWith [wanRouter]) with
  | error e =>
    rw [hresult] at hsubnets
    cases hsubnets
  | ok targets =>
    rw [hresult] at hsubnets htargets
    obtain rfl : subnetMap targets = subnets := Except.ok.inj hsubnets
    obtain ⟨hwan, hrouter, hrouter'⟩ := htargets targets rfl
    exact ⟨subnetMap targets, by rw [allSubnets, hresult]; rfl, mem_subnetMap.mpr ⟨_, hwan⟩,
      mem_subnetMap.mpr ⟨_, hrouter⟩, mem_subnetMap.mpr ⟨_, hrouter'⟩, hzero⟩

end Survey

end Gannet
