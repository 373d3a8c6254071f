import Gannet.Discovery.Candidates
import Gannet.Discovery.Survey
import Gannet.Net.Selection

/-!
# A survey as a whole (survey.rs)

`survey` listens for gateways, asks them over UPnP, adds the surroundings of its own
network, probes what it has gathered in tasks of their own, and sorts the answers. Hash maps
and sets iterate as they like, and the probes end when they like.

- `survey_reports`: each network that was gathered is reported once, by the rank of its
  source, with a number of hosts iff its prefix is between 24 and 30, and with a gateway
  that led to it iff any did.
- `survey_orders`: two surveys that meet the same network report the same networks with the
  same sources and numbers; only which of several gateways is named, and the order within a
  source, may differ.
-/

namespace Gannet

open Bytes KeyMap Loop Machine

namespace Survey

/-! ## The code -/

/-- The interface that `detect_gateways_passive` listens on. -/
def listenedOn (ifaceName : String) (interfaces : List PnetInterface) : Option PnetInterface :=
  interfaces.find? fun i => i.name == ifaceName && i.isUp && !i.isLoopback

/-- What a survey meets: the interfaces at the three times it looks for them, the frames it
hears, what gateways answer over UPnP, and what the probes of subnets meet. -/
structure Network where
  iface : Option String
  atStart : List PnetInterface
  whileListening : List PnetInterface
  frames : Option (List (List UInt8))
  wanLocations : Ipv4Addr → List Location
  routeLocations : Ipv4Addr → List Location
  afterwards : List PnetInterface
  probe : Ipv4Addr × UInt8 → Probe

/-- `gateways`; a listener that panics has none. -/
def Network.gateways (net : Network) (profile : Profile) (orders : Orders) (ifaceName : String) :
    List GatewayInfo :=
  let interface := (listenedOn ifaceName net.whileListening).map PnetInterface.toNetworkInterface
  (detectGatewaysPassive profile orders interface net.frames).toOption.getD []

/-- What the candidates are collected from. -/
def Network.surroundings (net : Network) (profile : Profile) (orders : Orders)
    (ifaceName : String) : Surroundings where
  gateways := net.gateways profile orders ifaceName
  wanLocations := net.wanLocations
  routeLocations := net.routeLocations
  interface := (findInterface net.iface net.afterwards).map PnetInterface.toNetworkInterface

/-- The networks of the gateways, each with its gateway. -/
def gatewayRoutes (gateways : List GatewayInfo) : List ((Ipv4Addr × UInt8) × Ipv4Addr) :=
  gateways.filterMap fun gw => gw.subnet.map fun key => (key, gw.ip)

/-- The networks that a gateway names over UPnP, each with the gateway. -/
def upnpRoutes (profile : Profile) (around : Surroundings) (gw : GatewayInfo) :
    Except Panic (List ((Ipv4Addr × UInt8) × Ipv4Addr)) := do
  let upnpSubnets ←
    probeGatewayUpnp profile (around.wanLocations gw.ip) (around.routeLocations gw.ip)
  return upnpSubnets.map fun (net, prefixLen, _) => ((net, prefixLen), gw.ip)

/-- `gateway_map` -/
def gatewayMap (profile : Profile) (around : Surroundings) :
    Except Panic (Map (Ipv4Addr × UInt8) Ipv4Addr) := do
  let fromUpnp ← appendAll (upnpRoutes profile around) around.gateways
  return fill ∅ (gatewayRoutes around.gateways ++ fromUpnp)

/-- The lists that `survey` may return: how its maps and sets iterate and in which order its
probes end is left open. -/
inductive Returns (profile : Profile) (verbose : Bool) (net : Network) :
    List DiscoveredSubnet → Prop where
  | noInterface (h : findInterface net.iface net.atStart = none) : Returns profile verbose net []
  | probed {iface : PnetInterface} {subnets : Map (Ipv4Addr × UInt8) SubnetSource}
      {gateways : Map (Ipv4Addr × UInt8) Ipv4Addr} {ended : List Candidate}
      (orders : Orders) (order : SetOrder (Nat × Nat))
      (hiface : findInterface net.iface net.atStart = some iface)
      (hsubnets : allSubnets profile order (net.surroundings profile orders iface.name)
        = .ok subnets)
      (hgateways : gatewayMap profile (net.surroundings profile orders iface.name) = .ok gateways)
      (hended : ended.Perm (candidatesOf subnets (contents gateways) net.probe)) :
      Returns profile verbose net (survey profile verbose ended)

/-! ## Where a network comes from -/

/-- A gateway that is heard: one that `detect_gateways_passive` lists. Those are the addresses
of a gateway in ARP packets and both ends of DHCP traffic, 255.255.255.255 too if a server
answers there. -/
def Network.Hears (net : Network) (profile : Profile) (ifaceName : String) (gw : GatewayInfo) :
    Prop :=
  ∃ orders, gw ∈ net.gateways profile orders ifaceName

/-- A gateway with the address is heard and listed with the network as its subnet, which is
the interface's own network for all of them: the address need not be one of it. -/
def Network.Routes (net : Network) (profile : Profile) (ifaceName : String)
    (key : Ipv4Addr × UInt8) (ip : Ipv4Addr) : Prop :=
  ∃ gw, net.Hears profile ifaceName gw ∧ gw.ip = ip ∧ gw.subnet = some key

/-- A gateway at the address is heard and names the network over UPnP. -/
def Network.Names (net : Network) (profile : Profile) (ifaceName : String)
    (key : Ipv4Addr × UInt8) (ip : Ipv4Addr) : Prop :=
  (∃ gw, net.Hears profile ifaceName gw ∧ gw.ip = ip) ∧
    ∃ targets, probeGatewayUpnp profile (net.wanLocations ip) (net.routeLocations ip)
      = .ok targets ∧ (key.1, key.2, .upnpDiscovery) ∈ targets

/-- The network is one of the surroundings of the local one. -/
def Network.Surrounds (net : Network) (profile : Profile) (key : Ipv4Addr × UInt8)
    (source : SubnetSource) : Prop :=
  ∃ order targets, adjacentTargets profile order
      ((findInterface net.iface net.afterwards).map PnetInterface.toNetworkInterface)
    = .ok targets ∧ (key.1, key.2, source) ∈ targets

/-- Where a network that is reported comes from: from a gateway if one is listed with it, else
from UPnP if a gateway names it, else from the surroundings. -/
inductive Network.Origin (net : Network) (profile : Profile) (ifaceName : String)
    (key : Ipv4Addr × UInt8) : SubnetSource → Option Ipv4Addr → Prop where
  | route {ip : Ipv4Addr} (h : net.Routes profile ifaceName key ip) :
      Origin net profile ifaceName key .gatewayRoute (some ip)
  | upnp {ip : Ipv4Addr} (hroute : ∀ ip, ¬ net.Routes profile ifaceName key ip)
      (h : net.Names profile ifaceName key ip) :
      Origin net profile ifaceName key .upnpDiscovery (some ip)
  | surroundings {source : SubnetSource} (hroute : ∀ ip, ¬ net.Routes profile ifaceName key ip)
      (hname : ∀ ip, ¬ net.Names profile ifaceName key ip)
      (h : net.Surrounds profile key source) : Origin net profile ifaceName key source none

/-! ## Orders do not matter -/

variable {profile : Profile} {verbose : Bool} {net : Network} {ifaceName : String}
  {gw : GatewayInfo} {localSubnet : Option (Ipv4Addr × UInt8)}

/-- A round adds a server whose address is not there. -/
theorem mem_servers_iff (servers : List Ipv4Addr) (result : List GatewayInfo) :
    gw ∈ servers.foldl (reportServer localSubnet) result ↔ gw ∈ result ∨
      (∀ g ∈ result, g.ip ≠ gw.ip) ∧ gw.ip ∈ servers ∧ gw = ⟨gw.ip, .nil, localSubnet⟩ := by
  induction servers generalizing result with
  | nil => simp
  | cons server servers ih =>
    rw [List.foldl_cons, ih, reportServer]
    by_cases hthere : result.any (·.ip = server)
    · rw [if_pos hthere]
      obtain ⟨g, hg, hip⟩ := List.any_eq_true.mp hthere
      rw [decide_eq_true_iff] at hip
      refine or_congr_right (and_congr_right fun hnew => and_congr_left' ?_)
      rw [List.mem_cons, or_iff_right fun heq => hnew g hg (hip.trans heq.symm)]
    · rw [if_neg hthere]
      have hnew : ∀ g ∈ result, g.ip ≠ server := by simpa using hthere
      constructor
      · rintro (hmem | ⟨hother, hserver, hgw⟩)
        · rcases List.mem_append.mp hmem with hmem | hmem
          · exact .inl hmem
          · obtain rfl := List.mem_singleton.mp hmem
            exact .inr ⟨hnew, List.mem_cons_self, rfl⟩
        · exact .inr ⟨fun g hg => hother g (List.mem_append_left _ hg),
            List.mem_cons_of_mem _ hserver, hgw⟩
      · rintro (hmem | ⟨hother, hserver, hgw⟩)
        · exact .inl (List.mem_append_left _ hmem)
        · rcases List.mem_cons.mp hserver with heq | hserver
          · refine .inl (List.mem_append_right _ (List.mem_singleton.mpr ?_))
            rw [hgw, heq]
          · by_cases heq : gw.ip = server
            · refine .inl (List.mem_append_right _ (List.mem_singleton.mpr ?_))
              rw [hgw, heq]
            · refine .inr ⟨fun g hg => ?_, hserver, hgw⟩
              rcases List.mem_append.mp hg with hg | hg
              · exact hother g hg
              · rw [List.mem_singleton.mp hg]
                exact Ne.symm heq

/-- The gateways that are reported are the same, however the map and the set iterate. -/
theorem mem_report_orders (orders orders' : Orders) {st : Sniffed} :
    gw ∈ report orders localSubnet st ↔ gw ∈ report orders' localSubnet st := by
  have hmap : ∀ (pairs : List (Ipv4Addr × MacAddr6)) (f : Ipv4Addr × MacAddr6 → GatewayInfo)
      (g : GatewayInfo), g ∈ (orders.gateways.elements pairs).map f ↔
        g ∈ (orders'.gateways.elements pairs).map f := by
    intro pairs f g
    simp only [List.mem_map, orders.gateways.mem_iff, orders'.gateways.mem_iff]
  rw [report, report, mem_servers_iff, mem_servers_iff, orders.dhcpServers.mem_iff,
    orders'.dhcpServers.mem_iff, hmap _ _ gw]
  refine or_congr_right (and_congr_left' ?_)
  simp only [hmap]

/-- Which gateways are reported does not depend on the orders. -/
theorem mem_gateways_orders (orders orders' : Orders) :
    gw ∈ net.gateways profile orders ifaceName ↔ gw ∈ net.gateways profile orders' ifaceName := by
  rw [Network.gateways, Network.gateways]
  cases (listenedOn ifaceName net.whileListening).map PnetInterface.toNetworkInterface with
  | none => rfl
  | some interface =>
    unfold detectGatewaysPassive
    cases hsubnet : Survey.subnetFromInterface profile interface.ips with
    | error e => simp only [hsubnet, bind, Except.bind]
    | ok localSubnet =>
      cases net.frames with
      | none => simp only [hsubnet, bind, Except.bind]
      | some frames =>
        cases hst : sniff profile localSubnet frames with
        | error e => simp only [hsubnet, hst, bind, Except.bind]
        | ok st =>
          simp only [hsubnet, hst, bind, Except.bind]
          exact mem_report_orders orders orders'

/-- Under any orders these are the gateways that are heard. -/
theorem hears_iff (orders : Orders) :
    net.Hears profile ifaceName gw ↔ gw ∈ net.gateways profile orders ifaceName :=
  ⟨fun ⟨orders', h⟩ => (mem_gateways_orders orders' orders).mp h, fun h => ⟨orders, h⟩⟩

/-! ## The surroundings -/

section Adjacent

variable {base : Ipv4Addr} {subnets subnets' : List Target} {target : Target}

/-- A round goes by what is there, in whatever order. -/
theorem mem_privateRound_congr (h : ∀ t, t ∈ subnets ↔ t ∈ subnets')
    (octets : UInt8 × UInt8 × UInt8) (t : Target) :
    t ∈ privateRound base subnets octets ↔ t ∈ privateRound base subnets' octets := by
  obtain ⟨a, b, c⟩ := octets
  have hincluded : (⟨a, b, c, 0⟩ : Ipv4Addr) ∈ subnets.map (·.1) ↔
      (⟨a, b, c, 0⟩ : Ipv4Addr) ∈ subnets'.map (·.1) := by
    simp only [List.mem_map, h]
  by_cases hadd : ¬ (base.a = a ∧ base.b = b ∧ base.c = c) ∧
      ¬ (⟨a, b, c, 0⟩ : Ipv4Addr) ∈ subnets.map (·.1)
  · have hround : privateRound base subnets (a, b, c) = subnets ++ _ := if_pos hadd
    rw [hincluded] at hadd
    have hround' : privateRound base subnets' (a, b, c) = subnets' ++ _ := if_pos hadd
    rw [hround, hround', List.mem_append, List.mem_append, h]
  · have hround : privateRound base subnets (a, b, c) = subnets := if_neg hadd
    rw [hincluded] at hadd
    have hround' : privateRound base subnets' (a, b, c) = subnets' := if_neg hadd
    rw [hround, hround', h]

/-- The rounds over the private networks go by what there is, not by its order. -/
theorem mem_foldl_privateRound_congr (networks : List (UInt8 × UInt8 × UInt8))
    (h : ∀ t, t ∈ subnets ↔ t ∈ subnets') (t : Target) :
    t ∈ networks.foldl (privateRound base) subnets ↔
      t ∈ networks.foldl (privateRound base) subnets' := by
  induction networks generalizing subnets subnets' with
  | nil => exact h t
  | cons octets networks ih => exact ih (mem_privateRound_congr h octets)

/-- Which subnets are adjacent does not depend on the set's order. -/
theorem mem_adjacentSubnetsFrom_orders (order order' : SetOrder (Nat × Nat)) (base : Ipv4Addr)
    (prefixLen : UInt8) : target ∈ adjacentSubnetsFrom order base prefixLen ↔
      target ∈ adjacentSubnetsFrom order' base prefixLen := by
  rw [adjacentSubnetsFrom, adjacentSubnetsFrom]
  by_cases h24 : prefixLen ≠ 24
  · rw [if_pos h24, if_pos h24]
  · rw [if_neg h24, if_neg h24]
    refine mem_foldl_privateRound_congr commonPrivate (fun t => ?_) target
    rw [mem_sweepEntries, mem_sweepEntries]

/-- No network has two sources. -/
def OneSource (subnets : List Target) : Prop :=
  ∀ t ∈ subnets, ∀ t' ∈ subnets, t.1 = t'.1 → t.2.2 = t'.2.2

/-- A round gives no subnet a second source. -/
theorem OneSource.privateRound (h : OneSource subnets) (octets : UInt8 × UInt8 × UInt8) :
    OneSource (privateRound base subnets octets) := by
  rcases privateRound_cases base subnets octets with ⟨network, -, -, hnew, heq⟩ | heq
  · rw [heq]
    have hother : ∀ t ∈ subnets, t.1 ≠ network :=
      fun t ht hnet => hnew (List.mem_map.mpr ⟨t, ht, hnet⟩)
    intro t ht t' ht' hsame
    rcases List.mem_append.mp ht with ht | ht <;> rcases List.mem_append.mp ht' with ht' | ht'
    · exact h t ht t' ht' hsame
    · rw [List.mem_singleton.mp ht'] at hsame
      exact absurd hsame (hother t ht)
    · rw [List.mem_singleton.mp ht] at hsame
      exact absurd hsame.symm (hother t' ht')
    · rw [List.mem_singleton.mp ht, List.mem_singleton.mp ht']
  · rw [heq]
    exact h

/-- An adjacent subnet has one source. -/
theorem adjacentSubnetsFrom_oneSource (order : SetOrder (Nat × Nat)) (base : Ipv4Addr)
    (prefixLen : UInt8) : OneSource (adjacentSubnetsFrom order base prefixLen) := by
  rw [adjacentSubnetsFrom]
  by_cases h24 : prefixLen ≠ 24
  · rw [if_pos h24]
    intro t ht t' ht' _
    rw [List.mem_singleton.mp ht, List.mem_singleton.mp ht']
  · rw [if_neg h24]
    have hsweep : OneSource (sweepEntries order base) := by
      intro t ht t' ht' _
      obtain ⟨b, c, -, -, rfl⟩ := mem_sweepEntries.mp ht
      obtain ⟨b', c', -, -, rfl⟩ := mem_sweepEntries.mp ht'
      rfl
    generalize sweepEntries order base = subnets at hsweep
    induction commonPrivate generalizing subnets with
    | nil => exact hsweep
    | cons octets networks ih => exact ih _ (hsweep.privateRound octets)

/-- Nothing around the local network has the source of a gateway. -/
theorem source_of_adjacent (order : SetOrder (Nat × Nat)) (base : Ipv4Addr) (prefixLen : UInt8) :
    ∀ t ∈ adjacentSubnetsFrom order base prefixLen,
      t.2.2 = .adjacentSweep ∨ t.2.2 = .commonPrivate := by
  rw [adjacentSubnetsFrom]
  by_cases h24 : prefixLen ≠ 24
  · rw [if_pos h24, List.forall_mem_singleton]
    exact .inl rfl
  · rw [if_neg h24]
    have hsweep : ∀ t ∈ sweepEntries order base,
        t.2.2 = .adjacentSweep ∨ t.2.2 = .commonPrivate := by
      intro t ht
      obtain ⟨b, c, -, -, rfl⟩ := mem_sweepEntries.mp ht
      exact .inl rfl
    generalize sweepEntries order base = subnets at hsweep
    induction commonPrivate generalizing subnets with
    | nil => exact hsweep
    | cons octets networks ih =>
      refine ih _ fun t ht => ?_
      rcases privateRound_cases base subnets octets with ⟨network, -, -, -, heq⟩ | heq
      · rw [heq, List.mem_append, List.mem_singleton] at ht
        rcases ht with ht | rfl
        · exact hsweep t ht
        · exact .inr rfl
      · exact hsweep t (heq ▸ ht)

end Adjacent

/-- The targets around the local network are those of its address. -/
theorem adjacentTargets_ok {order : SetOrder (Nat × Nat)} {interface : Option NetworkInterface}
    {targets : List Target} (h : adjacentTargets profile order interface = .ok targets) :
    ∃ base prefixLen, Survey.localSubnet profile interface = .ok (base, prefixLen) ∧
      targets = adjacentSubnetsFrom order base prefixLen := by
  rw [adjacentTargets] at h
  cases hlocal : Survey.localSubnet profile interface with
  | error e => simp [hlocal, bind, Except.bind] at h
  | ok subnet =>
    rw [hlocal] at h
    exact ⟨subnet.1, subnet.2, rfl, (Except.ok.inj h).symm⟩

/-- The adjacent subnets, by the interface found after listening. -/
theorem surrounds_iff {order : SetOrder (Nat × Nat)} {targets : List Target}
    (h : adjacentTargets profile order
      ((findInterface net.iface net.afterwards).map PnetInterface.toNetworkInterface) = .ok targets)
    {key : Ipv4Addr × UInt8} {source : SubnetSource} :
    net.Surrounds profile key source ↔ (key.1, key.2, source) ∈ targets := by
  constructor
  · rintro ⟨order', targets', h', hmem⟩
    obtain ⟨base, prefixLen, hlocal, rfl⟩ := adjacentTargets_ok h
    obtain ⟨base', prefixLen', hlocal', rfl⟩ := adjacentTargets_ok h'
    obtain ⟨rfl, rfl⟩ := Prod.mk.inj (Except.ok.inj (hlocal.symm.trans hlocal'))
    exact (mem_adjacentSubnetsFrom_orders order' order base prefixLen).mp hmem
  · exact fun hmem => ⟨order, targets, h, hmem⟩

/-! ## UPnP -/

/-- Whatever is returned comes from UPnP. -/
def FromUpnp (r : Except Panic (List Target)) : Prop :=
  ∀ targets, r = .ok targets → ∀ t ∈ targets, t.2.2 = .upnpDiscovery

/-- Of two lists from UPnP one is made. -/
theorem FromUpnp.append {r r' : Except Panic (List Target)} (h : FromUpnp r) (h' : FromUpnp r') :
    FromUpnp (do let ts ← r; let ts' ← r'; return ts ++ ts') := by
  cases r with
  | error e => intro targets hok; cases hok
  | ok ts =>
    cases r' with
    | error e => intro targets hok; cases hok
    | ok ts' =>
      intro targets hok
      obtain rfl := Except.ok.inj hok
      exact List.forall_mem_append.mpr ⟨h ts rfl, h' ts' rfl⟩

theorem FromUpnp.nil : FromUpnp (.ok []) := by
  intro targets hok
  obtain rfl := Except.ok.inj hok
  exact List.forall_mem_nil _

/-- And of many. -/
theorem fromUpnp_appendAll {α : Type} {f : α → Except Panic (List Target)} {xs : List α}
    (h : ∀ x ∈ xs, FromUpnp (f x)) : FromUpnp (appendAll f xs) := by
  intro targets hok t ht
  obtain ⟨x, hx, ts, hts, ht⟩ := (mem_appendAll hok).mp ht
  exact h x hx ts hts t ht

/-- The network of an address comes from UPnP. -/
theorem fromUpnp_baseEntry (profile : Profile) (ip : Ipv4Addr) (prefixLen : UInt8) :
    FromUpnp (baseEntry profile ip prefixLen) := by
  intro targets hok
  rw [baseEntry] at hok
  cases hbase : Survey.networkBase profile ip prefixLen with
  | error e => simp [hbase, bind, Except.bind] at hok
  | ok base =>
    rw [hbase] at hok
    obtain rfl := Except.ok.inj hok
    exact List.forall_mem_singleton.mpr rfl

/-- So does that of a WAN address. -/
theorem fromUpnp_wanSubnets (profile : Profile) (response : List Char) :
    FromUpnp (wanSubnets profile response) := by
  refine FromUpnp.append ?_ ?_
  · unfold commonSubnets
    cases wanIp response with
    | none => exact .nil
    | some ip =>
      dsimp only
      split
      · exact fromUpnp_appendAll fun prefixLen _ => fromUpnp_baseEntry profile ip prefixLen
      · exact .nil
  · unfold maskedSubnets
    cases wanMask response with
    | none => exact .nil
    | some mask =>
      cases wanIp response with
      | none => exact .nil
      | some ip => exact fromUpnp_baseEntry profile ip _

/-- So does everything that is asked of the gateways. -/
theorem fromUpnp_probeGatewayUpnp (profile : Profile)
    (wanLocations routeLocations : List Location) :
    FromUpnp (probeGatewayUpnp profile wanLocations routeLocations) := by
  have hrouters : ∀ location : Location,
      FromUpnp (.ok (location.routerReplies.flatMap routerSubnets)) := by
    intro location targets hok
    obtain rfl := Except.ok.inj hok
    refine List.forall_mem_flatMap.mpr fun response _ => ?_
    refine List.forall_mem_flatMap.mpr fun router _ => ?_
    simp
  refine @FromUpnp.append _ (.ok []) ?_ .nil
  refine fromUpnp_appendAll fun location _ => ?_
  exact FromUpnp.append (fromUpnp_appendAll fun response _ => fromUpnp_wanSubnets profile response)
    (hrouters location)

/-! ## The two maps -/

section Maps

variable {orders : Orders} {order : SetOrder (Nat × Nat)} {key : Ipv4Addr × UInt8}
  {source : SubnetSource} {ip : Ipv4Addr} {upnp adjacent : List Target}
  {fromUpnp : List ((Ipv4Addr × UInt8) × Ipv4Addr)}

/-- The targets of the gateways are their subnets. -/
theorem mem_gatewayTargets {gateways : List GatewayInfo} :
    (key.1, key.2, source) ∈ gatewayTargets gateways ↔
      source = .gatewayRoute ∧ ∃ gw ∈ gateways, gw.subnet = some key := by
  rw [gatewayTargets, List.mem_filterMap]
  constructor
  · rintro ⟨gw, hgw, h⟩
    obtain ⟨⟨network, prefixLen⟩, hsubnet, heq⟩ := Option.map_eq_some_iff.mp h
    obtain ⟨rfl, rfl, rfl⟩ : network = key.1 ∧ prefixLen = key.2 ∧ .gatewayRoute = source := by
      simpa using heq
    exact ⟨rfl, gw, hgw, hsubnet⟩
  · rintro ⟨rfl, gw, hgw, hsubnet⟩
    exact ⟨gw, hgw, by rw [hsubnet]; rfl⟩

/-- And the routes are the subnets with their gateways. -/
theorem mem_gatewayRoutes {gateways : List GatewayInfo} :
    (key, ip) ∈ gatewayRoutes gateways ↔ ∃ gw ∈ gateways, gw.ip = ip ∧ gw.subnet = some key := by
  rw [gatewayRoutes, List.mem_filterMap]
  refine exists_congr fun gw => and_congr_right fun _ => ?_
  cases gw.subnet with
  | none => simp
  | some key' =>
    rw [Option.map_some, Option.some.injEq, Option.some.injEq, Prod.mk.injEq, and_comm]

/-- Under any orders these are the routes. -/
theorem routes_iff (orders : Orders) : net.Routes profile ifaceName key ip ↔
    (key, ip) ∈ gatewayRoutes (net.gateways profile orders ifaceName) := by
  rw [mem_gatewayRoutes]
  simp only [Network.Routes, hears_iff orders]

/-- A subnet has a route iff it is a target of the gateways. -/
theorem exists_routes_iff (orders : Orders) : (∃ ip, net.Routes profile ifaceName key ip) ↔
    (key.1, key.2, .gatewayRoute) ∈ gatewayTargets (net.gateways profile orders ifaceName) := by
  rw [mem_gatewayTargets, and_iff_right rfl]
  simp only [Network.Routes, hears_iff orders]
  constructor
  · rintro ⟨ip, gw, hgw, -, hsubnet⟩
    exact ⟨gw, hgw, hsubnet⟩
  · rintro ⟨gw, hgw, hsubnet⟩
    exact ⟨gw.ip, gw, hgw, rfl, hsubnet⟩

/-- A network is named by what its gateway brings into the map of subnets. -/
theorem exists_names_iff
    (h : appendAll (fun gw : GatewayInfo => probeGatewayUpnp profile (net.wanLocations gw.ip)
      (net.routeLocations gw.ip)) (net.gateways profile orders ifaceName) = .ok upnp) :
    (key.1, key.2, source) ∈ upnp ↔
      source = .upnpDiscovery ∧ ∃ ip, net.Names profile ifaceName key ip := by
  rw [mem_appendAll h]
  constructor
  · rintro ⟨gw, hgw, targets, htargets, hmem⟩
    obtain rfl : source = .upnpDiscovery :=
      fromUpnp_probeGatewayUpnp profile _ _ targets htargets _ hmem
    exact ⟨rfl, gw.ip, ⟨gw, (hears_iff orders).mpr hgw, rfl⟩, targets, htargets, hmem⟩
  · rintro ⟨rfl, ip, ⟨gw, hgw, rfl⟩, targets, htargets, hmem⟩
    exact ⟨gw, (hears_iff orders).mp hgw, targets, htargets, hmem⟩

/-- It is named by what its gateway brings into the map of gateways. -/
theorem names_iff
    (h : appendAll (upnpRoutes profile (net.surroundings profile orders ifaceName))
      (net.gateways profile orders ifaceName) = .ok fromUpnp) :
    (key, ip) ∈ fromUpnp ↔ net.Names profile ifaceName key ip := by
  rw [mem_appendAll h]
  constructor
  · rintro ⟨gw, hgw, pairs, hpairs, hmem⟩
    rw [upnpRoutes] at hpairs
    cases htargets : probeGatewayUpnp profile (net.wanLocations gw.ip)
        (net.routeLocations gw.ip) with
    | error e => simp [Network.surroundings, htargets, bind, Except.bind] at hpairs
    | ok targets =>
      simp only [Network.surroundings, htargets, bind, Except.bind] at hpairs
      obtain rfl := Except.ok.inj hpairs
      obtain ⟨⟨network, prefixLen, source⟩, htarget, heq⟩ := List.mem_map.mp hmem
      obtain ⟨rfl, rfl⟩ := Prod.mk.inj heq
      obtain rfl : source = .upnpDiscovery :=
        fromUpnp_probeGatewayUpnp profile _ _ targets htargets _ htarget
      exact ⟨⟨gw, (hears_iff orders).mpr hgw, rfl⟩, targets, htargets, htarget⟩
  · rintro ⟨⟨gw, hgw, rfl⟩, targets, htargets, hmem⟩
    refine ⟨gw, (hears_iff orders).mp hgw,
      targets.map fun (net, prefixLen, _) => ((net, prefixLen), gw.ip), ?_,
      List.mem_map.mpr ⟨_, hmem, rfl⟩⟩
    rw [upnpRoutes]
    simp only [Network.surroundings, htargets, bind, Except.bind]
    rfl

/-- The targets as the map of subnets takes them. -/
def keyed (targets : List Target) : List ((Ipv4Addr × UInt8) × SubnetSource) :=
  targets.map fun (net, prefixLen, source) => ((net, prefixLen), source)

theorem mem_keyed {targets : List Target} :
    (key, source) ∈ keyed targets ↔ (key.1, key.2, source) ∈ targets := by
  rw [keyed, List.mem_map]
  constructor
  · rintro ⟨⟨network, prefixLen, source'⟩, hmem, heq⟩
    obtain ⟨rfl, rfl⟩ := Prod.mk.inj heq
    exact hmem
  · exact fun hmem => ⟨_, hmem, rfl⟩

/-- A network has its source from the gateways, else from UPnP, else from around. -/
theorem contents_subnetMap (routes upnp adjacent : List Target) :
    contents (subnetMap (routes ++ upnp ++ adjacent)) key
      = ((contents (fill ∅ (keyed routes)) key).or (contents (fill ∅ (keyed upnp)) key)).or
        (contents (fill ∅ (keyed adjacent)) key) := by
  have hkeyed : ∀ targets, subnetMap targets = fill ∅ (keyed targets) := fun _ => rfl
  rw [hkeyed, keyed, List.map_append, List.map_append, contents_fill_append, contents_fill_append]
  rfl

/-- The two parts of the gathering that can panic did not. -/
theorem candidateTargets_ok {around : Surroundings} {targets : List Target}
    (h : candidateTargets profile order around = .ok targets) :
    ∃ upnp adjacent, appendAll (fun gw => probeGatewayUpnp profile (around.wanLocations gw.ip)
        (around.routeLocations gw.ip)) around.gateways = .ok upnp ∧
      adjacentTargets profile order around.interface = .ok adjacent ∧
      targets = gatewayTargets around.gateways ++ upnp ++ adjacent := by
  unfold candidateTargets at h
  cases hupnp : appendAll (fun gw => probeGatewayUpnp profile (around.wanLocations gw.ip)
      (around.routeLocations gw.ip)) around.gateways with
  | error e => simp [hupnp, bind, Except.bind] at h
  | ok upnp =>
    cases hadjacent : adjacentTargets profile order around.interface with
    | error e => simp [hupnp, hadjacent, bind, Except.bind] at h
    | ok adjacent =>
      simp only [hupnp, hadjacent, bind, Except.bind] at h
      exact ⟨upnp, adjacent, rfl, rfl, (Except.ok.inj h).symm⟩

variable {subnets : Map (Ipv4Addr × UInt8) SubnetSource}
  {gateways : Map (Ipv4Addr × UInt8) Ipv4Addr}

/-- What is put into the map of subnets. -/
theorem allSubnets_ok
    (h : allSubnets profile order (net.surroundings profile orders ifaceName) = .ok subnets) :
    ∃ upnp adjacent, appendAll (fun gw : GatewayInfo => probeGatewayUpnp profile
          (net.wanLocations gw.ip) (net.routeLocations gw.ip))
        (net.gateways profile orders ifaceName) = .ok upnp ∧
      adjacentTargets profile order ((findInterface net.iface net.afterwards).map
        PnetInterface.toNetworkInterface) = .ok adjacent ∧
      subnets = subnetMap
        (gatewayTargets (net.gateways profile orders ifaceName) ++ upnp ++ adjacent) := by
  rw [allSubnets] at h
  cases htargets : candidateTargets profile order (net.surroundings profile orders ifaceName) with
  | error e => simp [htargets, bind, Except.bind] at h
  | ok targets =>
    rw [htargets] at h
    obtain rfl := Except.ok.inj h
    obtain ⟨upnp, adjacent, hupnp, hadjacent, rfl⟩ := candidateTargets_ok htargets
    exact ⟨upnp, adjacent, hupnp, hadjacent, rfl⟩

/-- What is put into the map of gateways. -/
theorem gatewayMap_ok
    (h : gatewayMap profile (net.surroundings profile orders ifaceName) = .ok gateways) :
    ∃ fromUpnp, appendAll (upnpRoutes profile (net.surroundings profile orders ifaceName))
        (net.gateways profile orders ifaceName) = .ok fromUpnp ∧
      gateways = fill ∅ (gatewayRoutes (net.gateways profile orders ifaceName) ++ fromUpnp) := by
  have hgateways : (net.surroundings profile orders ifaceName).gateways
    = net.gateways profile orders ifaceName := rfl
  rw [gatewayMap, hgateways] at h
  cases hpairs : appendAll (upnpRoutes profile (net.surroundings profile orders ifaceName))
      (net.gateways profile orders ifaceName) with
  | error e => simp [hpairs, bind, Except.bind] at h
  | ok fromUpnp =>
    rw [hpairs] at h
    exact ⟨fromUpnp, rfl, (Except.ok.inj h).symm⟩

/-- What the maps say of a network is where it comes from. -/
theorem origin_of_maps
    (hsubnets : allSubnets profile order (net.surroundings profile orders ifaceName) = .ok subnets)
    (hgateways : gatewayMap profile (net.surroundings profile orders ifaceName) = .ok gateways)
    (hsource : contents subnets key = some source) :
    net.Origin profile ifaceName key source (contents gateways key) := by
  obtain ⟨upnp, adjacent, hupnp, hadjacent, rfl⟩ := allSubnets_ok hsubnets
  obtain ⟨fromUpnp, hpairs, rfl⟩ := gatewayMap_ok hgateways
  rw [contents_subnetMap] at hsource
  rw [contents_fill_append]
  have hroutes : (∃ ip, net.Routes profile ifaceName key ip) ↔ _ := exists_routes_iff orders
  cases hrouted : contents (fill ∅ (keyed (gatewayTargets
      (net.gateways profile orders ifaceName)))) key with
  | some routed =>
    have hmem := mem_keyed.mp (mem_of_contents_fill hrouted)
    obtain rfl := (mem_gatewayTargets.mp hmem).1
    rw [hrouted, Option.some_or, Option.some_or] at hsource
    obtain rfl := Option.some.inj hsource
    cases hgateway : contents (fill ∅ (gatewayRoutes
        (net.gateways profile orders ifaceName))) key with
    | none =>
      obtain ⟨ip, hip⟩ := hroutes.mpr hmem
      exact absurd ((routes_iff orders).mp hip) (contents_fill_none_iff.mp hgateway ip)
    | some ip => exact .route ((routes_iff orders).mpr (mem_of_contents_fill hgateway))
  | none =>
    have hnoRoute : ∀ ip, ¬ net.Routes profile ifaceName key ip := fun ip hip =>
      contents_fill_none_iff.mp hrouted _ (mem_keyed.mpr (hroutes.mp ⟨ip, hip⟩))
    have hnoGateway : contents (fill ∅ (gatewayRoutes
        (net.gateways profile orders ifaceName))) key = none :=
      contents_fill_none_iff.mpr fun ip hip => hnoRoute ip ((routes_iff orders).mpr hip)
    rw [hrouted, Option.none_or] at hsource
    rw [hnoGateway, Option.none_or]
    cases hnamed : contents (fill ∅ (keyed upnp)) key with
    | some named =>
      obtain ⟨rfl, ip, hip⟩ :=
        (exists_names_iff hupnp).mp (mem_keyed.mp (mem_of_contents_fill hnamed))
      rw [hnamed, Option.some_or] at hsource
      obtain rfl := Option.some.inj hsource
      cases hgateway : contents (fill ∅ fromUpnp) key with
      | none =>
        exact absurd ((names_iff hpairs).mpr hip) (contents_fill_none_iff.mp hgateway ip)
      | some ip => exact .upnp hnoRoute ((names_iff hpairs).mp (mem_of_contents_fill hgateway))
    | none =>
      have hnoName : ∀ ip, ¬ net.Names profile ifaceName key ip := fun ip hip =>
        contents_fill_none_iff.mp hnamed _
          (mem_keyed.mpr ((exists_names_iff hupnp).mpr ⟨rfl, ip, hip⟩))
      have hnone : contents (fill ∅ fromUpnp) key = none :=
        contents_fill_none_iff.mpr fun ip hip => hnoName ip ((names_iff hpairs).mp hip)
      rw [hnamed, Option.none_or] at hsource
      rw [hnone]
      exact .surroundings hnoRoute hnoName
        ((surrounds_iff hadjacent).mpr (mem_keyed.mp (mem_of_contents_fill hsource)))

/-- A network that comes from somewhere is in the map of subnets. -/
theorem contents_of_origin
    (hsubnets : allSubnets profile order (net.surroundings profile orders ifaceName) = .ok subnets)
    {gateway : Option Ipv4Addr} (h : net.Origin profile ifaceName key source gateway) :
    ∃ source', contents subnets key = some source' := by
  obtain ⟨upnp, adjacent, hupnp, hadjacent, rfl⟩ := allSubnets_ok hsubnets
  refine mem_iff_contents.mp (mem_subnetMap.mpr ?_)
  cases h with
  | route hroute =>
    exact ⟨_, List.mem_append_left _ (List.mem_append_left _
      ((exists_routes_iff orders).mp ⟨_, hroute⟩))⟩
  | upnp _ hname =>
    exact ⟨_, List.mem_append_left _ (List.mem_append_right _
      ((exists_names_iff hupnp).mpr ⟨rfl, _, hname⟩))⟩
  | surroundings _ _ haround =>
    exact ⟨_, List.mem_append_right _ ((surrounds_iff hadjacent).mp haround)⟩

end Maps

/-! ## Sources -/

section Sources

variable {key : Ipv4Addr × UInt8} {source source' : SubnetSource}
  {gateway gateway' : Option Ipv4Addr}

/-- A subnet around the interface has one source. -/
theorem Network.Surrounds.unique (h : net.Surrounds profile key source)
    (h' : net.Surrounds profile key source') : source = source' := by
  obtain ⟨order, targets, htargets, hmem⟩ := h
  have hmem' := (surrounds_iff htargets).mp h'
  obtain ⟨base, prefixLen, -, rfl⟩ := adjacentTargets_ok htargets
  exact adjacentSubnetsFrom_oneSource order base prefixLen _ hmem _ hmem' rfl

/-- A network comes from one source. -/
theorem Network.Origin.unique (h : net.Origin profile ifaceName key source gateway)
    (h' : net.Origin profile ifaceName key source' gateway') : source = source' := by
  cases h with
  | route hroute =>
    cases h' with
    | route _ => rfl
    | upnp hnoRoute _ => exact absurd hroute (hnoRoute _)
    | surroundings hnoRoute _ _ => exact absurd hroute (hnoRoute _)
  | upnp hnoRoute hname =>
    cases h' with
    | route hroute => exact absurd hroute (hnoRoute _)
    | upnp _ _ => rfl
    | surroundings _ hnoName _ => exact absurd hname (hnoName _)
  | surroundings hnoRoute hnoName haround =>
    cases h' with
    | route hroute => exact absurd hroute (hnoRoute _)
    | upnp _ hname => exact absurd hname (hnoName _)
    | surroundings _ _ haround' => exact haround.unique haround'

/-- It has a gateway iff it is not from the surroundings. -/
theorem Network.Origin.gateway_none_iff (h : net.Origin profile ifaceName key source gateway) :
    gateway = none ↔ source = .adjacentSweep ∨ source = .commonPrivate := by
  cases h with
  | route _ => simp
  | upnp _ _ => simp
  | surroundings _ _ haround =>
    obtain ⟨order, targets, htargets, hmem⟩ := haround
    obtain ⟨base, prefixLen, -, rfl⟩ := adjacentTargets_ok htargets
    exact iff_of_true rfl (source_of_adjacent order base prefixLen _ hmem)

/-- All gateways are heard on the network of the one interface that is listened on. -/
theorem hears_subnet {gw gw' : GatewayInfo} (h : net.Hears profile ifaceName gw)
    (h' : net.Hears profile ifaceName gw') : gw.subnet = gw'.subnet := by
  obtain ⟨orders, hgw⟩ := h
  have hgw' := (hears_iff orders).mp h'
  rw [Network.gateways] at hgw hgw'
  cases hinterface : (listenedOn ifaceName net.whileListening).map
      PnetInterface.toNetworkInterface with
  | none =>
    rw [hinterface] at hgw
    exact absurd hgw List.not_mem_nil
  | some interface =>
    rw [hinterface] at hgw hgw'
    unfold detectGatewaysPassive at hgw hgw'
    cases hsubnet : Survey.subnetFromInterface profile interface.ips with
    | error e =>
      simp only [hsubnet, bind, Except.bind] at hgw
      exact absurd hgw List.not_mem_nil
    | ok subnet =>
      cases hframes : net.frames with
      | none =>
        simp only [hsubnet, hframes, bind, Except.bind] at hgw
        exact absurd hgw List.not_mem_nil
      | some frames =>
        cases hst : sniff profile subnet frames with
        | error e =>
          simp only [hsubnet, hframes, hst, bind, Except.bind] at hgw
          exact absurd hgw List.not_mem_nil
        | ok st =>
          simp only [hsubnet, hframes, hst, bind, Except.bind] at hgw hgw'
          exact (report_subnet hgw).trans (report_subnet hgw').symm

end Sources

/-! ## The report -/

/-- The network of an entry. -/
def DiscoveredSubnet.key (subnet : DiscoveredSubnet) : Ipv4Addr × UInt8 :=
  (subnet.network, subnet.prefixLen)

/-- A probe returns, and a number iff the prefix is in its range. -/
theorem probeSubnetForHosts_ok (profile : Profile) (network : Ipv4Addr) (prefixLen : UInt8)
    (verbose : Bool) (probe : Probe) :
    ∃ hostCount, probeSubnetForHosts profile network prefixLen verbose probe = .ok hostCount ∧
      (hostCount.isSome = true ↔ 24 ≤ prefixLen ∧ prefixLen ≤ 30) := by
  by_cases hrange : prefixLen < 24 ∨ 30 < prefixLen
  · refine ⟨none, if_pos hrange, iff_of_false Bool.false_ne_true ?_⟩
    rintro ⟨hlo, hhi⟩
    exact hrange.elim (UInt8.not_lt.mpr hlo) (UInt8.not_lt.mpr hhi)
  · rw [not_or, UInt8.not_lt, UInt8.not_lt] at hrange
    obtain ⟨found, -, -, -, hprobe⟩ :=
      probeSubnetForHosts_spec profile network hrange.1 hrange.2 verbose probe
    exact ⟨_, hprobe, iff_of_true rfl hrange⟩

section Report

variable {subnets : Map (Ipv4Addr × UInt8) SubnetSource}
  {gatewayOf : Ipv4Addr × UInt8 → Option Ipv4Addr} {ended : List Candidate}
  {subnet : DiscoveredSubnet} {probe : Ipv4Addr × UInt8 → Probe}

/-- A candidate is reported with its count, unless its probe finds nobody. -/
theorem discovered_eq_some_iff {candidate : Candidate} :
    candidate.discovered profile verbose = some subnet ↔
      probeSubnetForHosts profile candidate.network candidate.prefixLen verbose candidate.probe
          = .ok subnet.hostCount ∧ subnet.network = candidate.network ∧
        subnet.prefixLen = candidate.prefixLen ∧ subnet.source = candidate.source ∧
        subnet.gateway = candidate.gateway := by
  obtain ⟨hostCount, hprobe, -⟩ := probeSubnetForHosts_ok profile candidate.network
    candidate.prefixLen verbose candidate.probe
  unfold Candidate.discovered
  rw [hprobe, Except.ok.injEq]
  constructor
  · intro h
    obtain rfl := Option.some.inj h
    exact ⟨rfl, rfl, rfl, rfl, rfl⟩
  · rintro ⟨rfl, hnetwork, hlength, hsource, hgateway⟩
    rw [← hnetwork, ← hlength, ← hsource, ← hgateway]

/-- What is reported is what is in the maps, and what its probe counts. -/
theorem mem_survey_iff (hended : ended.Perm (candidatesOf subnets gatewayOf probe)) :
    subnet ∈ survey profile verbose ended ↔ contents subnets subnet.key = some subnet.source ∧
      subnet.gateway = gatewayOf subnet.key ∧ probeSubnetForHosts profile subnet.network
        subnet.prefixLen verbose (probe subnet.key) = .ok subnet.hostCount := by
  rw [survey, List.mem_mergeSort, List.mem_filterMap]
  simp only [hended.mem_iff, candidatesOf, List.mem_map, discovered_eq_some_iff]
  constructor
  · rintro ⟨candidate, ⟨⟨key, source⟩, hentry, rfl⟩, hprobe, hnetwork, hlength, hsource, hgateway⟩
    obtain rfl : subnet.key = key := Prod.ext hnetwork hlength
    refine ⟨?_, hgateway, hprobe⟩
    rw [hsource]
    exact AList.mem_lookup_iff.mpr hentry
  · rintro ⟨hsource, hgateway, hprobe⟩
    exact ⟨_, ⟨⟨subnet.key, subnet.source⟩, AList.mem_lookup_iff.mp hsource, rfl⟩, hprobe, rfl, rfl,
      rfl, hgateway⟩

/-- No subnet is reported twice, whatever the order of the probes. -/
theorem survey_nodup (hended : ended.Perm (candidatesOf subnets gatewayOf probe)) :
    ((survey profile verbose ended).map DiscoveredSubnet.key).Nodup := by
  have hperm : (survey profile verbose ended).Perm
      ((candidatesOf subnets gatewayOf probe).filterMap (Candidate.discovered profile verbose)) :=
    (List.mergeSort_perm _ _).trans (hended.filterMap _)
  refine (hperm.map _).nodup_iff.mpr ?_
  rw [List.Nodup, List.pairwise_map, List.pairwise_filterMap, candidatesOf, List.pairwise_map]
  have hkeys : subnets.entries.Pairwise fun entry entry' => entry.1 ≠ entry'.1 :=
    List.pairwise_map.mp subnets.nodupKeys
  refine hkeys.imp fun {entry entry'} hne a ha b hb heq => hne ?_
  obtain ⟨-, hnetwork, hlength, -⟩ := discovered_eq_some_iff.mp ha
  obtain ⟨-, hnetwork', hlength', -⟩ := discovered_eq_some_iff.mp hb
  have ha' : a.key = entry.1 := Prod.ext hnetwork hlength
  have hb' : b.key = entry'.1 := Prod.ext hnetwork' hlength'
  rw [← ha', ← hb', heq]

/-- The report goes by the rank of the sources. -/
theorem survey_sorted (profile : Profile) (verbose : Bool) (ended : List Candidate) :
    (survey profile verbose ended).Pairwise fun a b =>
      sourceRank a.source ≤ sourceRank b.source := by
  refine (List.pairwise_mergeSort ?_ ?_ _).imp of_decide_eq_true
  · intro a b c hab hbc
    exact decide_eq_true (Nat.le_trans (of_decide_eq_true hab) (of_decide_eq_true hbc))
  · intro a b
    rw [Bool.or_eq_true, decide_eq_true_iff, decide_eq_true_iff]
    exact Nat.le_total _ _

end Report

/-- What the report says of a network. -/
structure Reported (profile : Profile) (verbose : Bool) (net : Network) (ifaceName : String)
    (subnet : DiscoveredSubnet) : Prop where
  origin : net.Origin profile ifaceName subnet.key subnet.source subnet.gateway
  gateway_none_iff : subnet.gateway = none ↔
    subnet.source = .adjacentSweep ∨ subnet.source = .commonPrivate
  hosts : probeSubnetForHosts profile subnet.network subnet.prefixLen verbose
    (net.probe subnet.key) = .ok subnet.hostCount
  counted_iff : subnet.hostCount.isSome = true ↔ 24 ≤ subnet.prefixLen ∧ subnet.prefixLen ≤ 30

variable {result result' : List DiscoveredSubnet} {iface : PnetInterface}

/-- The report has what was gathered. -/
theorem mem_returns_iff (hiface : findInterface net.iface net.atStart = some iface)
    (h : Returns profile verbose net result) {subnet : DiscoveredSubnet} :
    ((∃ gateway, { subnet with gateway := gateway } ∈ result) ↔
      (∃ gateway, net.Origin profile iface.name subnet.key subnet.source gateway) ∧
        probeSubnetForHosts profile subnet.network subnet.prefixLen verbose
          (net.probe subnet.key) = .ok subnet.hostCount) ∧
      (subnet ∈ result →
        net.Origin profile iface.name subnet.key subnet.source subnet.gateway) := by
  cases h with
  | noInterface hnone => cases hiface.symm.trans hnone
  | @probed _ subnets gateways _ orders order hiface' hsubnets hgateways hended =>
    obtain rfl := Option.some.inj (hiface.symm.trans hiface')
    refine ⟨⟨?_, ?_⟩, fun hmem => ?_⟩
    · rintro ⟨gateway, hmem⟩
      obtain ⟨hsource, hgateway, hprobe⟩ := (mem_survey_iff hended).mp hmem
      exact ⟨⟨_, origin_of_maps hsubnets hgateways hsource⟩, hprobe⟩
    · rintro ⟨⟨gateway, horigin⟩, hprobe⟩
      obtain ⟨source, hsource⟩ := contents_of_origin hsubnets horigin
      rw [← horigin.unique (origin_of_maps hsubnets hgateways hsource)] at hsource
      exact ⟨contents gateways subnet.key, (mem_survey_iff hended).mpr ⟨hsource, rfl, hprobe⟩⟩
    · obtain ⟨hsource, hgateway, hprobe⟩ := (mem_survey_iff hended).mp hmem
      rw [hgateway]
      exact origin_of_maps hsubnets hgateways hsource

/-- Both hold of everything the survey can return. -/
theorem returns_sorted (h : Returns profile verbose net result) :
    result.Pairwise (fun a b => sourceRank a.source ≤ sourceRank b.source) ∧
      (result.map DiscoveredSubnet.key).Nodup := by
  cases h with
  | noInterface _ => exact ⟨List.Pairwise.nil, List.nodup_nil⟩
  | probed _ _ _ _ _ hended => exact ⟨survey_sorted profile verbose _, survey_nodup hended⟩

/-- **A survey**: whatever it hears and is answered, in whatever order its maps and sets
iterate and its probes end, it reports the networks it has gathered, each once and by the rank
of its source: a network that a gateway is listed with (there is one at most), else one that a
gateway names over UPnP, with such a gateway; else one of the surroundings, without. A number
of hosts comes with a prefix from 24 to 30 only. -/
theorem survey_reports (hiface : findInterface net.iface net.atStart = some iface)
    (h : Returns profile verbose net result) :
    result.Pairwise (fun a b => sourceRank a.source ≤ sourceRank b.source) ∧
      (result.map DiscoveredSubnet.key).Nodup ∧
      (∀ subnet ∈ result, Reported profile verbose net iface.name subnet) ∧
      (∀ key source gateway, net.Origin profile iface.name key source gateway →
        ∃ subnet ∈ result, subnet.key = key) ∧
      ∀ a ∈ result, ∀ b ∈ result, a.source = .gatewayRoute → b.source = .gatewayRoute → a = b := by
  obtain ⟨hsorted, hnodup⟩ := returns_sorted h
  have horigin : ∀ subnet ∈ result,
      net.Origin profile iface.name subnet.key subnet.source subnet.gateway :=
    fun subnet hmem => (mem_returns_iff hiface h).2 hmem
  refine ⟨hsorted, hnodup, fun subnet hmem => ?_, fun key source gateway hkey => ?_,
    fun a ha b hb hsource hsource' => ?_⟩
  · obtain ⟨-, hprobe⟩ := (mem_returns_iff hiface h).1.mp ⟨subnet.gateway, hmem⟩
    obtain ⟨hostCount, hprobe', hcounted⟩ := probeSubnetForHosts_ok profile subnet.network
      subnet.prefixLen verbose (net.probe subnet.key)
    obtain rfl := Except.ok.inj (hprobe'.symm.trans hprobe)
    exact ⟨horigin subnet hmem, (horigin subnet hmem).gateway_none_iff, hprobe, hcounted⟩
  · obtain ⟨hostCount, hprobe, -⟩ := probeSubnetForHosts_ok profile key.1 key.2 verbose
      (net.probe key)
    have hthere : ∃ gateway', (⟨key.1, key.2, hostCount, source, gateway'⟩ : DiscoveredSubnet)
        ∈ result :=
      (@mem_returns_iff _ _ _ _ _ hiface h ⟨key.1, key.2, hostCount, source, gateway⟩).1.mpr
        ⟨⟨gateway, hkey⟩, hprobe⟩
    obtain ⟨gateway', hmem⟩ := hthere
    exact ⟨_, hmem, rfl⟩
  · have hroute : ∀ subnet ∈ result, subnet.source = .gatewayRoute →
        ∃ gw, net.Hears profile iface.name gw ∧ gw.subnet = some subnet.key := by
      intro subnet hmem hroute
      have hfrom := horigin subnet hmem
      rw [hroute] at hfrom
      generalize subnet.gateway = gateway at hfrom
      cases hfrom with
      | route hrouted =>
        obtain ⟨gw, hgw, -, hsubnet⟩ := hrouted
        exact ⟨gw, hgw, hsubnet⟩
      | surroundings _ _ haround =>
        obtain ⟨order, targets, htargets, haround⟩ := haround
        obtain ⟨base, prefixLen, -, rfl⟩ := adjacentTargets_ok htargets
        rcases source_of_adjacent order base prefixLen _ haround with hs | hs <;> cases hs
    obtain ⟨gw, hgw, hsubnet⟩ := hroute a ha hsource
    obtain ⟨gw', hgw', hsubnet'⟩ := hroute b hb hsource'
    refine List.inj_on_of_nodup_map hnodup ha hb (Option.some.inj ?_)
    rw [← hsubnet, ← hsubnet', hears_subnet hgw hgw']

/-- A machine at 10.0.0.2/29. -/
def officeInterface : PnetInterface where
  ips := [.v4 ⟨10, 0, 0, 2⟩ 29]
  prefix_le := by
    intro ip prefixLen hmem
    obtain ⟨-, rfl⟩ := IpNetwork.v4.inj (List.mem_singleton.mp hmem)
    decide
  name := "eth0"
  mac := some laptop
  flags := 0x1

/-- It gets its address from 10.0.0.1, and 10.0.0.5 answers the sweep. -/
def officeNetwork : Network where
  iface := none
  atStart := [officeInterface]
  whileListening := [officeInterface]
  frames := some [udpFrame ⟨10, 0, 0, 1⟩ ⟨10, 0, 0, 2⟩ 67 68]
  wanLocations := fun _ => []
  routeLocations := fun _ => []
  afterwards := [officeInterface]
  probe := fun _ => probeHearing []

/-- The one network is reported with the gateway that comes first. -/
theorem office_returns (orders : Orders) (ip : Ipv4Addr)
    (hsubnets : (allSubnets .release (.dedup _) (officeNetwork.surroundings .release orders
      "eth0")).toOption.map (·.entries) = some [⟨(⟨10, 0, 0, 0⟩, 29), .gatewayRoute⟩])
    (hgateways : (gatewayMap .release (officeNetwork.surroundings .release orders
      "eth0")).toOption.map (contents · (⟨10, 0, 0, 0⟩, 29)) = some (some ip)) :
    Returns .release false officeNetwork [⟨⟨10, 0, 0, 0⟩, 29, some 1, .gatewayRoute, some ip⟩] := by
  have hiface : findInterface officeNetwork.iface officeNetwork.atStart
    = some officeInterface := rfl
  cases hall : allSubnets .release (.dedup _)
      (officeNetwork.surroundings .release orders "eth0") with
  | error e => simp [hall, Except.toOption] at hsubnets
  | ok subnets =>
    cases hmap : gatewayMap .release (officeNetwork.surroundings .release orders "eth0") with
    | error e => simp [hmap, Except.toOption] at hgateways
    | ok gateways =>
      rw [hall] at hsubnets
      rw [hmap] at hgateways
      have hentries : subnets.entries = [⟨(⟨10, 0, 0, 0⟩, 29), .gatewayRoute⟩] :=
        Option.some.inj hsubnets
      have hgateway : contents gateways (⟨10, 0, 0, 0⟩, 29) = some ip := Option.some.inj hgateways
      have hreturns : Returns .release false officeNetwork _ :=
        .probed orders (.dedup _) hiface hall hmap (List.Perm.refl _)
      have hprobe : probeSubnetForHosts .release ⟨10, 0, 0, 0⟩ 29 false (probeHearing [])
        = .ok (some 1) := by decide +kernel
      have hdiscovered : Candidate.discovered .release false
          ⟨⟨10, 0, 0, 0⟩, 29, .gatewayRoute, some ip, probeHearing []⟩
            = some ⟨⟨10, 0, 0, 0⟩, 29, some 1, .gatewayRoute, some ip⟩ :=
        discovered_eq_some_iff.mpr ⟨hprobe, rfl, rfl, rfl, rfl⟩
      rw [candidatesOf, hentries, List.map_singleton, hgateway, survey] at hreturns
      have hended := List.filterMap_cons_some (l := []) hdiscovered
      rw [List.filterMap_nil] at hended
      rw [show officeNetwork.probe = fun _ => probeHearing [] from rfl, hended,
        List.mergeSort_singleton] at hreturns
      exact hreturns

/-- The office has a gateway and two subnets. -/
theorem survey_reports_office : ∃ result, Returns .release false officeNetwork result ∧
    ∀ subnet ∈ result, Reported .release false officeNetwork "eth0" subnet := by
  have hreturns := office_returns someOrders ⟨10, 0, 0, 1⟩ (by decide +kernel) (by decide +kernel)
  have hiface : findInterface officeNetwork.iface officeNetwork.atStart
    = some officeInterface := rfl
  exact ⟨_, hreturns, (survey_reports hiface hreturns).2.2.1⟩

/-! ## Two surveys -/

/-- An entry but for the gateway. -/
def DiscoveredSubnet.withoutGateway (subnet : DiscoveredSubnet) : DiscoveredSubnet :=
  { subnet with gateway := none }

/-- A subnet without its gateway. -/
theorem mem_withoutGateway_iff {subnet : DiscoveredSubnet} :
    subnet ∈ result.map DiscoveredSubnet.withoutGateway ↔
      subnet.gateway = none ∧ ∃ gateway, { subnet with gateway := gateway } ∈ result := by
  rw [List.mem_map]
  constructor
  · rintro ⟨other, hmem, rfl⟩
    exact ⟨rfl, other.gateway, hmem⟩
  · rintro ⟨hnone, gateway, hmem⟩
    refine ⟨_, hmem, ?_⟩
    rw [DiscoveredSubnet.withoutGateway, ← hnone]

/-- **Orders do not matter**: two surveys that meet the same network report the same
networks with the same sources and numbers of hosts, and the sources in the same order. Only
the order within a source may differ, and which of several gateways is named. -/
theorem survey_orders (h : Returns profile verbose net result)
    (h' : Returns profile verbose net result') :
    (result.map DiscoveredSubnet.withoutGateway).Perm
        (result'.map DiscoveredSubnet.withoutGateway) ∧
      result.map (·.source) = result'.map (·.source) := by
  have hperm : (result.map DiscoveredSubnet.withoutGateway).Perm
      (result'.map DiscoveredSubnet.withoutGateway) := by
    cases hiface : findInterface net.iface net.atStart with
    | none =>
      have hnil : ∀ {r}, Returns profile verbose net r → r = [] := by
        intro r hr
        cases hr with
        | noInterface _ => rfl
        | probed _ _ hiface' _ _ _ => cases hiface.symm.trans hiface'
      rw [hnil h, hnil h']
    | some iface =>
      have hnodup : ∀ {r : List DiscoveredSubnet}, (r.map DiscoveredSubnet.key).Nodup →
          (r.map DiscoveredSubnet.withoutGateway).Nodup := by
        intro r hr
        refine List.Nodup.of_map DiscoveredSubnet.key ?_
        rw [List.map_map]
        exact hr
      refine (List.perm_ext_iff_of_nodup (hnodup (returns_sorted h).2)
        (hnodup (returns_sorted h').2)).mpr fun subnet => ?_
      rw [mem_withoutGateway_iff, mem_withoutGateway_iff, (mem_returns_iff hiface h).1,
        (mem_returns_iff hiface h').1]
  refine ⟨hperm, ?_⟩
  have hsources : (result.map (·.source)).Perm (result'.map (·.source)) := by
    have hmap := hperm.map DiscoveredSubnet.source
    rw [List.map_map, List.map_map] at hmap
    exact hmap
  have hanti : ∀ a b, a ∈ result.map (·.source) → b ∈ result'.map (·.source) →
      sourceRank a ≤ sourceRank b → sourceRank b ≤ sourceRank a → a = b := by
    intro a b _ _ hab hba
    have hrank : sourceRank a = sourceRank b := Nat.le_antisymm hab hba
    revert hrank
    cases a <;> cases b <;> decide
  exact hsources.eq_of_pairwise hanti (List.pairwise_map.mpr (returns_sorted h).1)
    (List.pairwise_map.mpr (returns_sorted h').1)

/-- The hash set that iterates the other way. -/
def otherOrders : Orders where
  gateways := .dedup _
  dhcpServers := {
    elements := fun ips => ips.dedup.reverse
    nodup := fun ips => List.nodup_reverse.mpr ips.nodup_dedup
    mem_iff := fun _ _ => List.mem_reverse.trans List.mem_dedup }

/-- The client that is asked as a gateway too may be the one that is named. -/
theorem survey_orders_office : ∃ result result',
    Returns .release false officeNetwork result ∧ Returns .release false officeNetwork result' ∧
      result ≠ result' ∧ (result.map DiscoveredSubnet.withoutGateway).Perm
        (result'.map DiscoveredSubnet.withoutGateway) := by
  have h := office_returns someOrders ⟨10, 0, 0, 1⟩ (by decide +kernel) (by decide +kernel)
  have h' := office_returns otherOrders ⟨10, 0, 0, 2⟩ (by decide +kernel) (by decide +kernel)
  exact ⟨_, _, h, h', by decide, (survey_orders h h').1⟩

end Survey

end Gannet
