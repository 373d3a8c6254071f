import Gannet.Discovery.HostCount
import Gannet.Lib.KeyMap

/-!
# Gateways that are heard (survey.rs)

`detect_gateways_passive` listens for thirty seconds and keeps a map of the
addresses in ARP packets that look like a gateway's, with the MAC first seen, and
a set of the addresses in DHCP traffic. Both are reported, and the survey asks
every one of them over UPnP.

- `gateways_local_iff`: one test of the sender stands for both addresses of an
  ARP packet, so the gateways are local iff the targets are.
- `dhcp_gateways_iff`: both addresses of a DHCP packet are taken, so the set has
  servers only iff the other end is never a client or a broadcast.
-/

namespace Gannet.Survey

open Bytes KeyMap Machine

/-! ## The loop -/

/-- `local_subnet.map(..).unwrap_or(true)` -/
def inLocal (profile : Profile) (localSubnet : Option (Ipv4Addr × UInt8)) (ip : Ipv4Addr) :
    Except Panic Bool :=
  match localSubnet with
  | some (base, prefixLen) => Survey.ipInSubnet profile ip base prefixLen
  | none => .ok true

/-- `is_gateway`: the last octet is 1 or 254. -/
def isGateway (ip : Ipv4Addr) : Bool := ip.d = 1 || ip.d = 254

/-- What an ARP packet puts into `gateways`, in order. (The code compares with
0.0.0.0 twice, under two names.) -/
def arpEntries (profile : Profile) (localSubnet : Option (Ipv4Addr × UInt8)) (arp : ArpPacket) :
    Except Panic (List (Ipv4Addr × MacAddr6)) :=
  let sender := arp.senderProtoAddr
  let target := arp.targetProtoAddr
  let senderMac := arp.senderHwAddr
  let targetMac := arp.targetHwAddr
  if senderMac = .nil then .ok []
  else do
    -- the test of the sender is used for the target too
    let inLocal ← inLocal profile localSubnet sender
    let fromSender :=
      if inLocal && sender ≠ .unspecified && isGateway sender then [(sender, senderMac)] else []
    let fromTarget :=
      if inLocal && target ≠ .unspecified && isGateway target && targetMac ≠ .nil then
        [(target, targetMac)]
      else []
    return fromSender ++ fromTarget

/-- What an IPv4 packet puts into `dhcp_servers`: both addresses, if a port is
67. -/
def dhcpAddrs (ipv4 : Ipv4Packet) : List Ipv4Addr :=
  if ipv4.nextLevelProtocol = protocolUdp then
    match UdpPacket.new ipv4.payload with
    | some udp =>
      if udp.source = 67 ∨ udp.destination = 67 then
        [ipv4.source, ipv4.destination].filter fun ip => !ip.isUnspecified
      else []
    | none => []
  else []

/-- `gateways` and `dhcp_servers`, the set as what was put into it. -/
structure Sniffed where
  gateways : Map Ipv4Addr MacAddr6
  dhcpServers : List Ipv4Addr

/-- A frame. -/
def sniffFrame (profile : Profile) (localSubnet : Option (Ipv4Addr × UInt8)) (st : Sniffed)
    (frame : List UInt8) : Except Panic Sniffed :=
  match EthernetPacket.new frame with
  | none => .ok st
  | some eth =>
    if eth.ethertype = EtherTypes.arp then
      match ArpPacket.new eth.payload with
      | none => .ok st
      | some arp => do
        let entries ← arpEntries profile localSubnet arp
        return { st with gateways := fill st.gateways entries }
    else if eth.ethertype = EtherTypes.ipv4 then
      match Ipv4Packet.new eth.payload with
      | none => .ok st
      | some ipv4 => .ok { st with dhcpServers := st.dhcpServers ++ dhcpAddrs ipv4 }
    else .ok st

/-- The loop, over the frames until the deadline. -/
def sniff (profile : Profile) (localSubnet : Option (Ipv4Addr × UInt8))
    (frames : List (List UInt8)) : Except Panic Sniffed :=
  frames.foldlM (sniffFrame profile localSubnet) ⟨∅, []⟩

/-- `GatewayInfo`: a gateway, and the subnet it was heard in. -/
structure GatewayInfo where
  ip : Ipv4Addr
  mac : MacAddr6
  subnet : Option (Ipv4Addr × UInt8)
deriving DecidableEq, Repr

/-- How the map and the set iterate. -/
structure Orders where
  gateways : SetOrder (Ipv4Addr × MacAddr6)
  dhcpServers : SetOrder Ipv4Addr

/-- A round of the loop over `dhcp_servers`. -/
def reportServer (localSubnet : Option (Ipv4Addr × UInt8)) (result : List GatewayInfo)
    (dhcpIp : Ipv4Addr) : List GatewayInfo :=
  if result.any (·.ip = dhcpIp) then result else result ++ [⟨dhcpIp, .nil, localSubnet⟩]

/-- The `result` of the loop's map and set. -/
def report (orders : Orders) (localSubnet : Option (Ipv4Addr × UInt8)) (st : Sniffed) :
    List GatewayInfo :=
  let gateways := orders.gateways.elements (st.gateways.entries.map fun entry => (entry.1, entry.2))
  (orders.dhcpServers.elements st.dhcpServers).foldl (reportServer localSubnet)
    (gateways.map fun (ip, mac) => ⟨ip, mac, localSubnet⟩)

/-- `detect_gateways_passive`: the interface, if it is there, and the frames, if
its channel opens. -/
def detectGatewaysPassive (profile : Profile) (orders : Orders)
    (interface : Option NetworkInterface) (frames : Option (List (List UInt8))) :
    Except Panic (List GatewayInfo) :=
  match interface with
  | none => .ok []
  | some interface => do
    let localSubnet ← Survey.subnetFromInterface profile interface.ips
    match frames with
    | none => return []
    | some frames => return report orders localSubnet (← sniff profile localSubnet frames)

/-! ## What a frame adds -/

/-- The ARP packet of a frame. -/
def arpOf (frame : List UInt8) : Option ArpPacket := do
  let eth ← EthernetPacket.new frame
  if eth.ethertype = EtherTypes.arp then ArpPacket.new eth.payload else none

/-- The UDP packet of a frame, with the IPv4 packet it is in. -/
def udpOf (frame : List UInt8) : Option (Ipv4Packet × UdpPacket) := do
  let eth ← EthernetPacket.new frame
  if eth.ethertype = EtherTypes.ipv4 then
    let ipv4 ← Ipv4Packet.new eth.payload
    if ipv4.nextLevelProtocol = protocolUdp then
      let udp ← UdpPacket.new ipv4.payload
      return (ipv4, udp)
    else none
  else none

/-- An ARP packet qualifies an address, with a MAC: its sender or its target, of
which only the sender is tested for being local. -/
inductive Qualifies (profile : Profile) (localSubnet : Option (Ipv4Addr × UInt8))
    (arp : ArpPacket) : Ipv4Addr → MacAddr6 → Prop where
  | sender (hmac : arp.senderHwAddr ≠ .nil)
      (hlocal : inLocal profile localSubnet arp.senderProtoAddr = .ok true)
      (hip : arp.senderProtoAddr ≠ .unspecified) (hgateway : isGateway arp.senderProtoAddr = true) :
      Qualifies profile localSubnet arp arp.senderProtoAddr arp.senderHwAddr
  | target (hmac : arp.senderHwAddr ≠ .nil)
      (hlocal : inLocal profile localSubnet arp.senderProtoAddr = .ok true)
      (hip : arp.targetProtoAddr ≠ .unspecified) (hgateway : isGateway arp.targetProtoAddr = true)
      (htarget : arp.targetHwAddr ≠ .nil) :
      Qualifies profile localSubnet arp arp.targetProtoAddr arp.targetHwAddr

/-- The frame has an ARP packet that qualifies the address. -/
def FrameQualifies (profile : Profile) (localSubnet : Option (Ipv4Addr × UInt8))
    (frame : List UInt8) (ip : Ipv4Addr) (mac : MacAddr6) : Prop :=
  ∃ arp, arpOf frame = some arp ∧ Qualifies profile localSubnet arp ip mac

/-- The frame is DHCP traffic with the address as one of its ends. -/
def DhcpEnd (frame : List UInt8) (ip : Ipv4Addr) : Prop :=
  ∃ ipv4 udp, udpOf frame = some (ipv4, udp) ∧ (udp.source = 67 ∨ udp.destination = 67) ∧
    (ip = ipv4.source ∨ ip = ipv4.destination)

variable {profile : Profile} {localSubnet : Option (Ipv4Addr × UInt8)}
  {interface : NetworkInterface} {base ip : Ipv4Addr} {prefixLen : UInt8} {mac : MacAddr6} {frame : List UInt8}

/-- Every address can be tested, and passes only if it is in the subnet. -/
theorem inLocal_spec (hsubnet : Survey.subnetFromInterface profile interface.ips = .ok localSubnet)
    (ip : Ipv4Addr) : ∃ inside, inLocal profile localSubnet ip = .ok inside ∧
      (inside = true → ∀ base prefixLen, localSubnet = some (base, prefixLen) →
        ip.topBits prefixLen = base.topBits prefixLen) := by
  cases localSubnet with
  | none => exact ⟨true, rfl, fun _ _ _ h => nomatch h⟩
  | some subnet =>
    obtain ⟨base, prefixLen⟩ := subnet
    obtain ⟨hle, hzero⟩ := interface.prefix_spec hsubnet
    by_cases hpos : prefixLen = 0
    · subst hpos
      obtain rfl := hzero rfl
      refine ⟨_, ipInSubnet_zero_release ip base, fun _ base' prefixLen h => ?_⟩
      obtain ⟨rfl, rfl⟩ := Prod.mk.inj (Option.some.inj h)
      rw [Ipv4Addr.topBits_zero, Ipv4Addr.topBits_zero]
    · obtain ⟨inside, hinside, hiff⟩ := ipInSubnet_spec profile hle hpos ip base
      refine ⟨inside, hinside, fun h base' prefixLen' heq => ?_⟩
      obtain ⟨rfl, rfl⟩ := Prod.mk.inj (Option.some.inj heq)
      exact hiff.mp h

/-- A packet's entries are what it qualifies. -/
theorem arpEntries_spec
    (hsubnet : Survey.subnetFromInterface profile interface.ips = .ok localSubnet)
    (arp : ArpPacket) : ∃ entries, arpEntries profile localSubnet arp = .ok entries ∧
      ∀ ip mac, (ip, mac) ∈ entries ↔ Qualifies profile localSubnet arp ip mac := by
  unfold arpEntries
  by_cases hmac : arp.senderHwAddr = .nil
  · refine ⟨[], if_pos hmac, fun ip mac => ⟨fun h => (nomatch h), fun h => ?_⟩⟩
    cases h with
    | sender hmac' => exact absurd hmac hmac'
    | target hmac' => exact absurd hmac hmac'
  obtain ⟨inside, hinside, -⟩ := inLocal_spec hsubnet arp.senderProtoAddr
  simp only [if_neg hmac, hinside, bind, Except.bind]
  refine ⟨_, rfl, fun ip mac => ?_⟩
  rw [List.mem_append]
  constructor
  · rintro (h | h)
    · rw [List.mem_ite_nil_right] at h
      obtain ⟨htests, hmem⟩ := h
      simp only [Bool.and_eq_true, decide_eq_true_iff] at htests
      obtain ⟨⟨rfl, hip⟩, hgateway⟩ := htests
      obtain ⟨rfl, rfl⟩ := Prod.mk.inj (List.mem_singleton.mp hmem)
      exact .sender hmac hinside hip hgateway
    · rw [List.mem_ite_nil_right] at h
      obtain ⟨htests, hmem⟩ := h
      simp only [Bool.and_eq_true, decide_eq_true_iff] at htests
      obtain ⟨⟨⟨rfl, hip⟩, hgateway⟩, htarget⟩ := htests
      obtain ⟨rfl, rfl⟩ := Prod.mk.inj (List.mem_singleton.mp hmem)
      exact .target hmac hinside hip hgateway htarget
  · intro h
    cases h with
    | sender _ hlocal hip hgateway =>
      obtain rfl := Except.ok.inj (hinside.symm.trans hlocal)
      left
      rw [if_pos (by simp [hip, hgateway])]
      exact List.mem_singleton_self _
    | target _ hlocal hip hgateway htarget =>
      obtain rfl := Except.ok.inj (hinside.symm.trans hlocal)
      right
      rw [if_pos (by simp [hip, hgateway, htarget])]
      exact List.mem_singleton_self _

/-- A DHCP packet brings both its ends, whichever of them is the server. -/
theorem mem_dhcpAddrs {ipv4 : Ipv4Packet} : ip ∈ dhcpAddrs ipv4 ↔
    ∃ udp, ipv4.nextLevelProtocol = protocolUdp ∧ UdpPacket.new ipv4.payload = some udp ∧
      (udp.source = 67 ∨ udp.destination = 67) ∧ (ip = ipv4.source ∨ ip = ipv4.destination) ∧
      ip ≠ .unspecified := by
  unfold dhcpAddrs
  by_cases hprotocol : ipv4.nextLevelProtocol = protocolUdp
  · rw [if_pos hprotocol]
    cases hudp : UdpPacket.new ipv4.payload with
    | none => exact ⟨fun h => (nomatch h), fun ⟨_, _, h, _⟩ => nomatch h⟩
    | some udp =>
      dsimp only
      rw [List.mem_ite_nil_right, List.mem_filter]
      simp only [List.mem_cons, List.not_mem_nil, or_false, Ipv4Addr.isUnspecified,
        Bool.not_eq_true', decide_eq_false_iff_not]
      constructor
      · rintro ⟨hports, hends, hip⟩
        exact ⟨udp, hprotocol, rfl, hports, hends, hip⟩
      · rintro ⟨udp', -, hudp', hports, hends, hip⟩
        obtain rfl := Option.some.inj hudp'
        exact ⟨hports, hends, hip⟩
  · rw [if_neg hprotocol]
    exact ⟨fun h => (nomatch h), fun ⟨_, h, _⟩ => absurd h hprotocol⟩

/-- The addresses taken from an IPv4 packet are the ends of the DHCP traffic in its
frame. -/
theorem mem_dhcpAddrs_iff {eth : EthernetPacket} {ipv4 : Ipv4Packet}
    (heth : EthernetPacket.new frame = some eth) (htype : eth.ethertype = EtherTypes.ipv4)
    (hnew : Ipv4Packet.new eth.payload = some ipv4) :
    ip ∈ dhcpAddrs ipv4 ↔ DhcpEnd frame ip ∧ ip ≠ .unspecified := by
  have hudp : ∀ ipv4' udp, udpOf frame = some (ipv4', udp) ↔
      ipv4 = ipv4' ∧ ipv4.nextLevelProtocol = protocolUdp ∧
        UdpPacket.new ipv4.payload = some udp := by
    intro ipv4' udp
    simp only [udpOf, heth, bind, Option.bind, if_pos htype, hnew]
    by_cases hprotocol : ipv4.nextLevelProtocol = protocolUdp
    · rw [if_pos hprotocol]
      cases UdpPacket.new ipv4.payload <;> simp [hprotocol]
    · simp [hprotocol]
  rw [mem_dhcpAddrs]
  constructor
  · rintro ⟨udp, hprotocol, hnewUdp, hports, hends, hip⟩
    exact ⟨⟨ipv4, udp, (hudp ipv4 udp).mpr ⟨rfl, hprotocol, hnewUdp⟩, hports, hends⟩, hip⟩
  · rintro ⟨⟨ipv4', udp, hof, hports, hends⟩, hip⟩
    obtain ⟨rfl, hprotocol, hnewUdp⟩ := (hudp ipv4' udp).mp hof
    exact ⟨udp, hprotocol, hnewUdp, hports, hends, hip⟩

/-! ## The run -/

/-- What frames add to the map and the set: addresses that a frame qualifies, in
the map with the MAC of the first such frame, and the ends of DHCP traffic. -/
structure Adds (profile : Profile) (localSubnet : Option (Ipv4Addr × UInt8))
    (frames : List (List UInt8)) (st t : Sniffed) : Prop where
  keeps : ∀ ip mac, contents st.gateways ip = some mac → contents t.gateways ip = some mac
  enters : ∀ ip mac, contents st.gateways ip = none → contents t.gateways ip = some mac →
    ∃ before frame after, frames = before ++ frame :: after ∧
      FrameQualifies profile localSubnet frame ip mac ∧
      ∀ earlier ∈ before, ∀ mac', ¬ FrameQualifies profile localSubnet earlier ip mac'
  has : ∀ frame ∈ frames, ∀ ip mac, FrameQualifies profile localSubnet frame ip mac →
    contents t.gateways ip ≠ none
  servers_iff : ∀ ip, ip ∈ t.dhcpServers ↔
    ip ∈ st.dhcpServers ∨ (∃ frame ∈ frames, DhcpEnd frame ip) ∧ ip ≠ .unspecified

/-- A frame without an ARP packet adds what is in its DHCP packet. -/
theorem adds_servers (st : Sniffed) (servers : List Ipv4Addr) (harp : arpOf frame = none)
    (hservers : ∀ ip, ip ∈ servers ↔ DhcpEnd frame ip ∧ ip ≠ .unspecified) :
    Adds profile localSubnet [frame] st { st with dhcpServers := st.dhcpServers ++ servers } where
  keeps := fun _ _ h => h
  enters := fun ip mac hnone hsome => nomatch hnone.symm.trans hsome
  has := by
    rintro frame' hframe ip mac ⟨arp, harp', -⟩
    rw [List.mem_singleton.mp hframe, harp] at harp'
    cases harp'
  servers_iff := fun ip => by
    show ip ∈ st.dhcpServers ++ servers ↔ _
    simp only [List.mem_append, hservers, List.mem_singleton, exists_eq_left]

/-- A frame with an ARP packet adds its entries. -/
theorem adds_entries {st : Sniffed} {arp : ArpPacket} {entries : List (Ipv4Addr × MacAddr6)}
    (harp : arpOf frame = some arp) (hudp : udpOf frame = none)
    (hentries : ∀ ip mac, (ip, mac) ∈ entries ↔ Qualifies profile localSubnet arp ip mac) :
    Adds profile localSubnet [frame] st { st with gateways := fill st.gateways entries } where
  keeps := fun ip mac h => by
    rw [contents_fill, h]
    rfl
  enters := fun ip mac hnone hsome => by
    rw [contents_fill, hnone, Option.none_or] at hsome
    obtain ⟨before, after, heq, -⟩ := List.lookup_eq_some_iff.mp hsome
    have hmem : (ip, mac) ∈ entries := heq ▸ List.mem_append_right before List.mem_cons_self
    exact ⟨[], frame, [], rfl, ⟨arp, harp, (hentries ip mac).mp hmem⟩, fun _ h => nomatch h⟩
  has := by
    rintro frame' hframe ip mac ⟨arp', harp', hqualifies⟩
    rw [List.mem_singleton.mp hframe] at harp'
    obtain rfl := Option.some.inj (harp.symm.trans harp')
    rw [contents_fill]
    intro hnone
    have hlookup := (Option.or_eq_none_iff.mp hnone).2
    have hmem := (hentries ip mac).mpr hqualifies
    exact absurd rfl (bne_iff_ne.mp (List.lookup_eq_none_iff.mp hlookup _ hmem))
  servers_iff := fun ip => by
    show ip ∈ st.dhcpServers ↔ _
    constructor
    · exact .inl
    · rintro (h | ⟨⟨frame', hframe, ipv4, udp, hudp', -⟩, -⟩)
      · exact h
      · rw [List.mem_singleton.mp hframe, hudp] at hudp'
        cases hudp'

theorem Adds.nil (st : Sniffed) : Adds profile localSubnet [] st st where
  keeps := fun _ _ h => h
  enters := fun _ _ hnone hsome => nomatch hnone.symm.trans hsome
  has := fun _ h => nomatch h
  servers_iff := fun ip => by simp

/-- What an earlier frame has entered stays. -/
theorem Adds.cons {frames : List (List UInt8)} {st t u : Sniffed}
    (h : Adds profile localSubnet [frame] st t) (h' : Adds profile localSubnet frames t u) :
    Adds profile localSubnet (frame :: frames) st u where
  keeps := fun ip mac hst => h'.keeps ip mac (h.keeps ip mac hst)
  enters := fun ip mac hnone hsome => by
    cases ht : contents t.gateways ip with
    | some mac' =>
      obtain rfl := Option.some.inj ((h'.keeps ip mac' ht).symm.trans hsome)
      obtain ⟨before, first, after, heq, hqualifies, -⟩ := h.enters ip mac' hnone ht
      have hfirst : first ∈ [frame] := heq ▸ List.mem_append_right before List.mem_cons_self
      rw [List.mem_singleton.mp hfirst] at hqualifies
      exact ⟨[], frame, frames, rfl, hqualifies, fun _ h => nomatch h⟩
    | none =>
      obtain ⟨before, first, after, rfl, hqualifies, hearlier⟩ := h'.enters ip mac ht hsome
      refine ⟨frame :: before, first, after, rfl, hqualifies, fun earlier hmem mac' hq => ?_⟩
      rcases List.mem_cons.mp hmem with rfl | hmem
      · exact h.has earlier List.mem_cons_self ip mac' hq ht
      · exact hearlier earlier hmem mac' hq
  has := fun frame' hframe ip mac hqualifies hnone => by
    rcases List.mem_cons.mp hframe with rfl | hframe
    · cases ht : contents t.gateways ip with
      | some mac' => cases (h'.keeps ip mac' ht).symm.trans hnone
      | none => exact h.has frame' List.mem_cons_self ip mac hqualifies ht
    · exact h'.has frame' hframe ip mac hqualifies hnone
  servers_iff := fun ip => by
    rw [h'.servers_iff, h.servers_iff, or_assoc, ← or_and_right]
    simp only [List.mem_singleton, exists_eq_left, List.exists_mem_cons_iff]

/-- Every frame is taken in. -/
theorem sniffFrame_spec
    (hsubnet : Survey.subnetFromInterface profile interface.ips = .ok localSubnet)
    (st : Sniffed) (frame : List UInt8) :
    ∃ t, sniffFrame profile localSubnet st frame = .ok t ∧
      Adds profile localSubnet [frame] st t := by
  have hothers : arpOf frame = none → udpOf frame = none →
      Adds profile localSubnet [frame] st st := by
    intro harp hudp
    have hnone : ∀ ip, ip ∈ ([] : List Ipv4Addr) ↔ DhcpEnd frame ip ∧ ip ≠ .unspecified :=
      fun ip => ⟨fun h => (nomatch h), fun ⟨⟨_, _, hudp', _⟩, _⟩ => nomatch hudp.symm.trans hudp'⟩
    have hadds : Adds profile localSubnet [frame] st
        { st with dhcpServers := st.dhcpServers ++ [] } := adds_servers st [] harp hnone
    rwa [List.append_nil] at hadds
  unfold sniffFrame
  cases heth : EthernetPacket.new frame with
  | none => exact ⟨st, rfl, hothers (by rw [arpOf, heth]; rfl) (by rw [udpOf, heth]; rfl)⟩
  | some eth =>
    dsimp only
    by_cases htype : eth.ethertype = EtherTypes.arp
    · have hnotIpv4 : ¬ eth.ethertype = EtherTypes.ipv4 := by
        rw [htype]
        decide
      have hudp : udpOf frame = none := by
        simp only [udpOf, heth, bind, Option.bind, if_neg hnotIpv4]
      have harp : arpOf frame = ArpPacket.new eth.payload := by
        simp only [arpOf, heth, bind, Option.bind, if_pos htype]
      rw [if_pos htype]
      cases hnew : ArpPacket.new eth.payload with
      | none => exact ⟨st, rfl, hothers (harp.trans hnew) hudp⟩
      | some arp =>
        obtain ⟨entries, hentries, hiff⟩ := arpEntries_spec hsubnet arp
        simp only [hentries, bind, Except.bind]
        exact ⟨_, rfl, adds_entries (harp.trans hnew) hudp hiff⟩
    rw [if_neg htype]
    have harp : arpOf frame = none := by
      simp only [arpOf, heth, bind, Option.bind, if_neg htype]
    by_cases hipv4 : eth.ethertype = EtherTypes.ipv4
    · rw [if_pos hipv4]
      cases hnew : Ipv4Packet.new eth.payload with
      | none =>
        refine ⟨st, rfl, hothers harp ?_⟩
        simp only [udpOf, heth, bind, Option.bind, if_pos hipv4, hnew]
      | some ipv4 =>
        exact ⟨_, rfl, adds_servers st (dhcpAddrs ipv4) harp fun _ =>
          mem_dhcpAddrs_iff heth hipv4 hnew⟩
    · rw [if_neg hipv4]
      refine ⟨st, rfl, hothers harp ?_⟩
      simp only [udpOf, heth, bind, Option.bind, if_neg hipv4]

/-- The loop takes in all frames. -/
theorem sniff_spec (hsubnet : Survey.subnetFromInterface profile interface.ips = .ok localSubnet)
    (frames : List (List UInt8)) : ∃ st, sniff profile localSubnet frames = .ok st ∧
      Adds profile localSubnet frames ⟨∅, []⟩ st := by
  suffices hfold : ∀ st, ∃ t, frames.foldlM (sniffFrame profile localSubnet) st = .ok t ∧
      Adds profile localSubnet frames st t from hfold ⟨∅, []⟩
  induction frames with
  | nil => exact fun st => ⟨st, rfl, .nil st⟩
  | cons frame frames ih =>
    intro st
    obtain ⟨t, ht, hadds⟩ := sniffFrame_spec hsubnet st frame
    obtain ⟨u, hu, hrest⟩ := ih t
    refine ⟨u, ?_, hadds.cons hrest⟩
    rw [List.foldlM_cons, ht]
    exact hu

/-! ## Gateways from ARP -/

/-- What qualifies has an address like a gateway's and a MAC. -/
theorem Qualifies.spec {arp : ArpPacket} (h : Qualifies profile localSubnet arp ip mac) :
    ip ≠ .unspecified ∧ mac ≠ .nil ∧ isGateway ip = true := by
  cases h with
  | sender hmac _ hip hgateway => exact ⟨hip, hmac, hgateway⟩
  | target _ _ hip hgateway htarget => exact ⟨hip, htarget, hgateway⟩

/-- **Gateways are local**: with a known local subnet, after every sequence of
frames each address in the map is in the subnet, is not 0.0.0.0 and has a MAC that
is not zero, that of the first frame that qualifies the address, iff every ARP
packet that qualifies its target has the target in the subnet. -/
theorem gateways_local_iff
    (hsubnet : Survey.subnetFromInterface profile interface.ips = .ok (some (base, prefixLen)))
    (frames : List (List UInt8)) :
    ∃ st, sniff profile (some (base, prefixLen)) frames = .ok st ∧
      ((∀ ip mac, contents st.gateways ip = some mac →
          ip.topBits prefixLen = base.topBits prefixLen ∧ ip ≠ .unspecified ∧ mac ≠ .nil ∧
          ∃ before frame after, frames = before ++ frame :: after ∧
            FrameQualifies profile (some (base, prefixLen)) frame ip mac ∧
            ∀ earlier ∈ before, ∀ mac',
              ¬ FrameQualifies profile (some (base, prefixLen)) earlier ip mac') ↔
        ∀ frame ∈ frames, ∀ arp, arpOf frame = some arp →
          Qualifies profile (some (base, prefixLen)) arp arp.targetProtoAddr arp.targetHwAddr →
          arp.targetProtoAddr.topBits prefixLen = base.topBits prefixLen) := by
  obtain ⟨st, hst, hadds⟩ := sniff_spec hsubnet frames
  refine ⟨st, hst, ?_⟩
  constructor
  · intro hall frame hframe arp harp htarget
    have hhas := hadds.has frame hframe _ _ ⟨arp, harp, htarget⟩
    obtain ⟨mac, hmac⟩ := Option.ne_none_iff_exists'.mp hhas
    exact (hall _ mac hmac).1
  · intro htargets ip mac hmac
    obtain ⟨before, frame, after, heq, ⟨arp, harp, hqualifies⟩, hearlier⟩ :=
      hadds.enters ip mac rfl hmac
    have hframe : frame ∈ frames := heq ▸ List.mem_append_right before List.mem_cons_self
    obtain ⟨hip, hnil, -⟩ := hqualifies.spec
    refine ⟨?_, hip, hnil, before, frame, after, heq, ⟨arp, harp, hqualifies⟩, hearlier⟩
    cases hqualifies with
    | sender _ hlocal =>
      obtain ⟨inside, hinside, htop⟩ := inLocal_spec hsubnet arp.senderProtoAddr
      obtain rfl := Except.ok.inj (hinside.symm.trans hlocal)
      exact htop rfl base prefixLen rfl
    | target hsender hlocal hip' hgateway htarget =>
      exact htargets frame hframe arp harp (.target hsender hlocal hip' hgateway htarget)

/-- An interface at 192.168.1.20/24, after an IPv6 address. -/
def homeInterface : NetworkInterface where
  ips := [.v6, .v4 ⟨192, 168, 1, 20⟩ 24]
  prefix_le := by
    intro ip prefixLen hmem
    simp only [List.mem_cons, reduceCtorEq, IpNetwork.v4.injEq, List.not_mem_nil, or_false,
      false_or] at hmem
    rw [hmem.2]
    decide

/-- An ARP request of 192.168.1.10 that names a target with its MAC. -/
def requestFor (target : Ipv4Addr) : List UInt8 :=
  Arp.arpFrame .broadcast 1 ⟨⟨192, 168, 1, 10⟩, ⟨2, 0, 0, 0, 0, 1⟩⟩ ⟨target, ⟨2, 0, 0, 0, 0, 9⟩⟩

/-- The target 10.9.8.1 becomes a gateway of 192.168.1.0/24. -/
theorem foreign_gateway :
    Survey.subnetFromInterface .debug homeInterface.ips = .ok (some (⟨192, 168, 1, 0⟩, 24)) ∧
      ((sniff .debug (some (⟨192, 168, 1, 0⟩, 24)) [requestFor ⟨10, 9, 8, 1⟩]).toOption.bind
          fun st => contents st.gateways ⟨10, 9, 8, 1⟩) = some ⟨2, 0, 0, 0, 0, 9⟩ ∧
      Ipv4Addr.topBits ⟨10, 9, 8, 1⟩ 24 ≠ Ipv4Addr.topBits ⟨192, 168, 1, 0⟩ 24 := by
  decide +kernel

/-- The target 192.168.1.1 is a local gateway. -/
theorem local_gateway :
    ∃ st, sniff .debug (some (⟨192, 168, 1, 0⟩, 24)) [requestFor ⟨192, 168, 1, 1⟩] = .ok st ∧
      ∀ ip mac, contents st.gateways ip = some mac →
        ip.topBits 24 = Ipv4Addr.topBits ⟨192, 168, 1, 0⟩ 24 := by
  have hsubnet : Survey.subnetFromInterface .debug homeInterface.ips
      = .ok (some (⟨192, 168, 1, 0⟩, 24)) := by decide
  obtain ⟨st, hst, hiff⟩ := gateways_local_iff hsubnet [requestFor ⟨192, 168, 1, 1⟩]
  refine ⟨st, hst, fun ip mac hmac => (hiff.mpr ?_ ip mac hmac).1⟩
  intro frame hframe arp harp _
  rw [List.mem_singleton.mp hframe] at harp
  have htarget : (arpOf (requestFor ⟨192, 168, 1, 1⟩)).map (·.targetProtoAddr)
      = some ⟨192, 168, 1, 1⟩ := by decide +kernel
  rw [harp] at htarget
  have htarget' : arp.targetProtoAddr = ⟨192, 168, 1, 1⟩ := Option.some.inj htarget
  rw [htarget']
  decide

/-! ## Servers from DHCP -/

/-- An address of one host. -/
def IsUnicast (ip : Ipv4Addr) : Prop :=
  ip ≠ .unspecified ∧ ip.isMulticast = false ∧ ip ≠ .broadcast

/-- The address is the end of a UDP packet that uses port 67. -/
def UsesServerPort (frame : List UInt8) (ip : Ipv4Addr) : Prop :=
  ∃ ipv4 udp, udpOf frame = some (ipv4, udp) ∧
    (ip = ipv4.source ∧ udp.source = 67 ∨ ip = ipv4.destination ∧ udp.destination = 67)

/-- A DHCP packet says nothing wrong about servers: its addresses are those of
hosts, or 0.0.0.0, and the end that is not on port 67 has none or is on port 67 in
some other packet. -/
structure Harmless (frames : List (List UInt8)) (ipv4 : Ipv4Packet) (udp : UdpPacket) : Prop where
  unicast : ∀ ip, ip = ipv4.source ∨ ip = ipv4.destination → ip ≠ .unspecified → IsUnicast ip
  source : udp.source ≠ 67 → ipv4.source ≠ .unspecified →
    ∃ frame ∈ frames, UsesServerPort frame ipv4.source
  destination : udp.destination ≠ 67 → ipv4.destination ≠ .unspecified →
    ∃ frame ∈ frames, UsesServerPort frame ipv4.destination

/-- Both ends of a harmless packet are lawful. -/
theorem Harmless.law {frames : List (List UInt8)} {ipv4 : Ipv4Packet} {udp : UdpPacket}
    (h : Harmless frames ipv4 udp) (hframe : frame ∈ frames) (hudp : udpOf frame = some (ipv4, udp))
    (hends : ip = ipv4.source ∨ ip = ipv4.destination) (hip : ip ≠ .unspecified) :
    IsUnicast ip ∧ ∃ frame ∈ frames, UsesServerPort frame ip := by
  refine ⟨h.unicast ip hends hip, ?_⟩
  rcases hends with rfl | rfl
  · by_cases hport : udp.source = 67
    · exact ⟨frame, hframe, ipv4, udp, hudp, .inl ⟨rfl, hport⟩⟩
    · exact h.source hport hip
  · by_cases hport : udp.destination = 67
    · exact ⟨frame, hframe, ipv4, udp, hudp, .inr ⟨rfl, hport⟩⟩
    · exact h.destination hport hip

/-- A round adds the server, unless its address is there. -/
theorem mem_foldl_reportServer (servers : List Ipv4Addr) (result : List GatewayInfo) :
    (∃ g ∈ servers.foldl (reportServer localSubnet) result, g.ip = ip) ↔
      (∃ g ∈ result, g.ip = ip) ∨ ip ∈ servers := by
  induction servers generalizing result with
  | nil => simp
  | cons server servers ih =>
    rw [List.foldl_cons, ih, List.mem_cons, reportServer]
    by_cases hthere : result.any (·.ip = server)
    · rw [if_pos hthere]
      obtain ⟨g, hg, hip⟩ := List.any_eq_true.mp hthere
      rw [decide_eq_true_iff] at hip
      constructor
      · rintro (h | h)
        · exact .inl h
        · exact .inr (.inr h)
      · rintro (h | rfl | h)
        · exact .inl h
        · exact .inl ⟨g, hg, hip⟩
        · exact .inr h
    · rw [if_neg hthere, ← or_assoc]
      refine or_congr_left ?_
      simp only [List.mem_append, List.mem_singleton, or_and_right, exists_or, exists_eq_left]
      exact or_congr_right eq_comm

/-- Reported are the addresses of the map and of the set. -/
theorem mem_report (orders : Orders) {st : Sniffed} :
    (∃ g ∈ report orders localSubnet st, g.ip = ip) ↔
      contents st.gateways ip ≠ none ∨ ip ∈ st.dhcpServers := by
  rw [report, mem_foldl_reportServer, orders.dhcpServers.mem_iff]
  refine or_congr_left ?_
  rw [Option.ne_none_iff_exists']
  constructor
  · rintro ⟨g, hg, rfl⟩
    obtain ⟨⟨ip, mac⟩, hmem, rfl⟩ := List.mem_map.mp hg
    obtain ⟨⟨k, v⟩, hentry, heq⟩ := List.mem_map.mp ((orders.gateways.mem_iff _ _).mp hmem)
    obtain ⟨rfl, rfl⟩ := Prod.mk.inj heq
    exact ⟨v, AList.mem_lookup_iff.mpr hentry⟩
  · rintro ⟨mac, hmac⟩
    have hmem : (ip, mac) ∈ st.gateways.entries.map fun entry => (entry.1, entry.2) :=
      List.mem_map.mpr ⟨⟨ip, mac⟩, AList.mem_lookup_iff.mp hmac, rfl⟩
    exact ⟨⟨ip, mac, localSubnet⟩,
      List.mem_map.mpr ⟨(ip, mac), (orders.gateways.mem_iff _ _).mpr hmem, rfl⟩, rfl⟩

/-- All of them are reported with the local subnet. -/
theorem report_subnet {orders : Orders} {st : Sniffed} {g : GatewayInfo}
    (hg : g ∈ report orders localSubnet st) : g.subnet = localSubnet := by
  suffices hfold : ∀ (servers : List Ipv4Addr) (result : List GatewayInfo),
      (∀ g ∈ result, g.subnet = localSubnet) →
      ∀ g ∈ servers.foldl (reportServer localSubnet) result, g.subnet = localSubnet by
    refine hfold _ _ (fun g hg => ?_) g hg
    obtain ⟨_, -, rfl⟩ := List.mem_map.mp hg
    rfl
  intro servers
  induction servers with
  | nil => exact fun _ h => h
  | cons server servers ih =>
    intro result hresult
    refine ih _ fun g hg => ?_
    unfold reportServer at hg
    by_cases hthere : result.any (·.ip = server)
    · rw [if_pos hthere] at hg
      exact hresult g hg
    · rw [if_neg hthere] at hg
      rcases List.mem_append.mp hg with hg | hg
      · exact hresult g hg
      · rw [List.mem_singleton.mp hg]

/-- The limited broadcast does not end like a gateway. -/
theorem broadcast_of_not_dhcp {orders : Orders} {frames : List (List UInt8)} {st : Sniffed}
    (hadds : Adds profile localSubnet frames ⟨∅, []⟩ st) (hnot : .broadcast ∉ st.dhcpServers) :
    ∀ g ∈ report orders localSubnet st, g.ip ≠ .broadcast := by
  intro g hg hbroadcast
  rcases (mem_report orders).mp ⟨g, hg, hbroadcast⟩ with hgateway | hserver
  · obtain ⟨mac, hmac⟩ := Option.ne_none_iff_exists'.mp hgateway
    obtain ⟨_, _, _, -, ⟨_, -, hqualifies⟩, -⟩ := hadds.enters .broadcast mac rfl hmac
    exact absurd hqualifies.spec.2.2 (by decide)
  · exact hnot hserver

/-- **DHCP servers**: after every sequence of frames, each reported address that
comes from DHCP traffic is that of a host and was on port 67 in some frame, and
the limited broadcast is not reported, so that neither it nor a client is
interrogated, iff every observed DHCP packet is harmless. -/
theorem dhcp_gateways_iff
    (hsubnet : Survey.subnetFromInterface profile interface.ips = .ok localSubnet)
    (orders : Orders) (frames : List (List UInt8)) :
    ∃ st, sniff profile localSubnet frames = .ok st ∧
      detectGatewaysPassive profile orders (some interface) (some frames)
        = .ok (report orders localSubnet st) ∧
      (((∀ g ∈ report orders localSubnet st, g.ip ∈ st.dhcpServers →
            IsUnicast g.ip ∧ ∃ frame ∈ frames, UsesServerPort frame g.ip) ∧
          ∀ g ∈ report orders localSubnet st, g.ip ≠ .broadcast) ↔
        ∀ frame ∈ frames, ∀ ipv4 udp, udpOf frame = some (ipv4, udp) →
          udp.source = 67 ∨ udp.destination = 67 → Harmless frames ipv4 udp) := by
  obtain ⟨st, hst, hadds⟩ := sniff_spec hsubnet frames
  refine ⟨st, hst, ?_, ?_⟩
  · simp only [detectGatewaysPassive, hsubnet, hst, bind, Except.bind]
    rfl
  have hservers : ∀ ip, ip ∈ st.dhcpServers ↔
      (∃ frame ∈ frames, DhcpEnd frame ip) ∧ ip ≠ .unspecified := by
    intro ip
    rw [hadds.servers_iff]
    exact or_iff_right List.not_mem_nil
  constructor
  · rintro ⟨hreported, -⟩ frame hframe ipv4 udp hudp hports
    -- every end is in the set, so it is reported
    have hend : ∀ ip, ip = ipv4.source ∨ ip = ipv4.destination → ip ≠ .unspecified →
        IsUnicast ip ∧ ∃ frame ∈ frames, UsesServerPort frame ip := by
      intro ip hends hip
      have hmem : ip ∈ st.dhcpServers :=
        (hservers ip).mpr ⟨⟨frame, hframe, ipv4, udp, hudp, hports, hends⟩, hip⟩
      obtain ⟨g, hg, rfl⟩ := (mem_report orders).mpr (.inr hmem)
      exact hreported g hg hmem
    exact {
      unicast := fun ip hends hip => (hend ip hends hip).1
      source := fun _ hip => (hend _ (.inl rfl) hip).2
      destination := fun _ hip => (hend _ (.inr rfl) hip).2 }
  · intro hharmless
    have hlaw : ∀ ip ∈ st.dhcpServers,
        IsUnicast ip ∧ ∃ frame ∈ frames, UsesServerPort frame ip := by
      intro ip hmem
      obtain ⟨⟨frame, hframe, ipv4, udp, hudp, hports, hends⟩, hip⟩ := (hservers ip).mp hmem
      exact (hharmless frame hframe ipv4 udp hudp hports).law hframe hudp hends hip
    exact ⟨fun g _ hmem => hlaw g.ip hmem,
      broadcast_of_not_dhcp hadds fun hmem => (hlaw _ hmem).1.2.2 rfl⟩

/-- A UDP packet without data. -/
def udpFrame (source destination : Ipv4Addr) (sourcePort destinationPort : UInt8) : List UInt8 :=
  MacAddr6.broadcast.asBytes ++ [2, 0, 0, 0, 0, 1] ++ [0x08, 0x00] ++
    [0x45, 0, 0, 28, 0, 0, 0, 0, 64, 17, 0, 0] ++
    [source.a, source.b, source.c, source.d] ++
    [destination.a, destination.b, destination.c, destination.d] ++
    [0, sourcePort, 0, destinationPort, 0, 8, 0, 0]

/-- Orders that leave the map and the set as they are. -/
def someOrders : Orders := ⟨.dedup _, .dedup _⟩

/-- A client without an address asks for one, and the limited broadcast is
reported. -/
theorem broadcast_reported :
    detectGatewaysPassive .debug someOrders (some homeInterface)
        (some [udpFrame .unspecified .broadcast 68 67])
      = .ok [⟨.broadcast, .nil, some (⟨192, 168, 1, 0⟩, 24)⟩] := by
  decide +kernel

/-- A relay asks the server: both are on port 67. -/
theorem relayed_reported :
    ∃ st, sniff .debug (some (⟨192, 168, 1, 0⟩, 24))
        [udpFrame ⟨10, 0, 0, 1⟩ ⟨192, 168, 1, 2⟩ 67 67] = .ok st ∧
      ∀ g ∈ report someOrders (some (⟨192, 168, 1, 0⟩, 24)) st, g.ip ≠ .broadcast := by
  have hsubnet : Survey.subnetFromInterface .debug homeInterface.ips
      = .ok (some (⟨192, 168, 1, 0⟩, 24)) := by decide
  obtain ⟨st, hst, -, hiff⟩ := dhcp_gateways_iff hsubnet someOrders
    [udpFrame ⟨10, 0, 0, 1⟩ ⟨192, 168, 1, 2⟩ 67 67]
  refine ⟨st, hst, (hiff.mpr fun frame hframe ipv4 udp hudp _ => ?_).2⟩
  rw [List.mem_singleton.mp hframe] at hudp
  have hfields : (udpOf (udpFrame ⟨10, 0, 0, 1⟩ ⟨192, 168, 1, 2⟩ 67 67)).map
      (fun (ipv4, udp) => (ipv4.source, ipv4.destination, udp.source, udp.destination))
        = some (⟨10, 0, 0, 1⟩, ⟨192, 168, 1, 2⟩, 67, 67) := by decide +kernel
  rw [hudp] at hfields
  simp only [Option.map_some, Option.some.injEq, Prod.mk.injEq] at hfields
  obtain ⟨hsource, hdestination, hsourcePort, hdestinationPort⟩ := hfields
  refine ⟨fun ip hends _ => ?_, fun h => absurd hsourcePort h, fun h => absurd hdestinationPort h⟩
  rw [hsource, hdestination] at hends
  rcases hends with rfl | rfl
  · exact ⟨by decide, by decide, by decide⟩
  · exact ⟨by decide, by decide, by decide⟩

end Gannet.Survey
