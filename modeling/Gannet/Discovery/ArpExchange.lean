import Gannet.Discovery.HostCount
import Gannet.Net.PacketWriter

/-!
# Requests and replies (discovery/arp.rs)

The frame of an ARP request, what a host makes of it, and what the scan makes of the host's
reply. A host is an address and a MAC; it answers as RFC 826 says.

`scan_finds_hosts`: a scan whose replies are all heard finds, on any network, the hosts of
its block with their MACs, but for those at an address that ends in 0 or 255.
-/

namespace Gannet

open Bytes Machine

/-! ## Requests (send_arp_request) -/

/-- `ArpHardwareTypes::Ethernet` -/
def arpHardwareEthernet : Nat := 1

namespace MutableArpPacket

def setHardwareType (buf : List UInt8) (value : Nat) : List UInt8 :=
  putBytes buf 0 (octets16 (.ofNat value))
def setProtocolType (buf : List UInt8) (value : Nat) : List UInt8 :=
  putBytes buf 2 (octets16 (.ofNat value))
def setHwAddrLen (buf : List UInt8) (len : UInt8) : List UInt8 := putBytes buf 4 [len]
def setProtoAddrLen (buf : List UInt8) (len : UInt8) : List UInt8 := putBytes buf 5 [len]
def setOperation (buf : List UInt8) (value : Nat) : List UInt8 :=
  putBytes buf 6 (octets16 (.ofNat value))
def setSenderHwAddr (buf : List UInt8) (mac : MacAddr6) : List UInt8 := putBytes buf 8 mac.asBytes
def setSenderProtoAddr (buf : List UInt8) (ip : Ipv4Addr) : List UInt8 := putBytes buf 14 ip.octets
def setTargetHwAddr (buf : List UInt8) (mac : MacAddr6) : List UInt8 := putBytes buf 18 mac.asBytes
def setTargetProtoAddr (buf : List UInt8) (ip : Ipv4Addr) : List UInt8 := putBytes buf 24 ip.octets

end MutableArpPacket

namespace MutableEthernetPacket

def setDestination (buf : List UInt8) (mac : MacAddr6) : List UInt8 := putBytes buf 0 mac.asBytes
def setSource (buf : List UInt8) (mac : MacAddr6) : List UInt8 := putBytes buf 6 mac.asBytes
def setEthertype (buf : List UInt8) (value : Nat) : List UInt8 :=
  putBytes buf 12 (octets16 (.ofNat value))
def setPayload (buf : List UInt8) (payload : List UInt8) : List UInt8 := putBytes buf 14 payload

end MutableEthernetPacket

namespace Arp

open MutableArpPacket in
/-- `arp_packet` of `send_arp_request` -/
def requestPacket (source : ArpEntry) (targetIp : Ipv4Addr) : List UInt8 :=
  let arp := setHardwareType (List.replicate 28 0) arpHardwareEthernet
  let arp := setProtocolType arp EtherTypes.ipv4
  let arp := setHwAddrLen arp 6
  let arp := setProtoAddrLen arp 4
  let arp := setOperation arp ArpOperations.request
  let arp := setSenderHwAddr arp source.mac
  let arp := setSenderProtoAddr arp source.ip
  let arp := setTargetHwAddr arp .nil
  setTargetProtoAddr arp targetIp

open MutableEthernetPacket in
/-- The frame `send_arp_request` sends from the interface of `source`. -/
def request (source : ArpEntry) (targetIp : Ipv4Addr) : List UInt8 :=
  let ethernet := setDestination (List.replicate 42 0) .broadcast
  let ethernet := setSource ethernet source.mac
  let ethernet := setEthertype ethernet EtherTypes.arp
  setPayload ethernet (requestPacket source targetIp)

/-! ## Frames -/

variable {source host sender target : ArpEntry} {targetIp : Ipv4Addr} {destination : MacAddr6}
  {operation : UInt8}

/-- The ARP packet of a request, byte by byte. -/
theorem requestPacket_eq (source : ArpEntry) (targetIp : Ipv4Addr) :
    requestPacket source targetIp = [0, 1, 0x08, 0, 6, 4, 0, 1] ++ source.mac.asBytes ++
      source.ip.octets ++ MacAddr6.nil.asBytes ++ targetIp.octets := by
  simp [requestPacket, MutableArpPacket.setHardwareType, MutableArpPacket.setProtocolType,
    MutableArpPacket.setHwAddrLen, MutableArpPacket.setProtoAddrLen,
    MutableArpPacket.setOperation, MutableArpPacket.setSenderHwAddr,
    MutableArpPacket.setSenderProtoAddr, MutableArpPacket.setTargetHwAddr,
    MutableArpPacket.setTargetProtoAddr, putBytes, octets16, MacAddr6.asBytes, Ipv4Addr.octets,
    List.replicate, arpHardwareEthernet, EtherTypes.ipv4, ArpOperations.request]

/-- The whole request is the frame of its fields. -/
theorem request_eq (source : ArpEntry) (targetIp : Ipv4Addr) :
    request source targetIp = arpFrame .broadcast 1 source ⟨targetIp, .nil⟩ := by
  rw [request, requestPacket_eq]
  simp [MutableEthernetPacket.setDestination, MutableEthernetPacket.setSource,
    MutableEthernetPacket.setEthertype, MutableEthernetPacket.setPayload, arpFrame, putBytes,
    octets16, MacAddr6.asBytes, Ipv4Addr.octets, List.replicate, EtherTypes.arp]

/-- What is read of an ARP frame. -/
structure ReadsArp (frame : List UInt8) (destination : MacAddr6) (operation : UInt8)
    (sender target : ArpEntry) where
  ethernet : EthernetPacket
  arp : ArpPacket
  newEthernet : EthernetPacket.new frame = some ethernet
  newArp : ArpPacket.new ethernet.payload = some arp
  destination : ethernet.destination = destination
  ethertype : ethernet.ethertype = EtherTypes.arp
  hardwareType : arp.hardwareType = arpHardwareEthernet
  protocolType : arp.protocolType = EtherTypes.ipv4
  hwAddrLen : arp.hwAddrLen = 6
  protoAddrLen : arp.protoAddrLen = 4
  operation : arp.operation = operation.toNat
  sender : ArpEntry.mk arp.senderProtoAddr arp.senderHwAddr = sender
  targetIp : arp.targetProtoAddr = target.ip

/-- What the packet reads back of the fields that were set. -/
def readsArp (destination : MacAddr6) (operation : UInt8) (sender target : ArpEntry) :
    ReadsArp (arpFrame destination operation sender target) destination operation sender target where
  ethernet := ⟨arpFrame destination operation sender target, by
    simp [arpFrame, MacAddr6.asBytes, Ipv4Addr.octets]⟩
  arp := ⟨[0, 1, 0x08, 0, 6, 4, 0, operation] ++ sender.mac.asBytes ++ sender.ip.octets ++
      target.mac.asBytes ++ target.ip.octets, by simp [MacAddr6.asBytes, Ipv4Addr.octets]⟩
  newEthernet := View.new_of_le _
  newArp := View.new_of_le _
  destination := rfl
  ethertype := (by decide : be16 0x08 0x06 = EtherTypes.arp)
  hardwareType := (by decide : be16 0 1 = arpHardwareEthernet)
  protocolType := (by decide : be16 0x08 0 = EtherTypes.ipv4)
  hwAddrLen := rfl
  protoAddrLen := rfl
  operation := by
    have h : be16 0 operation = operation.toNat := by simp [be16]
    exact h
  sender := rfl
  targetIp := rfl

/-! ## Hosts -/

/-- The request in a frame: who asks. -/
def askedBy (host : ArpEntry) (frame : List UInt8) : Option ArpEntry :=
  match EthernetPacket.new frame with
  | none => none
  | some ethernet =>
    if (ethernet.destination = .broadcast ∨ ethernet.destination = host.mac) ∧
        ethernet.ethertype = EtherTypes.arp then
      match ArpPacket.new ethernet.payload with
      | none => none
      | some arp =>
        if arp.hardwareType = arpHardwareEthernet ∧ arp.protocolType = EtherTypes.ipv4 ∧
            arp.hwAddrLen = 6 ∧ arp.protoAddrLen = 4 ∧ arp.operation = ArpOperations.request ∧
            arp.targetProtoAddr = host.ip then
          some ⟨arp.senderProtoAddr, arp.senderHwAddr⟩
        else none
    else none

/-- What the host sends when it reads a frame: a reply to a request for its address. -/
def answer (host : ArpEntry) (frame : List UInt8) : Option (List UInt8) :=
  (askedBy host frame).map fun asker => arpFrame asker.mac 2 host asker

/-- A host is asked iff the request is for its address. -/
theorem ReadsArp.askedBy {frame : List UInt8} (h : ReadsArp frame .broadcast 1 sender target)
    (host : ArpEntry) : askedBy host frame = if target.ip = host.ip then some sender else none := by
  have hrequest : h.arp.operation = ArpOperations.request := h.operation
  rw [Arp.askedBy, h.newEthernet]
  dsimp only
  rw [if_pos ⟨.inl h.destination, h.ethertype⟩, h.newArp]
  dsimp only
  by_cases hip : target.ip = host.ip
  · rw [if_pos ⟨h.hardwareType, h.protocolType, h.hwAddrLen, h.protoAddrLen, hrequest,
      h.targetIp.trans hip⟩, if_pos hip, h.sender]
  · rw [if_neg fun hall => hip (h.targetIp.symm.trans hall.2.2.2.2.2), if_neg hip]

/-- A reply is taken for its sender's. -/
theorem ReadsArp.replyOf {frame : List UInt8} (h : ReadsArp frame destination 2 sender target) :
    replyOf frame = some sender := by
  have hreply : h.arp.operation = ArpOperations.reply := h.operation
  rw [Arp.replyOf, h.newEthernet]
  dsimp only
  rw [if_pos h.ethertype, h.newArp]
  dsimp only
  rw [if_pos hreply, h.sender]

/-- A request is answered by the host of its address. -/
theorem answer_request (host source : ArpEntry) (targetIp : Ipv4Addr) :
    answer host (request source targetIp)
      = if targetIp = host.ip then some (arpFrame source.mac 2 host source) else none := by
  rw [answer, request_eq, (readsArp ..).askedBy]
  split_ifs <;> rfl

/-- A host answers what is for it, and the answer is taken for its own. -/
theorem replyOf_answer {frame : List UInt8} (h : answer host (request source targetIp) = some frame) :
    targetIp = host.ip ∧ replyOf frame = some host := by
  rw [answer_request] at h
  split_ifs at h with hip
  obtain rfl := Option.some.inj h
  exact ⟨hip, (readsArp ..).replyOf⟩

/-! ## A whole scan -/

variable {profile : Profile} {subnet : Ipv4Addr} {prefixLen : UInt8} {scan : Scan}
  {hosts : List ArpEntry}

/-- The scan runs from `source` on a network of these hosts: they answer each request for a
target, no other ARP reply is read, and what the loop leaves in the channel is still taken. -/
structure OnNetwork (hosts : List ArpEntry) (source : ArpEntry) (targets : List Ipv4Addr)
    (scan : Scan) : Prop where
  interface : scan.interface = some ⟨some source.ip, some source.mac⟩
  answered : ∀ host ∈ hosts, ∀ ip ∈ targets, ∀ frame, answer host (request source ip) = some frame →
    frame ∈ scan.frames
  answers : ∀ frame ∈ scan.frames, replyOf frame ≠ none →
    ∃ host ∈ hosts, ∃ ip ∈ targets, answer host (request source ip) = some frame
  heard : (scan.left 10000 2500).length ≤ scan.queued
  joined : scan.joined = true

/-- The entries that are read off the frames are the hosts among the targets. -/
theorem OnNetwork.mem_replies {targets : List Ipv4Addr} (h : OnNetwork hosts source targets scan)
    {entry : ArpEntry} :
    entry ∈ scan.sent ↔ entry ∈ hosts ∧ entry.ip ∈ targets := by
  rw [Scan.sent, List.mem_filterMap]
  constructor
  · rintro ⟨frame, hframe, hreply⟩
    obtain ⟨host, hhost, ip, hip, hanswer⟩ :=
      h.answers frame hframe (hreply ▸ Option.some_ne_none _)
    obtain ⟨rfl, hsame⟩ := replyOf_answer hanswer
    obtain rfl := Option.some.inj (hreply.symm.trans hsame)
    exact ⟨hhost, hip⟩
  · rintro ⟨hhost, hip⟩
    have hanswer : answer entry (request source entry.ip) = some _ :=
      (answer_request ..).trans (if_pos rfl)
    exact ⟨_, h.answered entry hhost entry.ip hip _ hanswer, (replyOf_answer hanswer).2⟩

/-- All replies are heard, in whatever rounds the loop takes them. -/
theorem OnNetwork.heard_eq {targets : List Ipv4Addr} (h : OnNetwork hosts source targets scan) :
    scan.heard = scan.sent := by
  have hleft := h.heard
  rw [Scan.heard, h.interface]
  dsimp only
  rw [if_pos h.joined, List.take_of_length_le]
  omega

/-- **ARP on a network**: whatever hosts there are, several on one address or none, a scan of
a block finds those with an address of the block that does not end in 0 or 255, each with its
MAC, and nothing else. -/
theorem scan_finds_hosts (hle : prefixLen ≤ 32) (hpos : prefixLen ≠ 0)
    (h : ∀ targets, subnetIter profile subnet prefixLen = .ok targets →
      OnNetwork hosts source targets scan) :
    ∃ entries, scanSubnet profile subnet prefixLen scan = .ok entries ∧
      ∀ entry, entry ∈ entries ↔ entry ∈ hosts ∧
        entry.ip.topBits prefixLen = subnet.topBits prefixLen ∧ entry.ip.hasHostOctet = true := by
  obtain ⟨targets, htargets, hlists⟩ := subnetIter_spec profile subnet hle hpos
  have hnetwork := h targets htargets
  refine ⟨_, scanSubnet_eq profile subnet hle hpos scan, fun entry => ?_⟩
  rw [List.mem_toFinset, hnetwork.heard_eq, hnetwork.mem_replies, hlists.mem]

/-- The interface of 10.0.0.14 that scans. -/
def smallSource : ArpEntry := ⟨⟨10, 0, 0, 14⟩, ⟨2, 0, 0, 0, 0, 14⟩⟩
/-- A host of 10.0.0.8/29. -/
def nearHost : ArpEntry := ⟨⟨10, 0, 0, 9⟩, ⟨2, 0, 0, 0, 0, 9⟩⟩
/-- Another one. -/
def nextHost : ArpEntry := ⟨⟨10, 0, 0, 10⟩, ⟨2, 0, 0, 0, 0, 10⟩⟩
/-- A host outside of it. -/
def farHost : ArpEntry := ⟨⟨10, 0, 0, 200⟩, ⟨2, 0, 0, 0, 0, 200⟩⟩

/-- The replies of the two hosts of 10.0.0.8/29. The loop takes the first two, the one to the
second request is still queued when it ends. -/
def smallScan : Scan where
  interface := some ⟨some smallSource.ip, some smallSource.mac⟩
  frames := [nextHost, nearHost, nextHost].map fun host =>
    arpFrame smallSource.mac 2 host smallSource
  rounds := [⟨100, .received 120⟩, ⟨120, .tick⟩, ⟨170, .received 200⟩, ⟨200, .expired⟩]
  queued := 1
  joined := true

/-- Both hosts answer each request for them, and nothing else is read. -/
theorem smallScan_onNetwork (targets : List Ipv4Addr)
    (h : subnetIter .release ⟨10, 0, 0, 8⟩ 29 = .ok targets) :
    OnNetwork [nearHost, nextHost, farHost] smallSource targets smallScan := by
  have htargets : subnetIter .release ⟨10, 0, 0, 8⟩ 29
      = .ok ([8, 9, 10, 11, 12, 13, 14, 15].map fun d => ⟨10, 0, 0, d⟩) := by decide +kernel
  obtain rfl := Except.ok.inj (htargets.symm.trans h)
  have hframes : ∀ host ∈ [nearHost, nextHost],
      arpFrame smallSource.mac 2 host smallSource ∈ smallScan.frames := fun host hhost =>
    List.mem_map_of_mem (List.subset_def.mp (by decide : [nearHost, nextHost] ⊆ _) hhost)
  refine ⟨rfl, fun host hhost ip hip frame hanswer => ?_, fun frame hframe _ => ?_,
    by decide +kernel, rfl⟩
  · obtain ⟨hsame, -⟩ := replyOf_answer hanswer
    rw [answer_request, if_pos hsame] at hanswer
    obtain rfl := Option.some.inj hanswer
    rcases List.mem_append.mp (show host ∈ [nearHost, nextHost] ++ [farHost] from hhost) with
      hhost | hfar
    · exact hframes host hhost
    · rw [hsame, List.mem_singleton.mp hfar] at hip
      exact absurd hip (by decide)
  · obtain ⟨host, hhost, rfl⟩ := List.mem_map.mp hframe
    have hasked : host ∈ [nearHost, nextHost, farHost] ∧
        host.ip ∈ [8, 9, 10, 11, 12, 13, 14, 15].map fun d => (⟨10, 0, 0, d⟩ : Ipv4Addr) := by
      revert host
      decide
    exact ⟨host, hasked.1, host.ip, hasked.2, (answer_request ..).trans (if_pos rfl)⟩

/-- The two near hosts are found, the far one is not asked. -/
theorem scan_finds_near_hosts :
    ∃ entries, scanSubnet .release ⟨10, 0, 0, 8⟩ 29 smallScan = .ok entries ∧
      nearHost ∈ entries ∧ nextHost ∈ entries ∧ farHost ∉ entries := by
  obtain ⟨entries, hscan, hmem⟩ := scan_finds_hosts (by decide) (by decide) smallScan_onNetwork
  exact ⟨entries, hscan, (hmem _).mpr (by decide), (hmem _).mpr (by decide),
    fun h => absurd ((hmem _).mp h) (by decide)⟩

end Arp

end Gannet
