import Gannet.Discovery.MdnsServices
import Gannet.Identity.Device
import Gannet.Net.Packet
import Gannet.Net.Subnet

/-!
# The listener's producers (passive.rs)

Three threads feed the listen loop: `sniff_raw` reads frames, `poll_arp_table`
the kernel's ARP table, `listen_mdns` mDNS packets. Each is modelled by what it
does with one thing it reads: the messages it then sends, in order, and the set
of pairs it will not send again.
-/

namespace Gannet.Passive

open Bytes Machine

/-! ## Messages -/

/-- `MdnsServiceEvent` -/
structure MdnsServiceEvent where
  ip : Ipv4Addr
  services : List String
deriving DecidableEq, Repr

/-- What goes over the two channels. -/
inductive Message where
  | entry (entry : ArpEntry)
  | service (event : MdnsServiceEvent)
deriving DecidableEq, Repr

/-- The set `seen` of a producer. -/
abbrev Seen := List ArpEntry

/-- `if seen.insert(..) { tx.send(..) }` -/
def offer (entry : ArpEntry) (st : Seen × List ArpEntry) : Seen × List ArpEntry :=
  if entry ∈ st.1 then st else (entry :: st.1, st.2 ++ [entry])

/-! ## The kernel's ARP table -/

/-- One line of /proc/net/arp: its first field is the address, its fourth the
MAC. -/
def parseArpLine (line : List Char) : Option ArpEntry :=
  match Text.splitWhitespace line with
  | ip :: _ :: _ :: macStr :: _ => do
    let ip ← Ipv4Addr.parse ip
    if (String.ofList macStr).utf8ByteSize ≠ 17 ∨ macStr = "00:00:00:00:00:00".toList then none
    else
      let mac ← MacAddr6.parse macStr
      return ⟨ip, mac⟩
  | _ => none

/-- `parse_arp_table`; `none` where the file cannot be read. -/
def parseArpTable (contents : Option String) : List ArpEntry :=
  match contents with
  | some contents => ((Text.lines contents.toList).drop 1).filterMap parseArpLine
  | none => []

example : parseArpTable (some "IP address\n192.168.1.10 0x1 0x2 02:00:00:00:00:01 * eth0\n")
    = [⟨⟨192, 168, 1, 10⟩, ⟨2, 0, 0, 0, 0, 1⟩⟩] := by decide

/-- One round of `poll_arp_table`. -/
def pollArpTable (seen : Seen) (contents : Option String) : Seen × List ArpEntry :=
  (parseArpTable contents).foldl (fun st entry => offer entry st) (seen, [])

/-! ## Frames -/

/-- The subnet of the sniffed interface, if it has one. -/
abbrev LocalSubnet := Option (Ipv4Addr × UInt8)

/-- `local_subnet.map(..).unwrap_or(true)` -/
def isAllowed (profile : Profile) (localSubnet : LocalSubnet) (ip : Ipv4Addr) :
    Except Panic Bool :=
  match localSubnet with
  | some (base, prefixLen) => ipInSubnet profile ip base prefixLen
  | none => .ok true

/-- An address pair of a frame: if it is `wanted` and its address allowed, it is
offered. -/
def sniffPair (profile : Profile) (localSubnet : LocalSubnet) (wanted : Bool) (entry : ArpEntry)
    (st : Seen × List ArpEntry) : Except Panic (Seen × List ArpEntry) :=
  if wanted then do
    let allowed ← isAllowed profile localSubnet entry.ip
    return if allowed then offer entry st else st
  else .ok st

/-- An ARP packet: the sender, then the target. -/
def sniffArp (profile : Profile) (localSubnet : LocalSubnet) (arp : ArpPacket)
    (st : Seen × List ArpEntry) : Except Panic (Seen × List ArpEntry) := do
  let sender : ArpEntry := ⟨arp.senderProtoAddr, arp.senderHwAddr⟩
  let target : ArpEntry := ⟨arp.targetProtoAddr, arp.targetHwAddr⟩
  let wanted (entry : ArpEntry) : Bool :=
    !entry.ip.isUnspecified && !entry.ip.isLoopback && !entry.mac.isNil
  let st ← sniffPair profile localSubnet (wanted sender) sender st
  sniffPair profile localSubnet (wanted target) target st

/-- An IPv4 packet: its source, with the MAC of the frame. -/
def sniffIpv4 (profile : Profile) (localSubnet : LocalSubnet) (srcMac : MacAddr6)
    (ipv4 : Ipv4Packet) (st : Seen × List ArpEntry) : Except Panic (Seen × List ArpEntry) :=
  let srcIp := ipv4.source
  sniffPair profile localSubnet
    (!srcIp.isUnspecified && !srcIp.isLoopback && !srcIp.isMulticast) ⟨srcIp, srcMac⟩ st

/-- What `sniff_raw` does with one frame. -/
def sniffFrame (profile : Profile) (localSubnet : LocalSubnet) (seen : Seen)
    (frame : List UInt8) : Except Panic (Seen × List ArpEntry) :=
  match EthernetPacket.new frame with
  | none => .ok (seen, [])
  | some eth =>
    let srcMac := eth.source
    if srcMac.isNil || srcMac.isBroadcast then .ok (seen, [])
    else if eth.ethertype = EtherTypes.arp then
      match ArpPacket.new eth.payload with
      | some arp => sniffArp profile localSubnet arp (seen, [])
      | none => .ok (seen, [])
    else if eth.ethertype = EtherTypes.ipv4 then
      match Ipv4Packet.new eth.payload with
      | some ipv4 => sniffIpv4 profile localSubnet srcMac ipv4 (seen, [])
      | none => .ok (seen, [])
    else
      -- IPv6 and every other type: the MAC alone, under the unspecified address
      .ok (offer ⟨.unspecified, srcMac⟩ (seen, []))

/-! ## mDNS -/

/-- The receive buffer of `listen_mdns`; a longer packet is cut. -/
def mdnsBufferSize : Nat := 4096

/-- What `listen_mdns` sends for one packet from an IPv4 source: the services,
if any, then the sighting. It does not know the sender's MAC. -/
def listenMdns (src : Ipv4Addr) (payload : List UInt8) : Except Panic (List Message) := do
  let services ← parseMdnsForServices (payload.take mdnsBufferSize)
  let announced := if services = [] then [] else [.service ⟨src, services⟩]
  return announced ++ [.entry ⟨src, .broadcast⟩]

end Gannet.Passive
