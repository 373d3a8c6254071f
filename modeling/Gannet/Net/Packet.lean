import Gannet.Lib.Bytes
import Gannet.Net.Addr

/-!
# Packet views (pnet_packet)

A packet is a view of the bytes it was made from, and its accessors read the
header fields at their fixed offsets. `payload` of an IPv4 packet is what
follows the viewed header, as far as the viewed total length says.
-/

namespace Gannet

open Bytes

/-! ## IPv4 -/

/-- `Ipv4Packet` over a buffer of at least 20 bytes. -/
def Ipv4Packet : Type := View 20

namespace Ipv4Packet

/-- `Ipv4Packet::new` -/
def new (bytes : List UInt8) : Option Ipv4Packet := View.new 20 bytes

variable (p : Ipv4Packet)

/-- The whole buffer. -/
def bytes : List UInt8 := View.bytes p
/-- `get_version` -/
def version : Nat := (View.byte p 0 >>> 4).toNat
/-- `get_header_length`, in words. -/
def headerLength : Nat := (View.byte p 0 &&& 0x0F).toNat
/-- `get_total_length` -/
def totalLength : Nat := be16 (View.byte p 2) (View.byte p 3)
/-- `get_ttl` -/
def ttl : UInt8 := View.byte p 8
/-- `get_next_level_protocol` -/
def nextLevelProtocol : UInt8 := View.byte p 9
/-- `get_source` -/
def source : Ipv4Addr :=
  ⟨View.byte p 12, View.byte p 13, View.byte p 14, View.byte p 15⟩
/-- `get_destination` -/
def destination : Ipv4Addr :=
  ⟨View.byte p 16, View.byte p 17, View.byte p 18, View.byte p 19⟩

/-- The length of the options, none where the header is too short. -/
def optionsLength : Nat := p.headerLength * 4 - 20
/-- The length of the payload, by the total length. -/
def payloadLength : Nat := p.totalLength - p.headerLength * 4

/-- `payload` -/
def payload : List UInt8 :=
  let start := 20 + p.optionsLength
  let stop := min (start + p.payloadLength) p.bytes.length
  if p.bytes.length ≤ start then [] else (p.bytes.drop start).take (stop - start)

end Ipv4Packet

/-! ## TCP -/

/-- `TcpPacket` over a buffer of at least 20 bytes. -/
def TcpPacket : Type := View 20

namespace TcpPacket

/-- `TcpPacket::new` -/
def new (bytes : List UInt8) : Option TcpPacket := View.new 20 bytes

variable (p : TcpPacket)

/-- The whole buffer. -/
def bytes : List UInt8 := View.bytes p
/-- `get_source` -/
def source : UInt16 := .ofNat (be16 (View.byte p 0) (View.byte p 1))
/-- `get_destination` -/
def destination : UInt16 := .ofNat (be16 (View.byte p 2) (View.byte p 3))
/-- `get_sequence` -/
def sequence : Nat :=
  be32 (View.byte p 4) (View.byte p 5) (View.byte p 6) (View.byte p 7)
/-- `get_acknowledgement` -/
def acknowledgement : Nat :=
  be32 (View.byte p 8) (View.byte p 9) (View.byte p 10) (View.byte p 11)
/-- `get_data_offset`, in words. -/
def dataOffset : Nat := (View.byte p 12 >>> 4).toNat
/-- `get_flags` -/
def flags : UInt8 := View.byte p 13
/-- `get_window` -/
def window : UInt16 := .ofNat (be16 (View.byte p 14) (View.byte p 15))

end TcpPacket

namespace TcpFlags

/-- `ACK` -/
def ack : UInt8 := 0b00010000
/-- `RST` -/
def rst : UInt8 := 0b00000100
/-- `SYN` -/
def syn : UInt8 := 0b00000010

end TcpFlags

/-- `IpNextHeaderProtocols::Tcp` -/
def protocolTcp : UInt8 := 6

/-! ## UDP -/

/-- `UdpPacket` over a buffer of at least 8 bytes. -/
def UdpPacket : Type := View 8

namespace UdpPacket

/-- `UdpPacket::new` -/
def new (bytes : List UInt8) : Option UdpPacket := View.new 8 bytes

variable (p : UdpPacket)

/-- `get_source` -/
def source : UInt16 := .ofNat (be16 (View.byte p 0) (View.byte p 1))
/-- `get_destination` -/
def destination : UInt16 := .ofNat (be16 (View.byte p 2) (View.byte p 3))

end UdpPacket

/-- `IpNextHeaderProtocols::Udp` -/
def protocolUdp : UInt8 := 17

/-! ## ICMP -/

/-- `IcmpPacket` over a buffer of at least 4 bytes. -/
def IcmpPacket : Type := View 4

namespace IcmpPacket

/-- `IcmpPacket::new` -/
def new (bytes : List UInt8) : Option IcmpPacket := View.new 4 bytes

variable (p : IcmpPacket)

/-- `get_icmp_type` -/
def icmpType : UInt8 := View.byte p 0

end IcmpPacket

namespace IcmpTypes

/-- `EchoReply` -/
def echoReply : UInt8 := 0
/-- `EchoRequest` -/
def echoRequest : UInt8 := 8

end IcmpTypes

/-! ## Ethernet and ARP -/

/-- `EthernetPacket` over a buffer of at least 14 bytes. -/
def EthernetPacket : Type := View 14

namespace EthernetPacket

/-- `EthernetPacket::new` -/
def new (bytes : List UInt8) : Option EthernetPacket := View.new 14 bytes

variable (p : EthernetPacket)

/-- `get_destination` -/
def destination : MacAddr6 :=
  ⟨View.byte p 0, View.byte p 1, View.byte p 2, View.byte p 3, View.byte p 4, View.byte p 5⟩
/-- `get_source` -/
def source : MacAddr6 :=
  ⟨View.byte p 6, View.byte p 7, View.byte p 8, View.byte p 9, View.byte p 10, View.byte p 11⟩
/-- `get_ethertype` -/
def ethertype : Nat := be16 (View.byte p 12) (View.byte p 13)
/-- `payload`: everything after the header. -/
def payload : List UInt8 := (View.bytes p).drop 14

end EthernetPacket

namespace EtherTypes

def ipv4 : Nat := 0x0800
def arp : Nat := 0x0806

end EtherTypes

namespace ArpOperations

def request : Nat := 1
def reply : Nat := 2

end ArpOperations

/-- `ArpPacket` over a buffer of at least 28 bytes. -/
def ArpPacket : Type := View 28

namespace ArpPacket

/-- `ArpPacket::new` -/
def new (bytes : List UInt8) : Option ArpPacket := View.new 28 bytes

variable (p : ArpPacket)

/-- `get_hardware_type` -/
def hardwareType : Nat := be16 (View.byte p 0) (View.byte p 1)
/-- `get_protocol_type` -/
def protocolType : Nat := be16 (View.byte p 2) (View.byte p 3)
/-- `get_hw_addr_len` -/
def hwAddrLen : UInt8 := View.byte p 4
/-- `get_proto_addr_len` -/
def protoAddrLen : UInt8 := View.byte p 5
/-- `get_operation` -/
def operation : Nat := be16 (View.byte p 6) (View.byte p 7)
/-- `get_sender_hw_addr` -/
def senderHwAddr : MacAddr6 :=
  ⟨View.byte p 8, View.byte p 9, View.byte p 10, View.byte p 11, View.byte p 12, View.byte p 13⟩
/-- `get_sender_proto_addr` -/
def senderProtoAddr : Ipv4Addr :=
  ⟨View.byte p 14, View.byte p 15, View.byte p 16, View.byte p 17⟩
/-- `get_target_hw_addr` -/
def targetHwAddr : MacAddr6 :=
  ⟨View.byte p 18, View.byte p 19, View.byte p 20, View.byte p 21, View.byte p 22, View.byte p 23⟩
/-- `get_target_proto_addr` -/
def targetProtoAddr : Ipv4Addr :=
  ⟨View.byte p 24, View.byte p 25, View.byte p 26, View.byte p 27⟩

end ArpPacket

/-! ## The receiving end of a raw socket (pnet_transport) -/

/-- What `ipv4_packet_iter` makes of a datagram received on a
`Layer4(Ipv4(Tcp))` channel with a buffer of `bufferSize` bytes: a raw socket
hands out the IP header too, and the iterator views the bytes after it. -/
def ipv4PacketIter (bufferSize : Nat) (datagram : List UInt8) : Except Panic Ipv4Packet := do
  let received := datagram.take bufferSize
  let first ← index received 0
  let viewed ← slice received ((first &&& 0x0F).toNat * 4) received.length
  match Ipv4Packet.new viewed with
  | some packet => return packet
  | none => .error .unwrapNone

/-- What `icmp_packet_iter` makes of a datagram received on a `Layer4(Ipv4(Icmp))`
channel. -/
def icmpPacketIter (bufferSize : Nat) (datagram : List UInt8) : Except Panic IcmpPacket := do
  let received := datagram.take bufferSize
  let first ← index received 0
  let viewed ← slice received ((first &&& 0x0F).toNat * 4) received.length
  match IcmpPacket.new viewed with
  | some packet => return packet
  | none => .error .unwrapNone

/-- With at least 20 bytes after the IP header, the iterator views them. -/
theorem ipv4PacketIter_eq {bufferSize : Nat} {datagram : List UInt8} {first : UInt8}
    (hfirst : (datagram.take bufferSize)[0]? = some first)
    (hlength : (first &&& 0x0F).toNat * 4 + 20 ≤ (datagram.take bufferSize).length) :
    ∃ p : Ipv4Packet, ipv4PacketIter bufferSize datagram = .ok p ∧
      p.bytes = (datagram.take bufferSize).drop ((first &&& 0x0F).toNat * 4) := by
  have hview : 20 ≤ ((datagram.take bufferSize).drop ((first &&& 0x0F).toNat * 4)).length := by
    rw [List.length_drop]
    omega
  have hnew : Ipv4Packet.new _ = some _ := View.new_of_le hview
  refine ⟨⟨_, hview⟩, ?_, rfl⟩
  simp only [ipv4PacketIter, bind, Except.bind, index_of_getElem? hfirst]
  rw [slice_to_end _ (by omega)]
  simp only [hnew]
  rfl

theorem Ipv4Packet.headerLength_lt (p : Ipv4Packet) : p.headerLength < 16 := by
  show (View.byte p 0 &&& 0x0F).toNat < 16
  rw [UInt8.toNat_and]
  exact Nat.lt_succ_of_le Nat.and_le_right

/-- Of a datagram with a TCP segment the iterator hands out the segment, viewed
as an IP packet: its first 20 bytes are those of the TCP header. -/
theorem ipv4PacketIter_segment {bufferSize : Nat} {ip : Ipv4Packet} {tcp : TcpPacket}
    (hsegment : tcp.bytes = ip.bytes.drop (ip.headerLength * 4)) (hbuffer : 80 ≤ bufferSize) :
    ∃ p : Ipv4Packet, ipv4PacketIter bufferSize ip.bytes = .ok p ∧
      ∀ i : Fin 20, View.byte p i = View.byte tcp i := by
  have hheader := ip.headerLength_lt
  have hlength : ip.headerLength * 4 + 20 ≤ ip.bytes.length := by
    have hsize : 20 ≤ tcp.bytes.length := View.size_le tcp
    rw [hsegment, List.length_drop] at hsize
    omega
  have htake : (ip.bytes.take bufferSize).length = min bufferSize ip.bytes.length :=
    List.length_take
  have hfirst : (ip.bytes.take bufferSize)[0]? = some (View.byte ip 0) := by
    rw [List.getElem?_take_of_lt (by omega)]
    exact View.getElem?_byte ip 0
  have hviewed : ip.headerLength * 4 + 20 ≤ (ip.bytes.take bufferSize).length := by omega
  obtain ⟨p, hp, hbytes⟩ := ipv4PacketIter_eq hfirst hviewed
  refine ⟨p, hp, fun i => View.byte_congr i i ?_⟩
  show p.bytes[i.val]? = tcp.bytes[i.val]?
  have hi := i.isLt
  rw [hbytes, hsegment, List.getElem?_drop, List.getElem?_drop]
  exact List.getElem?_take_of_lt (show ip.headerLength * 4 + i.val < _ by omega)

/-- An acknowledgement number below 2¹⁶ has a zero where an IP packet has its
protocol. -/
theorem TcpPacket.protocol_byte {tcp : TcpPacket} (h : tcp.acknowledgement < 2 ^ 16) :
    View.byte tcp 9 = 0 := by
  have hack : be32 (View.byte tcp 8) (View.byte tcp 9) (View.byte tcp 10) (View.byte tcp 11)
      < 2 ^ 16 := h
  rw [be32, be16, be16] at hack
  exact UInt8.toNat_inj.mp (show (View.byte tcp 9).toNat = 0 by omega)

end Gannet
