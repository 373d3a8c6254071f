import Gannet.Net.Packet

/-!
# Waiting for a SYN+ACK (discovery/fingerprint.rs)

`probe_port_blocking` sends one SYN and `wait_syn_ack` reads datagrams from a
raw TCP socket until a reply comes or two seconds are over. It treats what
`ipv4_packet_iter` hands out as the IP packet, but on this kind of channel that
is already the TCP segment: the protocol field it tests is a byte of the
acknowledgement number.

- `waitSynAck_reply`: a SYN+ACK reply to the probe is passed over, whatever its
  headers and options are.
- `waitSynAck_never`: so a probe that only its replies answer ends without a
  result.
-/

namespace Gannet

open Bytes

/-! ## The code -/

/-- What one wait on the socket ends with. -/
inductive Received where
  | datagram (bytes : List UInt8)
  | timedOut
  | failed
deriving DecidableEq, Repr

/-- The buffer of the probe's transport channel. -/
def probeBufferSize : Nat := 4096

/-- The sequence number of the probe's SYN. -/
def probeSequence : Nat := 31337

/-- 10 ms, in nanoseconds. -/
def minRemaining : Nat := 10000000

/-- The reported TTL, window and raw TCP options. -/
abbrev SynAck := UInt8 × UInt16 × List UInt8

/-- What the loop body makes of a packet: go on (`none`), or return. -/
def inspectPacket (srcPort dstPort : UInt16) (ipv4 : Ipv4Packet) :
    Except Panic (Option (Option SynAck)) :=
  if ipv4.nextLevelProtocol = protocolTcp then
    match TcpPacket.new ipv4.payload with
    | some tcp =>
      if tcp.destination = srcPort ∧ tcp.source = dstPort then
        if tcp.flags &&& TcpFlags.syn ≠ 0 ∧ tcp.flags &&& TcpFlags.ack ≠ 0 then do
          -- the options are looked for behind another IP header
          let dataOffset := tcp.dataOffset * 4
          let tcpStart := ipv4.headerLength * 4
          let optsLen := dataOffset - 20
          let opts ←
            if 0 < optsLen ∧ tcpStart + dataOffset ≤ ipv4.payload.length then
              slice ipv4.payload (tcpStart + 20) (tcpStart + 20 + optsLen)
            else pure []
          return some (some (ipv4.ttl, tcp.window, opts))
        else if tcp.flags &&& TcpFlags.rst ≠ 0 then pure (some none)
        else pure none
      else pure none
    | none => pure none
  else pure none

/-- The loop of `wait_syn_ack`, over the clock readings and what each wait ends
with; the list ends where the deadline has passed. -/
def waitSynAck (srcPort dstPort : UInt16) (deadline : Nat) :
    List (Nat × Received) → Except Panic (Option SynAck)
  | [] => .ok none
  | (now, received) :: rest =>
    if deadline ≤ now then .ok none
    else
      match received with
      | .timedOut => .ok none
      | .failed => .ok none
      | .datagram bytes => do
        let ipv4 ← ipv4PacketIter probeBufferSize bytes
        match ← inspectPacket srcPort dstPort ipv4 with
        | some result => return result
        | none =>
          if deadline - now < minRemaining then return none
          else waitSynAck srcPort dstPort deadline rest

/-! ## Replies -/

/-- An IPv4 datagram from `target` whose TCP segment is a SYN+ACK from `dstPort`
to `srcPort` that acknowledges a SYN with sequence number `seq`. `ip` views the
datagram and `tcp` the segment after the IP header. -/
structure SynAckReply (target : Ipv4Addr) (srcPort dstPort : UInt16) (seq : Nat) where
  ip : Ipv4Packet
  tcp : TcpPacket
  segment : tcp.bytes = ip.bytes.drop (ip.headerLength * 4)
  version : ip.version = 4
  headerLength_ge : 5 ≤ ip.headerLength
  protocol : ip.nextLevelProtocol = protocolTcp
  source : ip.source = target
  ports : tcp.source = dstPort ∧ tcp.destination = srcPort
  syn : tcp.flags &&& TcpFlags.syn ≠ 0
  ack : tcp.flags &&& TcpFlags.ack ≠ 0
  acknowledgement : tcp.acknowledgement = seq + 1
  dataOffset_ge : 5 ≤ tcp.dataOffset
  options_fit : tcp.dataOffset * 4 ≤ tcp.bytes.length

namespace SynAckReply

variable {target : Ipv4Addr} {srcPort dstPort : UInt16} {seq : Nat}
  (reply : SynAckReply target srcPort dstPort seq)

/-- The datagram on the wire. -/
def bytes : List UInt8 := reply.ip.bytes

/-- The TTL, window and options the reply carries. -/
def carries : SynAck :=
  (reply.ip.ttl, reply.tcp.window,
    (reply.tcp.bytes.drop 20).take (reply.tcp.dataOffset * 4 - 20))

/-- What the iterator hands out is the TCP segment, viewed as an IP packet. -/
theorem ipv4PacketIter_bytes :
    ∃ p : Ipv4Packet, ipv4PacketIter probeBufferSize reply.bytes = .ok p ∧
      ∀ i : Fin 20, View.byte p i = View.byte reply.tcp i :=
  ipv4PacketIter_segment reply.segment (by decide)

end SynAckReply

/-! ## Replies are passed over -/

section Probe

variable {target : Ipv4Addr} {srcPort dstPort : UInt16}
  (reply : SynAckReply target srcPort dstPort probeSequence) {deadline now : Nat}
  {events rest : List (Nat × Received)}

/-- 31338 as an acknowledgement number has a zero where the iterator's packet
has its protocol. -/
theorem SynAckReply.protocol_byte : View.byte reply.tcp 9 = 0 :=
  TcpPacket.protocol_byte (reply.acknowledgement ▸ by decide)

/-- The loop body goes on after a reply. -/
theorem inspectPacket_reply {p : Ipv4Packet}
    (hp : ∀ i : Fin 20, View.byte p i = View.byte reply.tcp i) :
    inspectPacket srcPort dstPort p = .ok none := by
  have hprotocol : p.nextLevelProtocol = 0 := (hp 9).trans reply.protocol_byte
  rw [inspectPacket, hprotocol, if_neg (by decide)]
  rfl

/-- A reply in time is passed over, and the wait goes on if there is time
left. -/
theorem waitSynAck_reply :
    waitSynAck srcPort dstPort deadline ((now, .datagram reply.bytes) :: rest)
      = if deadline - now < minRemaining then .ok none
        else waitSynAck srcPort dstPort deadline rest := by
  obtain ⟨p, hp, hbytes⟩ := reply.ipv4PacketIter_bytes
  rw [waitSynAck]
  by_cases hlate : deadline ≤ now
  · rw [if_pos hlate, if_pos (by rw [minRemaining]; omega)]
  · rw [if_neg hlate]
    simp only [hp, inspectPacket_reply reply hbytes, bind, Except.bind]
    rfl

/-- **No fingerprint**: when nothing but replies to the probe arrives, in
whatever number and at whatever times, the wait ends without a result; so it
reports no reply as what the reply carries. -/
theorem waitSynAck_never (deadline : Nat)
    (honly : ∀ now bytes, (now, Received.datagram bytes) ∈ events →
      ∃ reply : SynAckReply target srcPort dstPort probeSequence, reply.bytes = bytes) :
    waitSynAck srcPort dstPort deadline events = .ok none ∧
      ∀ reply : SynAckReply target srcPort dstPort probeSequence,
        waitSynAck srcPort dstPort deadline events ≠ .ok (some reply.carries) := by
  have hnone : waitSynAck srcPort dstPort deadline events = .ok none := by
    induction events with
    | nil => rfl
    | cons event rest ih =>
      have hrest := ih fun now bytes hmem => honly now bytes (List.mem_cons_of_mem _ hmem)
      obtain ⟨now, received⟩ := event
      cases received with
      | datagram bytes =>
        obtain ⟨reply, rfl⟩ := honly now bytes List.mem_cons_self
        rw [waitSynAck_reply, hrest]
        -- out of time or not, nothing is returned
        exact ite_self _
      | timedOut => exact ite_self _
      | failed => exact ite_self _
  refine ⟨hnone, fun reply h => ?_⟩
  rw [hnone] at h
  exact nomatch Except.ok.inj h

end Probe

/-! ## A reply -/

/-- 192.168.1.10 answers from port 443 to port 43211, with TTL 64, window 65535
and the option MSS 1460. -/
def sampleReply : SynAckReply ⟨192, 168, 1, 10⟩ 43211 443 probeSequence where
  ip := ⟨[0x45, 0, 0, 44, 0, 0, 0x40, 0, 64, 6, 0, 0, 192, 168, 1, 10, 192, 168, 1, 20,
    0x01, 0xBB, 0xA8, 0xCB, 0, 0, 0, 1, 0, 0, 0x7A, 0x6A, 0x60, 0x12, 0xFF, 0xFF, 0, 0, 0, 0,
    2, 4, 0x05, 0xB4], by decide⟩
  tcp := ⟨[0x01, 0xBB, 0xA8, 0xCB, 0, 0, 0, 1, 0, 0, 0x7A, 0x6A, 0x60, 0x12, 0xFF, 0xFF,
    0, 0, 0, 0, 2, 4, 0x05, 0xB4], by decide⟩
  segment := by decide
  version := by decide
  headerLength_ge := by decide
  protocol := by decide
  source := by decide
  ports := by decide
  syn := by decide
  ack := by decide
  acknowledgement := by decide
  dataOffset_ge := by decide
  options_fit := by decide

/-- The reply arrives at once and is not reported. -/
theorem waitSynAck_misses_reply :
    sampleReply.carries = (64, 65535, [2, 4, 0x05, 0xB4]) ∧
      waitSynAck 43211 443 2000000000 [(0, .datagram sampleReply.bytes)] = .ok none ∧
      waitSynAck 43211 443 2000000000 [(0, .datagram sampleReply.bytes)]
        ≠ .ok (some sampleReply.carries) := by
  decide

/-- Two copies of the reply, then nothing. -/
theorem waitSynAck_never_sample :
    waitSynAck 43211 443 2000000000
      [(0, .datagram sampleReply.bytes), (1000000, .datagram sampleReply.bytes),
        (2000000, .timedOut)] ≠ .ok (some sampleReply.carries) := by
  refine (waitSynAck_never 2000000000 fun now bytes hmem => ⟨sampleReply, ?_⟩).2 sampleReply
  simp only [List.mem_cons, Prod.mk.injEq, List.not_mem_nil, or_false, reduceCtorEq, and_false,
    Received.datagram.injEq] at hmem
  rcases hmem with ⟨-, rfl⟩ | ⟨-, rfl⟩ <;> rfl

end Gannet
