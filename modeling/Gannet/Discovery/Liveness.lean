import Gannet.Discovery.HostCount
import Gannet.Discovery.TcpProbe
import Gannet.Net.PacketWriter

/-!
# Which hosts a sweep finds (discovery/sweep.rs)

`probe_host` asks a host three ways at once: by an echo request and by a SYN to each of two
ports. What a TCP probe looks for are two bytes of the acknowledgement number of the segments
it hears (`TcpProbe`), so it passes over all answers to SYNs of this program.

- `checks_icmpEchoRequest`: the echo request, the same one for all hosts, is well formed.
- `sweep_finds_pinged`: where nothing but such answers arrives over TCP, a sweep finds
  exactly the hosts of its block from which an echo reply is heard.
-/

namespace Gannet

open Bytes Checksum Machine

/-! ## The echo request -/

namespace MutableIcmpPacket

/-- `set_icmp_type` -/
def setIcmpType (buf : List UInt8) (icmpType : UInt8) : List UInt8 := putBytes buf 0 [icmpType]
/-- `set_icmp_code` -/
def setIcmpCode (buf : List UInt8) (code : UInt8) : List UInt8 := putBytes buf 1 [code]
/-- `set_checksum` -/
def setChecksum (buf : List UInt8) (checksum : UInt16) : List UInt8 :=
  putBytes buf 2 (octets16 checksum)

end MutableIcmpPacket

namespace Sweep

open MutableIcmpPacket in
/-- What `icmp_probe` sends, to whatever host: its identifier and its sequence number are
zero. -/
def icmpEchoRequest : List UInt8 :=
  let pkt := setIcmpType (List.replicate 8 0) IcmpTypes.echoRequest
  let pkt := setIcmpCode pkt 0
  let pkt := MutableIcmpPacket.setChecksum pkt 0
  MutableIcmpPacket.setChecksum pkt (utilChecksum pkt 1)

/-- The packet before its checksum is set. -/
theorem echoRequest_unsummed :
    MutableIcmpPacket.setChecksum (MutableIcmpPacket.setIcmpCode (MutableIcmpPacket.setIcmpType
      (List.replicate 8 0) IcmpTypes.echoRequest) 0) 0 = [8, 0, 0, 0, 0, 0, 0, 0] := by decide

/-- Its checksum is right. -/
theorem checks_icmpEchoRequest : Checks (wordSum icmpEchoRequest) := by
  have hlength : 2 * 1 + 2 ≤ ([8, 0, 0, 0, 0, 0, 0, 0] : List UInt8).length := by decide
  have hchecks := checksum_checks hlength
  rw [← echoRequest_unsummed] at hchecks
  exact hchecks

/-! ## The probes -/

/-- The buffer of the probe's transport channel. -/
def icmpBufferSize : Nat := 1024

/-- What one wait of `icmp_probe` ends with; a packet comes with the address it is from. -/
inductive IcmpReceived where
  | packet (bytes : List UInt8) (addr : Ipv4Addr)
  | timedOut
  | failed
deriving DecidableEq, Repr

/-- The loop of `icmp_probe`, over the clock readings and what each wait ends with; the list
ends where the deadline has passed. -/
def awaitEchoReply (target : Ipv4Addr) (deadline : Nat) :
    List (Nat × IcmpReceived) → Except Panic Bool
  | [] => .ok false
  | (now, received) :: rest =>
    if deadline ≤ now then .ok false
    else
      match received with
      | .timedOut => .ok false
      | .failed => .ok false
      | .packet bytes addr => do
        let pkt ← icmpPacketIter icmpBufferSize bytes
        if pkt.icmpType = IcmpTypes.echoReply ∧ addr = target then return true
        else awaitEchoReply target deadline rest

/-- A transport channel of `icmp_probe` that was opened. -/
structure IcmpChannel where
  sends : Bool
  start : Nat
  events : List (Nat × IcmpReceived)

/-- `icmp_probe` -/
def icmpProbe (target : Ipv4Addr) (channel : Option IcmpChannel) : Except Panic Bool :=
  match channel with
  | none => .ok false
  | some channel =>
    if channel.sends then awaitEchoReply target (channel.start + sweepWait) channel.events
    else .ok false

/-- `TCP_PROBE_PORTS` -/
def tcpProbePorts : List UInt16 := [80, 443]

/-- What the three threads of `probe_host` meet; the TCP probes have a source port and a
channel each. -/
structure HostProbe where
  icmp : Option IcmpChannel
  srcPort : UInt16 → UInt16
  tcp : UInt16 → Option ProbeChannel

/-- `h.join().unwrap_or(false)` -/
def joinedOr (thread : Except Panic Bool) : Bool := thread.toOption.getD false

/-- `probe_host` -/
def probeHost (target : Ipv4Addr) (probe : HostProbe) : Bool :=
  if joinedOr (icmpProbe target probe.icmp) then true
  else tcpProbePorts.any fun port =>
    joinedOr (tcpProbe (probe.srcPort port) port (probe.tcp port))

/-! ## Echo replies -/

/-- An echo reply of the target is heard in time, and the wait gets that far. -/
inductive HearsEcho (target : Ipv4Addr) (deadline : Nat) : List (Nat × IcmpReceived) → Prop where
  | reply {now : Nat} {bytes : List UInt8} {pkt : IcmpPacket} {rest : List (Nat × IcmpReceived)}
      (hnow : now < deadline) (hview : icmpPacketIter icmpBufferSize bytes = .ok pkt)
      (htype : pkt.icmpType = IcmpTypes.echoReply) :
      HearsEcho target deadline ((now, .packet bytes target) :: rest)
  | pass {now : Nat} {bytes : List UInt8} {addr : Ipv4Addr} {pkt : IcmpPacket}
      {rest : List (Nat × IcmpReceived)} (hnow : now < deadline)
      (hview : icmpPacketIter icmpBufferSize bytes = .ok pkt)
      (hrest : HearsEcho target deadline rest) :
      HearsEcho target deadline ((now, .packet bytes addr) :: rest)

/-- The wait ends well iff an echo reply of the target is heard in time. -/
theorem awaitEchoReply_iff {target : Ipv4Addr} {deadline : Nat}
    {events : List (Nat × IcmpReceived)} :
    awaitEchoReply target deadline events = .ok true ↔ HearsEcho target deadline events := by
  induction events with
  | nil => exact iff_of_false nofun nofun
  | cons event rest ih =>
    obtain ⟨now, received⟩ := event
    unfold awaitEchoReply
    by_cases hlate : deadline ≤ now
    · rw [if_pos hlate]
      refine iff_of_false nofun fun h => ?_
      cases h with
      | reply hnow _ _ => exact Nat.not_le.mpr hnow hlate
      | pass hnow _ _ => exact Nat.not_le.mpr hnow hlate
    rw [if_neg hlate]
    cases received with
    | timedOut => exact iff_of_false nofun nofun
    | failed => exact iff_of_false nofun nofun
    | packet bytes addr =>
      cases hview : icmpPacketIter icmpBufferSize bytes with
      | error _ =>
        refine iff_of_false (by simp [hview, bind, Except.bind]) fun h => ?_
        cases h with
        | reply _ hview' _ => exact nomatch hview.symm.trans hview'
        | pass _ hview' _ => exact nomatch hview.symm.trans hview'
      | ok pkt =>
        simp only [hview, bind, Except.bind]
        by_cases hreply : pkt.icmpType = IcmpTypes.echoReply ∧ addr = target
        · rw [if_pos hreply]
          obtain ⟨htype, rfl⟩ := hreply
          exact iff_of_true rfl (.reply (Nat.not_le.mp hlate) hview htype)
        · rw [if_neg hreply, ih]
          refine ⟨.pass (Nat.not_le.mp hlate) hview, fun h => ?_⟩
          cases h with
          | reply _ hview' htype =>
            obtain rfl := Except.ok.inj (hview.symm.trans hview')
            exact absurd ⟨htype, rfl⟩ hreply
          | pass _ _ hrest => exact hrest

/-- The probe of the target brings an echo reply. -/
def Pinged (target : Ipv4Addr) (probe : HostProbe) : Prop :=
  ∃ channel, probe.icmp = some channel ∧ channel.sends = true ∧
    HearsEcho target (channel.start + sweepWait) channel.events

/-- A thread counts if it returned true. -/
theorem joinedOr_iff {thread : Except Panic Bool} : joinedOr thread = true ↔ thread = .ok true := by
  cases thread with
  | error _ => exact iff_of_false nofun nofun
  | ok b => exact ⟨congrArg Except.ok, Except.ok.inj⟩

/-- The ping says whether the target was pinged. -/
theorem icmpProbe_iff {target : Ipv4Addr} {probe : HostProbe} :
    icmpProbe target probe.icmp = .ok true ↔ Pinged target probe := by
  unfold icmpProbe Pinged
  cases probe.icmp with
  | none => exact iff_of_false nofun nofun
  | some channel =>
    dsimp only
    by_cases hsends : channel.sends = true
    · rw [if_pos hsends, awaitEchoReply_iff]
      exact ⟨fun h => ⟨channel, rfl, hsends, h⟩, fun ⟨_, hsame, _, h⟩ =>
        Option.some.inj hsame ▸ h⟩
    · rw [if_neg hsends]
      exact iff_of_false nofun fun ⟨_, hsame, hsends', _⟩ =>
        hsends (Option.some.inj hsame ▸ hsends')

/-! ## TCP answers -/

/-- The datagram has a segment that acknowledges a number below 2¹⁶, as the answers to all
SYNs of this program do. -/
def SmallAck (datagram : List UInt8) : Prop :=
  ∃ (ip : Ipv4Packet) (tcp : TcpPacket), ip.bytes = datagram ∧
    tcp.bytes = ip.bytes.drop (ip.headerLength * 4) ∧ tcp.acknowledgement < 2 ^ 16

/-- The iterator's packet of it is not taken for TCP. -/
theorem SmallAck.view {datagram : List UInt8} (h : SmallAck datagram) {bufferSize : Nat}
    (hbuffer : 80 ≤ bufferSize) :
    ∃ p, ipv4PacketIter bufferSize datagram = .ok p ∧ p.nextLevelProtocol = 0 := by
  obtain ⟨ip, tcp, rfl, hsegment, hack⟩ := h
  obtain ⟨p, hp, hbytes⟩ := ipv4PacketIter_segment hsegment hbuffer
  exact ⟨p, hp, (hbytes 9).trans (TcpPacket.protocol_byte hack)⟩

/-- No answer to a small acknowledgement number is taken for one. -/
theorem awaitAnswer_smallAck {srcPort port : UInt16} {deadline : Nat}
    {events : List (Nat × Received)}
    (h : ∀ now bytes, (now, Received.datagram bytes) ∈ events → SmallAck bytes) :
    awaitAnswer srcPort port deadline events = .ok false := by
  induction events with
  | nil => rfl
  | cons event rest ih =>
    obtain ⟨now, received⟩ := event
    have hrest := ih fun now bytes hmem => h now bytes (List.mem_cons_of_mem _ hmem)
    unfold awaitAnswer
    by_cases hlate : deadline ≤ now
    · rw [if_pos hlate]
    rw [if_neg hlate]
    cases received with
    | timedOut => rfl
    | failed => rfl
    | datagram bytes =>
      obtain ⟨p, hp, hprotocol⟩ :=
        (h now bytes List.mem_cons_self).view (show 80 ≤ sweepBufferSize by decide)
      have hanswer : isAnswer srcPort port p = false := by
        rw [isAnswer, hprotocol]
        rfl
      simp only [hp, hanswer, bind, Except.bind]
      exact hrest

/-- Over TCP nothing but answers to this program arrives while the host is probed. -/
def OnlyAnswers (probe : HostProbe) : Prop :=
  ∀ port ∈ tcpProbePorts, ∀ channel, probe.tcp port = some channel →
    ∀ now bytes, (now, Received.datagram bytes) ∈ channel.events → SmallAck bytes

/-- So the ping alone decides. -/
theorem probeHost_iff {target : Ipv4Addr} {probe : HostProbe} (h : OnlyAnswers probe) :
    probeHost target probe = true ↔ Pinged target probe := by
  rw [← icmpProbe_iff, ← joinedOr_iff, probeHost]
  have htcp : (tcpProbePorts.any fun port =>
      joinedOr (tcpProbe (probe.srcPort port) port (probe.tcp port))) = false := by
    rw [List.any_eq_false]
    intro port hport
    rw [joinedOr_iff]
    unfold tcpProbe
    cases hchannel : probe.tcp port with
    | none => exact nofun
    | some channel =>
      dsimp only
      split_ifs
      · rw [awaitAnswer_smallAck (h port hport channel hchannel)]
        exact nofun
      · exact nofun
  rw [htcp]
  split_ifs with hicmp <;> simp [hicmp]

/-! ## A whole sweep -/

variable {profile : Profile} {subnet : Ipv4Addr} {prefixLen : UInt8}

/-- **Sweeps find what answers a ping**: where only answers to this program arrive over TCP,
a sweep of any block finds the hosts whose echo reply is heard, among the addresses that do
not end in 0 or 255, are not known and are not its own. Whether they answer SYNs plays no
part. -/
theorem sweep_finds_pinged (hle : prefixLen ≤ 32) (hpos : prefixLen ≠ 0) (known : List Ipv4Addr)
    (srcIp : Ipv4Addr) {probe : Ipv4Addr → HostProbe} (h : ∀ ip, OnlyAnswers (probe ip)) :
    ∃ found, sweepSubnet profile subnet prefixLen known (some srcIp)
        (fun ip => probeHost ip (probe ip)) = .ok found ∧
      ∀ ip, ip ∈ found ↔ (ip.topBits prefixLen = subnet.topBits prefixLen ∧
        ip.hasHostOctet = true ∧ ip ∉ known ∧ ip ≠ srcIp) ∧ Pinged ip (probe ip) := by
  obtain ⟨targets, htargets, hlists⟩ := targets_spec profile subnet hle hpos known srcIp
  refine ⟨(targets.filter fun ip => probeHost ip (probe ip)).toFinset, ?_, fun ip => ?_⟩
  · simp only [sweepSubnet, htargets, bind, Except.bind]
    rfl
  · rw [List.mem_toFinset, List.mem_filter, hlists.mem, probeHost_iff (h ip)]

/-- A host that answers the ping only. -/
def pingedHost : HostProbe where
  icmp := some ⟨true, 0, [(0, .packet (0x45 :: List.replicate 27 0) ⟨10, 0, 0, 9⟩)]⟩
  srcPort := fun _ => 51001
  tcp := fun _ => none

/-- A host that answers the SYNs only. -/
def synAckHost : HostProbe where
  icmp := none
  srcPort := fun _ => 51001
  tcp := fun _ => some ⟨true, 0, [(0, .datagram sampleProbeReply.ip.bytes)]⟩

/-- 10.0.0.9 answers pings, everybody else the SYN. -/
def smallProbe (ip : Ipv4Addr) : HostProbe := if ip = ⟨10, 0, 0, 9⟩ then pingedHost else synAckHost

/-- Nothing but answers to the probe's own SYN is heard. -/
theorem onlyAnswers_smallProbe (ip : Ipv4Addr) : OnlyAnswers (smallProbe ip) := by
  intro port _ channel hchannel now bytes hmem
  rw [smallProbe] at hchannel
  split_ifs at hchannel
  · exact nomatch hchannel
  · obtain rfl := Option.some.inj hchannel
    obtain ⟨-, hbytes⟩ := Prod.mk.inj (List.mem_singleton.mp hmem)
    obtain rfl := Received.datagram.inj hbytes
    exact ⟨sampleProbeReply.ip, sampleProbeReply.tcp, rfl, sampleProbeReply.segment, by decide⟩

/-- 10.0.0.9 is heard in time. -/
theorem pinged_smallProbe : Pinged ⟨10, 0, 0, 9⟩ (smallProbe ⟨10, 0, 0, 9⟩) := by
  have hview : icmpPacketIter icmpBufferSize (0x45 :: List.replicate 27 0)
      = .ok ⟨List.replicate 8 0, by decide⟩ := rfl
  exact ⟨_, rfl, rfl, .reply (by decide) hview rfl⟩

/-- The one is found, the other is not. -/
theorem sweep_finds_pinged_small :
    ∃ found, sweepSubnet .release ⟨10, 0, 0, 8⟩ 29 [] (some ⟨10, 0, 0, 14⟩)
        (fun ip => probeHost ip (smallProbe ip)) = .ok found ∧
      (⟨10, 0, 0, 9⟩ : Ipv4Addr) ∈ found ∧ (⟨10, 0, 0, 10⟩ : Ipv4Addr) ∉ found := by
  have hle : (29 : UInt8) ≤ 32 := by decide
  obtain ⟨found, hsweep, hmem⟩ := sweep_finds_pinged hle (by decide) [] ⟨10, 0, 0, 14⟩
    onlyAnswers_smallProbe
  refine ⟨found, hsweep, (hmem _).mpr ⟨by decide, pinged_smallProbe⟩, fun h => ?_⟩
  obtain ⟨-, channel, hchannel, -⟩ := (hmem _).mp h
  exact nomatch hchannel

end Sweep

end Gannet
