import Gannet.Discovery.Fingerprint

/-!
# The TCP probe of the sweep (discovery/sweep.rs)

`tcp_probe` sends a SYN with sequence number 12345 and takes the host for alive
if a RST or a SYN+ACK comes back before its deadline. It reads what
`ipv4_packet_iter` hands out as the IP packet, as `wait_syn_ack` does: what it
looks at are a TCP segment and, in the segment's data, a second one. It does
not look at the sender.

- `ProbeReply.not_mistaken`: a reply is passed over, whatever it carries.
- `tcpProbe_live_iff`: so the probe tells whether the target replied exactly
  when either nothing of either kind arrives, or both a reply and another datagram
  that is mistaken for one.
-/

namespace Gannet

open Bytes

/-! ## The code -/

/-- The buffer of the probe's transport channel. -/
def sweepBufferSize : Nat := 4096

/-- The sequence number of the probe's SYN. -/
def sweepSequence : Nat := 12345

/-- 800 ms, in nanoseconds. -/
def sweepWait : Nat := 800000000

/-- The test of the loop body: a RST or SYN+ACK to the probe. -/
def isAnswer (srcPort port : UInt16) (ipv4 : Ipv4Packet) : Bool :=
  if ipv4.nextLevelProtocol ≠ protocolTcp then false
  else
    match TcpPacket.new ipv4.payload with
    | some tcp =>
      if tcp.destination = srcPort ∧ tcp.source = port then
        tcp.flags &&& TcpFlags.rst ≠ 0 ||
          (tcp.flags &&& TcpFlags.syn ≠ 0 && tcp.flags &&& TcpFlags.ack ≠ 0)
      else false
    | none => false

/-- The loop of `tcp_probe`, over the clock readings and what each wait ends
with; the list ends where the deadline has passed. -/
def awaitAnswer (srcPort port : UInt16) (deadline : Nat) :
    List (Nat × Received) → Except Panic Bool
  | [] => .ok false
  | (now, received) :: rest =>
    if deadline ≤ now then .ok false
    else
      match received with
      | .timedOut => .ok false
      | .failed => .ok false
      | .datagram bytes => do
        let ipv4 ← ipv4PacketIter sweepBufferSize bytes
        if isAnswer srcPort port ipv4 then return true
        else awaitAnswer srcPort port deadline rest

/-- A transport channel that was opened: whether the SYN can be sent, when the
wait begins, and what it brings. -/
structure ProbeChannel where
  sends : Bool
  start : Nat
  events : List (Nat × Received)

/-- `tcp_probe`, from its source port on; the channel is `none` where it cannot
be opened. The target and the source address only go into the SYN. -/
def tcpProbe (srcPort port : UInt16) (channel : Option ProbeChannel) : Except Panic Bool :=
  match channel with
  | none => .ok false
  | some channel =>
    if channel.sends then
      awaitAnswer srcPort port (channel.start + sweepWait) channel.events
    else .ok false

/-! ## Replies -/

/-- An IPv4 datagram from `target` whose TCP segment, from `port` to `srcPort`,
acknowledges a SYN with sequence number `seq` and is a RST or a SYN+ACK. `ip`
views the datagram and `tcp` the segment after the IP header. -/
structure ProbeReply (target : Ipv4Addr) (srcPort port : UInt16) (seq : Nat) where
  ip : Ipv4Packet
  tcp : TcpPacket
  segment : tcp.bytes = ip.bytes.drop (ip.headerLength * 4)
  version : ip.version = 4
  headerLength_ge : 5 ≤ ip.headerLength
  protocol : ip.nextLevelProtocol = protocolTcp
  source : ip.source = target
  ports : tcp.source = port ∧ tcp.destination = srcPort
  acknowledges : tcp.flags &&& TcpFlags.ack ≠ 0 ∧ tcp.acknowledgement = seq + 1
  answers : tcp.flags &&& TcpFlags.rst ≠ 0 ∨
    (tcp.flags &&& TcpFlags.syn ≠ 0 ∧ tcp.flags &&& TcpFlags.ack ≠ 0)

/-- The datagram is a reply of the target to the probe. -/
def IsProbeReply (target : Ipv4Addr) (srcPort port : UInt16) (datagram : List UInt8) : Prop :=
  ∃ reply : ProbeReply target srcPort port sweepSequence, reply.ip.bytes = datagram

/-! ## What the loop takes for a reply -/

/-- The iterator hands out a view of the datagram, and does not panic. -/
def Viewable (datagram : List UInt8) : Prop :=
  ∃ p, ipv4PacketIter sweepBufferSize datagram = .ok p

/-- The datagram's TCP segment, read as an IP packet `p`, carries a second segment
with the probe's ports that is a RST or a SYN+ACK. -/
def LooksLikeReply (srcPort port : UInt16) (datagram : List UInt8) : Prop :=
  ∃ p tcp, ipv4PacketIter sweepBufferSize datagram = .ok p ∧
    p.nextLevelProtocol = protocolTcp ∧ TcpPacket.new p.payload = some tcp ∧
    tcp.source = port ∧ tcp.destination = srcPort ∧
    (tcp.flags &&& TcpFlags.rst ≠ 0 ∨
      (tcp.flags &&& TcpFlags.syn ≠ 0 ∧ tcp.flags &&& TcpFlags.ack ≠ 0))

/-- One of the datagrams is mistaken for a reply, and none before it ends the
probe with a panic. -/
def Mistaken (srcPort port : UInt16) (datagrams : List (List UInt8)) : Prop :=
  ∃ before datagram after, datagrams = before ++ datagram :: after ∧
    (∀ d ∈ before, Viewable d) ∧ LooksLikeReply srcPort port datagram

/-- What the loop asks of the view it is given. -/
theorem isAnswer_eq_true_iff {srcPort port : UInt16} {p : Ipv4Packet} :
    isAnswer srcPort port p = true ↔ p.nextLevelProtocol = protocolTcp ∧
      ∃ tcp, TcpPacket.new p.payload = some tcp ∧ tcp.source = port ∧ tcp.destination = srcPort ∧
        (tcp.flags &&& TcpFlags.rst ≠ 0 ∨
          (tcp.flags &&& TcpFlags.syn ≠ 0 ∧ tcp.flags &&& TcpFlags.ack ≠ 0)) := by
  unfold isAnswer
  by_cases hprotocol : p.nextLevelProtocol = protocolTcp
  · rw [if_neg (not_not.mpr hprotocol)]
    generalize TcpPacket.new p.payload = viewed
    cases viewed with
    | none => simp
    | some tcp =>
      dsimp only
      by_cases hports : tcp.destination = srcPort ∧ tcp.source = port
      · simp [hprotocol, hports.1, hports.2]
      · rw [if_neg hports]
        refine iff_of_false Bool.false_ne_true ?_
        rintro ⟨-, tcp', htcp, hsource, hdestination, -⟩
        obtain rfl := Option.some.inj htcp
        exact hports ⟨hdestination, hsource⟩
  · rw [if_pos hprotocol]
    exact iff_of_false Bool.false_ne_true fun h => hprotocol h.1

/-- It is about the datagram's segment, read as a packet. -/
theorem isAnswer_iff {srcPort port : UInt16} {p : Ipv4Packet} {datagram : List UInt8}
    (hp : ipv4PacketIter sweepBufferSize datagram = .ok p) :
    isAnswer srcPort port p = true ↔ LooksLikeReply srcPort port datagram := by
  rw [isAnswer_eq_true_iff]
  constructor
  · rintro ⟨hprotocol, tcp, htcp⟩
    exact ⟨p, tcp, hp, hprotocol, htcp⟩
  · rintro ⟨p', tcp, hp', hprotocol, htcp⟩
    obtain rfl := Except.ok.inj (hp.symm.trans hp')
    exact ⟨hprotocol, tcp, htcp⟩

theorem not_mistaken_nil {srcPort port : UInt16} : ¬ Mistaken srcPort port [] := by
  rintro ⟨before, datagram, after, h, -, -⟩
  exact absurd h.symm (by simp)

/-- The first datagram is mistaken, or it passes and a later one is. -/
theorem mistaken_cons_iff {srcPort port : UInt16} {datagram : List UInt8}
    {datagrams : List (List UInt8)} : Mistaken srcPort port (datagram :: datagrams) ↔
      LooksLikeReply srcPort port datagram ∨ Viewable datagram ∧ Mistaken srcPort port datagrams := by
  constructor
  · rintro ⟨before, found, after, h, hviewable, hlooks⟩
    cases before with
    | nil =>
      obtain ⟨rfl, -⟩ := List.cons.inj h
      exact .inl hlooks
    | cons first before =>
      obtain ⟨rfl, rfl⟩ := List.cons.inj h
      exact .inr ⟨hviewable _ List.mem_cons_self, before, found, after, rfl,
        fun d hd => hviewable d (List.mem_cons_of_mem _ hd), hlooks⟩
  · rintro (hlooks | ⟨hfirst, before, found, after, rfl, hviewable, hlooks⟩)
    · exact ⟨[], datagram, datagrams, rfl, fun d hd => absurd hd List.not_mem_nil, hlooks⟩
    · exact ⟨datagram :: before, found, after, rfl,
        List.forall_mem_cons.mpr ⟨hfirst, hviewable⟩, hlooks⟩

/-- A reply is never mistaken for one: its acknowledgement number, 12346, has a
zero where the protocol is looked for. -/
theorem ProbeReply.not_mistaken {target : Ipv4Addr} {srcPort port : UInt16}
    (reply : ProbeReply target srcPort port sweepSequence) :
    Viewable reply.ip.bytes ∧ ¬ LooksLikeReply srcPort port reply.ip.bytes := by
  obtain ⟨p, hp, hbytes⟩ := ipv4PacketIter_segment reply.segment
    (show 80 ≤ sweepBufferSize by decide)
  refine ⟨⟨p, hp⟩, ?_⟩
  rintro ⟨p', -, hp', hprotocol, -⟩
  obtain rfl := Except.ok.inj (hp.symm.trans hp')
  have hbyte : View.byte reply.tcp 9 = 0 :=
    TcpPacket.protocol_byte (reply.acknowledges.2 ▸ by decide)
  have hzero : p.nextLevelProtocol = 0 := (hbytes 9).trans hbyte
  exact absurd (hprotocol.symm.trans hzero) (by decide)

/-! ## What the probe returns -/

/-- The datagrams as the waits bring them, one after the other. -/
def brought (datagrams : List (Nat × List UInt8)) : List (Nat × Received) :=
  datagrams.map fun (now, bytes) => (now, .datagram bytes)

variable {srcPort port : UInt16} {deadline : Nat} {datagrams : List (Nat × List UInt8)}

/-- Over datagrams received in time the loop returns true iff it mistakes one. -/
theorem awaitAnswer_iff (hnow : ∀ d ∈ datagrams, d.1 < deadline) :
    awaitAnswer srcPort port deadline (brought datagrams) = .ok true ↔
      Mistaken srcPort port (datagrams.map Prod.snd) := by
  induction datagrams with
  | nil => exact iff_of_false (by simp [brought, awaitAnswer]) not_mistaken_nil
  | cons d datagrams ih =>
    obtain ⟨now, bytes⟩ := d
    obtain ⟨hfirst, hrest⟩ := List.forall_mem_cons.mp hnow
    rw [List.map_cons, mistaken_cons_iff, ← ih hrest]
    show awaitAnswer srcPort port deadline ((now, .datagram bytes) :: brought datagrams) = _ ↔ _
    rw [awaitAnswer, if_neg (Nat.not_le.mpr hfirst)]
    cases hp : ipv4PacketIter sweepBufferSize bytes with
    | error e => simp [hp, Viewable, LooksLikeReply, bind, Except.bind]
    | ok p =>
      have hviewable : Viewable bytes := ⟨p, hp⟩
      rw [← isAnswer_iff hp]
      cases hanswer : isAnswer srcPort port p <;>
        simp [hanswer, hviewable, bind, Except.bind, pure, Except.pure]

/-- What is mistaken for a reply of the target is none. -/
theorem mistaken_iff_other {datagrams : List (List UInt8)} {target : Ipv4Addr} :
    Mistaken srcPort port datagrams ↔ ∃ before other after, datagrams = before ++ other :: after ∧
      (∀ d ∈ before, Viewable d) ∧ LooksLikeReply srcPort port other ∧
        ¬ IsProbeReply target srcPort port other := by
  constructor
  · rintro ⟨before, other, after, h, hviewable, hlooks⟩
    refine ⟨before, other, after, h, hviewable, hlooks, ?_⟩
    rintro ⟨reply, rfl⟩
    exact reply.not_mistaken.2 hlooks
  · rintro ⟨before, other, after, h, hviewable, hlooks, -⟩
    exact ⟨before, other, after, h, hviewable, hlooks⟩

/-- **Liveness**: for every datagrams received before the deadline, the probe
returns true exactly when the target replied, iff there is neither a reply nor a
datagram that is mistaken for one, or there is a reply, and another datagram is
mistaken for one. -/
theorem tcpProbe_live_iff {start : Nat} (hnow : ∀ d ∈ datagrams, d.1 < start + sweepWait)
    (target : Ipv4Addr) :
    (tcpProbe srcPort port (some ⟨true, start, brought datagrams⟩) = .ok true ↔
        ∃ d ∈ datagrams, IsProbeReply target srcPort port d.2) ↔
      ((∀ d ∈ datagrams, ¬ IsProbeReply target srcPort port d.2) ∧
          ¬ Mistaken srcPort port (datagrams.map Prod.snd)) ∨
        ((∃ d ∈ datagrams, IsProbeReply target srcPort port d.2) ∧
          ∃ before other after, datagrams.map Prod.snd = before ++ other :: after ∧
            (∀ d ∈ before, Viewable d) ∧ LooksLikeReply srcPort port other ∧
              ¬ IsProbeReply target srcPort port other) := by
  have hprobe : tcpProbe srcPort port (some ⟨true, start, brought datagrams⟩) = .ok true ↔
      Mistaken srcPort port (datagrams.map Prod.snd) := awaitAnswer_iff hnow
  rw [hprobe]
  constructor
  · intro h
    by_cases hreply : ∃ d ∈ datagrams, IsProbeReply target srcPort port d.2
    · exact .inr ⟨hreply, mistaken_iff_other.mp (h.mpr hreply)⟩
    · exact .inl ⟨fun d hd hr => hreply ⟨d, hd, hr⟩, fun hmistaken => hreply (h.mp hmistaken)⟩
  · rintro (⟨hnone, hnot⟩ | ⟨hreply, hother⟩)
    · exact iff_of_false hnot fun ⟨d, hd, hr⟩ => hnone d hd hr
    · exact iff_of_true (mistaken_iff_other.mpr hother) hreply

/-! ## A reply, and a datagram that looks like one -/

/-- 192.168.1.10 answers from port 443 to port 51001 with a SYN+ACK. -/
def sampleProbeReply : ProbeReply ⟨192, 168, 1, 10⟩ 51001 443 sweepSequence where
  ip := ⟨[0x45, 0, 0, 40, 0, 0, 0x40, 0, 64, 6, 0, 0, 192, 168, 1, 10, 192, 168, 1, 20,
    0x01, 0xBB, 0xC7, 0x39, 0, 0, 0, 1, 0, 0, 0x30, 0x3A, 0x50, 0x12, 0xFF, 0xFF, 0, 0, 0, 0],
    by decide⟩
  tcp := ⟨[0x01, 0xBB, 0xC7, 0x39, 0, 0, 0, 1, 0, 0, 0x30, 0x3A, 0x50, 0x12, 0xFF, 0xFF,
    0, 0, 0, 0], by decide⟩
  segment := by decide
  version := by decide
  headerLength_ge := by decide
  protocol := by decide
  source := by decide
  ports := by decide
  acknowledges := by decide
  answers := by decide

/-- A datagram of 192.168.1.99 with a segment in the segment. -/
def lookalike : List UInt8 :=
  [0x45, 0, 0, 60, 0, 0, 0x40, 0, 64, 6, 0, 0, 192, 168, 1, 99, 192, 168, 1, 20,
    0x45, 0, 0, 40, 0, 0, 0, 0, 0, 6, 0, 0, 0, 0, 0, 0, 0, 0, 0, 0,
    0x01, 0xBB, 0xC7, 0x39, 0, 0, 0, 0, 0, 0, 0, 0, 0x50, 0x04, 0, 0, 0, 0, 0, 0]

/-- The segment in the segment has the probe's ports and RST. -/
theorem lookalike_looksLikeReply : LooksLikeReply 51001 443 lookalike := by
  obtain ⟨p, hp, hanswer⟩ : ∃ p, ipv4PacketIter sweepBufferSize lookalike = .ok p ∧
      isAnswer 51001 443 p = true := ⟨⟨lookalike.drop 20, by decide⟩, rfl, by decide⟩
  exact (isAnswer_iff hp).mp hanswer

/-- The target's reply alone is missed; a datagram of another host alone, which
is no reply, makes the target alive. -/
theorem tcpProbe_wrong_both_ways :
    tcpProbe 51001 443 (some ⟨true, 0, brought [(0, sampleProbeReply.ip.bytes)]⟩) = .ok false ∧
      IsProbeReply ⟨192, 168, 1, 10⟩ 51001 443 sampleProbeReply.ip.bytes ∧
      tcpProbe 51001 443 (some ⟨true, 0, brought [(0, lookalike)]⟩) = .ok true ∧
      ¬ IsProbeReply ⟨192, 168, 1, 10⟩ 51001 443 lookalike := by
  refine ⟨by decide, ⟨sampleProbeReply, rfl⟩, by decide, ?_⟩
  rintro ⟨reply, hbytes⟩
  exact reply.not_mistaken.2 (hbytes ▸ lookalike_looksLikeReply)

/-- Both arrive. -/
theorem tcpProbe_live_with_both :
    tcpProbe 51001 443
        (some ⟨true, 0, brought [(0, sampleProbeReply.ip.bytes), (1000, lookalike)]⟩) = .ok true ↔
      ∃ d ∈ [(0, sampleProbeReply.ip.bytes), (1000, lookalike)],
        IsProbeReply ⟨192, 168, 1, 10⟩ 51001 443 d.2 := by
  have hnow : ∀ d ∈ [(0, sampleProbeReply.ip.bytes), (1000, lookalike)],
      d.1 < 0 + sweepWait := by decide
  refine (tcpProbe_live_iff hnow ⟨192, 168, 1, 10⟩).mpr (.inr ⟨?_, ?_⟩)
  · exact ⟨_, List.mem_cons_self, sampleProbeReply, rfl⟩
  · exact mistaken_iff_other.mp ⟨[_], lookalike, [], rfl,
      List.forall_mem_singleton.mpr sampleProbeReply.not_mistaken.1, lookalike_looksLikeReply⟩

end Gannet
