import Mathlib.Data.Finset.Card
import Gannet.Discovery.Targets
import Gannet.Identity.Device
import Gannet.Net.PacketWriter

/-!
# Counting the hosts of a subnet (arp.rs, sweep.rs, survey.rs)

`probe_subnet_for_hosts` sweeps a subnet and, if a host answered, scans it with
ARP. It returns the larger of two sizes: that of the set of addresses that
answered the sweep, and that of the set of address pairs in the ARP replies that
came in on the interface, whatever subnet they are from. The survey probes all
its subnets at once, so every probe also hears the replies to the others.

- `scanSubnet_eq`: the ARP scan records the pairs of the replies it hears, all of
  them.
- `host_count_iff`: where the replies heard are the subnet's, one for an address,
  the number is that of its hosts that answered, or one of the two sets has not all
  of these; and there it is iff one of them has all.
-/

namespace Gannet

open Bytes Machine

/-! ## The ARP scan -/

namespace Arp

/-- What the receiver thread sends for a frame: the sender of an ARP reply. -/
def replyOf (frame : List UInt8) : Option ArpEntry :=
  match EthernetPacket.new frame with
  | none => none
  | some ethernet =>
    if ethernet.ethertype = EtherTypes.arp then
      match ArpPacket.new ethernet.payload with
      | none => none
      | some arp =>
        if arp.operation = ArpOperations.reply then
          some ⟨arp.senderProtoAddr, arp.senderHwAddr⟩
        else none
    else none

/-- An ARP frame from its sender. -/
def arpFrame (destination : MacAddr6) (operation : UInt8) (sender target : ArpEntry) :
    List UInt8 :=
  destination.asBytes ++ sender.mac.asBytes ++ [0x08, 0x06] ++
    ([0, 1, 0x08, 0, 6, 4, 0, operation] ++ sender.mac.asBytes ++ sender.ip.octets ++
      target.mac.asBytes ++ target.ip.octets)

/-- What ends the wait of a round: an entry in the channel, 50 ms, or the hard
deadline. -/
inductive Wake where
  | received (lastSeen : Nat)
  | tick
  | expired
deriving DecidableEq, Repr

/-- A round of the receive loop, with the time it starts at, in ms since the
loop did. -/
structure Round where
  now : Nat
  wake : Wake
deriving DecidableEq, Repr

/-- The loop of `receive_arp_responses` on the entries sent: those it leaves in
the channel, and the set it fills. -/
def receiveLoop (hardCap quietWindow : Nat) :
    List Round → Option Nat → List ArpEntry → Finset ArpEntry → List ArpEntry × Finset ArpEntry
  | [], _, sent, entries => (sent, entries)
  | round :: rounds, lastSeen, sent, entries =>
    if hardCap ≤ round.now then (sent, entries)
    else if lastSeen.any fun t => quietWindow ≤ round.now - t then (sent, entries)
    else
      match round.wake, sent with
      | .received now, entry :: sent =>
        receiveLoop hardCap quietWindow rounds (some now) sent (insert entry entries)
      -- an empty channel does not end the wait
      | .received _, [] => receiveLoop hardCap quietWindow rounds lastSeen [] entries
      | .tick, sent => receiveLoop hardCap quietWindow rounds lastSeen sent entries
      | .expired, sent => (sent, entries)

/-- An interface with what it needs to send requests. -/
structure Interface where
  sourceIp : Option Ipv4Addr
  mac : Option MacAddr6
deriving DecidableEq, Repr

/-- What an ARP scan meets: its interface, the frames its receiver reads, the
rounds of the loop, how many entries are in the channel after it, and whether
the set arrives before the scan's own timeout. -/
structure Scan where
  interface : Option Interface
  frames : List (List UInt8)
  rounds : List Round
  queued : Nat
  joined : Bool
deriving DecidableEq, Repr

/-- The replies the receiver thread reads. -/
def Scan.sent (scan : Scan) : List ArpEntry := scan.frames.filterMap replyOf

/-- The entries still in the channel when the loop ends. -/
def Scan.left (hardCap quietWindow : Nat) (scan : Scan) : List ArpEntry :=
  (receiveLoop hardCap quietWindow scan.rounds none scan.sent ∅).1

/-- The replies that a complete scan hears: all that are read, but for the last ones that
come into the channel too late. -/
def Scan.heard (scan : Scan) : List ArpEntry :=
  match scan.interface with
  | some ⟨some _, some _⟩ =>
    if scan.joined then
      scan.sent.take (scan.sent.length - ((scan.left 10000 2500).length - scan.queued))
    else []
  | _ => []

/-- `receive_arp_responses` -/
def receiveArpResponses (hardCap quietWindow : Nat) (scan : Scan) : Finset ArpEntry :=
  let sent := scan.frames.filterMap replyOf
  let (left, entries) := receiveLoop hardCap quietWindow scan.rounds none sent ∅
  (left.take scan.queued).foldl (fun entries entry => insert entry entries) entries

/-- `sweep_targets`: whom the scan asks again. -/
def sweepTargets (profile : Profile) (subnet : Ipv4Addr) (prefixLen : UInt8)
    (found : List Ipv4Addr) : Except Panic (List Ipv4Addr) := do
  return (← subnetIter profile subnet prefixLen).filter fun ip => !found.contains ip

/-- `scan_subnet`, as a set: it returns the entries sorted by address. What it
sends to the targets shows in the frames that come back. -/
def scanSubnet (profile : Profile) (subnet : Ipv4Addr) (prefixLen : UInt8) (scan : Scan) :
    Except Panic (Finset ArpEntry) :=
  match scan.interface with
  | none => .ok ∅
  | some interface =>
    match interface.sourceIp, interface.mac with
    | none, _ => .ok ∅
    | some _, none => .ok ∅
    | some sourceIp, some _ => do
      let _targets ← subnetIter profile subnet prefixLen
      let _retryTargets ← sweepTargets profile subnet prefixLen [sourceIp]
      return if scan.joined then receiveArpResponses 10000 2500 scan else ∅

/-- The loop takes the first entries out of the channel, into the set. -/
theorem receiveLoop_spec (hardCap quietWindow : Nat) (rounds : List Round)
    (lastSeen : Option Nat) (sent : List ArpEntry) (entries : Finset ArpEntry) :
    ∃ heard left, sent = heard ++ left ∧
      receiveLoop hardCap quietWindow rounds lastSeen sent entries
        = (left, entries ∪ heard.toFinset) := by
  induction rounds generalizing lastSeen sent entries with
  | nil => exact ⟨[], sent, rfl, by rw [List.toFinset_nil, Finset.union_empty]; rfl⟩
  | cons round rounds ih =>
    unfold receiveLoop
    have hstop : ∃ heard left, sent = heard ++ left ∧
        (sent, entries) = (left, entries ∪ heard.toFinset) :=
      ⟨[], sent, rfl, by rw [List.toFinset_nil, Finset.union_empty]⟩
    by_cases hcap : hardCap ≤ round.now
    · rw [if_pos hcap]
      exact hstop
    rw [if_neg hcap]
    by_cases hquiet : lastSeen.any fun t => quietWindow ≤ round.now - t
    · rw [if_pos hquiet]
      exact hstop
    rw [if_neg hquiet]
    cases round.wake with
    | tick => exact ih lastSeen sent entries
    | expired => exact hstop
    | received now =>
      cases sent with
      | nil => exact ih lastSeen [] entries
      | cons entry sent =>
        obtain ⟨heard, left, rfl, hloop⟩ := ih (some now) sent (insert entry entries)
        refine ⟨entry :: heard, left, rfl, ?_⟩
        dsimp only
        rw [hloop, List.toFinset_cons, Finset.insert_union, Finset.union_insert]

/-- Entries taken one after the other make their set. -/
theorem foldl_insert_eq (sent : List ArpEntry) (entries : Finset ArpEntry) :
    sent.foldl (fun entries entry => insert entry entries) entries = entries ∪ sent.toFinset := by
  induction sent generalizing entries with
  | nil => exact (Finset.union_empty entries).symm
  | cons entry sent ih =>
    rw [List.foldl_cons, ih, List.toFinset_cons, Finset.insert_union, Finset.union_insert]

/-- What is recorded are the first of the replies that were read. -/
theorem receiveArpResponses_eq (hardCap quietWindow : Nat) (scan : Scan) :
    receiveArpResponses hardCap quietWindow scan = (scan.sent.take
      (scan.sent.length - ((scan.left hardCap quietWindow).length - scan.queued))).toFinset := by
  obtain ⟨taken, left, hsent, hloop⟩ :=
    receiveLoop_spec hardCap quietWindow scan.rounds none scan.sent ∅
  have hleft : scan.left hardCap quietWindow = left := congrArg Prod.fst hloop
  have hrecorded : scan.sent.take (scan.sent.length - (left.length - scan.queued))
      = taken ++ left.take scan.queued := by
    rw [hsent, List.length_append, ← List.take_length_add_append]
    by_cases hall : left.length ≤ scan.queued
    · rw [List.take_of_length_le (by rw [List.length_append]; omega),
        List.take_of_length_le (by rw [List.length_append]; omega)]
    · exact congrArg (fun n => (taken ++ left).take n) (by omega)
  rw [hleft, hrecorded]
  show (let (left, entries) :=
      receiveLoop hardCap quietWindow scan.rounds none scan.sent ∅
    (left.take scan.queued).foldl (fun entries entry => insert entry entries) entries) = _
  rw [hloop]
  dsimp only
  rw [foldl_insert_eq, Finset.empty_union, List.toFinset_append]

/-- Only what was sent is heard. -/
theorem Scan.heard_subset {scan : Scan} : scan.heard ⊆ scan.sent := by
  intro entry hentry
  unfold Scan.heard at hentry
  split at hentry
  · split_ifs at hentry with hjoined
    · exact List.mem_of_mem_take hentry
    · cases hentry
  · cases hentry

/-- A scan stops in no build, and records the replies it hears. -/
theorem scanSubnet_eq (profile : Profile) (subnet : Ipv4Addr) {prefixLen : UInt8}
    (hle : prefixLen ≤ 32) (hpos : prefixLen ≠ 0) (scan : Scan) :
    scanSubnet profile subnet prefixLen scan = .ok scan.heard.toFinset := by
  unfold scanSubnet Scan.heard
  rcases scan.interface with _ | ⟨_ | sourceIp, mac⟩
  · rfl
  · rfl
  cases mac with
  | none => rfl
  | some mac =>
    obtain ⟨targets, htargets, -⟩ := subnetIter_spec profile subnet hle hpos
    simp only [sweepTargets, htargets, bind, Except.bind]
    by_cases hjoined : scan.joined = true
    · rw [if_pos hjoined, if_pos hjoined, receiveArpResponses_eq]
      rfl
    · rw [if_neg hjoined, if_neg hjoined]
      rfl

end Arp

/-! ## The sweep -/

/-- `sweep_subnet`, by the outcomes of `probe_host`. -/
def Sweep.sweepSubnet (profile : Profile) (subnet : Ipv4Addr) (prefixLen : UInt8)
    (known : List Ipv4Addr) (srcIp : Option Ipv4Addr) (probeHost : Ipv4Addr → Bool) :
    Except Panic (Finset Ipv4Addr) :=
  match srcIp with
  | none => .ok ∅
  | some srcIp => do
    let targets ← Sweep.targets profile subnet prefixLen known srcIp
    return (targets.filter probeHost).toFinset

/-- The sweep finds the hosts that answer, among the addresses it probes. -/
theorem Sweep.sweepSubnet_spec (profile : Profile) (subnet : Ipv4Addr) {prefixLen : UInt8}
    (hle : prefixLen ≤ 32) (hpos : prefixLen ≠ 0) (known : List Ipv4Addr)
    (srcIp : Option Ipv4Addr) (probeHost : Ipv4Addr → Bool) :
    ∃ found, Sweep.sweepSubnet profile subnet prefixLen known srcIp probeHost = .ok found ∧
      ∀ ip, ip ∈ found ↔ (ip.topBits prefixLen = subnet.topBits prefixLen ∧
        ip.hasHostOctet = true ∧ ip ∉ known ∧ ∃ src, srcIp = some src ∧ ip ≠ src) ∧
          probeHost ip = true := by
  cases srcIp with
  | none =>
    refine ⟨∅, rfl, fun ip => iff_of_false (Finset.notMem_empty ip) ?_⟩
    rintro ⟨⟨-, -, -, src, hsrc, -⟩, -⟩
    cases hsrc
  | some srcIp =>
    obtain ⟨targets, htargets, hlists⟩ :=
      Sweep.targets_spec profile subnet hle hpos known srcIp
    refine ⟨(targets.filter probeHost).toFinset, ?_, fun ip => ?_⟩
    · simp only [sweepSubnet, htargets, bind, Except.bind]
      rfl
    · rw [List.mem_toFinset, List.mem_filter, hlists.mem]
      refine and_congr_left fun _ => and_congr_right fun _ => and_congr_right fun _ =>
        and_congr_right fun _ => ⟨fun hne => ⟨srcIp, rfl, hne⟩, ?_⟩
      rintro ⟨src, hsrc, hne⟩
      exact Option.some.inj hsrc ▸ hne

/-! ## The probe -/

namespace Survey

/-- What the probe of a subnet meets: its own address, the hosts that answer its
sweep, its ARP scan, and all frames that arrive while it runs. -/
structure Probe where
  srcIp : Option Ipv4Addr
  probeHost : Ipv4Addr → Bool
  scan : Arp.Scan
  arrived : List (List UInt8)
  read_arrived : scan.frames ⊆ arrived

/-- `probe_subnet_for_hosts` -/
def probeSubnetForHosts (profile : Profile) (network : Ipv4Addr) (prefixLen : UInt8)
    (verbose : Bool) (probe : Probe) : Except Panic (Option Nat) :=
  if prefixLen < 24 ∨ 30 < prefixLen then .ok none
  else do
    let found ← Sweep.sweepSubnet profile network prefixLen [] probe.srcIp probe.probeHost
    let count := found.card
    if 0 < count ∨ verbose then
      let arpResults ← Arp.scanSubnet profile network prefixLen probe.scan
      return some (max count arpResults.card)
    else return some 0

/-- The pairs of all ARP replies that arrive. -/
def Probe.replies (probe : Probe) : Finset ArpEntry :=
  (probe.arrived.filterMap Arp.replyOf).toFinset

/-- The address is probed, and answers the sweep. -/
def Probe.Swept (probe : Probe) (network : Ipv4Addr) (prefixLen : UInt8) (ip : Ipv4Addr) : Prop :=
  ip.topBits prefixLen = network.topBits prefixLen ∧ ip.hasHostOctet = true ∧
    (∃ src, probe.srcIp = some src ∧ ip ≠ src) ∧ probe.probeHost ip = true

/-- The address is one of the subnet, and an ARP reply from it arrives. -/
def Probe.Replied (probe : Probe) (network : Ipv4Addr) (prefixLen : UInt8) (ip : Ipv4Addr) :
    Prop :=
  ip.topBits prefixLen = network.topBits prefixLen ∧ ∃ entry ∈ probe.replies, entry.ip = ip

/-- The replies that are heard are from the subnet, and no two of them from one address. -/
structure Probe.HearsSubnet (probe : Probe) (network : Ipv4Addr) (prefixLen : UInt8) : Prop where
  inside : ∀ entry ∈ probe.scan.heard, entry.ip.topBits prefixLen = network.topBits prefixLen
  one_mac : ∀ entry ∈ probe.scan.heard, ∀ entry' ∈ probe.scan.heard, entry.ip = entry'.ip →
    entry = entry'

/-- If the ARP scan runs, it hears only the subnet and one reply from an address; and every
host that replied answered the sweep too, or every host that answered in any way was heard.
Otherwise no host replied. -/
structure Probe.CountsHosts (probe : Probe) (network : Ipv4Addr) (prefixLen : UInt8)
    (verbose : Bool) : Prop where
  scanned : (∃ ip, probe.Swept network prefixLen ip) ∨ verbose = true →
    probe.HearsSubnet network prefixLen ∧
      ((∀ ip, probe.Replied network prefixLen ip → probe.Swept network prefixLen ip) ∨
        ∀ ip, probe.Swept network prefixLen ip ∨ probe.Replied network prefixLen ip →
          ∃ entry ∈ probe.scan.heard, entry.ip = ip)
  unscanned : ¬ ((∃ ip, probe.Swept network prefixLen ip) ∨ verbose = true) →
    ∀ ip, ¬ probe.Replied network prefixLen ip

variable {network : Ipv4Addr} {prefixLen : UInt8} {probe : Probe}

/-- Only what arrives is heard. -/
theorem Probe.heard_subset : probe.scan.heard.toFinset ⊆ probe.replies := by
  intro entry hentry
  obtain ⟨frame, hframe, hreply⟩ :=
    List.mem_filterMap.mp (Arp.Scan.heard_subset (List.mem_toFinset.mp hentry))
  exact List.mem_toFinset.mpr
    (List.mem_filterMap.mpr ⟨frame, probe.read_arrived hframe, hreply⟩)

/-- Addresses of a subnet are no more than its block has. -/
theorem card_le_block (network : Ipv4Addr) {ips : Finset Ipv4Addr}
    (hips : ∀ ip ∈ ips, ip.topBits prefixLen = network.topBits prefixLen) :
    ips.card ≤ 2 ^ (32 - prefixLen.toNat) := by
  have hpos := Nat.two_pow_pos (32 - prefixLen.toNat)
  refine (Finset.card_le_card_of_injOn (t := Finset.range (2 ^ (32 - prefixLen.toNat)))
    (fun ip => ip.toU32.toNat % 2 ^ (32 - prefixLen.toNat)) ?_ ?_).trans_eq
    (Finset.card_range _)
  · exact fun ip _ => Finset.mem_coe.mpr (Finset.mem_range.mpr (Nat.mod_lt _ hpos))
  · intro ip hip ip' hip' hmod
    have htop := (hips ip hip).trans (hips ip' hip').symm
    refine Ipv4Addr.toU32_inj (UInt32.toNat_inj.mp ?_)
    rw [← Nat.div_add_mod ip.toU32.toNat (2 ^ (32 - prefixLen.toNat)),
      ← Nat.div_add_mod ip'.toU32.toNat (2 ^ (32 - prefixLen.toNat))]
    exact congrArg₂ (fun q r => _ * q + r) htop hmod

/-- When the larger of two sizes is that of the union: one of the sets has it all. -/
theorem max_card_eq_iff {α : Type} [DecidableEq α] {s t all : Finset α} (hs : s ⊆ all)
    (ht : t ⊆ all) : max s.card t.card = all.card ↔ all ⊆ s ∨ all ⊆ t := by
  constructor
  · intro hmax
    rcases max_choice s.card t.card with hleft | hright
    · exact .inl (Finset.eq_of_subset_of_card_le hs (by omega)).ge
    · exact .inr (Finset.eq_of_subset_of_card_le ht (by omega)).ge
  · have hsle := Finset.card_le_card hs
    have htle := Finset.card_le_card ht
    rintro (hall | hall)
    · have hle := Finset.card_le_card hall
      omega
    · have hle := Finset.card_le_card hall
      omega

/-- What the probe returns, of what its sweep finds and its scan hears. -/
theorem probeSubnetForHosts_spec (profile : Profile) (network : Ipv4Addr) {prefixLen : UInt8}
    (hlo : 24 ≤ prefixLen) (hhi : prefixLen ≤ 30) (verbose : Bool) (probe : Probe) :
    ∃ found,
      Sweep.sweepSubnet profile network prefixLen [] probe.srcIp probe.probeHost = .ok found ∧
      Arp.scanSubnet profile network prefixLen probe.scan = .ok probe.scan.heard.toFinset ∧
      (∀ ip, ip ∈ found ↔ probe.Swept network prefixLen ip) ∧
      probeSubnetForHosts profile network prefixLen verbose probe
        = .ok (some (if found.Nonempty ∨ verbose = true then
            max found.card probe.scan.heard.toFinset.card else 0)) := by
  have hle : prefixLen ≤ 32 := UInt8.le_trans hhi (by decide)
  have hpos : prefixLen ≠ 0 := by
    rintro rfl
    exact absurd hlo (by decide)
  have hrange : ¬ (prefixLen < 24 ∨ 30 < prefixLen) := by
    rintro (h | h)
    · exact UInt8.not_lt.mpr hlo h
    · exact UInt8.not_lt.mpr hhi h
  obtain ⟨found, hfound, hswept⟩ := Sweep.sweepSubnet_spec profile network hle hpos []
    probe.srcIp probe.probeHost
  have hheard := Arp.scanSubnet_eq profile network hle hpos probe.scan
  refine ⟨found, hfound, hheard, fun ip => ?_, ?_⟩
  · rw [hswept, Probe.Swept]
    simp only [List.not_mem_nil, not_false_eq_true, true_and, and_assoc]
  simp only [probeSubnetForHosts, if_neg hrange, hfound, hheard, bind, Except.bind,
    Finset.card_pos]
  by_cases hscan : found.Nonempty ∨ verbose = true
  · rw [if_pos hscan, if_pos hscan]
    rfl
  · rw [if_neg hscan, if_neg hscan]
    rfl

/-- Of replies from the subnet, one from an address, there are as many as addresses. -/
theorem Probe.HearsSubnet.card_eq (h : probe.HearsSubnet network prefixLen) :
    (probe.scan.heard.toFinset.image ArpEntry.ip).card = probe.scan.heard.toFinset.card := by
  refine Finset.card_image_of_injOn fun entry hentry entry' hentry' hip => ?_
  exact h.one_mac entry (List.mem_toFinset.mp hentry) entry' (List.mem_toFinset.mp hentry') hip

/-- With such replies the number is right iff one of the two sets has every host. -/
theorem Probe.HearsSubnet.count_iff {found hosts : Finset Ipv4Addr}
    (hears : probe.HearsSubnet network prefixLen)
    (hswept : ∀ ip, ip ∈ found ↔ probe.Swept network prefixLen ip)
    (hhosts : ∀ ip, ip ∈ hosts ↔
      probe.Swept network prefixLen ip ∨ probe.Replied network prefixLen ip) :
    max found.card probe.scan.heard.toFinset.card = hosts.card ↔
      (∀ ip, probe.Replied network prefixLen ip → probe.Swept network prefixLen ip) ∨
        ∀ ip, probe.Swept network prefixLen ip ∨ probe.Replied network prefixLen ip →
          ∃ entry ∈ probe.scan.heard, entry.ip = ip := by
  have hfound : found ⊆ hosts := fun ip hip => (hhosts ip).mpr (.inl ((hswept ip).mp hip))
  have hheard : probe.scan.heard.toFinset.image ArpEntry.ip ⊆ hosts := by
    intro ip hip
    obtain ⟨entry, hentry, rfl⟩ := Finset.mem_image.mp hip
    exact (hhosts _).mpr (.inr ⟨hears.inside entry (List.mem_toFinset.mp hentry), entry,
      Probe.heard_subset hentry, rfl⟩)
  rw [← hears.card_eq, max_card_eq_iff hfound hheard]
  refine or_congr ⟨fun hall ip hip => ?_, fun hall ip hip => ?_⟩
    ⟨fun hall ip hip => ?_, fun hall ip hip => ?_⟩
  · exact (hswept ip).mp (hall ((hhosts ip).mpr (.inr hip)))
  · exact (hswept ip).mpr (((hhosts ip).mp hip).elim id (hall ip))
  · obtain ⟨entry, hentry, hsame⟩ := Finset.mem_image.mp (hall ((hhosts ip).mpr hip))
    exact ⟨entry, List.mem_toFinset.mp hentry, hsame⟩
  · obtain ⟨entry, hentry, hsame⟩ := hall ip ((hhosts ip).mp hip)
    exact Finset.mem_image.mpr ⟨entry, List.mem_toFinset.mpr hentry, hsame⟩

/-- **Host counts**: in both builds, for every network of prefix 24 to 30 and whatever
answers and arrives, the number of the subnet's addresses that answered the sweep or ARP is
returned, and fits the block, if `CountsHosts` holds; and where the replies heard are from
the subnet, one from an address, only then. -/
theorem host_count_iff (profile : Profile) (network : Ipv4Addr) {prefixLen : UInt8}
    (hlo : 24 ≤ prefixLen) (hhi : prefixLen ≤ 30) (verbose : Bool) (probe : Probe) :
    ∃ hosts : Finset Ipv4Addr,
      (∀ ip, ip ∈ hosts ↔ probe.Swept network prefixLen ip ∨ probe.Replied network prefixLen ip) ∧
      (probe.CountsHosts network prefixLen verbose →
        probeSubnetForHosts profile network prefixLen verbose probe = .ok (some hosts.card) ∧
          hosts.card ≤ 2 ^ (32 - prefixLen.toNat)) ∧
      (probe.HearsSubnet network prefixLen →
        probeSubnetForHosts profile network prefixLen verbose probe = .ok (some hosts.card) →
          probe.CountsHosts network prefixLen verbose) := by
  obtain ⟨found, -, -, hswept, hprobe⟩ :=
    probeSubnetForHosts_spec profile network hlo hhi verbose probe
  let replied := (probe.replies.image ArpEntry.ip).filter fun ip =>
    ip.topBits prefixLen = network.topBits prefixLen
  have hreplied : ∀ ip, ip ∈ replied ↔ probe.Replied network prefixLen ip := fun ip => by
    rw [Finset.mem_filter, Finset.mem_image, and_comm, Probe.Replied]
  have hhosts : ∀ ip, ip ∈ found ∪ replied ↔
      probe.Swept network prefixLen ip ∨ probe.Replied network prefixLen ip := fun ip => by
    rw [Finset.mem_union, hswept, hreplied]
  have hblock : (found ∪ replied).card ≤ 2 ^ (32 - prefixLen.toNat) := by
    refine card_le_block network fun ip hip => ?_
    exact ((hhosts ip).mp hip).elim (fun h => h.1) (fun h => h.1)
  have hscan : found.Nonempty ↔ ∃ ip, probe.Swept network prefixLen ip :=
    exists_congr hswept
  refine ⟨found ∪ replied, hhosts, fun hcounts => ⟨?_, hblock⟩, fun hears hcount => ?_⟩
  · rw [hprobe]
    by_cases hruns : found.Nonempty ∨ verbose = true
    · obtain ⟨hears, hall⟩ := hcounts.scanned (hruns.imp_left hscan.mp)
      rw [if_pos hruns, (hears.count_iff hswept hhosts).mpr hall]
    · have hnone : found ∪ replied = ∅ := by
        refine Finset.eq_empty_of_forall_notMem fun ip hip => ?_
        rcases (hhosts ip).mp hip with hsweep | hreply
        · exact hruns (.inl ⟨ip, (hswept ip).mpr hsweep⟩)
        · exact hcounts.unscanned (fun h => hruns (h.imp_left hscan.mpr)) ip hreply
      rw [if_neg hruns, hnone, Finset.card_empty]
  · rw [hprobe] at hcount
    have hcard := Option.some.inj (Except.ok.inj hcount)
    refine ⟨fun hruns => ⟨hears, ?_⟩, fun hruns ip hreply => ?_⟩
    · rw [if_pos (hruns.imp_left hscan.mpr)] at hcard
      exact (hears.count_iff hswept hhosts).mp hcard
    · rw [if_neg (fun h => hruns (h.imp_left hscan.mp))] at hcard
      have hnone := Finset.card_eq_zero.mp hcard.symm
      exact Finset.notMem_empty ip (hnone ▸ (hhosts ip).mpr (.inr hreply))

/-- An ARP reply of the host to 10.0.0.6. -/
def replyFrame (host : ArpEntry) : List UInt8 :=
  Arp.arpFrame ⟨2, 0, 0, 0, 0, 6⟩ 2 host ⟨⟨10, 0, 0, 6⟩, ⟨2, 0, 0, 0, 0, 6⟩⟩

/-- 10.0.0.5 answers the sweep of 10.0.0.4/30, and these pairs are heard. -/
def probeHearing (entries : List ArpEntry) : Probe where
  srcIp := some ⟨10, 0, 0, 6⟩
  probeHost := fun ip => ip = ⟨10, 0, 0, 5⟩
  scan := {
    interface := some ⟨some ⟨10, 0, 0, 6⟩, some ⟨2, 0, 0, 0, 0, 6⟩⟩
    frames := entries.map replyFrame
    rounds := entries.map fun _ => ⟨100, .received 100⟩
    queued := 0
    joined := true }
  arrived := entries.map replyFrame
  read_arrived := List.Subset.refl _

/-- Five hosts of another subnet. -/
def otherHosts : List ArpEntry :=
  (List.range 5).map fun i => ⟨⟨10, 0, 1, .ofNat (i + 1)⟩, ⟨2, 0, 0, 0, 1, .ofNat (i + 1)⟩⟩

/-- One address answers the sweep. -/
theorem swept_probeHearing (entries : List ArpEntry) (ip : Ipv4Addr) :
    (probeHearing entries).Swept ⟨10, 0, 0, 4⟩ 30 ip ↔ ip = ⟨10, 0, 0, 5⟩ := by
  constructor
  · rintro ⟨-, -, -, hanswers⟩
    exact of_decide_eq_true hanswers
  · rintro rfl
    exact ⟨by decide, by decide, ⟨⟨10, 0, 0, 6⟩, rfl, by decide⟩,
      show decide ((⟨10, 0, 0, 5⟩ : Ipv4Addr) = ⟨10, 0, 0, 5⟩) = true from by decide⟩

/-- They reply to the probe of their own subnet: five hosts are counted among the
four addresses of 10.0.0.4/30, where one answered the sweep and none replied. -/
theorem host_count_of_others :
    probeSubnetForHosts .release ⟨10, 0, 0, 4⟩ 30 false (probeHearing otherHosts) = .ok (some 5) ∧
      (∀ ip, (probeHearing otherHosts).Swept ⟨10, 0, 0, 4⟩ 30 ip ↔ ip = ⟨10, 0, 0, 5⟩) ∧
      (∀ ip, ¬ (probeHearing otherHosts).Replied ⟨10, 0, 0, 4⟩ 30 ip) ∧
      ¬ 5 ≤ 2 ^ (32 - (30 : UInt8).toNat) := by
  refine ⟨by decide +kernel, swept_probeHearing otherHosts, ?_, by decide⟩
  have houtside : ∀ entry ∈ (probeHearing otherHosts).replies,
      entry.ip.topBits 30 ≠ (⟨10, 0, 0, 4⟩ : Ipv4Addr).topBits 30 := by decide +kernel
  rintro ip ⟨htop, entry, hentry, rfl⟩
  exact houtside entry hentry htop

/-- Two hosts of the subnet, of which one does not answer the sweep. -/
def ownHosts : List ArpEntry :=
  [⟨⟨10, 0, 0, 5⟩, ⟨2, 0, 0, 0, 0, 5⟩⟩, ⟨⟨10, 0, 0, 7⟩, ⟨2, 0, 0, 0, 0, 7⟩⟩]

/-- Both replies are heard. -/
theorem replies_ownHosts : (probeHearing ownHosts).scan.heard = ownHosts ∧
    (probeHearing ownHosts).replies = ownHosts.toFinset := by decide +kernel

/-- Both reply, and are heard. -/
theorem countsHosts_ownHosts : (probeHearing ownHosts).CountsHosts ⟨10, 0, 0, 4⟩ 30 false where
  scanned := by
    intro _
    obtain ⟨hheard, hreplies⟩ := replies_ownHosts
    refine ⟨⟨?_, ?_⟩, .inr fun ip hip => ?_⟩
    · rw [hheard]
      decide
    · rw [hheard]
      decide
    · rw [hheard]
      rcases hip with hswept | ⟨-, entry, hentry, hsame⟩
      · rw [(swept_probeHearing _ _).mp hswept]
        exact ⟨_, List.mem_cons_self, rfl⟩
      · rw [hreplies, List.mem_toFinset] at hentry
        exact ⟨entry, hentry, hsame⟩
  unscanned := fun hruns =>
    absurd (.inl ⟨⟨10, 0, 0, 5⟩, (swept_probeHearing _ _).mpr rfl⟩) hruns

/-- One host answers the sweep and ARP, the other ARP alone. -/
theorem host_count_of_two :
    probeSubnetForHosts .release ⟨10, 0, 0, 4⟩ 30 false (probeHearing ownHosts) = .ok (some 2) ∧
      ∃ hosts : Finset Ipv4Addr, hosts.card = 2 ∧ ∀ ip, ip ∈ hosts ↔
        (probeHearing ownHosts).Swept ⟨10, 0, 0, 4⟩ 30 ip ∨
          (probeHearing ownHosts).Replied ⟨10, 0, 0, 4⟩ 30 ip := by
  have htwo : probeSubnetForHosts .release ⟨10, 0, 0, 4⟩ 30 false (probeHearing ownHosts)
      = .ok (some 2) := by decide +kernel
  obtain ⟨hosts, hmem, hcount, -⟩ := host_count_iff .release ⟨10, 0, 0, 4⟩
    (show 24 ≤ (30 : UInt8) by decide) (by decide) false (probeHearing ownHosts)
  obtain ⟨hreturned, -⟩ := hcount countsHosts_ownHosts
  exact ⟨htwo, hosts, (Option.some.inj (Except.ok.inj (htwo.symm.trans hreturned))).symm, hmem⟩

end Survey

end Gannet
