import Gannet.Discovery.HostCount
import Gannet.Identity.StoreSteps

/-!
# What a survey records (survey.rs, commands.rs)

A survey probes its candidate subnets and lists what it found: of the hosts of a
subnet only their number. The command then upserts, for every subnet with a host,
a device at the network address.

- `recordSurvey_changed`: the store changes only where it holds one of these
  devices' records.
- `survey_records_iff`: every one of them is about an address that answered, and
  none is created for a network address, iff the network address of every subnet
  with a host answered and has a record already.
-/

namespace Gannet

open Machine Function

namespace Survey

/-! ## The survey -/

/-- `SubnetSource`: how a subnet came to be a candidate. -/
inductive SubnetSource where
  | gatewayRoute
  | dhcpOffer
  | upnpDiscovery
  | adjacentSweep
  | commonPrivate
deriving DecidableEq, Repr

/-- `DiscoveredSubnet` -/
structure DiscoveredSubnet where
  network : Ipv4Addr
  prefixLen : UInt8
  hostCount : Option Nat
  source : SubnetSource
  gateway : Option Ipv4Addr
deriving DecidableEq, Repr

/-- A subnet to be probed, with its gateway if one is known, and what its probe
meets. -/
structure Candidate where
  network : Ipv4Addr
  prefixLen : UInt8
  source : SubnetSource
  gateway : Option Ipv4Addr
  probe : Probe

/-- The entry for a candidate; a task that stops has none. -/
def Candidate.discovered (profile : Profile) (verbose : Bool) (candidate : Candidate) :
    Option DiscoveredSubnet :=
  match probeSubnetForHosts profile candidate.network candidate.prefixLen verbose
      candidate.probe with
  | .ok hostCount => some {
      network := candidate.network
      prefixLen := candidate.prefixLen
      hostCount := hostCount
      source := candidate.source
      gateway := candidate.gateway }
  | .error _ => none

/-- The key the subnets are sorted by. -/
def sourceRank : SubnetSource → Nat
  | .gatewayRoute => 0
  | .dhcpOffer => 1
  | .upnpDiscovery => 2
  | .adjacentSweep => 3
  | .commonPrivate => 4

/-- `survey`, on its candidates in the order in which their probes end. -/
def survey (profile : Profile) (verbose : Bool) (candidates : List Candidate) :
    List DiscoveredSubnet :=
  (candidates.filterMap (Candidate.discovered profile verbose)).mergeSort fun a b =>
    sourceRank a.source ≤ sourceRank b.source

/-- The address is in the set a sweep found or in the result of an ARP scan. -/
def Candidate.Answered (profile : Profile) (verbose : Bool) (candidate : Candidate)
    (ip : Ipv4Addr) : Prop :=
  24 ≤ candidate.prefixLen ∧ candidate.prefixLen ≤ 30 ∧
    ∃ found, Sweep.sweepSubnet profile candidate.network candidate.prefixLen []
        candidate.probe.srcIp candidate.probe.probeHost = .ok found ∧
      (ip ∈ found ∨ (found.Nonempty ∨ verbose = true) ∧
        ∃ heard, Arp.scanSubnet profile candidate.network candidate.prefixLen
          candidate.probe.scan = .ok heard ∧ ∃ entry ∈ heard, entry.ip = ip)

end Survey

open Survey

/-! ## The records -/

/-- `subnet.host_count.unwrap_or(0) > 0` -/
def Survey.DiscoveredSubnet.Live (subnet : DiscoveredSubnet) : Prop :=
  0 < subnet.hostCount.getD 0

instance (subnet : DiscoveredSubnet) : Decidable subnet.Live :=
  inferInstanceAs (Decidable (0 < _))

/-- The loop of `commands::survey` over the subnets: the store after it, and the
records its calls of `upsert` return. The `n`-th call reads the clock as
`clock n`. -/
def Commands.recordSurvey (clock : Nat → Nat) :
    List DiscoveredSubnet → Nat → Store → Store × List Record
  | [], _, s => (s, [])
  | subnet :: subnets, n, s =>
    if subnet.Live then
      let (s, record) := s.upsert (.fromSweep subnet.network) Namer.generate (clock n)
      let (s, records) := recordSurvey clock subnets (n + 1) s
      (s, record :: records)
    else recordSurvey clock subnets n s

variable {clock : Nat → Nat}

/-- The upsert of an address alone files its record under the address. -/
theorem upsert_fromSweep (s : Store) (ip : Ipv4Addr) (now : Nat) :
    (s.upsert (.fromSweep ip) Namer.generate now).1.contents = update s.contents (ipKey ip)
        (some (s.upsert (.fromSweep ip) Namer.generate now).2) ∧
      (s.upsert (.fromSweep ip) Namer.generate now).2.lastIp = ip.toText := by
  have hmac : (Device.fromSweep ip).mac = none := rfl
  rw [Store.upsert_of_noMac hmac, Store.upsertEntry_eq.1, Store.upsertEntry_eq.2]
  exact ⟨rfl, rfl⟩

variable {subnets : List DiscoveredSubnet} {n : Nat} {s : Store} {k : String}

/-- The records that are upserted are those of the network addresses of the
subnets with a host. -/
theorem recordSurvey_lastIp (clock : Nat → Nat) (subnets : List DiscoveredSubnet) (n : Nat) (s : Store) :
    (Commands.recordSurvey clock subnets n s).2.map (·.lastIp)
      = (subnets.filter (·.Live)).map (·.network.toText) := by
  induction subnets generalizing n s with
  | nil => rfl
  | cons subnet subnets ih =>
    rw [Commands.recordSurvey]
    by_cases hlive : subnet.Live
    · rw [if_pos hlive, List.filter_cons_of_pos (by simpa using hlive), List.map_cons, List.map_cons,
        ← ih (n + 1), ← (upsert_fromSweep s subnet.network (clock n)).2]
    · rw [if_neg hlive, List.filter_cons_of_neg (by simpa using hlive)]
      exact ih n s

/-- What the store holds afterwards under a key is what it held before, or one of
these records. -/
theorem recordSurvey_changed (clock : Nat → Nat) (subnets : List DiscoveredSubnet) (n : Nat)
    (s : Store) (k : String) :
    (Commands.recordSurvey clock subnets n s).1.contents k = s.contents k ∨
      ∃ r ∈ (Commands.recordSurvey clock subnets n s).2,
        (Commands.recordSurvey clock subnets n s).1.contents k = some r := by
  induction subnets generalizing n s with
  | nil => exact .inl rfl
  | cons subnet subnets ih =>
    rw [Commands.recordSurvey]
    by_cases hlive : subnet.Live
    · rw [if_pos hlive]
      obtain ⟨hcontents, -⟩ := upsert_fromSweep s subnet.network (clock n)
      rcases ih (n + 1) (s.upsert (.fromSweep subnet.network) Namer.generate (clock n)).1 with
        hsame | ⟨r, hr, hk⟩
      · rw [hcontents] at hsame
        by_cases hkey : k = ipKey subnet.network
        · subst hkey
          rw [update_self] at hsame
          exact .inr ⟨_, List.mem_cons_self, hsame⟩
        · rw [update_of_ne hkey] at hsame
          exact .inl hsame
      · exact .inr ⟨r, List.mem_cons_of_mem _ hr, hk⟩
    · rw [if_neg hlive]
      exact ih n s

/-- The keys without a record are those there were, less the network addresses of
the subnets with a host. -/
theorem recordSurvey_eq_none_iff :
    (Commands.recordSurvey clock subnets n s).1.contents k = none ↔
      s.contents k = none ∧ ∀ subnet ∈ subnets, subnet.Live → k ≠ ipKey subnet.network := by
  induction subnets generalizing n s with
  | nil => exact ⟨fun h => ⟨h, nofun⟩, fun h => h.1⟩
  | cons subnet subnets ih =>
    rw [Commands.recordSurvey, List.forall_mem_cons]
    by_cases hlive : subnet.Live
    · rw [if_pos hlive]
      refine ih.trans ?_
      rw [(upsert_fromSweep s subnet.network (clock n)).1]
      by_cases hkey : k = ipKey subnet.network
      · subst hkey
        rw [update_self]
        exact ⟨fun h => (nomatch h.1), fun h => absurd rfl (h.2.1 hlive)⟩
      · rw [update_of_ne hkey]
        exact ⟨fun h => ⟨h.1, fun _ => hkey, h.2⟩, fun h => ⟨h.1, h.2.2⟩⟩
    · rw [if_neg hlive]
      refine ih.trans ?_
      exact ⟨fun h => ⟨h.1, fun hlive' => absurd hlive' hlive, h.2⟩, fun h => ⟨h.1, h.2.2⟩⟩

/-- What all these records have in their address is what the subnets with a host
have in theirs. -/
theorem recordSurvey_forall_lastIp (p : String → Prop) :
    (∀ r ∈ (Commands.recordSurvey clock subnets n s).2, p r.lastIp) ↔
      ∀ subnet ∈ subnets, subnet.Live → p subnet.network.toText := by
  have hmap := List.forall_mem_map (f := Record.lastIp) (P := p)
    (l := (Commands.recordSurvey clock subnets n s).2)
  rw [← hmap, recordSurvey_lastIp, List.forall_mem_map]
  simp only [List.mem_filter, decide_eq_true_iff, and_imp]

/-- No record is created iff the subnets with a host have one already. -/
theorem recordSurvey_creates_none_iff :
    (∀ subnet ∈ subnets, s.contents (ipKey subnet.network) = none →
        (Commands.recordSurvey clock subnets n s).1.contents (ipKey subnet.network) = none) ↔
      ∀ subnet ∈ subnets, subnet.Live → s.contents (ipKey subnet.network) ≠ none := by
  constructor
  · intro hall subnet hsubnet hlive hnone
    exact (recordSurvey_eq_none_iff.mp (hall subnet hsubnet hnone)).2 subnet hsubnet hlive rfl
  · intro hall subnet hsubnet hnone
    refine recordSurvey_eq_none_iff.mpr ⟨hnone, fun other hother hlive hkey => ?_⟩
    exact hall other hother hlive (hkey ▸ hnone)

/-- **What a survey records**: for every result of a survey and every store, each
record that is created or updated is of an address that answered, and none is
created for a network address, iff the network address of every subnet with a
host answered itself and has a record already. -/
theorem survey_records_iff (profile : Profile) (verbose : Bool) (candidates : List Candidate)
    (clock : Nat → Nat) (s : Store) :
    ((∀ r ∈ (Commands.recordSurvey clock (survey profile verbose candidates) 0 s).2,
          ∃ ip, r.lastIp = ip.toText ∧
            ∃ candidate ∈ candidates, candidate.Answered profile verbose ip) ∧
        ∀ subnet ∈ survey profile verbose candidates, s.contents (ipKey subnet.network) = none →
          (Commands.recordSurvey clock (survey profile verbose candidates) 0 s).1.contents
            (ipKey subnet.network) = none) ↔
      ∀ subnet ∈ survey profile verbose candidates, subnet.Live →
        (∃ candidate ∈ candidates, candidate.Answered profile verbose subnet.network) ∧
          s.contents (ipKey subnet.network) ≠ none := by
  have hanswered : ∀ network : Ipv4Addr, (∃ ip, network.toText = ip.toText ∧
        ∃ candidate ∈ candidates, candidate.Answered profile verbose ip) ↔
      ∃ candidate ∈ candidates, candidate.Answered profile verbose network := by
    intro network
    constructor
    · rintro ⟨ip, hip, h⟩
      exact Ipv4Addr.toText_inj hip ▸ h
    · exact fun h => ⟨network, rfl, h⟩
  rw [recordSurvey_creates_none_iff, recordSurvey_forall_lastIp fun text => ∃ ip,
    text = ip.toText ∧ ∃ candidate ∈ candidates, candidate.Answered profile verbose ip]
  simp only [hanswered]
  constructor
  · rintro ⟨htouched, hcreated⟩ subnet hsubnet hlive
    exact ⟨htouched subnet hsubnet hlive, hcreated subnet hsubnet hlive⟩
  · intro h
    exact ⟨fun subnet hsubnet hlive => (h subnet hsubnet hlive).1,
      fun subnet hsubnet hlive => (h subnet hsubnet hlive).2⟩

/-- 192.168.1.0/24, where the host at 192.168.1.10 answers the sweep. -/
def homeNetwork : Candidate where
  network := ⟨192, 168, 1, 0⟩
  prefixLen := 24
  source := .commonPrivate
  gateway := none
  probe := {
    srcIp := some ⟨192, 168, 1, 20⟩
    probeHost := fun ip => ip = desk
    scan := ⟨some ⟨some ⟨192, 168, 1, 20⟩, some laptop⟩, [], [], 0, true⟩
    arrived := []
    read_arrived := List.Subset.refl _ }

/-- The survey has one host there and records 192.168.1.0, which nobody probed. -/
theorem survey_records_network :
    survey .release false [homeNetwork]
        = [⟨⟨192, 168, 1, 0⟩, 24, some 1, .commonPrivate, none⟩] ∧
      (Commands.recordSurvey (fun _ => 0) (survey .release false [homeNetwork]) 0 .empty).2.map
        (·.lastIp) = ["192.168.1.0"] ∧
      (∃ candidate ∈ [homeNetwork], candidate.Answered .release false desk) ∧
      ¬ ∃ candidate ∈ [homeNetwork], candidate.Answered .release false ⟨192, 168, 1, 0⟩ := by
  have hsurvey : survey .release false [homeNetwork]
      = [⟨⟨192, 168, 1, 0⟩, 24, some 1, .commonPrivate, none⟩] := by decide +kernel
  have hfound : Sweep.sweepSubnet .release ⟨192, 168, 1, 0⟩ 24 [] homeNetwork.probe.srcIp
      homeNetwork.probe.probeHost = .ok {desk} := by decide +kernel
  have hheard : Arp.scanSubnet .release ⟨192, 168, 1, 0⟩ 24 homeNetwork.probe.scan = .ok ∅ := by
    decide +kernel
  refine ⟨hsurvey, ?_, ⟨_, List.mem_singleton_self _, ?_⟩, ?_⟩
  · rw [recordSurvey_lastIp, hsurvey]
    decide +kernel
  · exact ⟨by decide, by decide, _, hfound, .inl (Finset.mem_singleton_self _)⟩
  · rintro ⟨candidate, hcandidate, -, -, found, hfound', hnetwork⟩
    obtain rfl := List.mem_singleton.mp hcandidate
    obtain rfl := Except.ok.inj (hfound.symm.trans hfound')
    rcases hnetwork with hswept | ⟨-, heard, hheard', entry, hentry, -⟩
    · exact absurd (Finset.mem_singleton.mp hswept) (by decide)
    · obtain rfl := Except.ok.inj (hheard.symm.trans hheard')
      exact Finset.notMem_empty entry hentry

end Gannet
