import Gannet.Cli.Report
import Gannet.Discovery.Blocks
import Gannet.Net.Selection

/-!
# A scan of one's own network (commands.rs, sweep.rs, arp.rs)

Without `--subnet` a scan takes the subnet of its interface, and both its discoveries look
for that interface again.

`default_scan`: what the sweep finds is other machines in the block of this machine's own
address. Where this machine has none, the scan is of 192.168.1.0/24 but finds nothing, and
reports and saves nothing.
-/

namespace Gannet

open Bytes Machine

/-- What an ARP scan takes from its interface. -/
def arpInterface (name : Option String) (host : Interfaces) : Option Arp.Interface :=
  (findInterface name host.pnet).map fun iface => ⟨iface.sourceIp, iface.mac⟩

namespace Commands

variable {profile : Profile} {name : Option String} {host : Interfaces} {base own : Ipv4Addr}
  {prefixLen : UInt8} {arpScan : Arp.Scan} {probeHost : Ipv4Addr → Bool} {results : ScanResults}

/-- The subnet of a scan is the block of this machine's own address. -/
theorem autoSubnet_block (h : autoSubnet profile name host = .ok (base, prefixLen))
    (hle : prefixLen ≤ 32) (hpos : prefixLen ≠ 0) (hown : findSourceIp name host = some own) :
    base = own.clearLow prefixLen := by
  rw [findSourceIp_eq, Option.map_eq_some_iff] at hown
  obtain ⟨⟨ip, len⟩, hfound, rfl⟩ := hown
  rw [autoSubnet_eq, hfound] at h
  cases hbase : networkBase profile ip len with
  | error e => simp [hbase, Except.map] at h
  | ok base' =>
    rw [Option.elim_some, hbase] at h
    obtain ⟨rfl, rfl⟩ := Prod.mk.inj (Except.ok.inj h)
    exact Except.ok.inj (hbase.symm.trans (networkBase_spec hle hpos))

/-- Without an address of its own it is the default. -/
theorem autoSubnet_default (h : findSourceIp name host = none) :
    autoSubnet profile name host = .ok (⟨192, 168, 1, 0⟩, 24) := by
  rw [findSourceIp_eq, Option.map_eq_none_iff] at h
  rw [autoSubnet_eq, h]
  rfl

/-- Then no interface is found at all. -/
theorem arpInterface_none (h : findSourceIp name host = none) : arpInterface name host = none := by
  rw [arpInterface]
  cases hfound : findInterface name host.pnet with
  | none => rfl
  | some iface =>
    obtain ⟨own, hown⟩ := head?_ipv4s_ne_none hfound
    rw [findSourceIp, hfound] at h
    have hsome : iface.sourceIp = some own.1 := by rw [sourceIp_eq, hown, Option.map_some]
    cases hsome.symm.trans h

/-- **A scan of one's own network**: whatever interfaces there are and whichever of them is
named, every address the sweep of a default scan finds is in the block of this machine's own
address and is not that address. Without an address of its own the machine scans
192.168.1.0/24, finds nothing, and neither reports nor saves anything. -/
theorem default_scan (hsubnet : autoSubnet profile name host = .ok (base, prefixLen))
    (hle : prefixLen ≤ 32) (hpos : prefixLen ≠ 0)
    (hinterface : arpScan.interface = arpInterface name host)
    (hfound : Discovered profile base prefixLen arpScan (findSourceIp name host) probeHost
      results) :
    (∀ ip ∈ results.sweepResults, ∃ own, findSourceIp name host = some own ∧ ip ≠ own ∧
        ip.topBits prefixLen = own.topBits prefixLen) ∧
      (findSourceIp name host = none → base = ⟨192, 168, 1, 0⟩ ∧ prefixLen = 24 ∧
        ∀ ouiTable hashing clock file,
          scan ouiTable results hashing clock file = (file, none)) := by
  constructor
  · intro ip hip
    have hsweep := hfound.sweep
    cases hown : findSourceIp name host with
    | none =>
      rw [hown] at hsweep
      have hempty : results.sweepResults.toFinset = ∅ := (Except.ok.inj hsweep).symm
      rw [List.toFinset_eq_empty_iff] at hempty
      rw [hempty] at hip
      exact absurd hip List.not_mem_nil
    | some own =>
      obtain ⟨targets, htargets, hlists⟩ := Sweep.targets_spec profile base hle hpos
        (results.arpEntries.map ArpEntry.ip) own
      rw [hown] at hsweep
      simp only [Sweep.sweepSubnet, htargets, bind, Except.bind] at hsweep
      have hswept : ip ∈ (targets.filter probeHost).toFinset := by
        rw [Except.ok.inj hsweep]
        exact List.mem_toFinset.mpr hip
      obtain ⟨htop, -, -, hne⟩ :=
        (hlists.mem ip).mp (List.mem_filter.mp (List.mem_toFinset.mp hswept)).1
      refine ⟨own, rfl, hne, htop.trans ?_⟩
      rw [autoSubnet_block hsubnet hle hpos hown, own.topBits_clearLow hle]
  · intro hnone
    obtain ⟨rfl, rfl⟩ := Prod.mk.inj
      (Except.ok.inj (hsubnet.symm.trans (autoSubnet_default hnone)))
    refine ⟨rfl, rfl, fun ouiTable hashing clock file => ?_⟩
    have harp := hfound.arp
    have hsweep := hfound.sweep
    rw [Arp.scanSubnet, hinterface, arpInterface_none hnone] at harp
    rw [hnone] at hsweep
    have harpEmpty : results.arpEntries = [] :=
      List.toFinset_eq_empty_iff _ |>.mp (Except.ok.inj harp).symm
    have hsweepEmpty : results.sweepResults = [] :=
      List.toFinset_eq_empty_iff _ |>.mp (Except.ok.inj hsweep).symm
    rw [scan, harpEmpty, hsweepEmpty]
    rfl

/-- An interface with one IPv4 address after others. -/
theorem single_prefix_le {n : Nat} {ip : Ipv4Addr} {prefixLen : UInt8} (hle : prefixLen ≤ 32) :
    ∀ ip' prefixLen', IpNetwork.v4 ip' prefixLen' ∈ List.replicate n .v6 ++ [.v4 ip prefixLen] →
      prefixLen' ≤ 32 := by
  intro ip' prefixLen' hmem
  rcases List.mem_append.mp hmem with hmem | hmem
  · cases (List.mem_replicate.mp hmem).2
  · obtain ⟨-, rfl⟩ := IpNetwork.v4.inj (List.mem_singleton.mp hmem)
    exact hle

/-- A machine at 10.0.0.14, which also has its loopback interface. -/
def smallHost : Interfaces where
  pnet := [
    { ips := [.v4 ⟨127, 0, 0, 1⟩ 8]
      prefix_le := @single_prefix_le 0 _ 8 (by decide)
      name := "lo"
      mac := none
      flags := 0x9 },
    { ips := [.v6, .v4 ⟨10, 0, 0, 14⟩ 29]
      prefix_le := @single_prefix_le 1 _ 29 (by decide)
      name := "eth0"
      mac := some phone
      flags := 0x1 }]
  sysfs := []
  tools := ⟨fun _ => none, fun _ => none⟩

/-- What the sweep of the small machine finds is in its own block and not its own address. -/
theorem default_scan_small :
    ∃ own, findSourceIp none smallHost = some own ∧ ⟨10, 0, 0, 10⟩ ≠ own ∧
      Ipv4Addr.topBits ⟨10, 0, 0, 10⟩ 29 = own.topBits 29 := by
  have hsource : findSourceIp none smallHost = some ⟨10, 0, 0, 14⟩ := by decide
  have hfound := smallScan_discovered
  rw [← hsource] at hfound
  have hsubnet : autoSubnet .release none smallHost = .ok (⟨10, 0, 0, 8⟩, 29) := by decide
  exact (default_scan hsubnet (by decide) (by decide) (by decide) hfound).1 _
    (List.mem_cons_of_mem _ (List.mem_singleton_self _))

end Commands

end Gannet
