import Gannet.Cli.Commands

/-!
# What `scan` and `list` show (commands.rs)

- `scan_report`: the first table of a scan has every pair of address and MAC that its ARP
  scan heard, once, the second every address its sweep found besides, once and without a
  MAC. Both go by address, and no address is in both.
- `list_shows`: after any session, `list` shows the records that all calls so far lead
  to, each once and with its tag, the last seen first.
-/

namespace Gannet.Commands

open KeyMap Machine Store Function

/-! ## The tables of a scan -/

/-- The address, the MAC and the way of discovery of a device. -/
def hostKey (d : Device) : Ipv4Addr × Option MacAddr6 × Via := (d.ip, d.mac, d.via)

/-- What `hostKey` is of a host that was found. -/
def Found.key : Found → Ipv4Addr × Option MacAddr6 × Via
  | .arp entry => (entry.ip, some entry.mac, .arp)
  | .sweep ip => (ip, none, .sweep)

variable {ouiTable : UInt32 → Option String} {results : ScanResults} {report : ScanReport}
  {hashing : Hashing} {clock : Nat → Nat} {file : File}

theorem hostKey_namedDevice (mdnsResults : Map Ipv4Addr Mdns.MdnsResult) (found : Found) :
    hostKey (namedDevice ouiTable mdnsResults found) = Found.key found := by
  unfold namedDevice
  cases contents mdnsResults found.ip <;> cases found <;> rfl

/-- The devices that are upserted are the hosts that were found. -/
theorem hostKey_scanDevices (ouiTable : UInt32 → Option String) (results : ScanResults) :
    ((scanDevices ouiTable results).map hostKey).Perm
      ((foundHosts results.arpEntries results.sweepResults).map Found.key) := by
  have hsort := List.mergeSort_perm ((enriched ouiTable results.mdnsResults results.fingerprints
    results.arpEntries results.sweepResults).map Device.classify)
    fun a b => decide (a.ip.toU32 ≤ b.ip.toU32)
  refine (hsort.map hostKey).trans (.of_eq ?_)
  have hclassify : hostKey ∘ Device.classify = hostKey := rfl
  rw [List.map_map, hclassify, enriched, map_applyFingerprints fun _ _ => rfl, List.map_map]
  exact List.map_congr_left fun found _ => hostKey_namedDevice _ found

/-- The devices come back with their tags, in their order. -/
theorem map_fst_upsertAll (hashing : Hashing) (clock : Nat → Nat) (ds : List Device) (n : Nat)
    (s : Store) : (upsertAll hashing clock ds n s).2.map Prod.fst = ds := by
  induction ds generalizing n s with
  | nil => rfl
  | cons d ds ih => exact congrArg (d :: ·) (ih (n + 1) _)

/-- They are upserted by ascending address. -/
theorem sorted_scanDevices (ouiTable : UInt32 → Option String) (results : ScanResults) :
    (scanDevices ouiTable results).Pairwise fun a b => a.ip.toU32 ≤ b.ip.toU32 := by
  refine (List.pairwise_mergeSort ?_ ?_ _).imp of_decide_eq_true
  · intro a b c hab hbc
    exact decide_eq_true (UInt32.le_trans (of_decide_eq_true hab) (of_decide_eq_true hbc))
  · intro a b
    rw [Bool.or_eq_true, decide_eq_true_iff, decide_eq_true_iff]
    exact UInt32.le_total _ _

/-- The devices of one table. -/
theorem scan_tables (h : (scan ouiTable results hashing clock file).2 = some report) :
    report.arpTagged.map Prod.fst = (scanDevices ouiTable results).filter (·.via = .arp) ∧
      report.sweepTagged.map Prod.fst
        = (scanDevices ouiTable results).filter (·.via ≠ .arp) := by
  rw [scan] at h
  split_ifs at h with hhosts
  dsimp only at h
  obtain rfl := Option.some.inj h
  have hdevices := map_fst_upsertAll hashing clock (scanDevices ouiTable results) 0
    (load serdeJson file)
  constructor
  · conv_rhs => rw [← hdevices, List.filter_map]
    rfl
  · conv_rhs => rw [← hdevices, List.filter_map]
    rfl

/-- The lists a scan of the subnet goes on with: what its ARP scan heard, and what its
sweep found among the other addresses. -/
structure Discovered (profile : Profile) (base : Ipv4Addr) (prefixLen : UInt8)
    (arpScan : Arp.Scan) (srcIp : Option Ipv4Addr) (probeHost : Ipv4Addr → Bool)
    (results : ScanResults) : Prop where
  arp : Arp.scanSubnet profile base prefixLen arpScan = .ok results.arpEntries.toFinset
  arp_nodup : results.arpEntries.Nodup
  sweep : Sweep.sweepSubnet profile base prefixLen (results.arpEntries.map ArpEntry.ip) srcIp
    probeHost = .ok results.sweepResults.toFinset
  sweep_nodup : results.sweepResults.Nodup

/-- The hosts of one kind, as they are found. -/
theorem filter_scanDevices (ouiTable : UInt32 → Option String) (results : ScanResults)
    (p : Via → Bool) : (((scanDevices ouiTable results).filter fun d => p d.via).map hostKey).Perm
      (((foundHosts results.arpEntries results.sweepResults).map Found.key).filter
        fun key => p key.2.2) := by
  have hfilter : ((scanDevices ouiTable results).filter fun d => p d.via).map hostKey
      = ((scanDevices ouiTable results).map hostKey).filter fun key => p key.2.2 := by
    rw [List.filter_map]
    rfl
  rw [hfilter]
  exact (hostKey_scanDevices ouiTable results).filter _

/-- Those from ARP first, then those from the sweep. -/
theorem foundHosts_keys (results : ScanResults) :
    (foundHosts results.arpEntries results.sweepResults).map Found.key
      = (results.arpEntries.map fun entry => (entry.ip, some entry.mac, .arp))
        ++ results.sweepResults.map fun ip => (ip, none, .sweep) := by
  rw [foundHosts, List.map_append, List.map_map, List.map_map]
  rfl

/-- The hosts of the first table. -/
theorem arp_hosts (results : ScanResults) :
    ((foundHosts results.arpEntries results.sweepResults).map Found.key).filter
        (fun key => decide (key.2.2 = .arp))
      = results.arpEntries.map fun entry => (entry.ip, some entry.mac, .arp) := by
  rw [foundHosts_keys, List.filter_append, List.filter_map, List.filter_map,
    List.filter_eq_self.mpr, List.filter_eq_nil_iff.mpr, List.map_nil, List.append_nil] <;> simp

/-- The hosts of the second table. -/
theorem sweep_hosts (results : ScanResults) :
    ((foundHosts results.arpEntries results.sweepResults).map Found.key).filter
        (fun key => decide (key.2.2 ≠ .arp))
      = results.sweepResults.map fun ip => (ip, none, .sweep) := by
  rw [foundHosts_keys, List.filter_append, List.filter_map, List.filter_map,
    List.filter_eq_nil_iff.mpr, List.filter_eq_self.mpr, List.map_nil, List.nil_append] <;> simp

/-- A table is by ascending address. -/
theorem sorted_table (p : Via → Bool) {tagged : List (Device × String)}
    (h : tagged.map Prod.fst = (scanDevices ouiTable results).filter fun d => p d.via) :
    tagged.Pairwise fun a b => a.1.ip.toU32 ≤ b.1.ip.toU32 := by
  have hsorted := (sorted_scanDevices ouiTable results).filter fun d => p d.via
  rw [← h, List.pairwise_map] at hsorted
  exact hsorted

/-- A table has the hosts of its kind. -/
theorem perm_table (p : Via → Bool) {tagged : List (Device × String)}
    {keys : List (Ipv4Addr × Option MacAddr6 × Via)}
    (h : tagged.map Prod.fst = (scanDevices ouiTable results).filter fun d => p d.via)
    (hkeys : ((foundHosts results.arpEntries results.sweepResults).map Found.key).filter
      (fun key => p key.2.2) = keys) :
    (tagged.map fun entry => hostKey entry.1).Perm keys := by
  have hperm := filter_scanDevices ouiTable results p
  rw [← h, List.map_map, hkeys] at hperm
  exact hperm

/-- A table with these hosts, by ascending address. -/
structure Shows (tagged : List (Device × String))
    (hosts : List (Ipv4Addr × Option MacAddr6 × Via)) : Prop where
  perm : (tagged.map fun entry => hostKey entry.1).Perm hosts
  sorted : tagged.Pairwise fun a b => a.1.ip.toU32 ≤ b.1.ip.toU32

theorem Shows.mem {tagged : List (Device × String)}
    {hosts : List (Ipv4Addr × Option MacAddr6 × Via)} (h : Shows tagged hosts)
    {entry : Device × String} (hentry : entry ∈ tagged) : hostKey entry.1 ∈ hosts :=
  h.perm.mem_iff.mp (List.mem_map_of_mem (f := fun e : Device × String => hostKey e.1) hentry)

variable {profile : Profile} {base : Ipv4Addr} {prefixLen : UInt8} {arpScan : Arp.Scan}
  {srcIp : Option Ipv4Addr} {probeHost : Ipv4Addr → Bool}

/-- A sweep finds no address that is known. -/
theorem swept_spec (hle : prefixLen ≤ 32) (hpos : prefixLen ≠ 0) {known : List Ipv4Addr}
    {found : Finset Ipv4Addr}
    (h : Sweep.sweepSubnet profile base prefixLen known srcIp probeHost = .ok found)
    {ip : Ipv4Addr} (hip : ip ∈ found) :
    ip.topBits prefixLen = base.topBits prefixLen ∧ ip ∉ known := by
  cases srcIp with
  | none =>
    obtain rfl := Except.ok.inj h
    exact absurd hip (Finset.notMem_empty ip)
  | some srcIp =>
    obtain ⟨targets, htargets, hlists⟩ :=
      Sweep.targets_spec profile base hle hpos known srcIp
    simp only [Sweep.sweepSubnet, htargets, bind, Except.bind] at h
    obtain rfl := Except.ok.inj h
    have htarget := (List.mem_filter.mp (List.mem_toFinset.mp hip)).1
    obtain ⟨htop, -, hknown, -⟩ := (hlists.mem ip).mp htarget
    exact ⟨htop, hknown⟩

/-- **The report of a scan**: its two tables have the pairs ARP heard and the addresses
only the sweep found, each once and by address; the latter are in the subnet, and none of
them is an address of the former. -/
theorem scan_report (hle : prefixLen ≤ 32) (hpos : prefixLen ≠ 0)
    (hfound : Discovered profile base prefixLen arpScan srcIp probeHost results)
    (h : (scan ouiTable results hashing clock file).2 = some report) :
    Shows report.arpTagged
        (results.arpEntries.map fun entry => (entry.ip, some entry.mac, .arp)) ∧
      Shows report.sweepTagged (results.sweepResults.map fun ip => (ip, none, .sweep)) ∧
      (report.arpTagged.map fun entry => hostKey entry.1).Nodup ∧
      (report.sweepTagged.map fun entry => hostKey entry.1).Nodup ∧
      ∀ swept ∈ report.sweepTagged,
        swept.1.ip.topBits prefixLen = base.topBits prefixLen ∧
          ∀ heard ∈ report.arpTagged, heard.1.ip ≠ swept.1.ip := by
  obtain ⟨harp, hsweep⟩ := scan_tables h
  have harpTable : Shows report.arpTagged _ :=
    ⟨perm_table (fun via => decide (via = .arp)) harp (arp_hosts results),
      sorted_table (fun via => decide (via = .arp)) harp⟩
  have hsweepTable : Shows report.sweepTagged _ :=
    ⟨perm_table (fun via => decide (via ≠ .arp)) hsweep (sweep_hosts results),
      sorted_table (fun via => decide (via ≠ .arp)) hsweep⟩
  refine ⟨harpTable, hsweepTable, harpTable.perm.nodup_iff.mpr ?_,
    hsweepTable.perm.nodup_iff.mpr ?_, fun swept hswept => ?_⟩
  · refine hfound.arp_nodup.map fun a b hab => ?_
    obtain ⟨hip, hmac⟩ := Prod.mk.inj hab
    cases a
    cases b
    simp_all
  · exact hfound.sweep_nodup.map fun a b hab => (Prod.mk.inj hab).1
  · obtain ⟨ip, hip, hkey⟩ := List.mem_map.mp (hsweepTable.mem hswept)
    have hsame : ip = swept.1.ip := congrArg Prod.fst hkey
    rw [hsame] at hip
    obtain ⟨htop, hknown⟩ := swept_spec hle hpos hfound.sweep (List.mem_toFinset.mpr hip)
    refine ⟨htop, fun heard hheard heq => hknown ?_⟩
    obtain ⟨entry, hentry, hkey⟩ := List.mem_map.mp (harpTable.mem hheard)
    have hip : entry.ip = heard.1.ip := congrArg Prod.fst hkey
    rw [← heq, ← hip]
    exact List.mem_map_of_mem hentry

/-- 10.0.0.9 and 10.0.0.11 answer ARP, 10.0.0.10 and 10.0.0.12 only the sweep. -/
def smallScan : ScanResults where
  arpEntries := [⟨⟨10, 0, 0, 11⟩, ⟨2, 0, 0, 0, 0, 11⟩⟩, ⟨⟨10, 0, 0, 9⟩, laptop⟩]
  sweepResults := [⟨10, 0, 0, 12⟩, ⟨10, 0, 0, 10⟩]
  mdnsResults := ∅
  fingerprints := ∅

/-- The lists come from an ARP scan that takes both replies in its rounds and a sweep of the
other addresses. -/
theorem smallScan_discovered :
    Discovered .release ⟨10, 0, 0, 8⟩ 29
      { interface := some ⟨some ⟨10, 0, 0, 14⟩, some phone⟩
        frames := smallScan.arpEntries.map Survey.replyFrame
        rounds := [⟨100, .received 100⟩, ⟨100, .received 100⟩]
        queued := 0
        joined := true }
      (some ⟨10, 0, 0, 14⟩) (fun ip => ip = ⟨10, 0, 0, 10⟩ || ip = ⟨10, 0, 0, 12⟩) smallScan where
  arp := by
    rw [Arp.scanSubnet_eq .release _ (by decide) (by decide)]
    exact congrArg (fun entries => Except.ok (List.toFinset entries)) (by decide +kernel)
  arp_nodup := by decide
  sweep := by
    have htargets : Sweep.targets .release ⟨10, 0, 0, 8⟩ 29 (smallScan.arpEntries.map ArpEntry.ip)
        ⟨10, 0, 0, 14⟩ = .ok ([8, 10, 12, 13, 15].map fun d => ⟨10, 0, 0, d⟩) := by
      decide +kernel
    simp only [Sweep.sweepSubnet, htargets, bind, Except.bind]
    exact congrArg Except.ok (by decide +kernel)
  sweep_nodup := by decide

/-- Both tables have two rows. -/
theorem scan_report_small :
    ∃ report, (scan (fun _ => none) smallScan .stable (fun _ => 0) none).2 = some report ∧
      Shows report.arpTagged [(⟨10, 0, 0, 11⟩, some ⟨2, 0, 0, 0, 0, 11⟩, .arp),
        (⟨10, 0, 0, 9⟩, some laptop, .arp)] ∧
      Shows report.sweepTagged [(⟨10, 0, 0, 12⟩, none, .sweep), (⟨10, 0, 0, 10⟩, none, .sweep)] := by
  have hscan : (scan (fun _ => none) smallScan .stable (fun _ => 0) none).2 = some _ := rfl
  have hreport := scan_report (by decide) (by decide) smallScan_discovered hscan
  exact ⟨_, hscan, hreport.1, hreport.2.1⟩

/-! ## The table of `list` -/

/-- The keys of a registry's records are the keys of its map. -/
theorem keys_values {m : Map String Record} (h : ∀ k r, contents m k = some r → r.key = k) :
    (values m).map Record.key = m.entries.map Sigma.fst := by
  rw [values, List.map_map]
  refine List.map_congr_left fun entry hentry => ?_
  exact h entry.1 entry.2 (AList.mem_lookup_iff.mpr hentry)

/-- The table has the records of the file. -/
theorem list_perm (hashing : Hashing) (file : File) :
    (list hashing file).Perm (values (hashing.order 0 (load serdeJson file)).records) := by
  rw [list]
  exact (List.reverse_perm _).trans (List.mergeSort_perm _ _)

/-- The table is by descending time. -/
theorem list_sorted (hashing : Hashing) (file : File) :
    (list hashing file).Pairwise fun a b => b.lastSeen ≤ a.lastSeen := by
  rw [list, List.pairwise_reverse]
  refine (List.pairwise_mergeSort ?_ ?_ _).imp of_decide_eq_true
  · intro a b c hab hbc
    exact decide_eq_true (Nat.le_trans (of_decide_eq_true hab) (of_decide_eq_true hbc))
  · intro a b
    rw [Bool.or_eq_true, decide_eq_true_iff, decide_eq_true_iff]
    exact Nat.le_total _ _

/-- In whatever order the map iterates, the list has the records of the file. -/
theorem mem_list {hashing : Hashing} {r : Record} :
    r ∈ list hashing file ↔ ∃ k, (load serdeJson file).contents k = some r := by
  have hcontents : (load serdeJson file).contents
      = (hashing.order 0 (load serdeJson file)).contents := contents_congr (hashing.same 0 _)
  rw [hcontents, (list_perm hashing file).mem_iff]
  exact mem_values

/-- **The list after a session**: it has the records that all calls so far lead to, each
once, every one with a tag, by descending time. -/
theorem list_shows {cmds : List Command} (h : Lts.Run (Runs ouiTable) none cmds file)
    (hclock : ∀ op ∈ cmds.flatMap (Command.calls ouiTable), op.Clocked) (hashing : Hashing) :
    ∃ s, Reaches (cmds.flatMap (Command.calls ouiTable)) s ∧
      (∀ r, r ∈ list hashing file ↔ s.contents r.key = some r) ∧
      ((list hashing file).map Record.key).Nodup ∧
      (list hashing file).Pairwise (fun a b => b.lastSeen ≤ a.lastSeen) ∧
      ∀ r ∈ list hashing file, r.tag ≠ none := by
  obtain ⟨s, hreach, hs⟩ := Run.holds h hclock
  have hcontents : s.contents = (hashing.order 0 (load serdeJson file)).contents :=
    hs.trans (contents_congr (hashing.same 0 _))
  have hkey : ∀ k r, (hashing.order 0 (load serdeJson file)).contents k = some r → r.key = k :=
    fun k r hk => hreach.wellFormed.key_eq (hcontents ▸ hk)
  have hmem : ∀ r, r ∈ list hashing file ↔ s.contents r.key = some r := by
    intro r
    rw [mem_list, ← hs]
    constructor
    · rintro ⟨k, hk⟩
      rw [hreach.wellFormed.key_eq hk]
      exact hk
    · exact fun hr => ⟨r.key, hr⟩
  refine ⟨s, hreach, hmem, ?_, list_sorted hashing file, fun r hr => hreach.tagged ((hmem r).mp hr)⟩
  rw [((list_perm hashing file).map Record.key).nodup_iff, keys_values hkey]
  exact (hashing.order 0 (load serdeJson file)).records.nodupKeys

/-- Tagging a saved registry by the address of an IP-only record. -/
theorem load_tag {s : Store} (hs : s.Timed) {ip : String} {addr : Ipv4Addr} {r : Record}
    (haddr : Ipv4Addr.parse ip.toList = some addr) (hr : s.contents (ipKey addr) = some r)
    (text : String) :
    (load serdeJson (tag ip text (s.save serdeJson)).1).contents
      = update s.contents (ipKey addr) (some { r with tag := some text }) := by
  have hload := load_saved hs
  have hspec := setTag_none_spec (load serdeJson (s.save serdeJson)) addr text
  rw [hload, hr] at hspec
  obtain ⟨hcontents, hfound⟩ := hspec
  have htimed : ((load serdeJson (s.save serdeJson)).setTag none addr text).1.Timed := by
    intro k r' hk
    rw [hcontents] at hk
    rcases update_some_cases hk with ⟨-, rfl⟩ | ⟨-, hk⟩
    · exact ⟨(hs _ r hr).first, (hs _ r hr).last⟩
    · exact hs k r' hk
  rw [tag, haddr]
  dsimp only
  rw [if_pos hfound, load_saved htimed, hcontents]

/-- The desk has the lower address. -/
theorem scanDevices_desk : scanDevices (fun _ => none) ⟨[⟨sofa, phone⟩], [desk], ∅, ∅⟩
    = [Found.sweep desk, .arp ⟨sofa, phone⟩].map fun found =>
        (namedDevice (fun _ => none) ∅ found).classify := by
  have hsort : ∀ a b : Device, a.ip = sofa → b.ip = desk →
      [a, b].mergeSort (fun a b => decide (a.ip.toU32 ≤ b.ip.toU32)) = [b, a] := by
    intro a b ha hb
    have hlt : ¬ sofa.toU32 ≤ desk.toU32 := by decide
    simp [List.mergeSort, List.MergeSort.Internal.splitInTwo, ha, hb, hlt]
  exact hsort _ _ rfl rfl

/-- The scan saves a record of the phone and one of the desk. -/
theorem deskScan_saved : ∃ s : Store,
    (scan (fun _ => none) ⟨[⟨sofa, phone⟩], [desk], ∅, ∅⟩ .stable (fun n => 5 + n % 2) none).1
      = s.save serdeJson ∧ s.Timed ∧ WellFormed s.contents ∧
    s.records.keys = [macKey phone, ipKey desk] := by
  have hcalls := upsertAll_run .stable (fun n => 5 + n % 2)
    (scanDevices (fun _ => none) ⟨[⟨sofa, phone⟩], [desk], ∅, ∅⟩) 0 .empty
  refine ⟨_, rfl, Reaches.timed hcalls (clocked_upserts (fun _ => by omega) _ 0),
    Reaches.wellFormed hcalls, ?_⟩
  rw [scanDevices_desk]
  decide +kernel

/-- Phone and desk are listed, the desk with the tag the user gave it. -/
theorem list_shows_desk :
    ∃ file, Lts.Run (Runs fun _ => none) none [deskScan, .tag "192.168.1.10" "printer"] file ∧
      (∃ r ∈ list .stable file, r.key = macKey phone) ∧
      (∃ r ∈ list .stable file, r.key = ipKey desk ∧ r.tag = some "printer") ∧
      ((list .stable file).map Record.key).Nodup ∧
      (list .stable file).Pairwise (fun a b => b.lastSeen ≤ a.lastSeen) ∧
      ∀ r ∈ list .stable file, r.tag ≠ none := by
  obtain ⟨saved, hsaved, htimed, hwell, hkeys⟩ := deskScan_saved
  have hscan : Runs (fun _ => none) none deskScan (saved.save serdeJson) := hsaved ▸ .scan _ _ _
  have hrun := (Lts.Run.single hscan).snoc (.tag "192.168.1.10" "printer")
  obtain ⟨s, -, -, hshown⟩ := list_shows hrun deskSession_clocked .stable
  have hsome : ∀ k ∈ saved.records.keys, ∃ r, saved.contents k = some r := fun k hk =>
    Option.isSome_iff_exists.mp (AList.lookup_isSome.mpr hk)
  rw [hkeys] at hsome
  obtain ⟨r, hr⟩ := hsome (macKey phone) (by decide)
  obtain ⟨r', hr'⟩ := hsome (ipKey desk) (by decide)
  have hdesk : r'.key = ipKey desk := hwell.key_eq hr'
  have haddr : Ipv4Addr.parse "192.168.1.10".toList = some desk := by decide +kernel
  have htag := load_tag htimed haddr hr' "printer"
  refine ⟨_, hrun, ⟨r, mem_list.mpr ⟨macKey phone, ?_⟩, hwell.key_eq hr⟩,
    ⟨{ r' with tag := some "printer" }, mem_list.mpr ⟨ipKey desk, ?_⟩, hdesk, rfl⟩, hshown⟩
  · rw [htag, update_of_ne (macKey_ne_ipKey phone desk), hr]
  · rw [htag, update_self]

end Gannet.Commands
