import Mathlib.Data.List.Count
import Gannet.Discovery.OsGuess
import Gannet.Discovery.ScanServices

/-!
# What a scan adds to its devices (cli/commands.rs)

A scan lists a device for every ARP entry, a pair of address and MAC, and for every
address of the sweep. What was found out about an address is kept in maps: names and
services are looked up for every device, but a fingerprint is given to the first
device in the list that has its address.

`scan_evidence_iff`: every device of the list carries what was found out about its
address iff no address with an OS hint is listed twice. `enriched_named`: names and
services are always carried.
-/

namespace Gannet

open KeyMap Mdns

/-! ## The code -/

/-- `iter_mut().find(p)`, and the update of what it finds. -/
def updateFirst {α : Type} (p : α → Bool) (f : α → α) : List α → List α
  | [] => []
  | x :: xs => if p x then f x :: xs else x :: updateFirst p f xs

/-- `Device::apply_fingerprint` -/
def Device.applyFingerprint (d : Device) (fp : Fingerprint.Result) : Device :=
  { d with osHint := fp.osHint }

namespace Commands

/-- The hosts of a scan, in the order of its list. -/
def foundHosts (arpEntries : List ArpEntry) (sweepResults : List Ipv4Addr) : List Found :=
  arpEntries.map .arp ++ sweepResults.map .sweep

/-- The device of a host, with the name and the services of its address. -/
def namedDevice (ouiTable : UInt32 → Option String) (mdnsResults : Map Ipv4Addr MdnsResult)
    (found : Found) : Device :=
  let d := found.device ouiTable
  match contents mdnsResults found.ip with
  | some m => { d with hostname := some m.hostname, services := m.services }
  | none => d

/-- The loop over the fingerprints, in the order in which the map iterates. -/
def applyFingerprints (fingerprints : Map Ipv4Addr (Option Fingerprint.Result))
    (devices : List Device) : List Device :=
  fingerprints.entries.foldl (fun devices entry =>
    match entry.2 with
    | some fp => updateFirst (fun d => d.ip = entry.1) (·.applyFingerprint fp) devices
    | none => devices) devices

/-- The devices of `scan` as they are when it classifies them. -/
def enriched (ouiTable : UInt32 → Option String) (mdnsResults : Map Ipv4Addr MdnsResult)
    (fingerprints : Map Ipv4Addr (Option Fingerprint.Result)) (arpEntries : List ArpEntry)
    (sweepResults : List Ipv4Addr) : List Device :=
  applyFingerprints fingerprints
    ((foundHosts arpEntries sweepResults).map (namedDevice ouiTable mdnsResults))

end Commands

/-! ## One update -/

/-- The OS hints of the devices with the address, in the order of the list. -/
def hintsAt (ip : Ipv4Addr) (devices : List Device) : List (Option String) :=
  (devices.filter fun d => d.ip = ip).map Device.osHint

variable {ip ip' : Ipv4Addr} {fp : Fingerprint.Result} {devices : List Device} {d : Device}

/-- The hints of the devices at an address. -/
theorem mem_hintsAt {hint : Option String} :
    hint ∈ hintsAt ip devices ↔ ∃ d ∈ devices, d.ip = ip ∧ d.osHint = hint := by
  simp [hintsAt, and_assoc]

theorem hintsAt_cons_self (d : Device) (devices : List Device) :
    hintsAt d.ip (d :: devices) = d.osHint :: hintsAt d.ip devices := by
  rw [hintsAt, List.filter_cons_of_pos (by simp)]
  rfl

theorem hintsAt_cons_of_ne (h : d.ip ≠ ip) : hintsAt ip (d :: devices) = hintsAt ip devices := by
  rw [hintsAt, List.filter_cons_of_neg (by simpa using h)]
  rfl

/-- The first device with the address gets the hint. -/
theorem hintsAt_updateFirst (ip : Ipv4Addr) (fp : Fingerprint.Result) (devices : List Device) :
    hintsAt ip (updateFirst (fun d => d.ip = ip) (·.applyFingerprint fp) devices)
      = (hintsAt ip devices).modifyHead fun _ => fp.osHint := by
  induction devices with
  | nil => rfl
  | cons d devices ih =>
    by_cases hip : d.ip = ip
    · subst hip
      rw [updateFirst, if_pos (decide_eq_true rfl), hintsAt_cons_self]
      exact hintsAt_cons_self (d.applyFingerprint fp) devices
    · rw [updateFirst, if_neg (by simpa using hip), hintsAt_cons_of_ne hip, hintsAt_cons_of_ne hip]
      exact ih

/-- Devices with other addresses keep theirs. -/
theorem hintsAt_updateFirst_of_ne (hne : ip' ≠ ip) (fp : Fingerprint.Result)
    (devices : List Device) :
    hintsAt ip' (updateFirst (fun d => d.ip = ip) (·.applyFingerprint fp) devices)
      = hintsAt ip' devices := by
  induction devices with
  | nil => rfl
  | cons d devices ih =>
    by_cases hip : d.ip = ip
    · have hother : d.ip ≠ ip' := fun h => hne (h.symm.trans hip)
      rw [updateFirst, if_pos (decide_eq_true hip), hintsAt_cons_of_ne hother]
      exact hintsAt_cons_of_ne hother
    · rw [updateFirst, if_neg (by simpa using hip)]
      by_cases hip' : d.ip = ip'
      · subst hip'
        rw [hintsAt_cons_self, hintsAt_cons_self, ih]
      · rw [hintsAt_cons_of_ne hip', hintsAt_cons_of_ne hip', ih]

/-- An update that only changes the hint changes nothing else. -/
theorem map_updateFirst {α β : Type} {p : α → Bool} {f : α → α} {g : α → β}
    (hg : ∀ x, g (f x) = g x) (xs : List α) : (updateFirst p f xs).map g = xs.map g := by
  induction xs with
  | nil => rfl
  | cons x xs ih =>
    rw [updateFirst]
    by_cases hp : p x = true
    · rw [if_pos hp, List.map_cons, List.map_cons, hg]
    · rw [if_neg hp, List.map_cons, List.map_cons, ih]

/-! ## The loop -/

namespace Commands

variable {fingerprints : Map Ipv4Addr (Option Fingerprint.Result)}

/-- An address has one entry, so its first device is updated at most once. -/
theorem hintsAt_applyFingerprints (ip : Ipv4Addr)
    (fingerprints : Map Ipv4Addr (Option Fingerprint.Result)) (devices : List Device) :
    hintsAt ip (applyFingerprints fingerprints devices)
      = match contents fingerprints ip with
        | some (some fp) => (hintsAt ip devices).modifyHead fun _ => fp.osHint
        | _ => hintsAt ip devices := by
  obtain ⟨entries, hnodup⟩ := fingerprints
  show hintsAt ip (entries.foldl _ devices) = match entries.dlookup ip with
    | some (some fp) => (hintsAt ip devices).modifyHead fun _ => fp.osHint
    | _ => hintsAt ip devices
  induction entries generalizing devices with
  | nil => rfl
  | cons entry entries ih =>
    obtain ⟨k, fp⟩ := entry
    obtain ⟨hnew, hrest⟩ := List.nodupKeys_cons.mp hnodup
    rw [List.foldl_cons, ih _ hrest]
    by_cases hk : ip = k
    · subst hk
      rw [List.dlookup_cons_eq, List.dlookup_eq_none.mpr hnew]
      cases fp with
      | none => rfl
      | some fp => exact hintsAt_updateFirst ip fp devices
    · have hlookup : (⟨k, fp⟩ :: entries).dlookup ip = entries.dlookup ip :=
        List.dlookup_cons_ne entries ⟨k, fp⟩ hk
      rw [hlookup]
      cases fp with
      | none => rfl
      | some fp =>
        dsimp only
        rw [hintsAt_updateFirst_of_ne hk]

/-- A field that a fingerprint leaves alone is as it was, in the same order. -/
theorem map_applyFingerprints {β : Type} {g : Device → β}
    (hg : ∀ d fp, g (d.applyFingerprint fp) = g d)
    (fingerprints : Map Ipv4Addr (Option Fingerprint.Result)) (devices : List Device) :
    (applyFingerprints fingerprints devices).map g = devices.map g := by
  unfold applyFingerprints
  generalize fingerprints.entries = entries
  induction entries generalizing devices with
  | nil => rfl
  | cons entry entries ih =>
    rw [List.foldl_cons, ih]
    cases entry.2 with
    | none => rfl
    | some fp => exact map_updateFirst (fun d => hg d fp) devices

/-! ## The devices before the loop -/

variable {ouiTable : UInt32 → Option String} {mdnsResults : Map Ipv4Addr MdnsResult}

/-- A device is where it was found, without a hint, and named by what mDNS heard there. -/
theorem namedDevice_spec (ouiTable : UInt32 → Option String)
    (mdnsResults : Map Ipv4Addr MdnsResult) (found : Found) :
    (namedDevice ouiTable mdnsResults found).ip = found.ip ∧
      (namedDevice ouiTable mdnsResults found).osHint = none ∧
      ∀ m, contents mdnsResults found.ip = some m →
        (namedDevice ouiTable mdnsResults found).hostname = some m.hostname ∧
          (namedDevice ouiTable mdnsResults found).services = m.services := by
  have hip := found.device_ip ouiTable
  have hnone : (found.device ouiTable).osHint = none := by cases found <;> rfl
  unfold namedDevice
  cases contents mdnsResults found.ip with
  | none => exact ⟨hip, hnone, fun _ h => nomatch h⟩
  | some m =>
    refine ⟨hip, hnone, fun m' h => ?_⟩
    obtain rfl := Option.some.inj h
    exact ⟨rfl, rfl⟩

/-- Before the loop there are no hints. -/
theorem hintsAt_namedDevices (ip : Ipv4Addr) (hosts : List Found) :
    hintsAt ip (hosts.map (namedDevice ouiTable mdnsResults))
      = List.replicate ((hosts.map Found.ip).count ip) none := by
  induction hosts with
  | nil => rfl
  | cons found hosts ih =>
    obtain ⟨hip, hnone, -⟩ := namedDevice_spec ouiTable mdnsResults found
    rw [List.map_cons, List.map_cons]
    by_cases hself : found.ip = ip
    · have hdev := hip.trans hself
      subst hdev
      rw [hintsAt_cons_self, hnone, ih, hself, List.count_cons_self, List.replicate_succ]
    · rw [hintsAt_cons_of_ne (hip ▸ hself), ih, List.count_cons_of_ne hself]

/-- The addresses of both lists, in their order. -/
theorem ip_foundHosts (arpEntries : List ArpEntry) (sweepResults : List Ipv4Addr) :
    (foundHosts arpEntries sweepResults).map Found.ip
      = arpEntries.map ArpEntry.ip ++ sweepResults := by
  rw [foundHosts, List.map_append, List.map_map, List.map_map]
  exact congrArg _ (List.map_id _)

/-! ## Evidence -/

/-- The device carries what was found out about its address. -/
structure HasEvidence (mdnsResults : Map Ipv4Addr MdnsResult)
    (fingerprints : Map Ipv4Addr (Option Fingerprint.Result)) (d : Device) : Prop where
  osHint : ∀ fp, contents fingerprints d.ip = some (some fp) → d.osHint = fp.osHint
  named : ∀ m, contents mdnsResults d.ip = some m →
    d.hostname = some m.hostname ∧ d.services = m.services

variable {arpEntries : List ArpEntry} {sweepResults : List Ipv4Addr} {d : Device}

/-- Names and services are carried by every device. -/
theorem enriched_named {m : MdnsResult}
    (hd : d ∈ enriched ouiTable mdnsResults fingerprints arpEntries sweepResults)
    (hm : contents mdnsResults d.ip = some m) :
    d.hostname = some m.hostname ∧ d.services = m.services := by
  -- the loop leaves address, name and services as they are
  have hkept := map_applyFingerprints (g := fun d => (d.ip, d.hostname, d.services))
    (fun _ _ => rfl) fingerprints
    ((foundHosts arpEntries sweepResults).map (namedDevice ouiTable mdnsResults))
  have hmem := List.mem_map_of_mem (f := fun d : Device => (d.ip, d.hostname, d.services)) hd
  rw [enriched, hkept, List.map_map] at hmem
  obtain ⟨found, -, heq⟩ := List.mem_map.mp hmem
  obtain ⟨hip, -, hnamed⟩ := namedDevice_spec ouiTable mdnsResults found
  simp only [Function.comp_apply, Prod.mk.injEq] at heq
  rw [← heq.2.1, ← heq.2.2]
  exact hnamed m (by rw [← hip, heq.1, hm])

/-- What the list shows of an address with a result: its first device has the hint,
the others have none. -/
theorem hintsAt_enriched {ip : Ipv4Addr} {fp : Fingerprint.Result} {n : Nat}
    (hfp : contents fingerprints ip = some (some fp))
    (hcount : (arpEntries.map ArpEntry.ip ++ sweepResults).count ip = n + 1) :
    hintsAt ip (enriched ouiTable mdnsResults fingerprints arpEntries sweepResults)
      = fp.osHint :: List.replicate n none := by
  rw [enriched, hintsAt_applyFingerprints, hfp, hintsAt_namedDevices, ip_foundHosts, hcount]
  rfl

/-- Every device is at an address of one of the lists. -/
theorem ip_mem_of_mem_enriched
    (hd : d ∈ enriched ouiTable mdnsResults fingerprints arpEntries sweepResults) :
    d.ip ∈ arpEntries.map ArpEntry.ip ++ sweepResults := by
  have hkept := map_applyFingerprints (g := Device.ip) (fun _ _ => rfl) fingerprints
    ((foundHosts arpEntries sweepResults).map (namedDevice ouiTable mdnsResults))
  have hmem := List.mem_map_of_mem (f := Device.ip) hd
  rw [enriched, hkept, List.map_map] at hmem
  rw [← ip_foundHosts]
  refine (List.map_congr_left fun found _ => ?_) ▸ hmem
  exact (namedDevice_spec ouiTable mdnsResults found).1

/-- **Evidence of a scan**: every device in the list carries the results for its
address iff no address whose fingerprint has an OS hint is listed more than once. -/
theorem scan_evidence_iff (ouiTable : UInt32 → Option String)
    (mdnsResults : Map Ipv4Addr MdnsResult)
    (fingerprints : Map Ipv4Addr (Option Fingerprint.Result)) (arpEntries : List ArpEntry)
    (sweepResults : List Ipv4Addr) :
    (∀ d ∈ enriched ouiTable mdnsResults fingerprints arpEntries sweepResults,
        HasEvidence mdnsResults fingerprints d) ↔
      ∀ ip fp hint, contents fingerprints ip = some (some fp) → fp.osHint = some hint →
        (arpEntries.map ArpEntry.ip ++ sweepResults).count ip ≤ 1 := by
  constructor
  · intro hall ip fp hint hfp hhint
    by_contra hmany
    -- the second device with the address has no hint
    obtain ⟨n, hn⟩ := Nat.exists_eq_add_of_le' (Nat.lt_of_not_le hmany)
    have hsecond := List.mem_cons_of_mem fp.osHint
      (List.mem_cons_self (a := (none : Option String)) (l := List.replicate n none))
    rw [← List.replicate_succ, ← hintsAt_enriched hfp hn] at hsecond
    obtain ⟨d, hd, rfl, hnone⟩ := mem_hintsAt.mp hsecond
    have hcarried := (hall d hd).osHint fp hfp
    rw [hnone, hhint] at hcarried
    cases hcarried
  · intro honce d hd
    refine ⟨fun fp hfp => ?_, fun m => enriched_named hd⟩
    obtain ⟨n, hn⟩ : ∃ n, (arpEntries.map ArpEntry.ip ++ sweepResults).count d.ip = n + 1 :=
      Nat.exists_eq_succ_of_ne_zero
        (List.count_pos_iff.mpr (ip_mem_of_mem_enriched hd)).ne'
    have hmem := mem_hintsAt.mpr ⟨d, hd, rfl, rfl⟩
    rw [hintsAt_enriched hfp hn] at hmem
    rcases List.mem_cons.mp hmem with heq | hmem
    · exact heq
    · -- another device with the address: then there is no hint to carry
      rw [List.eq_of_mem_replicate hmem]
      cases hhint : fp.osHint with
      | none => rfl
      | some hint =>
        have hle := honce d.ip fp hint hfp hhint
        obtain rfl : n = 0 := by omega
        cases hmem

/-- Two MACs answer for one address; the second stays without the hint. -/
theorem scan_evidence_of_conflict :
    let fingerprints : Map Ipv4Addr (Option Fingerprint.Result) :=
      (∅ : Map Ipv4Addr (Option Fingerprint.Result)).insert ⟨192, 168, 1, 10⟩
        (some ⟨some (Fingerprint.bareFingerprint 64 0), some "Linux"⟩)
    ¬ ∀ d ∈ enriched (fun _ => none) ∅ fingerprints
        [⟨⟨192, 168, 1, 10⟩, ⟨2, 0, 0, 0, 0, 1⟩⟩, ⟨⟨192, 168, 1, 10⟩, ⟨2, 0, 0, 0, 0, 2⟩⟩] [],
      HasEvidence ∅ fingerprints d := by
  intro fingerprints hall
  have hsecond : Device.ofArpEntry ⟨⟨192, 168, 1, 10⟩, ⟨2, 0, 0, 0, 0, 2⟩⟩
      ∈ enriched (fun _ => none) ∅ fingerprints
        [⟨⟨192, 168, 1, 10⟩, ⟨2, 0, 0, 0, 0, 1⟩⟩, ⟨⟨192, 168, 1, 10⟩, ⟨2, 0, 0, 0, 0, 2⟩⟩] [] :=
    List.mem_cons_of_mem _ List.mem_cons_self
  cases (hall _ hsecond).osHint ⟨some (Fingerprint.bareFingerprint 64 0), some "Linux"⟩ rfl

end Commands

end Gannet
