import Gannet.Discovery.Hostnames
import Gannet.Identity.Classify
import Gannet.Identity.History
import Gannet.Identity.Merging

/-!
# The services of the hosts a scan finds (mdns.rs, commands.rs, store.rs)

The messages of a host are collected, the services found in them become those of
a device, and `upsert` files them. Duplicates are removed inside a message
(`parse_mdns_records`) and when a record is merged with a device; the services
of several messages are only appended, and the record of a new host takes them
as they are.

`services_nodup_run`: in a run where no record is created from messages that
repeat a service, no record ever has a duplicate; the step that creates one
makes one.
-/

namespace Gannet

open Bytes KeyMap Function

namespace Mdns

/-! ## Collecting messages -/

/-- `MdnsResult` -/
structure MdnsResult where
  hostname : String
  services : List String
deriving DecidableEq, Repr

/-- The buffer of `recv_from`. -/
def receiveBufferSize : Nat := 4096

/-- What a read brings: an error, or a message with its sender's IPv4 address, if
it has one. -/
abbrev Read := Option (Option Ipv4Addr × List UInt8)

/-- What the loop body makes of a message: those of other hosts are skipped. -/
def takeIn (ip : Ipv4Addr) (found : ParseResult) (message : Option Ipv4Addr × List UInt8) :
    Except Panic ParseResult :=
  if message.1 ≠ some ip then .ok found
  else do
    let result ← parseMdnsRecords (message.2.take receiveBufferSize)
    return ⟨found.names ++ result.names, found.services ++ result.services⟩

/-- The candidates and the services of the messages that are read. -/
def collect (isUppercase : Char → Bool) (ip : Ipv4Addr)
    (received : List (Option Ipv4Addr × List UInt8)) : Except Panic (Option MdnsResult) := do
  let found ← received.foldlM (takeIn ip) ⟨[], []⟩
  return (bestHostname isUppercase found.names).map fun hostname => ⟨hostname, found.services⟩

/-- `unicast_mdns`, over what its reads bring until the deadline: an error ends
it. -/
def unicastMdns (isUppercase : Char → Bool) (ip : Ipv4Addr) (reads : List Read) :
    Except Panic (Option MdnsResult) :=
  collect isUppercase ip (reads.takeWhile Option.isSome).reduceOption

/-- `multicast_passive`: an error is skipped. -/
def multicastPassive (isUppercase : Char → Bool) (ip : Ipv4Addr) (reads : List Read) :
    Except Panic (Option MdnsResult) :=
  collect isUppercase ip reads.reduceOption

/-- The messages of the host among those that are read. -/
def messagesOf (ip : Ipv4Addr) (received : List (Option Ipv4Addr × List UInt8)) :
    List (List UInt8) :=
  (received.filter fun message => message.1 = some ip).map (·.2.take receiveBufferSize)

/-- The services of all messages of a host. -/
def announced (messages : List (List UInt8)) : List String :=
  messages.flatMap fun data => (parsed data).services

/-- The messages of the host are taken in, those of others passed over. -/
theorem foldlM_takeIn (ip : Ipv4Addr) (received : List (Option Ipv4Addr × List UInt8))
    (found : ParseResult) : received.foldlM (takeIn ip) found =
      .ok ⟨found.names ++ candidates (messagesOf ip received),
        found.services ++ announced (messagesOf ip received)⟩ := by
  induction received generalizing found with
  | nil =>
    show Except.ok found = _
    rw [show messagesOf ip [] = [] from rfl, candidates, announced, List.flatMap_nil,
      List.flatMap_nil, List.append_nil, List.append_nil]
  | cons message received ih =>
    rw [List.foldlM_cons]
    by_cases hip : message.1 = some ip
    · have hmessages : messagesOf ip (message :: received)
          = message.2.take receiveBufferSize :: messagesOf ip received := by
        rw [messagesOf, List.filter_cons_of_pos (by simpa using hip)]
        rfl
      have hparse := (parseMdnsRecords_eq_parsed (message.2.take receiveBufferSize)).1
      rw [takeIn, if_neg (not_not.mpr hip), hparse, hmessages]
      show received.foldlM (takeIn ip) _ = _
      rw [ih]
      simp only [candidates, announced, List.flatMap_cons, List.append_assoc]
    · have hmessages : messagesOf ip (message :: received) = messagesOf ip received := by
        rw [messagesOf, List.filter_cons_of_neg (by simpa using hip)]
        rfl
      rw [takeIn, if_pos hip, hmessages]
      exact ih found

/-- The hostname chosen from all messages, with all their services. -/
def describe (isUppercase : Char → Bool) (messages : List (List UInt8)) : Option MdnsResult :=
  (bestHostname isUppercase (candidates messages)).map fun hostname =>
    ⟨hostname, announced messages⟩

/-- What is collected is what the host's messages describe. -/
theorem collect_eq (isUppercase : Char → Bool) (ip : Ipv4Addr)
    (received : List (Option Ipv4Addr × List UInt8)) :
    collect isUppercase ip received = .ok (describe isUppercase (messagesOf ip received)) := by
  rw [collect, foldlM_takeIn]
  rfl

/-- Inside a message the services are a set. -/
theorem parsed_services_nodup (data : List UInt8) : (parsed data).services.Nodup := by
  by_cases hshort : data.length < 12
  · rw [parsed, parseMdnsRecords, if_pos hshort]
    exact List.nodup_nil
  have hparse := parseMdnsRecords_eq ⟨data, Nat.not_lt.mp hshort⟩
  dsimp only at hparse
  rw [parsed, hparse]
  by_cases htotal : recordCount ⟨data, Nat.not_lt.mp hshort⟩ = 0
  · rw [if_pos htotal]
    exact List.nodup_nil
  rw [if_neg htotal]
  obtain ⟨pos, services, hquestions, -⟩ :=
    questionsLoop_agree data (questionCount ⟨data, Nat.not_lt.mp hshort⟩) 12 []
  obtain ⟨records, added, -, hloop, -⟩ :=
    recordsLoop_visited data (recordCount ⟨data, Nat.not_lt.mp hshort⟩) pos [] services
  simp only [hquestions, hloop, bind, Except.bind]
  exact nodup_eraseDups (services ++ added)

/-- The services of several messages are a set iff no two messages share one. -/
theorem announced_nodup_iff {messages : List (List UInt8)} : (announced messages).Nodup ↔
    messages.Pairwise fun a b => (parsed a).services.Disjoint (parsed b).services := by
  rw [announced, List.nodup_flatMap]
  exact ⟨fun h => h.2, fun h => ⟨fun data _ => parsed_services_nodup data, h⟩⟩

/-! ## Asking a host -/

/-- `unicast_dns_reverse`: the one answer it waits for, whoever sent it. -/
def unicastDnsReverse (isUppercase : Char → Bool) (received : Option (List UInt8)) :
    Except Panic (Option MdnsResult) :=
  match received with
  | some data => do
    let result ← parseMdnsRecords (data.take 1500)
    return (bestHostname isUppercase result.names).map fun hostname => ⟨hostname, result.services⟩
  | none => .ok none

/-- `join().ok().flatten()` -/
def joined (result : Except Panic (Option MdnsResult)) : Option MdnsResult :=
  result.toOption.join

/-- What the three threads of `query_ip` receive. -/
structure Answers where
  unicast : List Read
  multicast : List Read
  reverse : Option (List UInt8)
deriving Repr

/-- `query_ip` -/
def queryIp (isUppercase : Char → Bool) (ip : Ipv4Addr) (answers : Answers) : Option MdnsResult :=
  let r1 := joined (unicastMdns isUppercase ip answers.unicast)
  let r2 := joined (multicastPassive isUppercase ip answers.multicast)
  let r3 := joined (unicastDnsReverse isUppercase answers.reverse)
  if r1.isSome then r1
  else if r2.isSome then r2
  else r3

/-- The messages have a name that may be a hostname. -/
def Named (messages : List (List UInt8)) : Prop :=
  ∃ n ∈ candidates messages, n ≠ "" ∧ 1 < n.utf8ByteSize ∧ isServiceLabel n.toList = false

instance (messages : List (List UInt8)) : Decidable (Named messages) :=
  inferInstanceAs (Decidable (∃ n ∈ candidates messages, _))

/-- The messages a host is described by: those of the first thread that has a
name for it. -/
def Answers.messages (ip : Ipv4Addr) (answers : Answers) : List (List UInt8) :=
  let unicast := messagesOf ip (answers.unicast.takeWhile Option.isSome).reduceOption
  let multicast := messagesOf ip answers.multicast.reduceOption
  let reverse := answers.reverse.toList.map (·.take 1500)
  if Named unicast then unicast
  else if Named multicast then multicast
  else if Named reverse then reverse
  else []

/-- There is a result iff some message names the host. -/
theorem describe_isSome (isUppercase : Char → Bool) (messages : List (List UInt8)) :
    (describe isUppercase messages).isSome ↔ Named messages := by
  rw [describe, Option.isSome_map, bestHostname, maxByKey_isSome, Ne,
    List.eq_nil_iff_forall_not_mem, not_forall_not]
  simp [List.mem_eraseDups, Named, and_assoc]

/-- The reverse lookup describes by its one message. -/
theorem unicastDnsReverse_eq (isUppercase : Char → Bool) (received : Option (List UInt8)) :
    unicastDnsReverse isUppercase received
      = .ok (describe isUppercase (received.toList.map (·.take 1500))) := by
  cases received with
  | none => rfl
  | some data =>
    rw [unicastDnsReverse, (parseMdnsRecords_eq_parsed _).1, describe]
    simp [candidates, announced]

/-- The messages each thread of `query_ip` accepts, in the order in which their
answers are preferred. -/
def Answers.sources (ip : Ipv4Addr) (answers : Answers) : List (List (List UInt8)) :=
  [messagesOf ip (answers.unicast.takeWhile Option.isSome).reduceOption,
    messagesOf ip answers.multicast.reduceOption,
    answers.reverse.toList.map (·.take 1500)]

/-- The first source that names the host decides. -/
theorem queryIp_eq (isUppercase : Char → Bool) (ip : Ipv4Addr) (answers : Answers) :
    queryIp isUppercase ip answers = (answers.sources ip).findSome? (describe isUppercase) := by
  have hjoined : ∀ result, joined (.ok result) = result := fun result => by
    cases result <;> rfl
  unfold queryIp unicastMdns multicastPassive Answers.sources
  rw [collect_eq, collect_eq, unicastDnsReverse_eq, hjoined, hjoined, hjoined]
  simp only [List.findSome?_cons, List.findSome?_nil]
  cases describe isUppercase (messagesOf ip (answers.unicast.takeWhile Option.isSome).reduceOption)
  · cases describe isUppercase (messagesOf ip answers.multicast.reduceOption)
    · cases describe isUppercase (answers.reverse.toList.map (·.take 1500)) <;> rfl
    · rfl
  · rfl

/-- The first source that is described is the first with a name. -/
theorem findSome?_describe (isUppercase : Char → Bool) (sources : List (List (List UInt8))) :
    (sources.findSome? (describe isUppercase)).map (·.services)
      = (sources.find? fun messages => Named messages).map announced := by
  induction sources with
  | nil => rfl
  | cons messages sources ih =>
    rw [List.findSome?_cons, List.find?_cons]
    by_cases hnamed : Named messages
    · obtain ⟨result, hresult⟩ :=
        Option.isSome_iff_exists.mp ((describe_isSome isUppercase messages).mpr hnamed)
      obtain ⟨hostname, hbest, rfl⟩ := Option.map_eq_some_iff.mp hresult
      rw [hresult, decide_eq_true hnamed]
      rfl
    · have hnone := Option.not_isSome_iff_eq_none.mp
        (mt (describe_isSome isUppercase messages).mp hnamed)
      rw [hnone, decide_eq_false hnamed]
      exact ih

/-- The result of `query_ip` has the services of the messages the host is
described by. -/
theorem queryIp_services (isUppercase : Char → Bool) (ip : Ipv4Addr) (answers : Answers) :
    ((queryIp isUppercase ip answers).map (·.services)).getD []
      = announced (answers.messages ip) := by
  have hmessages : answers.messages ip
      = ((answers.sources ip).find? fun messages => Named messages).getD [] := by
    unfold Answers.messages Answers.sources
    simp only [List.find?_cons, List.find?_nil]
    split_ifs with hunicast hmulticast hreverse
    · rw [decide_eq_true hunicast]
      rfl
    · rw [decide_eq_false hunicast, decide_eq_true hmulticast]
      rfl
    · rw [decide_eq_false hunicast, decide_eq_false hmulticast, decide_eq_true hreverse]
      rfl
    · rw [decide_eq_false hunicast, decide_eq_false hmulticast, decide_eq_false hreverse]
      rfl
  rw [queryIp_eq, findSome?_describe, hmessages]
  cases (answers.sources ip).find? fun messages => Named messages <;> rfl

end Mdns

/-! ## The devices of a scan -/

/-- A host the scan found: it answered ARP, or only the sweep. -/
inductive Found where
  | arp (entry : ArpEntry)
  | sweep (ip : Ipv4Addr)
deriving DecidableEq, Repr

namespace Found

/-- The address of the host. -/
def ip : Found → Ipv4Addr
  | arp entry => entry.ip
  | sweep ip => ip

/-- The device as it is found; the vendor goes by the MAC. -/
def device (ouiTable : UInt32 → Option String) : Found → Device
  | arp entry => { Device.ofArpEntry entry with vendor := ouiLookup ouiTable entry.mac }
  | sweep ip => .fromSweep ip

/-- A device is where it was found. -/
theorem device_ip (ouiTable : UInt32 → Option String) (found : Found) :
    (found.device ouiTable).ip = found.ip := by
  cases found <;> rfl

end Found

/-- A host of a scan: how it was found, what it answered when it was asked for
its name, and the OS hint of its fingerprint if there is one. -/
structure HostScan where
  found : Found
  answers : Mdns.Answers
  fingerprint : Option (Option String)
deriving Repr

/-- The tables the scan looks things up in: vendors, and which characters are
upper case. -/
structure ScanTables where
  ouiTable : UInt32 → Option String
  isUppercase : Char → Bool

namespace HostScan

/-- The device `scan` makes of a host. -/
def device (tables : ScanTables) (host : HostScan) : Device :=
  let d := host.found.device tables.ouiTable
  let d := match Mdns.queryIp tables.isUppercase host.found.ip host.answers with
    | some m => { d with hostname := some m.hostname, services := m.services }
    | none => d
  let d := match host.fingerprint with
    | some osHint => { d with osHint := osHint }
    | none => d
  d.classify

variable (tables : ScanTables) (host : HostScan)

/-- Its address and MAC are those it was found with, its services those of the
messages it is described by. -/
theorem device_spec : (host.device tables).ip = host.found.ip ∧
    (host.device tables).mac = (host.found.device tables.ouiTable).mac ∧
    (host.device tables).services
      = Mdns.announced (host.answers.messages host.found.ip) := by
  have hip := host.found.device_ip tables.ouiTable
  have hnone : (host.found.device tables.ouiTable).services = [] := by
    cases host.found <;> rfl
  unfold device
  rw [← Mdns.queryIp_services tables.isUppercase]
  cases Mdns.queryIp tables.isUppercase host.found.ip host.answers with
  | none =>
    cases host.fingerprint with
    | none => exact ⟨hip, rfl, hnone⟩
    | some osHint => exact ⟨hip, rfl, hnone⟩
  | some m =>
    cases host.fingerprint with
    | none => exact ⟨hip, rfl, rfl⟩
    | some osHint => exact ⟨hip, rfl, rfl⟩

end HostScan

/-! ## Records and their services -/

/-- The services of every record are a set. -/
def ServicesNodup (c : Contents) : Prop := ∀ k r, c k = some r → r.services.Nodup

/-- A sighting of the device creates a record: there is none for its MAC and none
was last seen at its address, or, without MAC, there is none for the address. -/
def Creates (c : Contents) (d : Device) : Prop :=
  match d.mac with
  | some m => c (macKey m) = none ∧ ∀ k r, c k = some r → r.lastIp ≠ d.ip.toText
  | none => c (ipKey d.ip) = none

variable {c c' : Contents} {d : Device} {tagGen : String → String} {now : Nat} {r' : Record}

theorem servicesNodup_empty : ServicesNodup fun _ => none := fun _ _ h => nomatch h

/-- The record of an identity takes the services as they are if it is created, else
they are merged into it. -/
theorem touch_services (c : Contents) (id : Identity) (d : Device) (tagGen : String → String)
    (now : Nat) :
    (c id.key = none ∧ (touch c id d tagGen now).services = d.services) ∨
      ∃ r, c id.key = some r ∧
        (touch c id d tagGen now).services = mergeStringVec r.services d.services := by
  cases hk : c id.key with
  | none =>
    rw [touch_of_none hk]
    exact .inl ⟨rfl, mergeStringVec_of_subset (List.Subset.refl d.services)⟩
  | some r =>
    rw [touch_of_some hk]
    exact .inr ⟨r, rfl, rfl⟩

/-- A MAC gets a new record iff neither its key nor its address is taken. -/
theorem creates_mac_iff {m : MacAddr6} (hmac : d.mac = some m) : Creates c d ↔
    c (macKey m) = none ∧ ∀ k r, c k = some r → r.lastIp ≠ d.ip.toText := by
  rw [Creates, hmac]

/-- An address gets a new record iff its key is not taken. -/
theorem creates_addr_iff (hmac : d.mac = none) : Creates c d ↔ c (ipKey d.ip) = none := by
  rw [Creates, hmac]

/-- A created record takes the services as they are; to another they are
merged. -/
theorem Sighting.services (hw : WellFormed c) (h : Sighting c d tagGen now c' r') :
    (Creates c d ∧ r'.services = d.services) ∨
      ¬ Creates c d ∧ ∃ k r, c k = some r ∧ r'.services = mergeStringVec r.services d.services := by
  cases h with
  | absorb hmac hk hip _ _ =>
    refine .inr ⟨fun hcreates => ?_, _, _, hk, rfl⟩
    exact ((creates_mac_iff hmac).mp hcreates).2 _ _ hk hip
  | promote hmac hk =>
    refine .inr ⟨fun hcreates => ?_, _, _, hk, ?_⟩
    · exact ((creates_mac_iff hmac).mp hcreates).2 _ _ hk (hw.lastIp_of_ipKey hk)
    · rw [Record.promote_of_none (hw.mac_of_ipKey hk)]
      rfl
  | @own m hmac hfree =>
    rcases touch_services c (.mac m) d tagGen now with ⟨hk, hservices⟩ | ⟨r, hk, hservices⟩
    · refine .inl ⟨(creates_mac_iff hmac).mpr ⟨hk, fun k r hk' hip => ?_⟩, hservices⟩
      rw [hfree k r hk' hip] at hk'
      exact nomatch hk.symm.trans hk'
    · refine .inr ⟨fun hcreates => ?_, _, r, hk, hservices⟩
      exact nomatch ((creates_mac_iff hmac).mp hcreates).1.symm.trans hk
  | anonymous hmac =>
    rw [creates_addr_iff hmac]
    rcases touch_services c (.addr d.ip) d tagGen now with ⟨hk, hservices⟩ | ⟨r, hk, hservices⟩
    · exact .inl ⟨hk, hservices⟩
    · exact .inr ⟨fun hnone => (nomatch hnone.symm.trans hk), _, r, hk, hservices⟩

/-- A sighting keeps the services of all records sets, unless it creates one for
a device that names a service twice. -/
theorem ServicesNodup.sighting_iff (hw : WellFormed c) (hs : ServicesNodup c)
    (h : Sighting c d tagGen now c' r') :
    ServicesNodup c' ↔ (Creates c d → d.services.Nodup) := by
  rcases h.services hw with ⟨hcreates, hservices⟩ | ⟨hnot, k, r, hk, hservices⟩
  · constructor
    · intro hs' _
      exact hservices ▸ hs' _ _ (h.filed hw)
    · intro hnodup k r hk
      rcases h.entry hk with rfl | hold
      · exact hservices ▸ hnodup hcreates
      · exact hs k r hold
  · refine ⟨fun _ hcreates => absurd hcreates hnot, fun _ k₁ r₁ hk₁ => ?_⟩
    rcases h.entry hk₁ with rfl | hold
    · exact hservices ▸ mergeStringVec_nodup (hs k r hk) _
    · exact hs k₁ r₁ hold

/-! ## Runs -/

/-- A host is upserted at a clock reading. -/
def ScanStep (tables : ScanTables) (s : Store) (sighted : HostScan × Nat) (t : Store) : Prop :=
  Store.Step s (.upsert (sighted.1.device tables) Namer.generate sighted.2) t

/-- If a record is created for the host, no service is in two of the messages it
is described by. -/
def NoRepeat (tables : ScanTables) (s : Store) (sighted : HostScan × Nat) : Prop :=
  Creates s.contents (sighted.1.found.device tables.ouiTable) →
    (sighted.1.answers.messages sighted.1.found.ip).Pairwise fun a b =>
      (Mdns.parsed a).services.Disjoint (Mdns.parsed b).services

variable {tables : ScanTables} {s t : Store}

/-- From a store whose services are sets, the next host keeps that iff it does not
come with a repeated service. -/
theorem servicesNodup_step_iff (hw : WellFormed s.contents) (hs : ServicesNodup s.contents)
    {sighted : HostScan × Nat} (hstep : ScanStep tables s sighted t) :
    ServicesNodup t.contents ↔ NoRepeat tables s sighted := by
  obtain ⟨host, now⟩ := sighted
  obtain ⟨hip, hmac, hservices⟩ := host.device_spec tables
  have hcreates : Creates s.contents (host.device tables) ↔
      Creates s.contents (host.found.device tables.ouiTable) := by
    rw [Creates, Creates, hip, hmac, host.found.device_ip]
  cases hstep.transition hw with
  | sighting h =>
    rw [hs.sighting_iff hw h, hcreates, hservices, Mdns.announced_nodup_iff]
    rfl

/-- **Services are sets**: in a run where every record is created from messages
that share no service, no record has a duplicate service, and the next step makes
one exactly when it creates a record from messages that share one. -/
theorem services_nodup_run {hosts : List (HostScan × Nat)}
    (hrun : Lts.Run (Lts.Guarded (ScanStep tables) (NoRepeat tables)) .empty hosts s) :
    ServicesNodup s.contents ∧ ∀ sighted t, ScanStep tables s sighted t →
      (ServicesNodup t.contents ↔ NoRepeat tables s sighted) := by
  have hinv : WellFormed s.contents ∧ ServicesNodup s.contents := by
    refine hrun.invariant (fun s => WellFormed s.contents ∧ ServicesNodup s.contents)
      ⟨wellFormed_empty, servicesNodup_empty⟩ ?_
    rintro s t sighted ⟨hw, hs⟩ ⟨hclean, hstep⟩
    exact ⟨hw.step hstep, (servicesNodup_step_iff hw hs hstep).mpr hclean⟩
  exact ⟨hinv.2, fun sighted t hstep => servicesNodup_step_iff hinv.1 hinv.2 hstep⟩

/-- The answer of a server: its name, and that it has SSH. -/
def serverAnswer : List UInt8 :=
  [0, 0, 0x84, 0, 0, 0, 0, 1, 0, 0, 0, 0] ++
    4 :: "_ssh".toUTF8.toList ++ 4 :: "_tcp".toUTF8.toList ++ 5 :: "local".toUTF8.toList ++
    [0, 0, 12, 0, 1, 0, 0, 0, 120, 0, 23] ++
    5 :: "nas-1".toUTF8.toList ++
    4 :: "_ssh".toUTF8.toList ++ 4 :: "_tcp".toUTF8.toList ++ 5 :: "local".toUTF8.toList ++ [0]

/-- The laptop, which gives that answer to so many queries. -/
def answersTo (queries : Nat) : HostScan where
  found := .arp ⟨desk, laptop⟩
  answers := ⟨List.replicate queries (some (some desk, serverAnswer)), [], none⟩
  fingerprint := none

/-- No vendor is known. -/
def noTables : ScanTables := ⟨fun _ => none, Char.isUpper⟩

/-- The services of the laptop's record. -/
def laptopServices (s : Store) : Option (List String) :=
  (s.contents (macKey laptop)).map (·.services)

/-- Two of the queries are answered, with the same service: the new record has it
twice. -/
theorem services_repeated :
    ∃ s, Lts.Run (ScanStep noTables) .empty [(answersTo 2, 0)] s ∧
      laptopServices s = some ["ssh", "ssh"] ∧ ¬ ServicesNodup s.contents := by
  have htwice : laptopServices (Store.empty.apply (.upsert ((answersTo 2).device noTables)
      Namer.generate 0)) = some ["ssh", "ssh"] := by decide +kernel
  refine ⟨_, .single (Store.step_apply _ _), htwice, fun hs => ?_⟩
  obtain ⟨r, hr, hservices⟩ := Option.map_eq_some_iff.mp htwice
  have hnodup := hs _ r hr
  rw [hservices] at hnodup
  exact absurd hnodup (by decide)

/-- The first scan had one answer; the second merges its two. -/
theorem services_nodup_laptop :
    ServicesNodup ((Store.empty.apply
        (.upsert ((answersTo 1).device noTables) Namer.generate 0)).apply
      (.upsert ((answersTo 2).device noTables) Namer.generate 1)).contents := by
  have hfirst : NoRepeat noTables .empty (answersTo 1, 0) := fun _ =>
    Mdns.announced_nodup_iff.mp (by decide +kernel)
  have hsecond : NoRepeat noTables (Store.empty.apply
      (.upsert ((answersTo 1).device noTables) Namer.generate 0)) (answersTo 2, 1) := fun hcreates =>
    absurd hcreates.1 (by decide +kernel)
  have hrun : Lts.Run (Lts.Guarded (ScanStep noTables) (NoRepeat noTables)) .empty
      ([(answersTo 1, 0)] ++ [(answersTo 2, 1)])
      ((Store.empty.apply (.upsert ((answersTo 1).device noTables) Namer.generate 0)).apply
        (.upsert ((answersTo 2).device noTables) Namer.generate 1)) :=
    .append (.single ⟨hfirst, Store.step_apply _ _⟩) (.single ⟨hsecond, Store.step_apply _ _⟩)
  exact (services_nodup_run hrun).1

end Gannet
