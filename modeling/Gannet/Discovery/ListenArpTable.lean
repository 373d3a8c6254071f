import Gannet.Discovery.ListenRecords
import Gannet.Discovery.ListenServices

/-!
# Real MACs under the passive listener

Where the kernel's ARP table and mDNS are both listened to, an address may be
reported with its MAC and with the placeholder. The loop keeps the first of the
two reports it takes: a host that was heard over mDNS first stays a record of the
broadcast address, and its ARP entry is skipped.

- `real_mac_wins`: in every run in which each step leaves a sighting with the host it
  is about: once the queues are empty every reported MAC has a record with its
  address, and all records are, apart from their times, what they are after any other
  such interleaving of the same streams.
- `placeholder_wins`: the run that keeps the placeholder.
-/

namespace Gannet

open KeyMap Function

variable {c c' c₀ : Contents} {ip : Ipv4Addr} {m n : MacAddr6}

/-- The MAC has a record that has the address. -/
def Known (c : Contents) (ip : Ipv4Addr) (m : MacAddr6) : Prop :=
  ∃ r, c (macKey m) = some r ∧ ip.toText ∈ r.ips

instance (c : Contents) (ip : Ipv4Addr) (m : MacAddr6) : Decidable (Known c ip m) :=
  decidable_of_iff (∃ r ∈ c (macKey m), ip.toText ∈ r.ips) Iff.rfl

namespace Passive

open Listener

variable {cfg : Config} {s t : Listener} {e : Event} {events events' : List Event}
  {b b' : Book} {seenLocal seenLocal' : Map Ipv4Addr MacAddr6} {entry : ArpEntry}

/-! ## The streams of a run -/

/-- A producer reported the real MAC for the address. -/
def Reported (events : List Event) (ip : Ipv4Addr) (m : MacAddr6) : Prop :=
  m.isPlaceholder = false ∧ Event.sent (.entry ⟨ip, m⟩) ∈ events

/-- The real MACs reported, in the order in which they were sent. -/
def reports (events : List Event) : List ArpEntry :=
  (events.filterMap Event.entrySent).filter fun entry => !entry.mac.isPlaceholder

/-- The placeholders sent. -/
def placeholders (events : List Event) : List ArpEntry :=
  (events.filterMap Event.entrySent).filter fun entry => entry.mac.isPlaceholder

/-- The reports are the real entries that were read. -/
theorem mem_reports : ⟨ip, m⟩ ∈ reports events ↔ Reported events ip m := by
  rw [reports, List.mem_filter, List.mem_filterMap, Bool.not_eq_true', and_comm, Reported]
  refine and_congr_right fun _ => ⟨?_, fun h => ⟨_, h, rfl⟩⟩
  rintro ⟨e, he, hsent⟩
  exact Event.entrySent_eq_some.mp hsent ▸ he

/-- Two interleavings of the same streams: of real MACs, of placeholders and of service
events. -/
structure SameStreams (events events' : List Event) : Prop where
  reports : reports events = reports events'
  placeholders : placeholders events = placeholders events'
  services : events.filterMap Event.serviceSent = events'.filterMap Event.serviceSent

instance (events events' : List Event) : Decidable (SameStreams events events') :=
  decidable_of_iff (Passive.reports events = Passive.reports events' ∧
      Passive.placeholders events = Passive.placeholders events' ∧
      events.filterMap Event.serviceSent = events'.filterMap Event.serviceSent)
    ⟨fun h => ⟨h.1, h.2.1, h.2.2⟩, fun h => ⟨h.reports, h.placeholders, h.services⟩⟩

/-! ## Books of the same streams -/

/-- The books have the same real MACs, placeholders and service events. -/
structure Book.Agrees (b b' : Book) : Prop where
  reals : b.reals = b'.reals
  placeholders : b.popped.filter (·.mac.isPlaceholder) = b'.popped.filter (·.mac.isPlaceholder)
  services : b.services = b'.services

theorem Book.Agrees.symm (h : b.Agrees b') : b'.Agrees b :=
  ⟨h.reals.symm, h.placeholders.symm, h.services.symm⟩

/-- A real MAC taken has a record with its address. -/
theorem Booked.known (h : Booked cfg c₀ b seenLocal c) (hpopped : ⟨ip, m⟩ ∈ b.popped)
    (hreal : m.isPlaceholder = false) : Known c ip m := by
  have hvisit : ⟨ip, m⟩ ∈ b.visits m :=
    Book.mem_visits.mpr (.inr ⟨Book.mem_reals.mpr ⟨hpopped, hreal⟩, rfl⟩)
  have hdevice : entryDevice cfg ⟨ip, m⟩ ∈ b.history cfg m := Book.entryDevice_mem_history hvisit
  obtain ⟨r, hr, hip⟩ := ip_mem_recorded (c := c₀) (m := m) hdevice
  rw [← h.record] at hr
  obtain ⟨r', hk, rfl⟩ := Option.map_eq_some_iff.mp hr
  exact ⟨r', hk, hip⟩

/-- The placeholder of a host is the same, whenever it was taken. -/
theorem Booked.host_of_agrees (h : Booked cfg c₀ b seenLocal c)
    (h' : Booked cfg c₀ b' seenLocal' c') (hagrees : b.Agrees b')
    (hhost : b.host m = some entry) : b'.host m = some entry := by
  obtain ⟨hplaceholder, hof, hfirst⟩ := h.host m entry hhost
  rw [hagrees.placeholders] at hfirst
  -- it was taken, so the address was visited
  have hat := List.find?_some hfirst
  obtain ⟨-, hlocated⟩ := (Bool.and_eq_true _ _).mp hat
  have hmem := (List.mem_filter.mp (List.mem_of_find?_eq_some hfirst)).1
  obtain ⟨mac, hlookup⟩ : ∃ mac, seenLocal'.lookup entry.ip = some mac := by
    rw [← Option.isSome_iff_exists, AList.lookup_isSome]
    exact h'.passed entry hmem hlocated
  obtain ⟨n, hvisit⟩ := (h'.seen ⟨entry.ip, mac⟩).mp hlookup
  rcases Book.mem_visits.mp hvisit with hhost' | ⟨hreal, hmac⟩
  · obtain ⟨-, hof', hfirst'⟩ := h'.host n _ hhost'
    have hentry : entry = ⟨entry.ip, mac⟩ := Option.some.inj (hfirst.symm.trans hfirst')
    rw [hagrees.reals] at hof
    rw [hof.unique hof', hhost', ← hentry]
  · -- a real MAC of the address would have been the only visit
    rw [← hagrees.reals] at hreal
    have hvisit' := Book.mem_visits.mpr (.inr ⟨hreal, hmac⟩)
    have hsame := h.visit_unique (Book.mem_visits.mpr (.inl hhost)) hvisit' rfl
    rw [hsame, (Book.mem_reals.mp hreal).2] at hplaceholder
    exact absurd hplaceholder (by decide)

/-- Books that agree have the same visits, so the same MAC holds each address. -/
theorem Booked.visits_of_agrees (h : Booked cfg c₀ b seenLocal c)
    (h' : Booked cfg c₀ b' seenLocal' c') (hagrees : b.Agrees b') (m : MacAddr6) :
    b.visits m = b'.visits m := by
  have hhost : b.host m = b'.host m := Option.ext fun entry =>
    ⟨h.host_of_agrees h' hagrees, h'.host_of_agrees h hagrees.symm⟩
  rw [Book.visits, Book.visits, hhost, hagrees.reals]

/-- Books that agree say the same of every record. -/
theorem Booked.records_of_agrees (h : Booked cfg c₀ b seenLocal c)
    (h' : Booked cfg c₀ b' seenLocal' c') (hagrees : b.Agrees b') (k : String) :
    (c k).map Record.timeless = (c' k).map Record.timeless := by
  have hvisits := h.visits_of_agrees h' hagrees
  have hseen : ∀ ip, ip ∈ seenLocal ↔ ip ∈ seenLocal' := by
    intro ip
    rw [← AList.lookup_isSome, ← AList.lookup_isSome, Option.isSome_iff_exists,
      Option.isSome_iff_exists]
    refine exists_congr fun mac => ?_
    rw [h.seen ⟨ip, mac⟩, h'.seen ⟨ip, mac⟩]
    simp only [hvisits]
  by_cases hkey : ∃ id : Identity, k = id.key
  · obtain ⟨id, rfl⟩ := hkey
    cases id with
    | mac m =>
      show (c (macKey m)).map Record.timeless = (c' (macKey m)).map Record.timeless
      rw [h.record, h'.record, Book.history, Book.history, hvisits, hagrees.services]
    | addr ip =>
      show (c (ipKey ip)).map Record.timeless = (c' (ipKey ip)).map Record.timeless
      rw [h.address, h'.address]
      simp only [hseen]
  · -- there are no records under other keys
    have hnone : ∀ {c : Contents}, WellFormed c → c k = none := by
      intro c hw
      by_contra hsome
      obtain ⟨r, hr⟩ := Option.ne_none_iff_exists'.mp hsome
      obtain ⟨id, hid, -⟩ := hw k r hr
      exact hkey ⟨id, hid⟩
    rw [hnone h.wellFormed, hnone h'.wellFormed]

/-! ## Runs -/

/-- A guarded run keeps its book. -/
theorem booked_of_run {store : Store} (hw : WellFormed store.contents)
    (hclean : NoPlaceholder store.contents)
    (hrun : Lts.Run (Lts.Guarded (Step cfg) KeepsRealMac) (.init store) events s) :
    Accounted events s ∧ ∃ b, Booked cfg store.contents b s.seenLocal s.store.contents ∧
      Drawn events s b := by
  refine hrun.invariant_labels
    (fun events s => Accounted events s ∧
      ∃ b, Booked cfg store.contents b s.seenLocal s.store.contents ∧ Drawn events s b)
    ⟨accounted_init store, .empty, booked_init hw hclean, ⟨rfl, rfl⟩⟩ ?_
  rintro events e s t - ⟨ha, b, hbooked, hdrawn⟩ ⟨hkeep, hstep⟩
  have houtcome := hstep.outcome hbooked.wellFormed
  exact ⟨ha.step houtcome, hbooked.step hdrawn hkeep houtcome⟩

/-- Once nothing waits, the book has all that was sent. -/
theorem Drawn.drained (h : Drawn events s b) (hdrained : s.Drained) :
    b.popped = events.filterMap Event.entrySent ∧
      b.services = events.filterMap Event.serviceSent := by
  rw [h.entries, h.services, hdrained.rx, hdrained.serviceRx, List.append_nil, List.append_nil]
  exact ⟨rfl, rfl⟩

/-- Runs of the same streams have books that agree. -/
theorem SameStreams.agrees (h : SameStreams events events')
    (hpopped : b.popped = events.filterMap Event.entrySent ∧
      b.services = events.filterMap Event.serviceSent)
    (hpopped' : b'.popped = events'.filterMap Event.entrySent ∧
      b'.services = events'.filterMap Event.serviceSent) : b.Agrees b' where
  reals := by
    rw [Book.reals, Book.reals, hpopped.1, hpopped'.1]
    exact congrArg (fun entries => entries.reverse.dedup.reverse) h.reports
  placeholders := by
    rw [hpopped.1, hpopped'.1]
    exact h.placeholders
  services := by rw [hpopped.2, hpopped'.2, h.services]

/-- **Real MACs win**: for every mode and interface, every well-formed store
without a record of a placeholder, and every interleaving of reads, sends and
receives whose steps leave sightings with their hosts, once the queues are empty:
every real MAC of an ARP table that was read is reported, every reported real MAC has
a record that has its address, and any other such interleaving of the same streams,
at whatever times, ends with the same records but for the times in them. -/
theorem real_mac_wins {store : Store} (hw : WellFormed store.contents)
    (hclean : NoPlaceholder store.contents)
    (hrun : Lts.Run (Lts.Guarded (Step cfg) KeepsRealMac) (.init store) events s)
    (hdrained : s.Drained) :
    (∀ contents, Event.read (.arpTable contents) ∈ events → ∀ entry ∈ parseArpTable contents,
        entry.mac.isPlaceholder = false → Reported events entry.ip entry.mac) ∧
      (∀ ip m, Reported events ip m → Known s.store.contents ip m) ∧
      ∀ events' s', Lts.Run (Lts.Guarded (Step cfg) KeepsRealMac) (.init store) events' s' →
        s'.Drained → SameStreams events events' →
        ∀ k, (s.store.contents k).map Record.timeless
          = (s'.store.contents k).map Record.timeless := by
  obtain ⟨ha, b, hbooked, hdrawn⟩ := booked_of_run hw hclean hrun
  have hpopped := hdrawn.drained hdrained
  refine ⟨fun contents hread entry hentry hreal =>
    ⟨hreal, ha.polled_sent hdrained hread hentry⟩, fun ip m hreported => ?_, ?_⟩
  · refine hbooked.known ?_ hreported.1
    rw [hpopped.1]
    exact (List.mem_filter.mp (mem_reports.mpr hreported)).1
  · intro events' s' hrun' hdrained' hsame k
    obtain ⟨-, b', hbooked', hdrawn'⟩ := booked_of_run hw hclean hrun'
    exact hbooked.records_of_agrees hbooked'
      (hsame.agrees hpopped (hdrawn'.drained hdrained')) k

/-! ## The desk over mDNS and in the ARP table -/

/-- The mode in which the kernel's table is polled beside mDNS. -/
def arpTableConfig : Config := ⟨.arpTable, .release, none, fun _ => none⟩

/-- An empty mDNS packet of the desk is read and sent on. -/
def mdnsFromDesk : List Action := [.read (.mdnsPacket desk []), .send .listenMdns]

/-- The table with the laptop at the desk is read and sent on. -/
def arpTableOfDesk : List Action :=
  [.read (.arpTable (some "IP address\n192.168.1.10 0x1 0x2 02:00:00:00:00:01 * eth0\n")),
    .send .pollArpTable]

/-- Heard over mDNS first, the desk has no record of its MAC, which it has in the
other order. -/
theorem placeholder_wins :
    ∃ events s events' s', Lts.Run (Step arpTableConfig) (.init .empty) events s ∧
      Lts.Run (Step arpTableConfig) (.init .empty) events' s' ∧ s.Drained ∧ s'.Drained ∧
      SameStreams events events' ∧
      (∀ ip m, Reported events ip m ↔ ip = desk ∧ m = laptop) ∧
      (∀ ip m, Reported events' ip m ↔ ip = desk ∧ m = laptop) ∧
      s.store.contents (macKey laptop) = none ∧ Known s'.store.contents desk laptop := by
  have hrun : ∃ p ∈ runActions arpTableConfig (fun _ _ => True) (.init .empty)
        (mdnsFromDesk ++ arpTableOfDesk ++ [.receive 0, .receive 0]),
      ∃ p' ∈ runActions arpTableConfig (fun _ _ => True) (.init .empty)
        (arpTableOfDesk ++ mdnsFromDesk ++ [.receive 0, .receive 0]),
      p.2.Drained ∧ p'.2.Drained ∧ SameStreams p.1 p'.1 ∧ reports p.1 = [⟨desk, laptop⟩] ∧
        reports p'.1 = [⟨desk, laptop⟩] ∧ p.2.store.contents (macKey laptop) = none ∧
        Known p'.2.store.contents desk laptop := by
    decide +kernel
  have hreported : ∀ {events : List Event}, reports events = [⟨desk, laptop⟩] →
      ∀ ip m, Reported events ip m ↔ ip = desk ∧ m = laptop := by
    intro events h ip m
    rw [← mem_reports, h, List.mem_singleton, ArpEntry.mk.injEq]
  obtain ⟨⟨events, s⟩, hrun, ⟨events', s'⟩, hrun', hdrained, hdrained', hsame, hreports, hreports',
    hnone, hknown⟩ := hrun
  exact ⟨events, s, events', s', (run_actions hrun).of_guarded, (run_actions hrun').of_guarded,
    hdrained, hdrained', hsame, hreported hreports, hreported hreports', hnone, hknown⟩

/-- The sofa over mDNS, where the phone was recorded. -/
def mdnsFromSofa : List Action := [.read (.mdnsPacket sofa []), .send .listenMdns]

/-- A packet of the printer at the desk: its services, then its placeholder. -/
def printerAtDesk : List Action :=
  [.read (.mdnsPacket desk printerPacket), .send .listenMdns, .send .listenMdns]

/-- The real MAC of the desk is taken before and after the placeholder of the sofa: the
records of laptop and phone differ in nothing but the times. -/
theorem real_mac_wins_at_desk :
    ∃ (events events' : List Event) (s s' : Listener), SameStreams events events' ∧
      Reported events desk laptop ∧ Known s.store.contents desk laptop ∧
      s.store.contents (macKey laptop) ≠ s'.store.contents (macKey laptop) ∧
      s.store.contents (macKey phone) ≠ s'.store.contents (macKey phone) ∧
      ∀ k, (s.store.contents k).map Record.timeless
        = (s'.store.contents k).map Record.timeless := by
  have hrun : ∃ p ∈ runActions arpTableConfig KeepsRealMac (.init (.ofOps [.arp sofa phone 0]))
        (arpTableOfDesk ++ [.receive 1] ++ printerAtDesk ++ [.receiveService 2, .receive 3] ++
          mdnsFromSofa ++ [.receive 4]),
      ∃ p' ∈ runActions arpTableConfig KeepsRealMac (.init (.ofOps [.arp sofa phone 0]))
        (printerAtDesk.take 2 ++ arpTableOfDesk ++ [.receive 6] ++ printerAtDesk.drop 2 ++
          mdnsFromSofa ++ [.receive 7, .receive 8, .receiveService 9]),
      p.2.Drained ∧ p'.2.Drained ∧ SameStreams p.1 p'.1 ∧ ⟨desk, laptop⟩ ∈ reports p.1 ∧
        p.2.store.contents (macKey laptop) ≠ p'.2.store.contents (macKey laptop) ∧
        p.2.store.contents (macKey phone) ≠ p'.2.store.contents (macKey phone) := by
    decide +kernel
  obtain ⟨⟨events, s⟩, hrun, ⟨events', s'⟩, hrun', hdrained, hdrained', hsame, hmem, hlaptop,
    hphone⟩ := hrun
  have hreported := mem_reports.mp hmem
  have hw := (Store.reaches_ofOps [.arp sofa phone 0]).wellFormed
  have hclean : NoPlaceholder (Store.ofOps [.arp sofa phone 0]).contents :=
    noPlaceholder_iff.mpr (by decide)
  obtain ⟨-, hknown, hrecords⟩ := real_mac_wins hw hclean (run_actions hrun) hdrained
  exact ⟨events, events', s, s', hsame, hreported, hknown desk laptop hreported, hlaptop, hphone,
    hrecords events' s' (run_actions hrun') hdrained' hsame⟩

end Passive

end Gannet
