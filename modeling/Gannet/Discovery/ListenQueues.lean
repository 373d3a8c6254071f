import Gannet.Discovery.ListenIdentity

/-!
# The listener's queues

No message disappears on its way: what a producer makes of its input waits in
its outbox until it is sent, what is sent waits in its queue until the loop takes
it (`Accounted`). What the loop does with a message it takes is another matter:
it may skip a sighting and drop a service event (`Taken`, `Delivered`).
-/

namespace Gannet.Passive

open Function KeyMap

namespace Listener

variable {cfg : Config} {s t : Listener} {e : Event} {events : List Event}

/-- Every message was sent and taken. -/
structure Drained (s : Listener) : Prop where
  outbox : ∀ source, (s.producer source).outbox = []
  rx : s.rx = []
  serviceRx : s.serviceRx = []

instance (s : Listener) : Decidable s.Drained :=
  decidable_of_iff ((s.producer .sniffRaw).outbox = [] ∧ (s.producer .pollArpTable).outbox = [] ∧
      (s.producer .listenMdns).outbox = [] ∧ s.rx = [] ∧ s.serviceRx = [])
    ⟨fun ⟨hraw, harp, hmdns, hrx, hserviceRx⟩ =>
        ⟨fun source => by cases source <;> assumption, hrx, hserviceRx⟩,
      fun h => ⟨h.outbox _, h.outbox _, h.outbox _, h.rx, h.serviceRx⟩⟩

/-! ## What the loop takes -/

/-- What is taken was not seen. -/
theorem takeEntry_fresh {seenLocal seenLocal' : Map Ipv4Addr MacAddr6} {entry : ArpEntry}
    {device : Device} (h : takeEntry cfg seenLocal entry = some (seenLocal', device)) :
    entry.ip ∉ seenLocal := by
  intro hseen
  unfold takeEntry at h
  rw [if_pos hseen, ite_self] at h
  exact nomatch h

/-- A service event is dropped iff nothing was heard at its address. -/
theorem takeService_none {seenLocal : Map Ipv4Addr MacAddr6} {event : MdnsServiceEvent} :
    takeService cfg seenLocal event = none ↔ event.ip ∉ seenLocal := by
  rw [takeService, Option.map_eq_none_iff, AList.lookup_eq_none]

/-- The device of a service event has its services. -/
theorem takeService_device {seenLocal : Map Ipv4Addr MacAddr6} {event : MdnsServiceEvent}
    {device : Device} (h : takeService cfg seenLocal event = some device) :
    device.ip = event.ip ∧ device.services = event.services := by
  obtain ⟨mac, -, rfl⟩ := Option.map_eq_some_iff.mp h
  exact ⟨rfl, rfl⟩

/-- The loop took the sighting: it skipped it or upserted it. -/
def Taken (events : List Event) (entry : ArpEntry) : Prop :=
  .skipped entry ∈ events ∨
    ∃ d now key, Event.sighted d now key ∈ events ∧ d.ip = entry.ip ∧ d.mac = some entry.mac

/-- The loop took the service event: it dropped it or upserted it. -/
def Delivered (events : List Event) (event : MdnsServiceEvent) : Prop :=
  .dropped event ∈ events ∨
    ∃ d now key, Event.sighted d now key ∈ events ∧ d.ip = event.ip ∧
      d.services = event.services

/-- What was taken stays taken. -/
theorem Taken.mono {entry : ArpEntry} {events' : List Event} (h : Taken events entry)
    (hsub : events ⊆ events') : Taken events' entry := by
  rcases h with h | ⟨d, now, key, h, hdevice⟩
  · exact .inl (hsub h)
  · exact .inr ⟨d, now, key, hsub h, hdevice⟩

/-- What was delivered stays delivered. -/
theorem Delivered.mono {event : MdnsServiceEvent} {events' : List Event}
    (h : Delivered events event) (hsub : events ⊆ events') : Delivered events' event := by
  rcases h with h | ⟨d, now, key, h, hdevice⟩
  · exact .inl (hsub h)
  · exact .inr ⟨d, now, key, hsub h, hdevice⟩

/-! ## Where a step moves a message -/

@[simp] theorem deliver_producer (s : Listener) (message : Message) :
    (s.deliver message).producer = s.producer := by
  cases message <;> rfl

@[simp] theorem setProducer_self (s : Listener) (source : Source) (p : Producer) :
    (s.setProducer source p).producer source = p :=
  update_self ..

theorem setProducer_of_ne (s : Listener) {source source' : Source} (p : Producer)
    (h : source' ≠ source) : (s.setProducer source p).producer source' = s.producer source' :=
  update_of_ne h ..

/-- A message leaves the outbox only by being sent. -/
theorem Outcome.outbox (h : Outcome cfg s e t) {source : Source} {message : Message}
    (hmem : message ∈ (s.producer source).outbox) :
    message ∈ (t.producer source).outbox ∨ e = .sent message := by
  cases h with
  | @read input store _ hready =>
    -- the reading producer had sent everything
    have hne : source ≠ input.source := by
      rintro rfl
      simp only [Bool.and_eq_true, List.isEmpty_iff] at hready
      rw [hready.2] at hmem
      exact nomatch hmem
    refine .inl ?_
    rw [setProducer_of_ne _ _ hne]
    exact hmem
  | @sent source' message' outbox store _ houtbox =>
    by_cases hsource : source = source'
    · subst hsource
      rw [houtbox, List.mem_cons] at hmem
      rcases hmem with rfl | hmem
      · exact .inr rfl
      · refine .inl ?_
        rw [deliver_producer, setProducer_self]
        exact hmem
    · refine .inl ?_
      rw [deliver_producer, setProducer_of_ne _ _ hsource]
      exact hmem
  | skipped _ _ _ => exact .inl hmem
  | dropped _ _ _ => exact .inl hmem
  | entry _ _ _ => exact .inl hmem
  | service _ _ _ => exact .inl hmem

/-- After a packet was read, its messages are in the outbox. -/
theorem Outcome.packet {src : Ipv4Addr} {payload : List UInt8} {messages : List Message}
    (h : Outcome cfg s (.read (.mdnsPacket src payload)) t)
    (hok : Passive.listenMdns src payload = .ok messages) :
    (t.producer .listenMdns).outbox = messages := by
  cases h with
  | @read _ store _ _ =>
    have hproduce : produce cfg (s.producer .listenMdns).seen (.mdnsPacket src payload)
        = .ok ((s.producer .listenMdns).seen, messages) := by
      rw [produce, hok]
      rfl
    show (((s.producer .listenMdns).read cfg (.mdnsPacket src payload))).outbox = messages
    rw [Producer.read, hproduce]

/-- What an ARP table adds to the pairs seen, it sends. -/
theorem offer_all (entries : List ArpEntry) (st : Seen × List ArpEntry) :
    let st' := entries.foldl (fun st entry => offer entry st) st
    (∀ entry ∈ entries, entry ∈ st'.1) ∧ st.1 ⊆ st'.1 ∧ st.2 ⊆ st'.2 ∧
      ∀ entry ∈ st'.1, entry ∈ st.1 ∨ entry ∈ st'.2 := by
  induction entries generalizing st with
  | nil => exact ⟨fun _ h => (nomatch h), List.Subset.refl _, List.Subset.refl _, fun _ => .inl⟩
  | cons entry entries ih =>
    have hoffer : entry ∈ (offer entry st).1 ∧ st.1 ⊆ (offer entry st).1 ∧
        st.2 ⊆ (offer entry st).2 ∧
        ∀ entry' ∈ (offer entry st).1, entry' ∈ st.1 ∨ entry' ∈ (offer entry st).2 := by
      unfold offer
      by_cases hseen : entry ∈ st.1
      · rw [if_pos hseen]
        exact ⟨hseen, List.Subset.refl _, List.Subset.refl _, fun _ => .inl⟩
      · rw [if_neg hseen]
        refine ⟨List.mem_cons_self, List.subset_cons_self _ _, List.subset_append_left _ _, ?_⟩
        intro entry' hmem
        rcases List.mem_cons.mp hmem with rfl | hmem
        · exact .inr (List.mem_append_right _ (List.mem_singleton_self _))
        · exact .inl hmem
    obtain ⟨hself, hseen, hsends, hnew⟩ := hoffer
    obtain ⟨hrest, hseen', hsends', hnew'⟩ := ih (offer entry st)
    refine ⟨fun entry' hmem => ?_, List.Subset.trans hseen hseen',
      List.Subset.trans hsends hsends', fun entry' hmem => ?_⟩
    · rcases List.mem_cons.mp hmem with rfl | hmem
      · exact hseen' hself
      · exact hrest entry' hmem
    · rcases hnew' entry' hmem with hold | hnow
      · exact (hnew entry' hold).imp id fun h => hsends' h
      · exact .inr hnow

/-- The pairs seen by the ARP table's producer are only added to, and what is new
among them waits in its outbox. -/
theorem Outcome.seen (h : Outcome cfg s e t) :
    (s.producer .pollArpTable).seen ⊆ (t.producer .pollArpTable).seen ∧
      ∀ entry ∈ (t.producer .pollArpTable).seen, entry ∈ (s.producer .pollArpTable).seen ∨
        .entry entry ∈ (t.producer .pollArpTable).outbox := by
  have hquiet : (t.producer .pollArpTable).seen = (s.producer .pollArpTable).seen →
      (s.producer .pollArpTable).seen ⊆ (t.producer .pollArpTable).seen ∧
        ∀ entry ∈ (t.producer .pollArpTable).seen, entry ∈ (s.producer .pollArpTable).seen ∨
          .entry entry ∈ (t.producer .pollArpTable).outbox := by
    intro hsame
    rw [hsame]
    exact ⟨List.Subset.refl _, fun _ => .inl⟩
  cases h with
  | @read input store _ _ =>
    cases input with
    | arpTable contents =>
      obtain ⟨-, hseen, -, hnew⟩ :=
        offer_all (parseArpTable contents) ((s.producer .pollArpTable).seen, [])
      exact ⟨hseen, fun entry hmem => (hnew entry hmem).imp id fun h => List.mem_map_of_mem h⟩
    | frame _ => exact hquiet rfl
    | mdnsPacket _ _ => exact hquiet rfl
  | @sent source _ _ _ _ _ =>
    refine hquiet ?_
    rw [deliver_producer]
    by_cases hsource : Source.pollArpTable = source
    · subst hsource
      rw [setProducer_self]
    · rw [setProducer_of_ne _ _ hsource]
  | skipped _ _ _ => exact hquiet rfl
  | dropped _ _ _ => exact hquiet rfl
  | entry _ _ _ => exact hquiet rfl
  | service _ _ _ => exact hquiet rfl

/-- After an ARP table was read, its entries are among the pairs seen. -/
theorem Outcome.table {contents : Option String}
    (h : Outcome cfg s (.read (.arpTable contents)) t) :
    ∀ entry ∈ parseArpTable contents, entry ∈ (t.producer .pollArpTable).seen := by
  cases h with
  | read _ _ =>
    exact (offer_all (parseArpTable contents) ((s.producer .pollArpTable).seen, [])).1

/-- An entry that is sent is in the channel. -/
theorem Outcome.sent_entry {entry : ArpEntry} (h : Outcome cfg s (.sent (.entry entry)) t) :
    entry ∈ t.rx := by
  cases h with
  | sent _ _ => exact List.mem_append_right _ (List.mem_singleton_self _)

/-- A service event that is sent is in its channel. -/
theorem Outcome.sent_service {event : MdnsServiceEvent}
    (h : Outcome cfg s (.sent (.service event)) t) : event ∈ t.serviceRx := by
  cases h with
  | sent _ _ => exact List.mem_append_right _ (List.mem_singleton_self _)

/-- A sighting leaves its queue only when the loop takes it. -/
theorem Outcome.rx (h : Outcome cfg s e t) {entry : ArpEntry} (hmem : entry ∈ s.rx) :
    entry ∈ t.rx ∨ Taken [e] entry := by
  cases h with
  | read _ _ => exact .inl hmem
  | @sent _ message _ _ _ _ =>
    cases message with
    | entry _ => exact .inl (List.mem_append_left _ hmem)
    | service _ => exact .inl hmem
  | skipped _ hrx _ =>
    rw [hrx, List.mem_cons] at hmem
    rcases hmem with rfl | hmem
    · exact .inr (.inl (List.mem_singleton_self _))
    · exact .inl hmem
  | dropped _ _ _ => exact .inl hmem
  | entry hrx htake _ =>
    rw [hrx, List.mem_cons] at hmem
    rcases hmem with rfl | hmem
    · obtain ⟨-, hip, hmac⟩ := takeEntry_spec htake
      exact .inr (.inr ⟨_, _, _, List.mem_singleton_self _, hip, hmac⟩)
    · exact .inl hmem
  | service _ _ _ => exact .inl hmem

/-- A service event leaves its queue only when the loop takes it. -/
theorem Outcome.serviceRx (h : Outcome cfg s e t) {event : MdnsServiceEvent}
    (hmem : event ∈ s.serviceRx) : event ∈ t.serviceRx ∨ Delivered [e] event := by
  cases h with
  | read _ _ => exact .inl hmem
  | @sent _ message _ _ _ _ =>
    cases message with
    | entry _ => exact .inl hmem
    | service _ => exact .inl (List.mem_append_left _ hmem)
  | skipped _ _ _ => exact .inl hmem
  | dropped _ hserviceRx _ =>
    rw [hserviceRx, List.mem_cons] at hmem
    rcases hmem with rfl | hmem
    · exact .inr (.inl (List.mem_singleton_self _))
    · exact .inl hmem
  | entry _ _ _ => exact .inl hmem
  | service hserviceRx htake _ =>
    rw [hserviceRx, List.mem_cons] at hmem
    rcases hmem with rfl | hmem
    · obtain ⟨hip, hservices⟩ := takeService_device htake
      exact .inr (.inr ⟨_, _, _, List.mem_singleton_self _, hip, hservices⟩)
    · exact .inl hmem

/-! ## No message disappears -/

/-- Every message that was read is on its way, or was taken. -/
structure Accounted (events : List Event) (s : Listener) : Prop where
  packets : ∀ src payload messages, Event.read (.mdnsPacket src payload) ∈ events →
    Passive.listenMdns src payload = .ok messages → ∀ message ∈ messages,
      message ∈ (s.producer .listenMdns).outbox ∨ .sent message ∈ events
  tables : ∀ contents, Event.read (.arpTable contents) ∈ events →
    ∀ entry ∈ parseArpTable contents, entry ∈ (s.producer .pollArpTable).seen
  polled : ∀ entry ∈ (s.producer .pollArpTable).seen,
    .entry entry ∈ (s.producer .pollArpTable).outbox ∨ .sent (.entry entry) ∈ events
  entries : ∀ entry, Event.sent (.entry entry) ∈ events → entry ∈ s.rx ∨ Taken events entry
  services : ∀ event, Event.sent (.service event) ∈ events →
    event ∈ s.serviceRx ∨ Delivered events event

theorem accounted_init (store : Store) : Accounted [] (.init store) where
  packets := fun _ _ _ h => nomatch h
  tables := fun _ h => nomatch h
  polled := fun _ h => nomatch h
  entries := fun _ h => nomatch h
  services := fun _ h => nomatch h

/-- **One step** loses no message. -/
theorem Accounted.step (ha : Accounted events s) (h : Outcome cfg s e t) :
    Accounted (events ++ [e]) t where
  packets := by
    intro src payload messages hread hok message hmessage
    rcases List.mem_append.mp hread with hread | hread
    · rcases ha.packets src payload messages hread hok message hmessage with hwaits | hsent
      · rcases h.outbox hwaits with hwaits | rfl
        · exact .inl hwaits
        · exact .inr (List.mem_append_right _ (List.mem_singleton_self _))
      · exact .inr (List.mem_append_left _ hsent)
    · obtain rfl := List.mem_singleton.mp hread
      exact .inl ((h.packet hok).symm ▸ hmessage)
  tables := by
    intro contents hread entry hentry
    rcases List.mem_append.mp hread with hread | hread
    · exact h.seen.1 (ha.tables contents hread entry hentry)
    · obtain rfl := List.mem_singleton.mp hread
      exact h.table entry hentry
  polled := by
    intro entry hentry
    rcases h.seen.2 entry hentry with hold | hwaits
    · rcases ha.polled entry hold with hwaits | hsent
      · rcases h.outbox hwaits with hwaits | rfl
        · exact .inl hwaits
        · exact .inr (List.mem_append_right _ (List.mem_singleton_self _))
      · exact .inr (List.mem_append_left _ hsent)
    · exact .inl hwaits
  entries := by
    intro entry hsent
    rcases List.mem_append.mp hsent with hsent | hsent
    · rcases ha.entries entry hsent with hwaits | htaken
      · exact (h.rx hwaits).imp id fun htaken => htaken.mono (List.subset_append_right _ _)
      · exact .inr (htaken.mono (List.subset_append_left _ _))
    · obtain rfl := List.mem_singleton.mp hsent
      exact .inl h.sent_entry
  services := by
    intro event hsent
    rcases List.mem_append.mp hsent with hsent | hsent
    · rcases ha.services event hsent with hwaits | hdelivered
      · exact (h.serviceRx hwaits).imp id fun hdelivered =>
          hdelivered.mono (List.subset_append_right _ _)
      · exact .inr (hdelivered.mono (List.subset_append_left _ _))
    · obtain rfl := List.mem_singleton.mp hsent
      exact .inl h.sent_service

/-- Once nothing waits, the service events of every packet read were taken. -/
theorem Accounted.delivered (ha : Accounted events s) (hdrained : s.Drained) {src : Ipv4Addr}
    {payload : List UInt8} {services : List String}
    (hread : Event.read (.mdnsPacket src payload) ∈ events)
    (hservices : parseMdnsForServices (payload.take mdnsBufferSize) = .ok services)
    (hany : services ≠ []) : Delivered events ⟨src, services⟩ := by
  have hok : Passive.listenMdns src payload
      = .ok [.service ⟨src, services⟩, .entry ⟨src, .broadcast⟩] := by
    rw [Passive.listenMdns, hservices]
    show Except.ok ((if services = [] then _ else _) ++ _) = _
    rw [if_neg hany]
    rfl
  have hsent : Event.sent (.service ⟨src, services⟩) ∈ events := by
    rcases ha.packets src payload _ hread hok _ List.mem_cons_self with hwaits | hsent
    · rw [hdrained.outbox] at hwaits
      exact nomatch hwaits
    · exact hsent
  rcases ha.services _ hsent with hwaits | hdelivered
  · rw [hdrained.serviceRx] at hwaits
    exact nomatch hwaits
  · exact hdelivered

/-- Once nothing waits, every entry of every ARP table read was sent. -/
theorem Accounted.polled_sent (ha : Accounted events s) (hdrained : s.Drained)
    {contents : Option String} (hread : Event.read (.arpTable contents) ∈ events)
    {entry : ArpEntry} (hentry : entry ∈ parseArpTable contents) :
    Event.sent (.entry entry) ∈ events := by
  rcases ha.polled entry (ha.tables contents hread entry hentry) with hwaits | hsent
  · rw [hdrained.outbox] at hwaits
    exact nomatch hwaits
  · exact hsent

/-- Once nothing waits, every sighting sent was taken. -/
theorem Accounted.taken (ha : Accounted events s) (hdrained : s.Drained) {entry : ArpEntry}
    (hsent : Event.sent (.entry entry) ∈ events) : Taken events entry := by
  rcases ha.entries entry hsent with hwaits | htaken
  · rw [hdrained.rx] at hwaits
    exact nomatch hwaits
  · exact htaken

end Listener

end Gannet.Passive
