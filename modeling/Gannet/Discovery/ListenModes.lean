import Gannet.Discovery.ListenQueues
import Gannet.Discovery.ListenIdentity
import Gannet.Discovery.ListenBook
import Gannet.Discovery.ListenServices
import Gannet.Identity.Merging

/-!
# What a mode of the listener can learn

The mode decides which producers run, and so what a whole run can put into the registry,
however long it listens and whatever it hears. `Carries p` says of a state that all
messages on their way are of a kind `p`; it holds throughout if the producers of the mode
make no other messages.

- `raw_mode_services`: with a raw socket no service is ever learned.
- `mdns_mode_records`: with mDNS alone all hosts share one new record at most.
- `address_keeps_mac`: in every mode an address has, for the whole run, the MAC of the
  first of its sightings.
-/

namespace Gannet.Passive

open Function KeyMap Listener

variable {cfg : Config} {s t : Listener} {e : Event} {events : List Event}
  {p : Message → Prop}

/-! ## Messages of one kind -/

/-- The threads of the mode send messages of the kind only. -/
def Produces (cfg : Config) (p : Message → Prop) : Prop :=
  ∀ (input : Input) (seen seen' : Seen) (messages : List Message),
    cfg.capability.spawns input.source = true → produce cfg seen input = .ok (seen', messages) →
    ∀ message ∈ messages, p message

/-- All messages on their way are of the kind. -/
structure Carries (p : Message → Prop) (s : Listener) : Prop where
  outbox : ∀ source, ∀ message ∈ (s.producer source).outbox, p message
  rx : ∀ entry ∈ s.rx, p (.entry entry)
  serviceRx : ∀ event ∈ s.serviceRx, p (.service event)

theorem carries_init (store : Store) : Carries p (.init store) where
  outbox := fun _ _ h => nomatch h
  rx := fun _ h => nomatch h
  serviceRx := fun _ h => nomatch h

/-- What a thread reads into its outbox is of the kind. -/
theorem Produces.read (hp : Produces cfg p) {input : Input}
    (hspawns : cfg.capability.spawns input.source = true) {producer : Producer}
    (hempty : producer.outbox = []) : ∀ message ∈ (producer.read cfg input).outbox, p message := by
  intro message hmem
  rw [Producer.read] at hmem
  cases hproduce : produce cfg producer.seen input with
  | error _ =>
    rw [hproduce] at hmem
    dsimp only at hmem
    rw [hempty] at hmem
    exact absurd hmem List.not_mem_nil
  | ok produced =>
    obtain ⟨seen, messages⟩ := produced
    rw [hproduce] at hmem
    exact hp input producer.seen seen messages hspawns hproduce message hmem

/-- A thread's new outbox may be of the kind only. -/
theorem Carries.setProducer (hc : Carries p s) {source : Source} {producer : Producer}
    (h : ∀ message ∈ producer.outbox, p message) : Carries p (s.setProducer source producer) where
  outbox := by
    intro source' message hmem
    by_cases hsource : source' = source
    · subst hsource
      rw [setProducer_self] at hmem
      exact h message hmem
    · rw [setProducer_of_ne _ _ hsource] at hmem
      exact hc.outbox source' message hmem
  rx := hc.rx
  serviceRx := hc.serviceRx

/-- A message of the kind may be sent. -/
theorem Carries.deliver (hc : Carries p s) {message : Message} (h : p message) :
    Carries p (s.deliver message) where
  outbox := by
    rw [deliver_producer]
    exact hc.outbox
  rx := by
    intro entry hentry
    rcases mem_deliver_rx s hentry with hold | rfl
    · exact hc.rx entry hold
    · exact h
  serviceRx := by
    cases message with
    | entry _ => exact hc.serviceRx
    | service event =>
      refine List.forall_mem_append.mpr ⟨hc.serviceRx, List.forall_mem_singleton.mpr h⟩

/-- **One step**: all messages on their way stay of the kind. -/
theorem Carries.step (hc : Carries p s) (hp : Produces cfg p) (h : Outcome cfg s e t) :
    Carries p t := by
  have hstored (store : Store) : Carries p { s with store := store } :=
    ⟨hc.outbox, hc.rx, hc.serviceRx⟩
  cases h with
  | @read input store _ hready =>
    simp only [Bool.and_eq_true, List.isEmpty_iff] at hready
    exact (hstored store).setProducer (hp.read hready.1.1 hready.2)
  | @sent source message outbox store _ houtbox =>
    have hmessages := hc.outbox source
    rw [houtbox, List.forall_mem_cons] at hmessages
    exact ((hstored store).setProducer hmessages.2).deliver hmessages.1
  | skipped _ hrx _ =>
    have hrest := hc.rx
    rw [hrx, List.forall_mem_cons] at hrest
    exact ⟨hc.outbox, hrest.2, hc.serviceRx⟩
  | dropped _ hserviceRx _ =>
    have hrest := hc.serviceRx
    rw [hserviceRx, List.forall_mem_cons] at hrest
    exact ⟨hc.outbox, hc.rx, hrest.2⟩
  | entry hrx _ _ =>
    have hrest := hc.rx
    rw [hrx, List.forall_mem_cons] at hrest
    exact ⟨hc.outbox, hrest.2, hc.serviceRx⟩
  | service hserviceRx _ _ =>
    have hrest := hc.serviceRx
    rw [hserviceRx, List.forall_mem_cons] at hrest
    exact ⟨hc.outbox, hc.rx, hrest.2⟩

/-! ## What is upserted -/

/-- An entry brings no services. -/
theorem takeEntry_services {seenLocal seenLocal' : Map Ipv4Addr MacAddr6} {entry : ArpEntry}
    {d : Device} (h : takeEntry cfg seenLocal entry = some (seenLocal', d)) : d.services = [] := by
  unfold takeEntry at h
  split_ifs at h
  obtain ⟨-, rfl⟩ := Prod.mk.inj (Option.some.inj h)
  rfl

/-- What a step adds: nothing, a sighting of an entry, without services, or a service event
for an address that was seen. -/
inductive Learns (s : Listener) : Event → Listener → Prop where
  | nothing {e : Event} {t : Listener} (hstore : t.store.contents = s.store.contents)
      (hseen : t.seenLocal = s.seenLocal) (he : ∀ d now key, e ≠ .sighted d now key) : Learns s e t
  | entry {d : Device} {now : Nat} {r : Record} {t : Listener} {entry : ArpEntry}
      (hentry : entry ∈ s.rx) (hmac : d.mac = some entry.mac) (hservices : d.services = [])
      (hfresh : d.ip ∉ s.seenLocal) (hseen : t.seenLocal = s.seenLocal.insert d.ip entry.mac)
      (hsighting : Sighting s.store.contents d Namer.generate now t.store.contents r) :
      Learns s (.sighted d now r.key) t
  | service {d : Device} {now : Nat} {r : Record} {t : Listener} {event : MdnsServiceEvent}
      {m : MacAddr6} (hevent : event ∈ s.serviceRx) (hservices : d.services = event.services)
      (hmac : d.mac = some m) (hlocal : s.seenLocal.lookup d.ip = some m)
      (hseen : t.seenLocal = s.seenLocal)
      (hsighting : Sighting s.store.contents d Namer.generate now t.store.contents r) :
      Learns s (.sighted d now r.key) t

/-- What a step teaches the registry. -/
theorem Listener.Outcome.learns (h : Outcome cfg s e t) : Learns s e t := by
  cases h with
  | read hstore _ => exact .nothing hstore rfl (by rintro _ _ _ ⟨⟩)
  | sent hstore _ =>
    obtain ⟨hstore', hseen⟩ := deliver_store _ _
    exact .nothing ((congrArg Store.contents hstore').trans hstore) hseen (by rintro _ _ _ ⟨⟩)
  | skipped hstore _ _ => exact .nothing hstore rfl (by rintro _ _ _ ⟨⟩)
  | dropped hstore _ _ => exact .nothing hstore rfl (by rintro _ _ _ ⟨⟩)
  | @entry entry _ _ _ _ _ _ hrx htake hsighting =>
    have hfresh := takeEntry_fresh htake
    obtain ⟨rfl, hip, hmac⟩ := takeEntry_spec htake
    have hmem : entry ∈ s.rx := hrx ▸ List.mem_cons_self
    rw [← hip] at hfresh
    exact .entry hmem hmac (takeEntry_services htake) hfresh (by rw [hip]) hsighting
  | @service event _ _ _ _ _ hserviceRx htake hsighting =>
    have hmem : event ∈ s.serviceRx := hserviceRx ▸ List.mem_cons_self
    obtain ⟨m, hlocal, hmac⟩ := takeService_spec htake
    exact .service hmem (takeService_device htake).2 hmac hlocal rfl hsighting

/-- The registry stays well formed. -/
theorem Learns.wellFormed (hw : WellFormed s.store.contents) (h : Learns s e t) :
    WellFormed t.store.contents := by
  cases h with
  | nothing hstore _ _ => exact hstore ▸ hw
  | entry _ _ _ _ _ hsighting => exact hw.sighting hsighting
  | service _ _ _ _ _ hsighting => exact hw.sighting hsighting

/-! ## Raw sockets -/

/-- An entry, and no service event. -/
def Message.IsEntry : Message → Prop
  | .entry _ => True
  | .service _ => False

/-- A raw socket brings entries alone. -/
theorem produces_entries (hraw : cfg.capability = .rawSocket) :
    Produces cfg Message.IsEntry := by
  intro input seen seen' messages hspawns hproduce message hmem
  rw [hraw] at hspawns
  cases input with
  | frame bytes =>
    rw [produce] at hproduce
    cases hsniff : sniffFrame cfg.profile cfg.localSubnet seen bytes with
    | error _ =>
      rw [hsniff] at hproduce
      cases hproduce
    | ok sniffed =>
      rw [hsniff] at hproduce
      obtain ⟨-, rfl⟩ := Prod.mk.inj (Except.ok.inj hproduce)
      obtain ⟨entry, -, rfl⟩ := List.mem_map.mp hmem
      trivial
  | arpTable _ => exact absurd hspawns Bool.false_ne_true
  | mdnsPacket _ _ => exact absurd hspawns Bool.false_ne_true

/-- The services of a record are none or those of a record that was loaded. -/
def OldServices (c₀ c : Contents) : Prop :=
  ∀ k r, c k = some r → r.services = [] ∨ ∃ k₀ r₀, c₀ k₀ = some r₀ ∧ r.services = r₀.services

/-- A sighting without services adds none. -/
theorem OldServices.sighting {c₀ c c' : Contents} {d : Device} {now : Nat} {r : Record}
    (h : OldServices c₀ c) (hnone : d.services = [])
    (hsighting : Sighting c d Namer.generate now c' r) : OldServices c₀ c' := by
  intro k r' hk
  rcases hsighting.entry hk with rfl | hold
  · rcases hsighting.sightedFrom with ⟨k₀, r₀, hk₀, key, mac, rfl⟩ | ⟨key, mac, key', mac', rfl⟩
    · rw [Record.sight_services, hnone]
      exact h k₀ r₀ hk₀
    · rw [Record.sight_services, hnone]
      exact .inl hnone
  · exact h k r' hold

/-- What holds where only entries are carried. -/
structure WithoutServices (c₀ : Contents) (events : List Event) (s : Listener) : Prop where
  wellFormed : WellFormed s.store.contents
  carries : Carries Message.IsEntry s
  sent : ∀ event, Event.sent (.service event) ∉ events
  sighted : ∀ d now key, Event.sighted d now key ∈ events → d.services = []
  old : OldServices c₀ s.store.contents

/-- **One step** in raw mode adds no service. -/
theorem WithoutServices.step {c₀ : Contents} (hi : WithoutServices c₀ events s)
    (hraw : cfg.capability = .rawSocket) (h : Outcome cfg s e t) :
    WithoutServices c₀ (events ++ [e]) t where
  wellFormed := h.learns.wellFormed hi.wellFormed
  carries := hi.carries.step (produces_entries hraw) h
  sent := by
    intro event hmem
    rcases List.mem_append.mp hmem with hmem | hmem
    · exact hi.sent event hmem
    · obtain rfl := List.mem_singleton.mp hmem
      cases h with
      | @sent source _ _ _ _ houtbox =>
        exact hi.carries.outbox source _ (houtbox ▸ List.mem_cons_self)
  sighted := by
    intro d now key hmem
    rcases List.mem_append.mp hmem with hmem | hmem
    · exact hi.sighted d now key hmem
    · obtain rfl := List.mem_singleton.mp hmem
      cases h.learns with
      | nothing _ _ he => exact absurd rfl (he d now key)
      | entry _ _ hnone _ _ _ => exact hnone
      | service hevent _ _ _ _ _ => exact (hi.carries.serviceRx _ hevent).elim
  old := by
    cases h.learns with
    | nothing hstore _ _ => exact hstore ▸ hi.old
    | entry _ _ hnone _ _ hsighting => exact hi.old.sighting hnone hsighting
    | service hevent _ _ _ _ _ => exact (hi.carries.serviceRx _ hevent).elim

/-- **Raw sockets**: in every run of a listener with a raw socket no service is sent, none
is upserted, and no record gains one. -/
theorem raw_mode_services (hraw : cfg.capability = .rawSocket) {store : Store}
    (hw : WellFormed store.contents) (hrun : Lts.Run (Step cfg) (.init store) events s) :
    (∀ event, Event.sent (.service event) ∉ events) ∧
      (∀ d now key, Event.sighted d now key ∈ events → d.services = []) ∧
      OldServices store.contents s.store.contents := by
  have hinit : WithoutServices store.contents [] (.init store) :=
    ⟨hw, carries_init store, fun _ h => (nomatch h), fun _ _ _ h => (nomatch h),
      fun k r hk => .inr ⟨k, r, hk, rfl⟩⟩
  have hi := hrun.invariant_labels (WithoutServices store.contents) hinit
    fun _ hi hstep => hi.step hraw (hstep.outcome hi.wellFormed)
  exact ⟨hi.sent, hi.sighted, hi.old⟩

/-- The mode of a raw socket. -/
def rawConfig : Config := ⟨.rawSocket, .release, none, fun _ => none⟩

/-- An IPv4 packet of the desk. -/
def frameFromDesk : List UInt8 :=
  List.replicate 6 0xff ++ [2, 0, 0, 0, 0, 1, 8, 0] ++ [0x45] ++ List.replicate 11 0 ++
    [192, 168, 1, 10] ++ List.replicate 4 0

/-- The desk is sighted, without services. -/
theorem raw_mode_services_of_frame :
    ∃ events s d now key, Lts.Run (Step rawConfig) (.init .empty) events s ∧
      Event.sighted d now key ∈ events ∧ d.ip = desk ∧ d.services = [] := by
  have hrun : ∃ p ∈ runActions rawConfig (fun _ _ => True) (.init .empty)
        [.read (.frame frameFromDesk), .send .sniffRaw, .receive 0],
      Event.sighted (.ofArpEntry ⟨desk, laptop⟩) 0 (macKey laptop) ∈ p.1 := by
    decide +kernel
  obtain ⟨⟨events, s⟩, hrun, hsighted⟩ := hrun
  have hempty : WellFormed Store.empty.contents := wellFormed_empty
  exact ⟨events, s, _, _, _, (run_actions hrun).of_guarded, hsighted, rfl,
    (raw_mode_services rfl hempty (run_actions hrun).of_guarded).2.1 _ _ _ hsighted⟩

/-! ## mDNS alone -/

/-- A sighting without the MAC of its sender. -/
def Message.Anonymous : Message → Prop
  | .entry pair => pair.mac = .broadcast
  | .service _ => True

/-- mDNS alone brings no MAC. -/
theorem produces_anonymous (hmdns : cfg.capability = .mdnsOnly) :
    Produces cfg Message.Anonymous := by
  intro input seen seen' messages hspawns hproduce message hmem
  rw [hmdns] at hspawns
  cases input with
  | frame _ => exact absurd hspawns Bool.false_ne_true
  | arpTable _ => exact absurd hspawns Bool.false_ne_true
  | mdnsPacket src payload =>
    rw [produce, Passive.listenMdns] at hproduce
    cases hservices : parseMdnsForServices (payload.take mdnsBufferSize) with
    | error _ =>
      rw [hservices] at hproduce
      cases hproduce
    | ok services =>
      rw [hservices] at hproduce
      obtain ⟨-, rfl⟩ := Prod.mk.inj (Except.ok.inj hproduce)
      rcases List.mem_append.mp hmem with hmem | hmem
      · rw [List.mem_ite_nil_left] at hmem
        obtain rfl := List.mem_singleton.mp hmem.2
        trivial
      · obtain rfl := List.mem_singleton.mp hmem
        rfl

/-- The records are under keys there were, or under that of the broadcast address. -/
def OldKeys (c₀ c : Contents) : Prop :=
  ∀ k, c k ≠ none → c₀ k ≠ none ∨ k = macKey .broadcast

/-- A sighting of the broadcast address adds no key but its own. -/
theorem OldKeys.sighting {c₀ c c' : Contents} {d : Device} {now : Nat} {r : Record}
    (h : OldKeys c₀ c) (hmac : d.mac = some .broadcast)
    (hsighting : Sighting c d Namer.generate now c' r) : OldKeys c₀ c' := by
  have hkept : ∀ k, c' k ≠ none → c k ≠ none ∨ k = macKey .broadcast := by
    intro k hk
    cases hsighting with
    | absorb _ hk₀ _ _ _ =>
      rcases update_some_ne_none_iff.mp hk with rfl | hold
      · exact .inl (hk₀ ▸ Option.some_ne_none _)
      · exact .inl hold
    | promote hmac' _ =>
      obtain rfl := Option.some.inj (hmac.symm.trans hmac')
      rcases update_some_ne_none_iff.mp hk with rfl | hold
      · exact .inr rfl
      · exact .inl (update_none_ne_none_iff.mp hold).2
    | own hmac' _ =>
      obtain rfl := Option.some.inj (hmac.symm.trans hmac')
      exact (update_some_ne_none_iff.mp hk).symm
    | anonymous hnone => exact nomatch hmac.symm.trans hnone
  intro k hk
  rcases hkept k hk with hold | hkey
  · exact h k hold
  · exact .inr hkey

/-- Everything heard so far is the broadcast address's, and every key is old or its key. -/
structure Shared (c₀ : Contents) (events : List Event) (s : Listener) : Prop where
  wellFormed : WellFormed s.store.contents
  carries : Carries Message.Anonymous s
  seen : ∀ ip m, s.seenLocal.lookup ip = some m → m = .broadcast
  sighted : ∀ d now key, Event.sighted d now key ∈ events → d.mac = some .broadcast
  old : OldKeys c₀ s.store.contents

/-- The MAC of what is upserted. -/
theorem Shared.mac {c₀ : Contents} (hi : Shared c₀ events s) {d : Device} {now : Nat}
    {key : String} (h : Learns s (.sighted d now key) t) : d.mac = some .broadcast := by
  cases h with
  | nothing _ _ he => exact absurd rfl (he d now key)
  | entry hentry hmac _ _ _ _ =>
    have hentryMac := hi.carries.rx _ hentry
    exact hmac.trans (congrArg some hentryMac)
  | service _ _ hmac hlocal _ _ => exact hmac.trans (congrArg some (hi.seen _ _ hlocal))

/-- **One step** in mDNS mode keeps everything under that key. -/
theorem Shared.step {c₀ : Contents} (hi : Shared c₀ events s)
    (hmdns : cfg.capability = .mdnsOnly) (h : Outcome cfg s e t) :
    Shared c₀ (events ++ [e]) t where
  wellFormed := h.learns.wellFormed hi.wellFormed
  carries := hi.carries.step (produces_anonymous hmdns) h
  seen := by
    intro ip m hm
    cases h.learns with
    | nothing _ hseen _ => exact hi.seen ip m (hseen ▸ hm)
    | @entry d _ _ _ entry hentry _ _ _ hseen _ =>
      rw [hseen] at hm
      by_cases hip : ip = d.ip
      · subst hip
        rw [AList.lookup_insert] at hm
        obtain rfl := Option.some.inj hm
        exact hi.carries.rx _ hentry
      · rw [AList.lookup_insert_ne hip] at hm
        exact hi.seen ip m hm
    | service _ _ _ _ hseen _ => exact hi.seen ip m (hseen ▸ hm)
  sighted := by
    intro d now key hmem
    rcases List.mem_append.mp hmem with hmem | hmem
    · exact hi.sighted d now key hmem
    · obtain rfl := List.mem_singleton.mp hmem
      exact hi.mac h.learns
  old := by
    have hlearns := h.learns
    cases hlearns with
    | nothing hstore _ _ => exact hstore ▸ hi.old
    | entry _ _ _ _ _ hsighting => exact hi.old.sighting (hi.mac h.learns) hsighting
    | service _ _ _ _ _ hsighting => exact hi.old.sighting (hi.mac h.learns) hsighting

/-- **mDNS alone**: in every run of a listener that only hears mDNS, everything is upserted
under the broadcast address, so that all hosts without a record share one: the registry
grows by one record at most. -/
theorem mdns_mode_records (hmdns : cfg.capability = .mdnsOnly) {store : Store}
    (hw : WellFormed store.contents) (hrun : Lts.Run (Step cfg) (.init store) events s) :
    (∀ d now key, Event.sighted d now key ∈ events → d.mac = some .broadcast) ∧
      OldKeys store.contents s.store.contents ∧
      s.store.records.keys.length ≤ store.records.keys.length + 1 := by
  have hinit : Shared store.contents [] (.init store) :=
    ⟨hw, carries_init store, fun _ _ h => (nomatch h), fun _ _ _ h => (nomatch h),
      fun k hk => .inl hk⟩
  have hi := hrun.invariant_labels (Shared store.contents) hinit
    fun _ hi hstep => hi.step hmdns (hstep.outcome hi.wellFormed)
  refine ⟨hi.sighted, hi.old, ?_⟩
  have hsub : s.store.records.keys ⊆ macKey .broadcast :: store.records.keys := by
    intro k hk
    rw [← AList.mem_keys, mem_iff_contents, ← Option.ne_none_iff_exists'] at hk
    rcases hi.old k hk with hold | rfl
    · refine List.mem_cons_of_mem _ ?_
      rw [← AList.mem_keys, mem_iff_contents, ← Option.ne_none_iff_exists']
      exact hold
    · exact List.mem_cons_self
  exact (List.subperm_of_subset s.store.records.nodupKeys hsub).length_le

/-- Two hosts, one record. -/
theorem mdns_mode_records_of_packets :
    ∃ events s, Lts.Run (Step mdnsOnlyConfig) (.init .empty) events s ∧
      s.seenLocal.keys = [sofa, desk] ∧ s.store.records.keys.length ≤ 1 := by
  have hrun : ∃ p ∈ runActions mdnsOnlyConfig (fun _ _ => True) (.init .empty) twoPackets,
      p.2.seenLocal.keys = [sofa, desk] := by
    decide +kernel
  obtain ⟨⟨events, s⟩, hrun, hseen⟩ := hrun
  have hempty : WellFormed Store.empty.contents := wellFormed_empty
  exact ⟨events, s, (run_actions hrun).of_guarded, hseen,
    (mdns_mode_records rfl hempty (run_actions hrun).of_guarded).2.2⟩

/-! ## One MAC for an address -/

/-- The addresses seen are those of the sightings, each with the MAC of its sightings. -/
structure Settled (events : List Event) (s : Listener) : Prop where
  wellFormed : WellFormed s.store.contents
  sighted : ∀ d now key, Event.sighted d now key ∈ events →
    ∃ m, d.mac = some m ∧ s.seenLocal.lookup d.ip = some m
  seen : ∀ ip, ip ∈ s.seenLocal → ∃ d now key, Event.sighted d now key ∈ events ∧ d.ip = ip

/-- **One step** keeps one MAC for each address. -/
theorem Settled.step (hi : Settled events s) (h : Learns s e t) : Settled (events ++ [e]) t where
  wellFormed := h.wellFormed hi.wellFormed
  sighted := by
    intro d now key hmem
    cases h with
    | nothing _ hseen he =>
      rcases List.mem_append.mp hmem with hmem | hmem
      · rw [hseen]
        exact hi.sighted d now key hmem
      · exact absurd (List.mem_singleton.mp hmem).symm (he d now key)
    | @entry new _ _ _ entry _ hmac _ hfresh hseen _ =>
      rw [hseen]
      rcases List.mem_append.mp hmem with hmem | hmem
      · -- an address that was seen before is another one
        obtain ⟨m, hm, hlocal⟩ := hi.sighted d now key hmem
        have hne : d.ip ≠ new.ip := by
          intro hip
          rw [← hip, ← AList.lookup_eq_none, hlocal] at hfresh
          exact nomatch hfresh
        exact ⟨m, hm, (AList.lookup_insert_ne hne).trans hlocal⟩
      · obtain ⟨rfl, -, -⟩ := Event.sighted.inj (List.mem_singleton.mp hmem)
        exact ⟨entry.mac, hmac, AList.lookup_insert _⟩
    | service _ _ hmac hlocal hseen _ =>
      rw [hseen]
      rcases List.mem_append.mp hmem with hmem | hmem
      · exact hi.sighted d now key hmem
      · obtain ⟨rfl, -, -⟩ := Event.sighted.inj (List.mem_singleton.mp hmem)
        exact ⟨_, hmac, hlocal⟩
  seen := by
    intro ip hip
    have hold : ip ∈ s.seenLocal →
        ∃ d now key, Event.sighted d now key ∈ events ++ [e] ∧ d.ip = ip := by
      intro hip
      obtain ⟨d, now, key, hmem, rfl⟩ := hi.seen ip hip
      exact ⟨d, now, key, List.mem_append_left _ hmem, rfl⟩
    cases h with
    | nothing _ hseen _ => exact hold (hseen ▸ hip)
    | entry _ _ _ _ hseen _ =>
      rw [hseen, AList.mem_insert] at hip
      rcases hip with rfl | hip
      · exact ⟨_, _, _, List.mem_append_right _ (List.mem_singleton_self _), rfl⟩
      · exact hold hip
    | service _ _ _ _ hseen _ => exact hold (hseen ▸ hip)

/-- **One MAC for an address**: in every run everything that is upserted for an address,
sightings and services, carries the MAC of its first sighting, and the devices counted at
the end are the addresses. -/
theorem address_keeps_mac {store : Store} (hw : WellFormed store.contents)
    (hrun : Lts.Run (Step cfg) (.init store) events s) :
    (∀ d₁ now₁ key₁ d₂ now₂ key₂, Event.sighted d₁ now₁ key₁ ∈ events →
        Event.sighted d₂ now₂ key₂ ∈ events → d₁.ip = d₂.ip → d₁.mac = d₂.mac) ∧
      ∀ ip, ip ∈ s.seenLocal ↔ ∃ d now key, Event.sighted d now key ∈ events ∧ d.ip = ip := by
  have hinit : Settled [] (.init store) :=
    ⟨hw, fun _ _ _ h => (nomatch h), fun _ h => absurd h (AList.notMem_empty _)⟩
  have hi := hrun.invariant_labels Settled hinit
    fun _ hi hstep => hi.step (hstep.outcome hi.wellFormed).learns
  constructor
  · intro d₁ now₁ key₁ d₂ now₂ key₂ h₁ h₂ hip
    obtain ⟨m₁, hmac₁, hlocal₁⟩ := hi.sighted _ _ _ h₁
    obtain ⟨m₂, hmac₂, hlocal₂⟩ := hi.sighted _ _ _ h₂
    rw [hip] at hlocal₁
    rw [hmac₁, hmac₂, hlocal₁.symm.trans hlocal₂]
  · intro ip
    constructor
    · exact hi.seen ip
    · rintro ⟨d, now, key, hmem, rfl⟩
      obtain ⟨m, -, hlocal⟩ := hi.sighted d now key hmem
      rw [← AList.lookup_isSome, hlocal]
      rfl

/-- The desk is heard and then a service of it: both are upserted with the MAC of the first,
and the desk is what is counted. -/
theorem address_keeps_mac_of_packets :
    ∃ (events : List Event) (s : Listener) (d₁ d₂ : Device) (key₁ key₂ : String),
      Lts.Run (Step mdnsOnlyConfig) (.init .empty) events s ∧
        .sighted d₁ 0 key₁ ∈ events ∧ .sighted d₂ 1 key₂ ∈ events ∧
        d₁.services = [] ∧ d₂.services = ["ipp"] ∧ d₁.mac = d₂.mac ∧
        desk ∈ s.seenLocal ∧ ∃ d now key, Event.sighted d now key ∈ events ∧ d.ip = desk := by
  have hrun : ∃ p ∈ runActions mdnsOnlyConfig (fun _ _ => True) (.init .empty)
        (printerRun [.receive 0, .receiveService 1]),
      .sighted (.ofArpEntry ⟨desk, .broadcast⟩) 0 (macKey .broadcast) ∈ p.1 ∧
        .sighted (serviceDevice mdnsOnlyConfig .broadcast ⟨desk, ["ipp"]⟩) 1 (macKey .broadcast) ∈ p.1 ∧
        desk ∈ p.2.seenLocal := by
    decide +kernel
  obtain ⟨⟨events, s⟩, hrun, hentry, hservice, hdesk⟩ := hrun
  have hempty : WellFormed Store.empty.contents := wellFormed_empty
  obtain ⟨hmac, hseen⟩ := address_keeps_mac hempty (run_actions hrun).of_guarded
  exact ⟨events, s, _, _, _, _, (run_actions hrun).of_guarded, hentry, hservice, rfl, rfl,
    hmac _ _ _ _ _ _ hentry hservice rfl, hdesk, (hseen desk).mp hdesk⟩

end Gannet.Passive
