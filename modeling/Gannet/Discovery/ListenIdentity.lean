import Gannet.Discovery.Listener

/-!
# Identities under the passive listener

`listen_mdns` has no MAC to report and sends the broadcast address in its place;
ARP frames may carry the broadcast or the all-zero address too. `upsert` takes
such a placeholder for a MAC like any other, so it can become a record's
identity, and then all devices sighted with it share that record.

- `placeholder_sighting_iff`: a sighting with a placeholder leaves no record of
  the placeholder, in every iteration order, iff the address is `Covered`, that
  is, only records with a MAC were last seen there, and at least one.
- `listen_identity`: in every run whose placeholder sightings are of covered
  addresses, no record is keyed by a placeholder, and the sightings of two
  addresses for which no real MAC was reported are in two records.
-/

namespace Gannet

open Function KeyMap

/-- The broadcast and the all-zero address: nobody's MAC. -/
def MacAddr6.isPlaceholder (m : MacAddr6) : Bool := m.isBroadcast || m.isNil

/-- No record is keyed by a placeholder. -/
def NoPlaceholder (c : Contents) : Prop :=
  ∀ m : MacAddr6, m.isPlaceholder = true → c (macKey m) = none

/-- The address has records of its own only under MACs, and has one. -/
def Covered (c : Contents) (ip : Ipv4Addr) : Prop :=
  c (ipKey ip) = none ∧ ∃ k r, c k = some r ∧ r.lastIp = ip.toText

/-- Being covered is a property of the records, so it can be decided. -/
theorem covered_iff_values {s : Store} {ip : Ipv4Addr} :
    Covered s.contents ip ↔
      s.contents (ipKey ip) = none ∧ ∃ r ∈ values s.records, r.lastIp = ip.toText := by
  refine and_congr_right fun _ => ⟨?_, ?_⟩
  · rintro ⟨k, r, hk, hip⟩
    exact ⟨r, mem_values.mpr ⟨k, hk⟩, hip⟩
  · rintro ⟨r, hr, hip⟩
    obtain ⟨k, hk⟩ := mem_values.mp hr
    exact ⟨k, r, hk, hip⟩

instance (s : Store) (ip : Ipv4Addr) : Decidable (Covered s.contents ip) :=
  decidable_of_iff _ covered_iff_values.symm

variable {c c' : Contents} {d : Device} {tagGen : String → String} {now : Nat} {m : MacAddr6}
  {k : String} {r r' : Record}

/-- Two keys are to be looked at. -/
theorem noPlaceholder_iff :
    NoPlaceholder c ↔ c (macKey .broadcast) = none ∧ c (macKey .nil) = none := by
  constructor
  · exact fun h => ⟨h _ (by decide), h _ (by decide)⟩
  · rintro ⟨hbroadcast, hnil⟩ m hm
    rcases Bool.or_eq_true_iff.mp hm with hm | hm
    · rwa [MacAddr6.isBroadcast_iff.mp hm]
    · rwa [MacAddr6.isNil_iff.mp hm]

/-! ## Sightings with a placeholder -/

/-- A placeholder sighting of a covered address is absorbed by a MAC's record
last seen there. -/
theorem Covered.absorbs (hw : WellFormed c) (hclean : NoPlaceholder c) (hmac : d.mac = some m)
    (hm : m.isPlaceholder = true) (hcov : Covered c d.ip) (h : Sighting c d tagGen now c' r') :
    ∃ n r, c (macKey n) = some r ∧ r.lastIp = d.ip.toText ∧
      c' = update c (macKey n) (some (r.sight d now)) ∧ r' = r.sight d now := by
  cases h with
  | absorb hmac' hk hip _ hown =>
    obtain ⟨n, rfl, -⟩ := hw.exists_mac hk hown
    exact ⟨n, _, hk, hip, rfl, rfl⟩
  | promote _ hk => exact nomatch hcov.1.symm.trans hk
  | own hmac' hfree =>
    obtain rfl := Option.some.inj (hmac.symm.trans hmac')
    obtain ⟨k, r, hk, hip⟩ := hcov.2
    obtain rfl := hfree k r hk hip
    exact nomatch (hclean m hm).symm.trans hk
  | anonymous hnone => exact nomatch hmac.symm.trans hnone

/-- Updating a record that is there, or one under a MAC that is no placeholder,
keys no record by a placeholder. -/
theorem NoPlaceholder.update (hclean : NoPlaceholder c)
    (hkey : ∀ m : MacAddr6, m.isPlaceholder = true → k ≠ macKey m) :
    NoPlaceholder (Function.update c k (some r)) := by
  intro m hm
  rw [update_of_ne (hkey m hm).symm]
  exact hclean m hm

/-- A record less makes no placeholder's. -/
theorem NoPlaceholder.update_none (hclean : NoPlaceholder c) :
    NoPlaceholder (Function.update c k none) := by
  intro m hm
  by_cases hkey : macKey m = k
  · rw [hkey, update_self]
  · rw [update_of_ne hkey]
    exact hclean m hm

/-- An occupied key is no placeholder's. -/
theorem NoPlaceholder.ne_of_some (hclean : NoPlaceholder c) (hk : c k = some r)
    (m : MacAddr6) (hm : m.isPlaceholder = true) : k ≠ macKey m := by
  rintro rfl
  exact nomatch (hclean m hm).symm.trans hk

/-- A sighting of a real MAC, or of none, keys no record by a placeholder. -/
theorem NoPlaceholder.sighting (hclean : NoPlaceholder c)
    (hreal : ∀ m, d.mac = some m → ¬ m.isPlaceholder = true) (h : Sighting c d tagGen now c' r') :
    NoPlaceholder c' := by
  have hmacKey : ∀ {n : MacAddr6}, d.mac = some n →
      ∀ m : MacAddr6, m.isPlaceholder = true → macKey n ≠ macKey m := by
    intro n hn m hm heq
    obtain rfl := macKey_inj heq
    exact hreal n hn hm
  cases h with
  | absorb _ hk _ _ _ => exact hclean.update (hclean.ne_of_some hk)
  | promote hmac _ => exact hclean.update_none.update (hmacKey hmac)
  | own hmac _ => exact hclean.update (hmacKey hmac)
  | anonymous _ => exact hclean.update fun m _ => (macKey_ne_ipKey m _).symm

/-- A sighting with a placeholder keys no record by one, in every iteration
order, iff its address is covered. -/
theorem placeholder_sighting_iff (hw : WellFormed c) (hclean : NoPlaceholder c)
    (hmac : d.mac = some m) (hm : m.isPlaceholder = true) (tagGen : String → String) (now : Nat) :
    (∀ c' r', Sighting c d tagGen now c' r' → NoPlaceholder c') ↔ Covered c d.ip := by
  constructor
  · intro hall
    by_contra hcov
    cases hip : c (ipKey d.ip) with
    | some r =>
      have hkeyed := hall _ _ (.promote hmac hip) m hm
      rw [update_self] at hkeyed
      exact nomatch hkeyed
    | none =>
      have hkeyed := hall _ _ (.own hmac fun k r hk hlast =>
        absurd ⟨hip, k, r, hk, hlast⟩ hcov) m hm
      rw [update_self] at hkeyed
      exact nomatch hkeyed
  · intro hcov c' r' h
    obtain ⟨n, r, hk, -, rfl, -⟩ := hcov.absorbs hw hclean hmac hm h
    exact hclean.update (hclean.ne_of_some hk)

/-- A MAC's record stays, whatever is sighted. -/
theorem Sighting.mac_occupied (h : Sighting c d tagGen now c' r') (hk : c (macKey m) ≠ none) :
    c' (macKey m) ≠ none := by
  cases h with
  | absorb _ _ _ _ _ => exact update_some_ne_none hk
  | promote _ _ =>
    refine update_some_ne_none ?_
    rwa [update_of_ne (macKey_ne_ipKey _ _)]
  | own _ _ => exact update_some_ne_none hk
  | anonymous _ => exact update_some_ne_none hk

/-! ## Runs of the listener -/

namespace Passive

open Listener

variable {cfg : Config} {s t : Listener} {e : Event} {events : List Event} {ip : Ipv4Addr}

/-- If the step is a sighting with a placeholder, its address is covered. -/
def KeepsIdentity (s : Listener) (e : Event) : Prop :=
  ∀ d now key, e = .sighted d now key → ∀ m, d.mac = some m → m.isPlaceholder = true →
    Covered s.store.contents d.ip

instance (s : Listener) (e : Event) : Decidable (KeepsIdentity s e) :=
  match e with
  | .sighted d now key =>
    decidable_of_iff (∀ m ∈ d.mac, m.isPlaceholder = true → Covered s.store.contents d.ip)
      ⟨fun h _ _ _ he m hm hp => by
          obtain ⟨rfl, -, -⟩ := Event.sighted.inj he
          exact h m hm hp,
        fun h m hm hp => h d now key rfl m hm hp⟩
  | .read _ => isTrue (by rintro _ _ _ ⟨⟩)
  | .sent _ => isTrue (by rintro _ _ _ ⟨⟩)
  | .skipped _ => isTrue (by rintro _ _ _ ⟨⟩)
  | .dropped _ => isTrue (by rintro _ _ _ ⟨⟩)

/-- No producer reported a real MAC for the address. -/
def Unreported (events : List Event) (ip : Ipv4Addr) : Prop :=
  ∀ m, Event.sent (.entry ⟨ip, m⟩) ∈ events → m.isPlaceholder = true

/-- The sighting a producer sent, if the event is one. -/
def Event.entrySent : Event → Option ArpEntry
  | .sent (.entry entry) => some entry
  | _ => none

theorem Event.entrySent_eq_some {entry : ArpEntry} :
    e.entrySent = some entry ↔ e = .sent (.entry entry) := by
  cases e with
  | sent message =>
    cases message with
    | entry entry' =>
      show some entry' = some entry ↔ Event.sent (.entry entry') = .sent (.entry entry)
      rw [Option.some_inj, Event.sent.injEq, Message.entry.injEq]
    | service _ => exact ⟨fun h => (nomatch h), fun h => (nomatch h)⟩
  | _ => exact ⟨fun h => (nomatch h), fun h => (nomatch h)⟩

/-- Only placeholders were sent for the address. -/
theorem unreported_iff_entries :
    Unreported events ip ↔ ∀ entry ∈ events.filterMap Event.entrySent,
      entry.ip = ip → entry.mac.isPlaceholder = true := by
  constructor
  · rintro h entry hentry rfl
    obtain ⟨e, he, hsent⟩ := List.mem_filterMap.mp hentry
    obtain rfl := Event.entrySent_eq_some.mp hsent
    exact h entry.mac he
  · intro h m hm
    exact h ⟨ip, m⟩ (List.mem_filterMap.mpr ⟨_, hm, rfl⟩) rfl

instance (events : List Event) (ip : Ipv4Addr) : Decidable (Unreported events ip) :=
  decidable_of_iff _ unreported_iff_entries.symm

/-- What is unreported at the end was unreported before. -/
theorem Unreported.of_append (h : Unreported (events ++ [e]) ip) : Unreported events ip :=
  fun m hm => h m (List.mem_append_left _ hm)

/-- Where the sightings come from: what is queued, remembered or done was sent
by a producer. -/
structure Sent (events : List Event) (s : Listener) : Prop where
  rx : ∀ entry ∈ s.rx, Event.sent (.entry entry) ∈ events
  seenLocal : ∀ ip m, s.seenLocal.lookup ip = some m → Event.sent (.entry ⟨ip, m⟩) ∈ events
  sighted : ∀ d now key, Event.sighted d now key ∈ events →
    ∃ m, d.mac = some m ∧ Event.sent (.entry ⟨d.ip, m⟩) ∈ events

theorem sent_init (store : Store) : Sent [] (.init store) where
  rx := fun _ h => nomatch h
  seenLocal := fun _ _ h => nomatch h
  sighted := fun _ _ _ h => nomatch h

/-- The MAC a step sights was sent for that address. -/
theorem Sent.of_sighted (hs : Sent events s) {d : Device} {now : Nat} {key : String}
    (h : Effect s (.sighted d now key) t) :
    ∃ m, d.mac = some m ∧ Event.sent (.entry ⟨d.ip, m⟩) ∈ events := by
  cases h with
  | @entry entry _ _ _ _ hrx hip hmac _ _ =>
    refine ⟨entry.mac, hmac, ?_⟩
    rw [hip]
    exact hs.rx entry (hrx ▸ List.mem_cons_self)
  | service _ hmac hlocal _ _ => exact ⟨_, hmac, hs.seenLocal _ _ hlocal⟩

/-- What is in the channel or seen was sent. -/
theorem Sent.step (hs : Sent events s) (h : Effect s e t) : Sent (events ++ [e]) t := by
  have hold : ∀ {e' : Event}, e' ∈ events → e' ∈ events ++ [e] := List.mem_append_left _
  refine ⟨fun entry hentry => ?_, fun ip m hm => ?_, fun d now key hd => ?_⟩
  · cases h with
    | read _ hrx _ => exact hold (hs.rx entry (hrx ▸ hentry))
    | sent _ hrx _ =>
      rcases hrx entry hentry with hentry | rfl
      · exact hold (hs.rx entry hentry)
      · exact List.mem_append_right _ List.mem_cons_self
    | skipped _ hrx _ => exact hold (hs.rx entry (hrx ▸ List.mem_cons_of_mem _ hentry))
    | dropped _ hrx _ => exact hold (hs.rx entry (hrx ▸ hentry))
    | entry hrx _ _ _ _ => exact hold (hs.rx entry (hrx ▸ List.mem_cons_of_mem _ hentry))
    | service hrx _ _ _ _ => exact hold (hs.rx entry (hrx ▸ hentry))
  · cases h with
    | read _ _ hseen => exact hold (hs.seenLocal ip m (hseen ▸ hm))
    | sent _ _ hseen => exact hold (hs.seenLocal ip m (hseen ▸ hm))
    | skipped _ _ hseen => exact hold (hs.seenLocal ip m (hseen ▸ hm))
    | dropped _ _ hseen => exact hold (hs.seenLocal ip m (hseen ▸ hm))
    | @entry entry _ _ _ _ hrx _ _ hseen _ =>
      rw [hseen] at hm
      by_cases hip : ip = entry.ip
      · subst hip
        rw [AList.lookup_insert] at hm
        obtain rfl := Option.some.inj hm
        exact hold (hs.rx entry (hrx ▸ List.mem_cons_self))
      · rw [AList.lookup_insert_ne hip] at hm
        exact hold (hs.seenLocal ip m hm)
    | service _ _ _ hseen _ => exact hold (hs.seenLocal ip m (hseen ▸ hm))
  · rcases List.mem_append.mp hd with hd | hd
    · obtain ⟨m, hmac, hsent⟩ := hs.sighted d now key hd
      exact ⟨m, hmac, hold hsent⟩
    · obtain rfl := List.mem_singleton.mp hd
      obtain ⟨m, hmac, hsent⟩ := hs.of_sighted h
      exact ⟨m, hmac, hold hsent⟩

/-- What holds of the store while every placeholder sighting is covered. An
address without a reported MAC has only the records it had in the store the
listener loaded (`c₀`), and its sightings went into those. -/
structure Identified (c₀ : Contents) (events : List Event) (s : Listener) : Prop where
  wellFormed : WellFormed s.store.contents
  clean : NoPlaceholder s.store.contents
  records : ∀ ip, Unreported events ip → ∀ k r, s.store.contents k = some r →
    r.lastIp = ip.toText → ∃ r₀, c₀ k = some r₀ ∧ r₀.lastIp = ip.toText
  sightings : ∀ d now key, Event.sighted d now key ∈ events → Unreported events d.ip →
    (∃ r₀, c₀ key = some r₀ ∧ r₀.lastIp = d.ip.toText) ∧
      ∃ m, key = macKey m ∧ s.store.contents (macKey m) ≠ none

variable {c₀ : Contents}

/-- A step that leaves the store alone. -/
theorem Identified.quiet (hid : Identified c₀ events s)
    (hstore : t.store.contents = s.store.contents)
    (he : ∀ d now key, e ≠ .sighted d now key) : Identified c₀ (events ++ [e]) t where
  wellFormed := hstore ▸ hid.wellFormed
  clean := hstore ▸ hid.clean
  records := by
    intro ip hun k r hk hip
    exact hid.records ip hun.of_append k r (hstore ▸ hk) hip
  sightings := by
    intro d now key hd hun
    rw [hstore]
    rcases List.mem_append.mp hd with hd | hd
    · exact hid.sightings d now key hd hun.of_append
    · exact absurd (List.mem_singleton.mp hd).symm (he d now key)

/-- A sighting. -/
theorem Identified.sighted (hid : Identified c₀ events s) {d : Device} {now : Nat}
    {m : MacAddr6} (hmac : d.mac = some m) (hsent : Event.sent (.entry ⟨d.ip, m⟩) ∈ events)
    (hkeep : m.isPlaceholder = true → Covered s.store.contents d.ip)
    (h : Sighting s.store.contents d tagGen now t.store.contents r') :
    Identified c₀ (events ++ [.sighted d now r'.key]) t := by
  have hw := hid.wellFormed
  -- an unreported address was sighted with a placeholder, hence absorbed
  have habsorbs : Unreported events d.ip → ∃ n r, s.store.contents (macKey n) = some r ∧
      r.lastIp = d.ip.toText ∧
      t.store.contents = update s.store.contents (macKey n) (some (r.sight d now)) ∧
      r' = r.sight d now := by
    intro hun
    have hm := hun m hsent
    exact (hkeep hm).absorbs hw hid.clean hmac hm h
  refine ⟨hw.sighting h, ?_, fun ip hun k r hk hip => ?_, fun d' now' key hd hun => ?_⟩
  · -- no placeholder becomes a key
    by_cases hm : m.isPlaceholder = true
    · exact (placeholder_sighting_iff hw hid.clean hmac hm tagGen now).mpr (hkeep hm) _ _ h
    · refine hid.clean.sighting (fun n hn => ?_) h
      obtain rfl := Option.some.inj (hmac.symm.trans hn)
      exact hm
  · -- an unreported address gains no record
    by_cases hsame : ip = d.ip
    · subst hsame
      obtain ⟨n, r₁, hk₁, hip₁, ht, -⟩ := habsorbs hun.of_append
      rw [ht] at hk
      rcases update_some_cases hk with ⟨rfl, -⟩ | ⟨-, hk⟩
      · exact hid.records _ hun.of_append _ r₁ hk₁ hip₁
      · exact hid.records _ hun.of_append k r hk hip
    · rcases h.entry hk with rfl | hk
      · exact absurd (Ipv4Addr.toText_inj (hip.symm.trans h.lastIp)) hsame
      · exact hid.records ip hun.of_append k r hk hip
  · -- and its sightings go into records it had
    rcases List.mem_append.mp hd with hd | hd
    · obtain ⟨hfirst, n, rfl, hn⟩ := hid.sightings d' now' key hd hun.of_append
      exact ⟨hfirst, n, rfl, h.mac_occupied hn⟩
    · obtain ⟨rfl, rfl, rfl⟩ := Event.sighted.inj (List.mem_singleton.mp hd)
      obtain ⟨n, r₁, hk₁, hip₁, ht, rfl⟩ := habsorbs hun.of_append
      have hkey : (r₁.sight d' now').key = macKey n := Record.sight_key.trans (hw.key_eq hk₁)
      rw [hkey]
      refine ⟨hid.records _ hun.of_append _ r₁ hk₁ hip₁, n, rfl, ?_⟩
      rw [ht, update_self]
      exact Option.some_ne_none _

/-- **A step keeps hosts apart**, if it meets the guard. -/
theorem Identified.step (hid : Identified c₀ events s) (hsent : Sent events s)
    (hkeep : KeepsIdentity s e) (h : Effect s e t) : Identified c₀ (events ++ [e]) t := by
  have hmac : ∀ d now key, e = .sighted d now key →
      ∃ m, d.mac = some m ∧ Event.sent (.entry ⟨d.ip, m⟩) ∈ events := by
    rintro d now key rfl
    exact hsent.of_sighted h
  cases h with
  | read hstore _ _ => exact hid.quiet hstore (by rintro _ _ _ ⟨⟩)
  | sent hstore _ _ => exact hid.quiet hstore (by rintro _ _ _ ⟨⟩)
  | skipped hstore _ _ => exact hid.quiet hstore (by rintro _ _ _ ⟨⟩)
  | dropped hstore _ _ => exact hid.quiet hstore (by rintro _ _ _ ⟨⟩)
  | entry _ _ _ _ hsighting =>
    obtain ⟨m, hm, hsend⟩ := hmac _ _ _ rfl
    exact hid.sighted hm hsend (hkeep _ _ _ rfl m hm) hsighting
  | service _ _ _ _ hsighting =>
    obtain ⟨m, hm, hsend⟩ := hmac _ _ _ rfl
    exact hid.sighted hm hsend (hkeep _ _ _ rfl m hm) hsighting

/-- The store the listener starts from. -/
theorem identified_init {store : Store} (hw : WellFormed store.contents)
    (hclean : NoPlaceholder store.contents) : Identified store.contents [] (.init store) where
  wellFormed := hw
  clean := hclean
  records := fun _ _ _ r hk hip => ⟨r, hk, hip⟩
  sightings := fun _ _ _ h => nomatch h

/-- **Identities under the listener**: for every mode and interface, every store
without a record of a placeholder, and every interleaving of reads, sends and
receives in which placeholder sightings are of covered addresses: no record is
keyed by a placeholder, and sightings of two different addresses for which no
real MAC was reported are in two different records, which are still there. -/
theorem listen_identity {store : Store} (hw : WellFormed store.contents)
    (hclean : NoPlaceholder store.contents)
    (hrun : Lts.Run (Lts.Guarded (Step cfg) KeepsIdentity) (.init store) events s) :
    NoPlaceholder s.store.contents ∧
      ∀ d₁ now₁ key₁ d₂ now₂ key₂, Event.sighted d₁ now₁ key₁ ∈ events →
        Event.sighted d₂ now₂ key₂ ∈ events → d₁.ip ≠ d₂.ip →
        Unreported events d₁.ip → Unreported events d₂.ip →
        key₁ ≠ key₂ ∧ s.store.contents key₁ ≠ none ∧ s.store.contents key₂ ≠ none := by
  have hinv : Sent events s ∧ Identified store.contents events s := by
    refine hrun.invariant_labels
      (fun events s => Sent events s ∧ Identified store.contents events s)
      ⟨sent_init store, identified_init hw hclean⟩ ?_
    rintro events e s t - ⟨hsent, hid⟩ ⟨hkeep, hstep⟩
    have heffect := hstep.effect hid.wellFormed
    exact ⟨hsent.step heffect, hid.step hsent hkeep heffect⟩
  obtain ⟨-, hid⟩ := hinv
  refine ⟨hid.clean, fun d₁ now₁ key₁ d₂ now₂ key₂ h₁ h₂ hne hun₁ hun₂ => ?_⟩
  obtain ⟨⟨r₁, hk₁, hip₁⟩, m₁, rfl, hm₁⟩ := hid.sightings _ _ _ h₁ hun₁
  obtain ⟨⟨r₂, hk₂, hip₂⟩, m₂, rfl, hm₂⟩ := hid.sightings _ _ _ h₂ hun₂
  refine ⟨fun hkey => hne ?_, hm₁, hm₂⟩
  rw [hkey] at hk₁
  obtain rfl := Option.some.inj (hk₁.symm.trans hk₂)
  exact Ipv4Addr.toText_inj (hip₁.symm.trans hip₂)

/-! ## Two hosts without MAC -/

/-- Packets from the desk and the sofa, each passed on and taken at once. -/
def twoPackets : List Action :=
  [.read (.mdnsPacket desk []), .send .listenMdns, .receive 0,
    .read (.mdnsPacket sofa []), .send .listenMdns, .receive 1]

/-- The mode without capabilities. -/
def mdnsOnlyConfig : Config := ⟨.mdnsOnly, .release, none, fun _ => none⟩

/-- On an empty store both hosts become the record of the broadcast address. -/
theorem listen_confuses_hosts :
    ∃ events s, Lts.Run (Step mdnsOnlyConfig) (.init .empty) events s ∧
      s.store.contents (macKey .broadcast) ≠ none ∧
      ∃ d₁ now₁ d₂ now₂ key, Event.sighted d₁ now₁ key ∈ events ∧
        Event.sighted d₂ now₂ key ∈ events ∧ d₁.ip ≠ d₂.ip ∧
        Unreported events d₁.ip ∧ Unreported events d₂.ip := by
  have hrun : ∃ p ∈ runActions mdnsOnlyConfig (fun _ _ => True) (.init .empty) twoPackets,
      p.2.store.contents (macKey .broadcast) ≠ none ∧
        Event.sighted (.ofArpEntry ⟨desk, .broadcast⟩) 0 (macKey .broadcast) ∈ p.1 ∧
        Event.sighted (.ofArpEntry ⟨sofa, .broadcast⟩) 1 (macKey .broadcast) ∈ p.1 ∧
        desk ≠ sofa ∧ Unreported p.1 desk ∧ Unreported p.1 sofa := by
    decide
  obtain ⟨⟨events, s⟩, hrun, hkeyed, hrest⟩ := hrun
  exact ⟨events, s, (run_actions hrun).of_guarded, hkeyed, _, _, _, _, _, hrest⟩

/-- Where the laptop and the phone were recorded at those addresses before, the
two hosts are told apart. -/
theorem listen_identity_of_recorded_hosts :
    ∃ (events : List Event) (s : Listener),
      Event.sighted (.ofArpEntry ⟨desk, .broadcast⟩) 0 (macKey laptop) ∈ events ∧
      Event.sighted (.ofArpEntry ⟨sofa, .broadcast⟩) 1 (macKey phone) ∈ events ∧
      NoPlaceholder s.store.contents ∧ macKey laptop ≠ macKey phone := by
  have hrun : ∃ p ∈ runActions mdnsOnlyConfig KeepsIdentity
        (.init (.ofOps [.arp desk laptop 0, .arp sofa phone 0])) twoPackets,
      Event.sighted (.ofArpEntry ⟨desk, .broadcast⟩) 0 (macKey laptop) ∈ p.1 ∧
        Event.sighted (.ofArpEntry ⟨sofa, .broadcast⟩) 1 (macKey phone) ∈ p.1 ∧
        Unreported p.1 desk ∧ Unreported p.1 sofa := by
    decide
  obtain ⟨⟨events, s⟩, hrun, h₁, h₂, hun₁, hun₂⟩ := hrun
  obtain ⟨hclean, hdifferent⟩ := listen_identity
    (Store.reaches_ofOps [.arp desk laptop 0, .arp sofa phone 0]).wellFormed
    (noPlaceholder_iff.mpr (by decide)) (run_actions hrun)
  exact ⟨events, s, h₁, h₂, hclean,
    (hdifferent _ _ _ _ _ _ h₁ h₂ (by decide) hun₁ hun₂).1⟩

end Passive

end Gannet
