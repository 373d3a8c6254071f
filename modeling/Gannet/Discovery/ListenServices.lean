import Gannet.Discovery.ListenQueues
import Gannet.Identity.History
import Gannet.Identity.ScanOrder

/-!
# Services under the passive listener

`listen_mdns` sends the services of a packet before the sighting of its sender,
over a queue of their own, and the loop upserts a service event only if it has
seen the address. So the services of a host's first packet are lost whenever the
loop takes them first.

- `announcements_kept`: in every run in which the loop takes service events only
  of addresses it has seen, and no two records contend for an address, every
  service of a packet is in the record last upserted for its sender once the
  queues are empty.
- `first_announcement_dropped`: the run that loses a service.
-/

namespace Gannet

open KeyMap Function

variable {c c' : Contents} {d : Device} {tagGen : String → String} {now : Nat}
  {ip : Ipv4Addr} {m n : MacAddr6} {k : String} {r r' : Record}

/-! ## The record the sightings of an address go into -/

/-- The sightings of `m` at `ip` go into the record under `k`: it is the MAC's
own or was last seen there, and no other competes with it. -/
structure GoesInto (c : Contents) (ip : Ipv4Addr) (m : MacAddr6) (k : String) (r : Record) :
    Prop where
  record : c k = some r
  mac : r.mac ≠ none
  home : k = macKey m ∨ r.lastIp = ip.toText
  alone : ∀ k', Competes c m ip k' → k' = k

/-- After a sighting, a record competes only if it is the sighted one or competed
before. -/
theorem Sighting.competes (hw : WellFormed c) (h : Sighting c d tagGen now c' r')
    (hcomp : Competes c' m ip k) : k = r'.key ∨ Competes c m ip k := by
  obtain ⟨hne, r, hk, hip⟩ := hcomp
  rcases h.entry hk with rfl | hold
  · exact .inl ((hw.sighting h).key_eq hk).symm
  · exact .inr ⟨hne, r, hold, hip⟩

/-- The record a MAC is sighted in has a MAC. -/
theorem Sighting.mac_ne_none (hw : WellFormed c) (hmac : d.mac = some m)
    (h : Sighting c d tagGen now c' r') : r'.mac ≠ none := by
  cases h with
  | absorb _ _ _ _ hown => exact hown
  | promote _ hk =>
    rw [Record.sight_mac, Record.promote_of_none (hw.mac_of_ipKey hk)]
    exact Option.some_ne_none _
  | own _ _ =>
    rw [(touch_mac_describes hw).mac]
    exact Option.some_ne_none _
  | anonymous hnone => exact nomatch hmac.symm.trans hnone

/-- Where at most one record competes, the sighting decides it. -/
theorem Decided.goesInto (hw : WellFormed c) (hdec : Decided c d) (hmac : d.mac = some m)
    (h : Sighting c d tagGen now c' r') : GoesInto c' d.ip m r'.key r' := by
  refine ⟨h.filed hw, h.mac_ne_none hw hmac, .inr h.lastIp, fun k' hcomp => ?_⟩
  rcases h.competes hw hcomp with hkey | hold
  · exact hkey
  -- it competed before, so it was found, and it is there no more or is the one sighted
  cases h with
  | absorb hmac' hk hip hne _ =>
    obtain rfl := Option.some.inj (hmac.symm.trans hmac')
    rw [Record.sight_key, hw.key_eq hk]
    exact hdec m hmac _ _ hold ⟨hne, _, hk, hip⟩
  | promote hmac' hk =>
    obtain rfl := Option.some.inj (hmac.symm.trans hmac')
    obtain rfl := hdec m hmac _ _ hold
      ⟨(macKey_ne_ipKey m d.ip).symm, _, hk, hw.lastIp_of_ipKey hk⟩
    obtain ⟨hne, r, hk', -⟩ := hcomp
    rw [update_of_ne hne, update_self] at hk'
    exact nomatch hk'
  | own hmac' hfree =>
    obtain rfl := Option.some.inj (hmac.symm.trans hmac')
    obtain ⟨hne, r, hk, hip⟩ := hold
    exact absurd (hfree _ _ hk hip) hne
  | anonymous hnone => exact nomatch hmac.symm.trans hnone

/-- The next sighting at the address. -/
theorem GoesInto.again (hw : WellFormed c) (hg : GoesInto c d.ip m k r) (hmac : d.mac = some m)
    (h : Sighting c d tagGen now c' r') :
    r' = r.sight d now ∧ r'.key = k ∧ GoesInto c' d.ip m k r' := by
  have hsame : r' = r.sight d now ∧ c' = update c k (some (r.sight d now)) := by
    cases h with
    | absorb hmac' hk hip hne _ =>
      obtain rfl := Option.some.inj (hmac.symm.trans hmac')
      obtain rfl := hg.alone _ ⟨hne, _, hk, hip⟩
      obtain rfl := Option.some.inj (hg.record.symm.trans hk)
      exact ⟨rfl, rfl⟩
    | promote hmac' hk =>
      -- the record found has a MAC, so it is not the address's own
      obtain rfl := hg.alone _
        ⟨(macKey_ne_ipKey m d.ip).symm, _, hk, hw.lastIp_of_ipKey hk⟩
      exact absurd (hw.mac_of_ipKey hg.record) hg.mac
    | own hmac' hfree =>
      obtain rfl := Option.some.inj (hmac.symm.trans hmac')
      have hkey : k = macKey m := hg.home.elim id fun hip => hfree _ _ hg.record hip
      subst hkey
      have htouch : touch c (.mac m) d tagGen now = r.sight d now := touch_of_some hg.record
      rw [htouch]
      exact ⟨rfl, rfl⟩
    | anonymous hnone => exact nomatch hmac.symm.trans hnone
  have hkey : r'.key = k := by
    rw [hsame.1, Record.sight_key]
    exact hw.key_eq hg.record
  refine ⟨hsame.1, hkey, hkey ▸ h.filed hw, ?_, .inr h.lastIp, fun k' hcomp => ?_⟩
  · rw [hsame.1]
    exact hg.mac
  · rcases h.competes hw hcomp with hkey' | hold
    · exact hkey'.trans hkey
    · exact hg.alone k' hold

/-- A record of a MAC that is sighted at another address than its last is
sighted with that MAC. -/
theorem Sighting.mac_of_moved (h : Sighting c d tagGen now c' r')
    (hk : c (macKey n) = some r) (hk' : c' (macKey n) = some (r.sight d now))
    (hip : r.lastIp ≠ d.ip.toText) : d.mac = some n := by
  have hunchanged : c' (macKey n) ≠ c (macKey n) := by
    rw [hk, hk']
    exact fun h => Record.sight_ne (Option.some.inj h)
  cases h with
  | @absorb k' _ _ _ hk₀ hip₀ _ _ =>
    by_cases hkey : macKey n = k'
    · subst hkey
      obtain rfl := Option.some.inj (hk.symm.trans hk₀)
      exact absurd hip₀ hip
    · exact absurd (update_of_ne hkey ..) hunchanged
  | @promote _ m hmac _ =>
    by_cases hkey : macKey n = macKey m
    · rw [macKey_inj hkey]
      exact hmac
    · refine absurd ?_ hunchanged
      rw [update_of_ne hkey, update_of_ne (macKey_ne_ipKey _ _)]
  | @own m hmac _ =>
    by_cases hkey : macKey n = macKey m
    · rw [macKey_inj hkey]
      exact hmac
    · exact absurd (update_of_ne hkey ..) hunchanged
  | anonymous _ => exact absurd (update_of_ne (macKey_ne_ipKey _ _) ..) hunchanged

/-- A sighting elsewhere, unless it overwrites the record or takes it away. -/
theorem GoesInto.elsewhere (hw : WellFormed c) (hg : GoesInto c ip m k r) (hip : d.ip ≠ ip)
    (hkept : ¬ Overwrites c d k)
    (hstays : ∀ n, d.mac = some n → k = macKey n → r.lastIp = ip.toText → m = n)
    (h : Sighting c d tagGen now c' r') : ∃ r₂, GoesInto c' ip m k r₂ ∧ r.Extends r₂ := by
  have halone : ∀ k', Competes c' m ip k' → k' = k := by
    intro k' hcomp
    obtain ⟨hne, r₂, hk₂, hip₂⟩ := hcomp
    rcases h.entry hk₂ with rfl | hold
    · exact absurd (Ipv4Addr.toText_inj (h.lastIp.symm.trans hip₂)) hip
    · exact hg.alone k' ⟨hne, r₂, hold, hip₂⟩
  obtain ⟨n, rfl, -⟩ := hw.exists_mac hg.record hg.mac
  have hkeep : d.mac = some n → c (ipKey d.ip) = none := by
    intro hn
    by_contra hsome
    exact hkept ⟨hsome, n, hn, rfl⟩
  rcases h.mac_record hg.record hkeep with hk' | hk'
  · exact ⟨r, ⟨hk', hg.mac, hg.home, halone⟩, .refl r⟩
  · refine ⟨_, ⟨hk', hg.mac, ?_, halone⟩, Record.extends_sight⟩
    rcases hg.home with hkey | hlast
    · exact .inl hkey
    · -- last seen here and sighted elsewhere: it was the MAC of that sighting
      have hne : r.lastIp ≠ d.ip.toText := fun h => hip (Ipv4Addr.toText_inj (h.symm.trans hlast))
      rw [hstays n (h.mac_of_moved hg.record hk' hne) rfl hlast]
      exact .inl rfl

/-- The record a sighting went into has its services. -/
theorem Sighting.services_subset (h : Sighting c d tagGen now c' r') :
    d.services ⊆ r'.services := by
  rcases h.sightedFrom with ⟨_, r, _, _, _, rfl⟩ | ⟨_, _, _, _, rfl⟩
  · exact mergeStringVec_subset _ _
  · exact mergeStringVec_subset _ _

/-! ## Runs of the listener -/

namespace Passive

open Listener

variable {cfg : Config} {s t : Listener} {e : Event} {events : List Event}

/-- The key of the record last upserted for the address. -/
def lastKey (events : List Event) (ip : Ipv4Addr) : Option String :=
  events.foldl (fun last e =>
    match e with
    | .sighted d _ key => if d.ip = ip then some key else last
    | _ => last) none

/-- The sighting finds at most one record to go into, no record is filed over
that of its MAC, and that of its MAC is not the one the sightings of some other
address go into under another MAC. -/
structure Undisputed (seenLocal : Map Ipv4Addr MacAddr6) (c : Contents) (d : Device) : Prop where
  decided : Decided c d
  kept : ∀ m, d.mac = some m → c (ipKey d.ip) ≠ none → c (macKey m) = none
  stays : ∀ m r ip n, d.mac = some m → c (macKey m) = some r → r.lastIp = ip.toText →
    ip ≠ d.ip → seenLocal.lookup ip = some n → n = m

/-- A service event the loop takes is of an address it has seen; a sighting is
undisputed. -/
structure KeepsServices (s : Listener) (e : Event) : Prop where
  seen : ∀ event, e = .dropped event → event.ip ∈ s.seenLocal
  sighted : ∀ d now key, e = .sighted d now key → Undisputed s.seenLocal s.store.contents d

theorem undisputed_iff_keys {seenLocal : Map Ipv4Addr MacAddr6} {store : Store} {d : Device} :
    Undisputed seenLocal store.contents d ↔ ∀ m ∈ d.mac,
      (∀ k₁ ∈ store.records.keys, ∀ k₂ ∈ store.records.keys, Competes store.contents m d.ip k₁ →
        Competes store.contents m d.ip k₂ → k₁ = k₂) ∧
      (store.contents (ipKey d.ip) ≠ none → store.contents (macKey m) = none) ∧
      ∀ r ∈ store.contents (macKey m), ∀ ip ∈ seenLocal.keys, r.lastIp = ip.toText →
        ip ≠ d.ip → seenLocal.lookup ip = some m := by
  constructor
  · intro h m hm
    refine ⟨fun k₁ _ k₂ _ => h.decided m hm k₁ k₂, h.kept m hm, fun r hr ip hip hlast hne => ?_⟩
    obtain ⟨n, hn⟩ := Option.isSome_iff_exists.mp
      (AList.lookup_isSome.mpr (AList.mem_keys.mpr hip))
    rw [hn, h.stays m r ip n hm hr hlast hne hn]
  · intro h
    refine ⟨fun m hm k₁ k₂ h₁ h₂ => (h m hm).1 k₁ h₁.mem_keys k₂ h₂.mem_keys h₁ h₂,
      fun m hm => (h m hm).2.1, fun m r ip n hm hr hlast hne hn => ?_⟩
    have hmem : ip ∈ seenLocal.keys := by
      rw [← AList.mem_keys, ← AList.lookup_isSome, hn]
      rfl
    exact Option.some.inj (hn.symm.trans ((h m hm).2.2 r hr ip hmem hlast hne))

instance (seenLocal : Map Ipv4Addr MacAddr6) (store : Store) (d : Device) :
    Decidable (Undisputed seenLocal store.contents d) :=
  decidable_of_iff _ undisputed_iff_keys.symm

instance (s : Listener) (e : Event) : Decidable (KeepsServices s e) :=
  match e with
  | .sighted d now key =>
    decidable_of_iff (Undisputed s.seenLocal s.store.contents d)
      ⟨fun h => ⟨by rintro _ ⟨⟩, by rintro _ _ _ ⟨⟩; exact h⟩, fun h => h.sighted d now key rfl⟩
  | .dropped event =>
    decidable_of_iff (event.ip ∈ s.seenLocal)
      ⟨fun h => ⟨by rintro _ ⟨⟩; exact h, by rintro _ _ _ ⟨⟩⟩, fun h => h.seen event rfl⟩
  | .read _ => isTrue ⟨by rintro _ ⟨⟩, by rintro _ _ _ ⟨⟩⟩
  | .sent _ => isTrue ⟨by rintro _ ⟨⟩, by rintro _ _ _ ⟨⟩⟩
  | .skipped _ => isTrue ⟨by rintro _ ⟨⟩, by rintro _ _ _ ⟨⟩⟩

/-- A sighting is the last one at its address, and none elsewhere. -/
theorem lastKey_sighted (events : List Event) (d : Device) (now : Nat) (key : String)
    (ip : Ipv4Addr) : lastKey (events ++ [.sighted d now key]) ip
      = if d.ip = ip then some key else lastKey events ip := by
  rw [lastKey, List.foldl_append]
  rfl

/-- Other events leave the last sightings. -/
theorem lastKey_quiet (he : ∀ d now key, e ≠ .sighted d now key) (ip : Ipv4Addr) :
    lastKey (events ++ [e]) ip = lastKey events ip := by
  rw [lastKey, List.foldl_append]
  cases e with
  | sighted d now key => exact absurd rfl (he d now key)
  | _ => rfl

/-! ### The services of one address -/

/-- The sightings of the address go into one record, the one last upserted for
it, and that has the services of all of them. -/
def Housed (events : List Event) (c : Contents) (ip : Ipv4Addr) (m : MacAddr6) : Prop :=
  ∃ k r, lastKey events ip = some k ∧ GoesInto c ip m k r ∧
    ∀ d now key, Event.sighted d now key ∈ events → d.ip = ip → d.services ⊆ r.services

theorem Housed.quiet (hh : Housed events c ip m) (he : ∀ d now key, e ≠ .sighted d now key) :
    Housed (events ++ [e]) c ip m := by
  obtain ⟨k, r, hlast, hg, hservices⟩ := hh
  refine ⟨k, r, (lastKey_quiet he ip).trans hlast, hg, fun d now key hmem hip => ?_⟩
  rcases List.mem_append.mp hmem with hmem | hmem
  · exact hservices d now key hmem hip
  · exact absurd (List.mem_singleton.mp hmem).symm (he d now key)

/-- The first sighting of the address. -/
theorem Housed.first (hw : WellFormed c) (hdec : Decided c d) (hmac : d.mac = some m)
    (hnew : ∀ d' now' key, Event.sighted d' now' key ∈ events → d'.ip ≠ d.ip)
    (h : Sighting c d tagGen now c' r') :
    Housed (events ++ [.sighted d now r'.key]) c' d.ip m := by
  refine ⟨r'.key, r', ?_, hdec.goesInto hw hmac h, fun d' now' key hmem hip => ?_⟩
  · rw [lastKey_sighted, if_pos rfl]
  · rcases List.mem_append.mp hmem with hmem | hmem
    · exact absurd hip (hnew d' now' key hmem)
    · obtain ⟨rfl, -, -⟩ := Event.sighted.inj (List.mem_singleton.mp hmem)
      exact h.services_subset

/-- Another sighting of the MAC finds its record. -/
theorem Housed.again (hw : WellFormed c) (hh : Housed events c d.ip m) (hmac : d.mac = some m)
    (h : Sighting c d tagGen now c' r') :
    Housed (events ++ [.sighted d now r'.key]) c' d.ip m := by
  obtain ⟨k, r, -, hg, hservices⟩ := hh
  obtain ⟨hsight, hkey, hg'⟩ := hg.again hw hmac h
  refine ⟨k, r', ?_, hg', fun d' now' key hmem hip => ?_⟩
  · rw [lastKey_sighted, if_pos rfl, hkey]
  · rcases List.mem_append.mp hmem with hmem | hmem
    · have hext : r.Extends r' := hsight ▸ Record.extends_sight
      exact List.Subset.trans (hservices d' now' key hmem hip) hext.services
    · obtain ⟨rfl, -, -⟩ := Event.sighted.inj (List.mem_singleton.mp hmem)
      exact h.services_subset

/-- An undisputed sighting of another address. -/
theorem Housed.elsewhere {seenLocal : Map Ipv4Addr MacAddr6} (hw : WellFormed c)
    (hh : Housed events c ip m) (hip : d.ip ≠ ip) (hund : Undisputed seenLocal c d)
    (hlocal : seenLocal.lookup ip = some m) (h : Sighting c d tagGen now c' r') :
    Housed (events ++ [.sighted d now r'.key]) c' ip m := by
  obtain ⟨k, r, hlast, hg, hservices⟩ := hh
  have hkept : ¬ Overwrites c d k := by
    rintro ⟨hown, n, hn, rfl⟩
    exact nomatch (hund.kept n hn hown).symm.trans hg.record
  have hstays : ∀ n, d.mac = some n → k = macKey n → r.lastIp = ip.toText → m = n := by
    rintro n hn rfl hlast
    exact hund.stays n r ip m hn hg.record hlast hip.symm hlocal
  obtain ⟨r₂, hg₂, hext⟩ := hg.elsewhere hw hip hkept hstays h
  refine ⟨k, r₂, ?_, hg₂, fun d' now' key hmem hip' => ?_⟩
  · rw [lastKey_sighted, if_neg hip, hlast]
  · rcases List.mem_append.mp hmem with hmem | hmem
    · exact List.Subset.trans (hservices d' now' key hmem hip') hext.services
    · obtain ⟨rfl, -, -⟩ := Event.sighted.inj (List.mem_singleton.mp hmem)
      exact absurd hip' hip

/-! ### The services of all addresses -/

/-- What holds while sightings are undisputed and no service event is dropped. -/
structure Recorded (events : List Event) (s : Listener) : Prop where
  wellFormed : WellFormed s.store.contents
  undropped : ∀ event, Event.dropped event ∉ events
  sighted : ∀ d now key, Event.sighted d now key ∈ events → d.ip ∈ s.seenLocal
  home : ∀ ip m, s.seenLocal.lookup ip = some m → Housed events s.store.contents ip m

theorem recorded_init {store : Store} (hw : WellFormed store.contents) :
    Recorded [] (.init store) where
  wellFormed := hw
  undropped := fun _ h => nomatch h
  sighted := fun _ _ _ h => nomatch h
  home := fun _ _ h => nomatch h

/-- A step that neither sights nor drops. -/
theorem Recorded.quiet (hr : Recorded events s) (hstore : t.store.contents = s.store.contents)
    (hseen : t.seenLocal = s.seenLocal) (he : ∀ d now key, e ≠ .sighted d now key)
    (hdrop : ∀ event, e ≠ .dropped event) : Recorded (events ++ [e]) t where
  wellFormed := hstore ▸ hr.wellFormed
  undropped := by
    intro event hmem
    rcases List.mem_append.mp hmem with hmem | hmem
    · exact hr.undropped event hmem
    · exact hdrop event (List.mem_singleton.mp hmem).symm
  sighted := by
    intro d now key hmem
    rw [hseen]
    rcases List.mem_append.mp hmem with hmem | hmem
    · exact hr.sighted d now key hmem
    · exact absurd (List.mem_singleton.mp hmem).symm (he d now key)
  home := by
    intro ip m hm
    rw [hstore]
    exact (hr.home ip m (hseen ▸ hm)).quiet he

/-- A sighting, of an address that is new or goes into the record it had. -/
theorem Recorded.sight (hr : Recorded events s) {d : Device} {now : Nat} {m : MacAddr6}
    (hmac : d.mac = some m) (hlocal : t.seenLocal.lookup d.ip = some m)
    (hother : ∀ ip, ip ≠ d.ip → t.seenLocal.lookup ip = s.seenLocal.lookup ip)
    (hsame : d.ip ∉ s.seenLocal ∨ s.seenLocal.lookup d.ip = some m)
    (hund : Undisputed s.seenLocal s.store.contents d)
    (h : Sighting s.store.contents d tagGen now t.store.contents r') :
    Recorded (events ++ [.sighted d now r'.key]) t where
  wellFormed := hr.wellFormed.sighting h
  undropped := by
    intro event hmem
    rcases List.mem_append.mp hmem with hmem | hmem
    · exact hr.undropped event hmem
    · exact nomatch List.mem_singleton.mp hmem
  sighted := by
    intro d' now' key hmem
    by_cases hip : d'.ip = d.ip
    · rw [hip, ← AList.lookup_isSome, hlocal]
      rfl
    · rcases List.mem_append.mp hmem with hmem | hmem
      · rw [← AList.lookup_isSome, hother _ hip, AList.lookup_isSome]
        exact hr.sighted d' now' key hmem
      · obtain ⟨rfl, -, -⟩ := Event.sighted.inj (List.mem_singleton.mp hmem)
        exact absurd rfl hip
  home := by
    intro ip n hn
    by_cases hip : d.ip = ip
    · subst hip
      obtain rfl := Option.some.inj (hlocal.symm.trans hn)
      rcases hsame with hnew | hold
      · refine Housed.first hr.wellFormed hund.decided hmac (fun d' now' key hmem hip => ?_) h
        exact hnew (hip ▸ hr.sighted d' now' key hmem)
      · exact (hr.home _ _ hold).again hr.wellFormed hmac h
    · have hold := (hother ip (Ne.symm hip)).symm.trans hn
      exact (hr.home ip n hold).elsewhere hr.wellFormed hip hund hold h

/-- **One step** that meets the guard keeps every service recorded. -/
theorem Recorded.step (hr : Recorded events s) (hkeep : KeepsServices s e)
    (h : Outcome cfg s e t) : Recorded (events ++ [e]) t := by
  cases h with
  | read hstore _ => exact hr.quiet hstore rfl (by rintro _ _ _ ⟨⟩) (by rintro _ ⟨⟩)
  | sent hstore _ =>
    obtain ⟨hstore', hseen⟩ := deliver_store _ _
    exact hr.quiet ((congrArg Store.contents hstore').trans hstore) hseen
      (by rintro _ _ _ ⟨⟩) (by rintro _ ⟨⟩)
  | skipped hstore _ _ => exact hr.quiet hstore rfl (by rintro _ _ _ ⟨⟩) (by rintro _ ⟨⟩)
  | @dropped event _ _ _ _ htake =>
    exact absurd (hkeep.seen event rfl) (takeService_none.mp htake)
  | entry _ htake hsighting =>
    have hfresh := takeEntry_fresh htake
    obtain ⟨rfl, hip, hmac⟩ := takeEntry_spec htake
    rw [← hip] at hfresh
    refine hr.sight hmac ?_ (fun ip hne => ?_) (.inl hfresh) (hkeep.sighted _ _ _ rfl) hsighting
    · rw [hip]
      exact AList.lookup_insert _
    · rw [hip] at hne
      exact AList.lookup_insert_ne hne
  | service _ htake hsighting =>
    obtain ⟨m, hlocal, hmac⟩ := takeService_spec htake
    exact hr.sight hmac hlocal (fun _ _ => rfl) (.inr hlocal) (hkeep.sighted _ _ _ rfl) hsighting

/-- **Announcements**: for every mode and interface, every well-formed store and
every interleaving of reads, sends and receives in which the loop takes service
events only of addresses it has seen and every sighting is undisputed: once the
queues are empty, each service of each packet read is in the record last
upserted for the packet's sender. -/
theorem announcements_kept {store : Store} (hw : WellFormed store.contents)
    (hrun : Lts.Run (Lts.Guarded (Step cfg) KeepsServices) (.init store) events s)
    (hdrained : s.Drained) {src : Ipv4Addr} {payload : List UInt8} {services : List String}
    (hread : Event.read (.mdnsPacket src payload) ∈ events)
    (hservices : parseMdnsForServices (payload.take mdnsBufferSize) = .ok services) :
    ∀ service ∈ services, ∃ k r, lastKey events src = some k ∧
      s.store.contents k = some r ∧ service ∈ r.services := by
  have hinv : Accounted events s ∧ Recorded events s := by
    refine hrun.invariant_labels (fun events s => Accounted events s ∧ Recorded events s)
      ⟨accounted_init store, recorded_init hw⟩ ?_
    rintro events e s t - ⟨ha, hr⟩ ⟨hkeep, hstep⟩
    have houtcome := hstep.outcome hr.wellFormed
    exact ⟨ha.step houtcome, hr.step hkeep houtcome⟩
  obtain ⟨ha, hr⟩ := hinv
  intro service hservice
  rcases ha.delivered hdrained hread hservices (List.ne_nil_of_mem hservice) with
    hdrop | ⟨d, now, key, hsighted, hip, hsame⟩
  · exact absurd hdrop (hr.undropped _)
  · obtain ⟨m, hm⟩ := Option.isSome_iff_exists.mp
      (AList.lookup_isSome.mpr (hr.sighted d now key hsighted))
    obtain ⟨k, r, hlast, hg, hall⟩ := hr.home _ m hm
    rw [hip] at hlast
    refine ⟨k, r, hlast, hg.record, hall d now key hsighted rfl ?_⟩
    rw [hsame]
    exact hservice

/-! ## The first packet of a host -/

/-- A packet that announces the printer at its sender. -/
def printerPacket : List UInt8 :=
  -- one answer: the PTR record of _ipp._tcp.local, for desk._ipp._tcp.local
  [0, 0, 0x84, 0, 0, 0, 0, 1, 0, 0, 0, 0] ++
    [4, 0x5F, 0x69, 0x70, 0x70, 4, 0x5F, 0x74, 0x63, 0x70, 5, 0x6C, 0x6F, 0x63, 0x61, 0x6C, 0] ++
    [0, 12, 0, 1, 0, 0, 0, 120, 0, 7] ++ [4, 0x64, 0x65, 0x73, 0x6B, 0xC0, 12]

/-- The packet announces one service. -/
theorem services_printerPacket :
    parseMdnsForServices (printerPacket.take mdnsBufferSize) = .ok ["ipp"] := by
  decide +kernel

/-- The packet is read, both its messages are sent, and then taken in the given
order. -/
def printerRun (taken : List Action) : List Action :=
  [.read (.mdnsPacket desk printerPacket), .send .listenMdns, .send .listenMdns] ++ taken

/-- The loop takes the services first: the address is not seen yet. -/
theorem first_announcement_dropped :
    ∃ events s, Lts.Run (Step mdnsOnlyConfig) (.init .empty) events s ∧ s.Drained ∧
      Event.read (.mdnsPacket desk printerPacket) ∈ events ∧
      parseMdnsForServices (printerPacket.take mdnsBufferSize) = .ok ["ipp"] ∧
      ¬ ∃ k r, lastKey events desk = some k ∧ s.store.contents k = some r ∧
        "ipp" ∈ r.services := by
  have hrun : ∃ p ∈ runActions mdnsOnlyConfig (fun _ _ => True) (.init .empty)
        (printerRun [.receiveService 0, .receive 0]),
      p.2.Drained ∧ Event.read (.mdnsPacket desk printerPacket) ∈ p.1 ∧
        ∀ k ∈ lastKey p.1 desk, ∀ r ∈ p.2.store.contents k, "ipp" ∉ r.services := by
    decide +kernel
  obtain ⟨⟨events, s⟩, hrun, hdrained, hread, hmissing⟩ := hrun
  refine ⟨events, s, (run_actions hrun).of_guarded, hdrained, hread, services_printerPacket, ?_⟩
  rintro ⟨k, r, hk, hr, hservice⟩
  exact hmissing k hk r hr hservice

/-- The loop takes the sighting first, of an address where the laptop was
recorded. -/
theorem announcements_kept_of_printer :
    ∃ (events : List Event) (s : Listener),
      Event.read (.mdnsPacket desk printerPacket) ∈ events ∧
      ∃ k r, lastKey events desk = some k ∧ s.store.contents k = some r ∧
        "ipp" ∈ r.services := by
  have hrun : ∃ p ∈ runActions mdnsOnlyConfig KeepsServices
        (.init (.ofOps [.arp desk laptop 0])) (printerRun [.receive 1, .receiveService 1]),
      p.2.Drained ∧ Event.read (.mdnsPacket desk printerPacket) ∈ p.1 := by
    decide +kernel
  obtain ⟨⟨events, s⟩, hrun, hdrained, hread⟩ := hrun
  exact ⟨events, s, hread, announcements_kept
    (Store.reaches_ofOps [.arp desk laptop 0]).wellFormed (run_actions hrun) hdrained hread
    services_printerPacket "ipp" (List.mem_singleton_self _)⟩

end Passive

end Gannet
