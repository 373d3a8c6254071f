import Gannet.Discovery.ListenQueues
import Gannet.Identity.Recorded

/-!
# A book of what the passive listener took

The listen loop mixes three streams: the real MACs of the ARP table, the
placeholders sent for mDNS packets, and the service events. A `Book` has what it
took of each, and the MAC into whose record a placeholder went.

- `Book.history`: the devices that went into a MAC's record. Each is a visit of the
  MAC at an address, and after it come the service events of that address.
- `HostOf.unique`: which record a placeholder goes into depends on the records
  loaded and the order of the real MACs, not on when it is taken.
-/

namespace Gannet

open KeyMap Function

variable {c c' c₀ : Contents} {d : Device} {tagGen : String → String} {now : Nat}
  {m n : MacAddr6} {r r' : Record} {ip : Ipv4Addr} {k : String}

/-! ## Records last seen at an address -/

/-- The record under `k` was last seen at the address. -/
def LastAt (c : Contents) (ip : Ipv4Addr) (k : String) : Prop :=
  ∃ r, c k = some r ∧ r.lastIp = ip.toText

instance (c : Contents) (ip : Ipv4Addr) (k : String) : Decidable (LastAt c ip k) :=
  decidable_of_iff (∃ r ∈ c k, r.lastIp = ip.toText) Iff.rfl

theorem LastAt.mem_keys {s : Store} (h : LastAt s.contents ip k) : k ∈ s.records.keys := by
  obtain ⟨r, hk, -⟩ := h
  exact AList.mem_keys.mp (mem_iff_contents.mpr ⟨r, hk⟩)

/-- A record was last seen at one address. -/
theorem LastAt.unique {ip' : Ipv4Addr} (h : LastAt c ip k) (h' : LastAt c ip' k) : ip = ip' := by
  obtain ⟨r, hk, hip⟩ := h
  obtain ⟨r', hk', hip'⟩ := h'
  obtain rfl := Option.some.inj (hk.symm.trans hk')
  exact Ipv4Addr.toText_inj (hip.symm.trans hip')

/-- Where a record was last seen is not one of its times. -/
theorem lastAt_congr {k' : String}
    (h : (c k).map Record.timeless = (c' k').map Record.timeless) :
    LastAt c ip k ↔ LastAt c' ip k' := by
  have himp : ∀ {c c' : Contents} {k k' : String},
      (c k).map Record.timeless = (c' k').map Record.timeless → LastAt c ip k →
      LastAt c' ip k' := by
    rintro c c' k k' hsame ⟨r, hk, hip⟩
    rw [hk] at hsame
    obtain ⟨r', hk', hr'⟩ := Option.map_eq_some_iff.mp hsame.symm
    refine ⟨r', hk', ?_⟩
    rw [← Record.timeless_lastIp, hr']
    exact hip
  exact ⟨himp h, himp h.symm⟩

/-- The address has no record of its own, and of one MAC's alone it is where it was
last seen. -/
structure SoleAt (c : Contents) (ip : Ipv4Addr) : Prop where
  free : c (ipKey ip) = none
  sole : ∃ k, LastAt c ip k ∧ ∀ k', LastAt c ip k' → k' = k

instance (s : Store) (ip : Ipv4Addr) : Decidable (SoleAt s.contents ip) :=
  decidable_of_iff
    (s.contents (ipKey ip) = none ∧ ∃ k ∈ s.records.keys, LastAt s.contents ip k ∧
      ∀ k' ∈ s.records.keys, LastAt s.contents ip k' → k' = k)
    ⟨fun ⟨hfree, k, _, hk, hall⟩ => ⟨hfree, k, hk, fun k' hk' => hall k' hk'.mem_keys hk'⟩,
      fun h => ⟨h.free, let ⟨k, hk, hall⟩ := h.sole
        ⟨k, hk.mem_keys, hk, fun k' _ hk' => hall k' hk'⟩⟩⟩

/-- A sole record covers its address. -/
theorem SoleAt.covered (h : SoleAt c ip) : Covered c ip := by
  obtain ⟨k, ⟨r, hk, hip⟩, -⟩ := h.sole
  exact ⟨h.free, k, r, hk, hip⟩

/-- A placeholder sighted where one MAC was last seen goes into that MAC's record. -/
theorem SoleAt.recordsAt (hw : WellFormed c) (hclean : NoPlaceholder c) (hmac : d.mac = some m)
    (hm : m.isPlaceholder = true) (hsole : SoleAt c d.ip)
    (h : Sighting c d tagGen now c' r') :
    ∃ n, LastAt c d.ip (macKey n) ∧ (∀ n', LastAt c d.ip (macKey n') → n' = n) ∧
      RecordsAt c tagGen n d c' := by
  obtain ⟨n, r, hk, hip, rfl, -⟩ := hsole.covered.absorbs hw hclean hmac hm h
  obtain ⟨k, -, hall⟩ := hsole.sole
  refine ⟨n, ⟨r, hk, hip⟩, fun n' hn' => ?_, recordsAt_of_some hk hsole.free⟩
  exact macKey_inj ((hall _ hn').trans (hall _ ⟨r, hk, hip⟩).symm)

/-- No other MAC was last seen at an address that a sighting wins. -/
theorem WinsAddress.alone_mac (h : WinsAddress c d m) (hn : LastAt c d.ip (macKey n)) : n = m := by
  by_contra hne
  exact macKey_ne_ipKey n d.ip (h.alone _ ⟨fun hkey => hne (macKey_inj hkey), hn⟩)

namespace Passive

/-! ## The book -/

/-- The entry has an address, or stands for one: the loop does not pass it over. -/
def located (entry : ArpEntry) : Bool := !(entry.ip.isUnspecified && !entry.mac.isBroadcast)

/-- The device the loop makes of an entry. -/
def entryDevice (cfg : Config) (entry : ArpEntry) : Device :=
  { Device.ofArpEntry entry with vendor := ouiLookup cfg.ouiTable entry.mac }

/-- The device the loop makes of a service event, with the MAC it knows for the address. -/
def serviceDevice (cfg : Config) (mac : MacAddr6) (event : MdnsServiceEvent) : Device where
  ip := event.ip
  mac := some mac
  vendor := ouiLookup cfg.ouiTable mac
  hostname := none
  osHint := none
  services := event.services
  via := .arp
  category := none
  tag := none

theorem ArpEntry.ext {entry e : ArpEntry} (hip : entry.ip = e.ip) (hmac : entry.mac = e.mac) :
    entry = e := by
  cases entry
  cases e
  exact congrArg₂ ArpEntry.mk hip hmac

variable {cfg : Config} {entry e : ArpEntry} {event : MdnsServiceEvent}

/-- An entry is taken where nothing was heard before. -/
theorem takeEntry_eq_some {seenLocal seenLocal' : Map Ipv4Addr MacAddr6} :
    takeEntry cfg seenLocal entry = some (seenLocal', d) ↔
      located entry = true ∧ entry.ip ∉ seenLocal ∧
        seenLocal' = seenLocal.insert entry.ip entry.mac ∧ d = entryDevice cfg entry := by
  unfold takeEntry located
  cases entry.ip.isUnspecified && !entry.mac.isBroadcast with
  | true => simp
  | false =>
    by_cases hseen : entry.ip ∈ seenLocal
    · simp [hseen]
    · simp [hseen, entryDevice, eq_comm]

/-- And skipped where something was. -/
theorem takeEntry_eq_none {seenLocal : Map Ipv4Addr MacAddr6} :
    takeEntry cfg seenLocal entry = none ↔ (located entry = true → entry.ip ∈ seenLocal) := by
  unfold takeEntry located
  cases entry.ip.isUnspecified && !entry.mac.isBroadcast with
  | true => simp
  | false => simp

/-- A service event is taken for the MAC known at its address. -/
theorem takeService_eq_some {seenLocal : Map Ipv4Addr MacAddr6} :
    takeService cfg seenLocal event = some d ↔
      ∃ mac, seenLocal.lookup event.ip = some mac ∧ d = serviceDevice cfg mac event := by
  rw [takeService, Option.map_eq_some_iff]
  exact exists_congr fun mac => and_congr_right fun _ => eq_comm

/-- What the loop took, in order: `host` has the placeholder that went into a MAC's
record. -/
structure Book where
  popped : List ArpEntry
  services : List MdnsServiceEvent
  host : MacAddr6 → Option ArpEntry

namespace Book

/-- Nothing is taken yet. -/
def empty : Book := ⟨[], [], fun _ => none⟩

/-- The real MACs taken, each with an address where that first came. -/
def reals (b : Book) : List ArpEntry :=
  (b.popped.filter fun entry => !entry.mac.isPlaceholder).reverse.dedup.reverse

/-- The addresses at which the MAC was sighted. It has a placeholder at most before its
own sightings. -/
def visits (b : Book) (m : MacAddr6) : List ArpEntry :=
  (b.host m).toList ++ b.reals.filter fun entry => entry.mac = m

/-- The devices of a visit: its own, and those of the service events of its address. -/
def visitDevices (cfg : Config) (services : List MdnsServiceEvent) (entry : ArpEntry) :
    List Device :=
  entryDevice cfg entry ::
    (services.filter fun event => event.ip = entry.ip).map (serviceDevice cfg entry.mac)

/-- The devices that went into the MAC's record. -/
def history (cfg : Config) (b : Book) (m : MacAddr6) : List Device :=
  (b.visits m).flatMap (visitDevices cfg b.services)

/-- An entry taken that goes into no record. -/
def skip (b : Book) (entry : ArpEntry) : Book := { b with popped := b.popped ++ [entry] }

/-- An entry taken that goes into the record of `m`. -/
def visit (b : Book) (m : MacAddr6) (entry : ArpEntry) : Book where
  popped := b.popped ++ [entry]
  services := b.services
  host := if entry.mac.isPlaceholder then update b.host m (some entry) else b.host

/-- A service event is entered. -/
def serve (b : Book) (event : MdnsServiceEvent) : Book :=
  { b with services := b.services ++ [event] }

variable {b : Book}

/-- The real entries that were taken out of the channel. -/
theorem mem_reals : entry ∈ b.reals ↔ entry ∈ b.popped ∧ entry.mac.isPlaceholder = false := by
  rw [reals, List.mem_reverse, List.mem_dedup, List.mem_reverse, List.mem_filter,
    Bool.not_eq_true']

/-- A MAC's visits are its host's placeholder, if there was one, and its real entries. -/
theorem mem_visits : entry ∈ b.visits m ↔
    b.host m = some entry ∨ (entry ∈ b.reals ∧ entry.mac = m) := by
  rw [visits, List.mem_append, Option.mem_toList, List.mem_filter, decide_eq_true_iff]

/-- No real entry is visited twice. -/
theorem reals_nodup : b.reals.Nodup := List.nodup_reverse.mpr (List.nodup_dedup _)

theorem filter_append_of_pos {α : Type} {p : α → Bool} {xs : List α} {x : α} (h : p x = true) :
    (xs ++ [x]).filter p = xs.filter p ++ [x] := by
  rw [List.filter_append, List.filter_cons_of_pos h, List.filter_nil]

theorem filter_append_of_neg {α : Type} {p : α → Bool} {xs : List α} {x : α} (h : p x = false) :
    (xs ++ [x]).filter p = xs.filter p := by
  rw [List.filter_append, List.filter_cons_of_neg (by rw [h]; decide), List.filter_nil,
    List.append_nil]

/-- Taking a placeholder, or again what was taken before, adds no real MAC. -/
theorem reals_of_old {b' : Book} (hpopped : b'.popped = b.popped ++ [entry])
    (hold : entry.mac.isPlaceholder = false → entry ∈ b.popped) : b'.reals = b.reals := by
  rw [reals, reals, hpopped]
  cases hreal : entry.mac.isPlaceholder with
  | true => rw [filter_append_of_neg (by rw [hreal]; rfl)]
  | false =>
    have hmem : entry ∈ (b.popped.filter fun entry => !entry.mac.isPlaceholder).reverse :=
      List.mem_reverse.mpr (List.mem_filter.mpr ⟨hold hreal, by rw [hreal]; rfl⟩)
    rw [filter_append_of_pos (by rw [hreal]; rfl), List.reverse_append, List.reverse_singleton,
      List.singleton_append, List.dedup_cons_of_mem hmem]

/-- A real MAC that comes for the first time is the last of them. -/
theorem reals_of_new {b' : Book} (hpopped : b'.popped = b.popped ++ [entry])
    (hreal : entry.mac.isPlaceholder = false) (hnew : entry ∉ b.popped) :
    b'.reals = b.reals ++ [entry] := by
  have hmem : entry ∉ (b.popped.filter fun entry => !entry.mac.isPlaceholder).reverse :=
    fun hmem => hnew (List.mem_filter.mp (List.mem_reverse.mp hmem)).1
  rw [reals, reals, hpopped, filter_append_of_pos (by rw [hreal]; rfl), List.reverse_append,
    List.reverse_singleton, List.singleton_append, List.dedup_cons_of_notMem hmem,
    List.reverse_cons]

/-- A visit adds at most one real entry, at the end. -/
theorem reals_prefix_visit (hnew : entry.mac.isPlaceholder = false → entry ∉ b.popped) :
    b.reals <+: (b.visit m entry).reals := by
  cases hm : entry.mac.isPlaceholder with
  | true =>
    have hreals : (b.visit m entry).reals = b.reals :=
      reals_of_old rfl fun hreal => absurd (hm.symm.trans hreal) (by decide)
    exact hreals ▸ List.prefix_refl _
  | false =>
    have hreals : (b.visit m entry).reals = b.reals ++ [entry] := reals_of_new rfl hm (hnew hm)
    rw [hreals]
    exact List.prefix_append _ _

/-- An entry that goes into no record changes no history. -/
theorem visits_skip (hold : entry.mac.isPlaceholder = false → entry ∈ b.popped) :
    (b.skip entry).visits m = b.visits m := by
  have hreals : (b.skip entry).reals = b.reals := reals_of_old rfl hold
  rw [visits, visits, hreals]
  rfl

/-- A visit is the last one of its MAC, and of no other's. -/
theorem visits_visit (hreal : entry.mac.isPlaceholder = false → entry.mac = m ∧ entry ∉ b.popped)
    (hfirst : entry.mac.isPlaceholder = true → b.visits m = []) :
    (b.visit m entry).visits n = if n = m then b.visits m ++ [entry] else b.visits n := by
  cases hm : entry.mac.isPlaceholder with
  | true =>
    have hreals : (b.visit m entry).reals = b.reals :=
      reals_of_old rfl fun hreal => absurd (hm.symm.trans hreal) (by decide)
    have hhost : (b.visit m entry).host = update b.host m (some entry) := if_pos hm
    rw [visits, hreals, hhost]
    by_cases hn : n = m
    · subst hn
      have hnone := hfirst hm
      rw [visits, List.append_eq_nil_iff] at hnone
      rw [if_pos rfl, hfirst hm, update_self, hnone.2]
      rfl
    · rw [if_neg hn, update_of_ne hn, visits]
  | false =>
    obtain ⟨hmac, hnew⟩ := hreal hm
    have hreals : (b.visit m entry).reals = b.reals ++ [entry] := reals_of_new rfl hm hnew
    have hhost : (b.visit m entry).host = b.host := if_neg (by rw [hm]; decide)
    rw [visits, hreals, hhost]
    by_cases hn : n = m
    · subst hn
      rw [if_pos rfl, filter_append_of_pos (by exact decide_eq_true hmac), ← List.append_assoc, visits]
    · have hother : entry.mac ≠ n := fun hmac' => hn (hmac'.symm.trans hmac)
      rw [if_neg hn, filter_append_of_neg (by exact decide_eq_false hother), visits]

/-- The visits after a visit are those before and that one. -/
theorem mem_visits_visit (hvisits : ∀ n, (b.visit m entry).visits n
      = if n = m then b.visits m ++ [entry] else b.visits n) :
    e ∈ (b.visit m entry).visits n ↔ e ∈ b.visits n ∨ (n = m ∧ e = entry) := by
  rw [hvisits]
  by_cases hn : n = m
  · rw [if_pos hn, List.mem_append, List.mem_singleton, hn]
    simp
  · rw [if_neg hn]
    simp [hn]

/-- All devices of a visit are at its address. -/
theorem ip_of_mem_visitDevices {services : List MdnsServiceEvent}
    (h : d ∈ visitDevices cfg services entry) : d.ip = entry.ip := by
  rcases List.mem_cons.mp h with rfl | h
  · rfl
  · obtain ⟨event, hevent, rfl⟩ := List.mem_map.mp h
    exact of_decide_eq_true (List.mem_filter.mp hevent).2

/-- The last device of a MAC that was sighted is of its last visit. -/
theorem exists_last_device {visits : List ArpEntry} (hvisits : b.visits m = visits ++ [entry]) :
    ∃ ds d, b.history cfg m = ds ++ [d] ∧ d.ip = entry.ip := by
  have hne : visitDevices cfg b.services entry ≠ [] := List.cons_ne_nil _ _
  refine ⟨visits.flatMap (visitDevices cfg b.services) ++ (visitDevices cfg b.services entry).dropLast,
    (visitDevices cfg b.services entry).getLast hne, ?_,
    ip_of_mem_visitDevices (List.getLast_mem hne)⟩
  rw [history, hvisits, List.flatMap_append, List.flatMap_singleton, List.append_assoc,
    List.dropLast_append_getLast hne]

/-- A visit is in the MAC's history. -/
theorem entryDevice_mem_history (h : entry ∈ b.visits m) :
    entryDevice cfg entry ∈ b.history cfg m :=
  List.mem_flatMap.mpr ⟨entry, h, List.mem_cons_self⟩

/-- A visit adds its device to the history of its MAC: no service event of its address
was taken before it. -/
theorem history_visit (hvisits : ∀ n, (b.visit m entry).visits n
      = if n = m then b.visits m ++ [entry] else b.visits n)
    (hserved : ∀ event ∈ b.services, event.ip ≠ entry.ip) :
    (b.visit m entry).history cfg n
      = if n = m then b.history cfg m ++ [entryDevice cfg entry] else b.history cfg n := by
  have hdevices : visitDevices cfg b.services entry = [entryDevice cfg entry] := by
    rw [visitDevices, List.filter_eq_nil_iff.mpr fun event hevent => by
      rw [decide_eq_true_iff]
      exact hserved event hevent]
    rfl
  show ((b.visit m entry).visits n).flatMap (visitDevices cfg b.services) = _
  rw [hvisits]
  by_cases hn : n = m
  · rw [if_pos hn, if_pos hn, List.flatMap_append, List.flatMap_singleton, hdevices, history]
  · rw [if_neg hn, if_neg hn, history]

/-- A service event of another address changes nothing of a visit. -/
theorem visitDevices_append_of_ne {services : List MdnsServiceEvent} (h : event.ip ≠ entry.ip) :
    visitDevices cfg (services ++ [event]) entry = visitDevices cfg services entry := by
  rw [visitDevices, visitDevices, filter_append_of_neg (by exact decide_eq_false h)]

/-- A service event at the address of a visit adds to its devices. -/
theorem visitDevices_append_of_eq {services : List MdnsServiceEvent} (h : event.ip = entry.ip) :
    visitDevices cfg (services ++ [event]) entry
      = visitDevices cfg services entry ++ [serviceDevice cfg entry.mac event] := by
  rw [visitDevices, visitDevices, filter_append_of_pos (by exact decide_eq_true h), List.map_append]
  rfl

/-- Visits elsewhere have the devices they had. -/
theorem flatMap_visitDevices_append {services : List MdnsServiceEvent} {visits : List ArpEntry}
    (h : ∀ entry ∈ visits, event.ip ≠ entry.ip) :
    visits.flatMap (visitDevices cfg (services ++ [event]))
      = visits.flatMap (visitDevices cfg services) :=
  List.flatMap_congr fun entry hentry => visitDevices_append_of_ne (h entry hentry)

/-- A service event adds its device to the history of the MAC whose last visit it
follows. -/
theorem history_serve_self {visits : List ArpEntry} (hvisits : b.visits m = visits ++ [entry])
    (hip : event.ip = entry.ip) (hbefore : ∀ entry' ∈ visits, event.ip ≠ entry'.ip) :
    (b.serve event).history cfg m
      = b.history cfg m ++ [serviceDevice cfg entry.mac event] := by
  show (b.visits m).flatMap (visitDevices cfg (b.services ++ [event])) = _
  rw [history, hvisits, List.flatMap_append, List.flatMap_append, List.flatMap_singleton,
    List.flatMap_singleton, flatMap_visitDevices_append hbefore, visitDevices_append_of_eq hip,
    List.append_assoc]

/-- So the history of a MAC does not depend on services elsewhere. -/
theorem history_serve_of_ne (h : ∀ entry ∈ b.visits m, event.ip ≠ entry.ip) :
    (b.serve event).history cfg m = b.history cfg m :=
  flatMap_visitDevices_append h

end Book

/-! ## Where a placeholder goes -/

/-- The record a placeholder at the address goes into: of the MACs that were last seen
there in the loaded store it is the one that was not sighted yet, some of the real MACs
being taken. -/
def HostOf (c₀ : Contents) (reals : List ArpEntry) (m : MacAddr6) (ip : Ipv4Addr) : Prop :=
  ∃ before, before <+: reals ∧ LastAt c₀ ip (macKey m) ∧ (∀ entry ∈ before, entry.mac ≠ m) ∧
    ∀ n, LastAt c₀ ip (macKey n) → n ≠ m → ∃ entry ∈ before, entry.mac = n

/-- The host of an address stays its host when more real entries come. -/
theorem HostOf.mono {reals reals' : List ArpEntry} (h : HostOf c₀ reals m ip)
    (hle : reals <+: reals') : HostOf c₀ reals' m ip := by
  obtain ⟨before, hbefore, hrest⟩ := h
  exact ⟨before, hbefore.trans hle, hrest⟩

/-- Whenever it is taken, the placeholder goes into the same record. -/
theorem HostOf.unique {reals : List ArpEntry} (hm : HostOf c₀ reals m ip)
    (hn : HostOf c₀ reals n ip) : m = n := by
  obtain ⟨before, hbefore, hlast, hnew, hall⟩ := hm
  obtain ⟨before', hbefore', hlast', hnew', hall'⟩ := hn
  by_contra hne
  -- of the two, the one taken when more real MACs were had been sighted by then
  rcases List.prefix_or_prefix_of_prefix hbefore hbefore' with hle | hle
  · obtain ⟨entry, hentry, hmac⟩ := hall n hlast' (Ne.symm hne)
    exact hnew' entry (hle.subset hentry) hmac
  · obtain ⟨entry, hentry, hmac⟩ := hall' m hlast hne
    exact hnew entry (hle.subset hentry) hmac

end Passive

end Gannet
