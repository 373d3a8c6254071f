import Gannet.Discovery.ListenBook

/-!
# What the passive listener makes of its records

While every step of the listener leaves a sighting with the host it is about
(`KeepsRealMac`), the book of what the loop took says what each record is, apart
from its times: `Booked` is that invariant, and `Booked.step` that the steps keep
it. An entry taken is passed over (`Booked.skip`) or is a visit of some MAC at a new
address (`Booked.visit`), and a service event follows the last visit of its MAC
(`Booked.serve`).
-/

namespace Gannet

open KeyMap Function

namespace Passive

variable {c c' c₀ : Contents} {d : Device} {tagGen : String → String} {now : Nat}
  {m n : MacAddr6} {r r' : Record} {ip : Ipv4Addr} {cfg : Config} {entry e : ArpEntry}
  {event : MdnsServiceEvent}

/-! ## The invariant -/

/-- The entry is of the address, and the loop does not pass it over. -/
def isPlaceholderAt (ip : Ipv4Addr) (entry : ArpEntry) : Bool :=
  entry.ip = ip && located entry

/-- The book says what the loop remembers and what the records are, apart from their
times, if they were those of `c₀` first. -/
structure Booked (cfg : Config) (c₀ : Contents) (b : Book) (seenLocal : Map Ipv4Addr MacAddr6)
    (c : Contents) : Prop where
  wellFormed : WellFormed c
  clean : NoPlaceholder c
  /-- What is remembered are the visits. -/
  seen : ∀ entry : ArpEntry, seenLocal.lookup entry.ip = some entry.mac ↔ ∃ m, entry ∈ b.visits m
  passed : ∀ entry ∈ b.popped, located entry = true → entry.ip ∈ seenLocal
  own : ∀ entry ∈ b.popped, entry.mac.isPlaceholder = false →
    seenLocal.lookup entry.ip = some entry.mac
  served : ∀ event ∈ b.services, event.ip ∈ seenLocal
  host : ∀ m entry, b.host m = some entry → entry.mac.isPlaceholder = true ∧
    HostOf c₀ b.reals m entry.ip ∧
    (b.popped.filter (·.mac.isPlaceholder)).find? (isPlaceholderAt entry.ip) = some entry
  /-- A MAC that was not sighted has not been where anything was taken from. -/
  unvisited : ∀ m ip, b.visits m = [] → LastAt c₀ ip (macKey m) → ip ∉ seenLocal
  address : ∀ ip, c (ipKey ip) = if ip ∈ seenLocal then none else c₀ (ipKey ip)
  record : ∀ m, (c (macKey m)).map Record.timeless
    = recorded c₀ Namer.generate m (b.history cfg m)

variable {b : Book} {seenLocal : Map Ipv4Addr MacAddr6}

/-- The empty book is that of a clean registry. -/
theorem booked_init (hw : WellFormed c) (hclean : NoPlaceholder c) :
    Booked cfg c .empty ∅ c where
  wellFormed := hw
  clean := hclean
  seen := fun entry => by
    rw [AList.lookup_empty]
    refine iff_of_false (fun h => nomatch h) ?_
    rintro ⟨m, hm⟩
    exact nomatch hm
  passed := fun _ h => nomatch h
  own := fun _ h => nomatch h
  served := fun _ h => nomatch h
  host := fun _ _ h => nomatch h
  unvisited := fun _ ip _ _ hmem => AList.notMem_empty ip hmem
  address := fun ip => (if_neg (AList.notMem_empty ip)).symm
  record := fun _ => rfl

namespace Booked

/-- Where a MAC was visited something was heard. -/
theorem mem_seenLocal (h : Booked cfg c₀ b seenLocal c) (hvisit : entry ∈ b.visits m) :
    entry.ip ∈ seenLocal := by
  have hlookup := (h.seen entry).mpr ⟨m, hvisit⟩
  by_contra hnew
  exact nomatch (AList.lookup_eq_none.mpr hnew).symm.trans hlookup

/-- Of an address there is one visit. -/
theorem visit_unique (h : Booked cfg c₀ b seenLocal c) (hvisit : entry ∈ b.visits m)
    (hvisit' : e ∈ b.visits n) (hip : entry.ip = e.ip) : entry = e := by
  have hlookup := (h.seen entry).mpr ⟨m, hvisit⟩
  have hlookup' := (h.seen e).mpr ⟨n, hvisit'⟩
  rw [hip] at hlookup
  have hmac : entry.mac = e.mac := Option.some.inj (hlookup.symm.trans hlookup')
  exact ArpEntry.ext hip hmac

/-- A visit is one MAC's. -/
theorem visitor_unique (h : Booked cfg c₀ b seenLocal c) (hm : entry ∈ b.visits m)
    (hn : entry ∈ b.visits n) : m = n := by
  rcases Book.mem_visits.mp hm with hhost | ⟨hreal, rfl⟩
  · obtain ⟨hplaceholder, hm', -⟩ := h.host m entry hhost
    rcases Book.mem_visits.mp hn with hhost' | ⟨hreal, -⟩
    · exact hm'.unique (h.host n entry hhost').2.1
    · exact absurd (hplaceholder.symm.trans (Book.mem_reals.mp hreal).2) (by decide)
  · rcases Book.mem_visits.mp hn with hhost' | ⟨-, hmac⟩
    · have hplaceholder := (h.host n entry hhost').1
      exact absurd (hplaceholder.symm.trans (Book.mem_reals.mp hreal).2) (by decide)
    · exact hmac

/-- No visit is repeated. -/
theorem visits_nodup (h : Booked cfg c₀ b seenLocal c) (m : MacAddr6) : (b.visits m).Nodup := by
  rw [Book.visits]
  refine List.Nodup.append ?_ (Book.reals_nodup.filter _) ?_
  · cases b.host m with
    | none => exact List.nodup_nil
    | some entry => exact List.nodup_singleton entry
  · intro entry hhost hreal
    have hplaceholder := (h.host m entry (Option.mem_toList.mp hhost)).1
    have hmem := (List.mem_filter.mp hreal).1
    exact absurd (hplaceholder.symm.trans (Book.mem_reals.mp hmem).2) (by decide)

/-- A MAC is where it was last sighted, if at all. -/
theorem lastAt_cases (h : Booked cfg c₀ b seenLocal c) (hlast : LastAt c ip (macKey m)) :
    (b.visits m = [] ∧ LastAt c₀ ip (macKey m)) ∨
      ∃ visits entry, b.visits m = visits ++ [entry] ∧ entry.ip = ip := by
  have hrecord := h.record m
  rcases List.eq_nil_or_concat (b.visits m) with hnil | ⟨visits, entry, hvisits⟩
  · refine .inl ⟨hnil, ?_⟩
    rw [Book.history, hnil, List.flatMap_nil] at hrecord
    exact (lastAt_congr hrecord).mp hlast
  · rw [List.concat_eq_append] at hvisits
    refine .inr ⟨visits, entry, hvisits, ?_⟩
    obtain ⟨ds, d, hhistory, hip⟩ := Book.exists_last_device hvisits
    obtain ⟨r, hk, hlastIp⟩ := hlast
    rw [hhistory, hk] at hrecord
    have hd : r.timeless.lastIp = d.ip.toText := recorded_lastIp hrecord.symm
    rw [Record.timeless_lastIp, hlastIp] at hd
    exact hip.symm.trans (Ipv4Addr.toText_inj hd).symm

/-- A record last seen where something was heard was visited there last. -/
theorem lastAt_seen (h : Booked cfg c₀ b seenLocal c) (hlast : LastAt c ip (macKey m))
    (hseen : ip ∈ seenLocal) : ∃ visits entry, b.visits m = visits ++ [entry] ∧ entry.ip = ip := by
  rcases h.lastAt_cases hlast with ⟨hnil, hlast₀⟩ | hvisits
  · exact absurd hseen (h.unvisited m ip hnil hlast₀)
  · exact hvisits

/-- A record last seen where nothing was heard was loaded like that. -/
theorem lastAt_new (h : Booked cfg c₀ b seenLocal c) (hlast : LastAt c ip (macKey m))
    (hnew : ip ∉ seenLocal) : b.visits m = [] ∧ LastAt c₀ ip (macKey m) := by
  rcases h.lastAt_cases hlast with hnil | ⟨visits, entry, hvisits, rfl⟩
  · exact hnil
  · refine absurd (h.mem_seenLocal (m := m) ?_) hnew
    rw [hvisits]
    exact List.mem_append_right _ List.mem_cons_self

/-- A MAC that was not sighted is where it was in the loaded store. -/
theorem lastAt_of_unvisited (h : Booked cfg c₀ b seenLocal c) (hnil : b.visits m = []) :
    LastAt c ip (macKey m) ↔ LastAt c₀ ip (macKey m) := by
  have hrecord := h.record m
  rw [Book.history, hnil, List.flatMap_nil] at hrecord
  exact lastAt_congr hrecord

/-- What is found among the placeholders stays what is found. -/
theorem find?_placeholder_append {entries entries' : List ArpEntry}
    (h : (entries.filter (·.mac.isPlaceholder)).find? (isPlaceholderAt ip) = some entry) :
    ((entries ++ entries').filter (·.mac.isPlaceholder)).find? (isPlaceholderAt ip)
      = some entry := by
  rw [List.filter_append, List.find?_append, h]
  rfl

/-! ### An entry that goes into no record -/

/-- A skipped entry leaves the book as it is, but for the channel. -/
theorem skip (h : Booked cfg c₀ b seenLocal c)
    (hpassed : located entry = true → entry.ip ∈ seenLocal)
    (hown : entry.mac.isPlaceholder = false → seenLocal.lookup entry.ip = some entry.mac) :
    Booked cfg c₀ (b.skip entry) seenLocal c := by
  -- a real MAC was taken before
  have hold : entry.mac.isPlaceholder = false → entry ∈ b.popped := by
    intro hreal
    obtain ⟨m, hvisit⟩ := (h.seen entry).mp (hown hreal)
    rcases Book.mem_visits.mp hvisit with hhost | ⟨hmem, -⟩
    · exact absurd ((h.host m entry hhost).1.symm.trans hreal) (by decide)
    · exact (Book.mem_reals.mp hmem).1
  have hvisits : ∀ m, (b.skip entry).visits m = b.visits m := fun m => Book.visits_skip hold
  have hreals : (b.skip entry).reals = b.reals := Book.reals_of_old rfl hold
  exact
    { wellFormed := h.wellFormed
      clean := h.clean
      seen := fun e => by simp only [hvisits, h.seen e]
      passed := fun e he => (List.mem_append.mp he).elim (h.passed e) fun he => by
        obtain rfl := List.mem_singleton.mp he
        exact hpassed
      own := fun e he => (List.mem_append.mp he).elim (h.own e) fun he => by
        obtain rfl := List.mem_singleton.mp he
        exact hown
      served := h.served
      host := fun m e he => by
        obtain ⟨hplaceholder, hhost, hfirst⟩ := h.host m e he
        exact ⟨hplaceholder, hreals ▸ hhost, find?_placeholder_append hfirst⟩
      unvisited := fun m ip hnil => h.unvisited m ip (hvisits m ▸ hnil)
      address := h.address
      record := fun m => by
        rw [h.record, Book.history, Book.history, hvisits]
        rfl }

/-! ### A visit -/

/-- The record of a placeholder, when it is taken. -/
theorem hostOf (h : Booked cfg c₀ b seenLocal c) (hnew : ip ∉ seenLocal)
    (hlast : LastAt c ip (macKey m)) (halone : ∀ n, LastAt c ip (macKey n) → n = m) :
    HostOf c₀ b.reals m ip := by
  obtain ⟨hnil, hlast₀⟩ := h.lastAt_new hlast hnew
  refine ⟨b.reals, List.prefix_refl _, hlast₀, fun entry hentry hmac => ?_, fun n hn hne => ?_⟩
  · have hvisit : entry ∈ b.visits m := Book.mem_visits.mpr (.inr ⟨hentry, hmac⟩)
    rw [hnil] at hvisit
    exact nomatch hvisit
  · by_contra hno
    cases hhost : b.host n with
    | some entry =>
      -- its placeholder was taken from this address
      obtain ⟨-, ⟨-, -, hlast', -⟩, -⟩ := h.host n entry hhost
      refine hnew ?_
      rw [hn.unique hlast']
      exact h.mem_seenLocal (Book.mem_visits.mpr (.inl hhost))
    | none =>
      refine hne (halone n ((h.lastAt_of_unvisited ?_).mpr hn))
      rw [Book.visits, hhost, List.filter_eq_nil_iff.mpr fun entry hentry => by
        rw [decide_eq_true_iff]
        exact fun hmac => hno ⟨entry, hentry, hmac⟩]
      rfl

/-- A placeholder taken from an address of which nothing was taken yet is the first. -/
theorem first_of_new (h : Booked cfg c₀ b seenLocal c) (hnew : entry.ip ∉ seenLocal)
    (hm : entry.mac.isPlaceholder = true) (hlocated : located entry = true) :
    ((b.popped ++ [entry]).filter (·.mac.isPlaceholder)).find? (isPlaceholderAt entry.ip)
      = some entry := by
  have hnone : (b.popped.filter (·.mac.isPlaceholder)).find? (isPlaceholderAt entry.ip)
      = none := by
    refine List.find?_eq_none.mpr fun e he hat => ?_
    obtain ⟨hip, hpass⟩ := (Bool.and_eq_true _ _).mp hat
    exact hnew (of_decide_eq_true hip ▸ h.passed e (List.mem_filter.mp he).1 hpass)
  have hat : isPlaceholderAt entry.ip entry = true := by
    rw [isPlaceholderAt, hlocated, decide_eq_true rfl]
    rfl
  rw [Book.filter_append_of_pos (by exact hm), List.find?_append, hnone, List.find?_cons_of_pos hat]
  rfl

/-- A visit is remembered with what was. -/
theorem seen_visit (h : Booked cfg c₀ b seenLocal c) (hnew : entry.ip ∉ seenLocal)
    (hvisits : ∀ n, (b.visit m entry).visits n
      = if n = m then b.visits m ++ [entry] else b.visits n) (e : ArpEntry) :
    (seenLocal.insert entry.ip entry.mac).lookup e.ip = some e.mac ↔
      ∃ n, e ∈ (b.visit m entry).visits n := by
  by_cases hip : e.ip = entry.ip
  · rw [hip, AList.lookup_insert, Option.some_inj]
    constructor
    · intro hmac
      exact ⟨m, (Book.mem_visits_visit hvisits).mpr (.inr ⟨rfl, ArpEntry.ext hip hmac.symm⟩)⟩
    · rintro ⟨n, hvisit⟩
      rcases (Book.mem_visits_visit hvisits).mp hvisit with hold | ⟨-, rfl⟩
      · exact absurd (hip ▸ h.mem_seenLocal hold) hnew
      · rfl
  · rw [AList.lookup_insert_ne hip, h.seen]
    refine exists_congr fun n => ?_
    rw [Book.mem_visits_visit hvisits, or_iff_left]
    rintro ⟨-, rfl⟩
    exact hip rfl

/-- The hosts stay hosts, and a placeholder's visit is of a host. -/
theorem host_visit (h : Booked cfg c₀ b seenLocal c) (hnew : entry.ip ∉ seenLocal)
    (hpopped : entry.mac.isPlaceholder = false → entry ∉ b.popped)
    (hplaceholder : entry.mac.isPlaceholder = true → LastAt c entry.ip (macKey m))
    (hlocated : located entry = true) (halone : ∀ n, LastAt c entry.ip (macKey n) → n = m)
    (n : MacAddr6) (e : ArpEntry) (he : (b.visit m entry).host n = some e) :
    e.mac.isPlaceholder = true ∧ HostOf c₀ (b.visit m entry).reals n e.ip ∧
      ((b.visit m entry).popped.filter (·.mac.isPlaceholder)).find? (isPlaceholderAt e.ip)
        = some e := by
  have hreals : b.reals <+: (b.visit m entry).reals := Book.reals_prefix_visit hpopped
  -- it was a host before, or it is the visit
  have hcases : b.host n = some e ∨ (n = m ∧ e = entry ∧ entry.mac.isPlaceholder = true) := by
    by_cases hm : entry.mac.isPlaceholder = true
    · have hhost : (b.visit m entry).host = update b.host m (some entry) := if_pos hm
      rw [hhost] at he
      rcases update_some_cases he with ⟨rfl, rfl⟩ | ⟨-, he⟩
      · exact .inr ⟨rfl, rfl, hm⟩
      · exact .inl he
    · have hhost : (b.visit m entry).host = b.host := if_neg hm
      rw [hhost] at he
      exact .inl he
  rcases hcases with he | ⟨rfl, rfl, hm⟩
  · obtain ⟨hkept, hhost, hfirst⟩ := h.host n e he
    exact ⟨hkept, hhost.mono hreals, find?_placeholder_append hfirst⟩
  · exact ⟨hm, (h.hostOf hnew (hplaceholder hm) halone).mono hreals,
      h.first_of_new hnew hm hlocated⟩

/-- A sighting from an address of which nothing was taken yet. -/
theorem visit (h : Booked cfg c₀ b seenLocal c) (hnew : entry.ip ∉ seenLocal)
    (hreal : entry.mac.isPlaceholder = false → entry.mac = m)
    (hplaceholder : entry.mac.isPlaceholder = true → LastAt c entry.ip (macKey m))
    (hlocated : located entry = true)
    (halone : ∀ n, LastAt c entry.ip (macKey n) → n = m) (hw : WellFormed c')
    (hclean : NoPlaceholder c')
    (hrecords : RecordsAt c Namer.generate m (entryDevice cfg entry) c') :
    Booked cfg c₀ (b.visit m entry) (seenLocal.insert entry.ip entry.mac) c' := by
  have hpopped : entry.mac.isPlaceholder = false → entry ∉ b.popped := fun hm hmem =>
    nomatch (AList.lookup_eq_none.mpr hnew).symm.trans (h.own entry hmem hm)
  have hvisits : ∀ n, (b.visit m entry).visits n
      = if n = m then b.visits m ++ [entry] else b.visits n := fun n =>
    Book.visits_visit (fun hm => ⟨hreal hm, hpopped hm⟩) fun hm =>
      (h.lastAt_new (hplaceholder hm) hnew).1
  have hhistory : ∀ n, (b.visit m entry).history cfg n
      = if n = m then b.history cfg m ++ [entryDevice cfg entry] else b.history cfg n := fun n =>
    Book.history_visit hvisits fun event hevent hip => hnew (hip ▸ h.served event hevent)
  exact
    { wellFormed := hw
      clean := hclean
      seen := h.seen_visit hnew hvisits
      passed := fun e he hpass => (AList.mem_insert _).mpr <| by
        rcases List.mem_append.mp he with he | he
        · exact .inr (h.passed e he hpass)
        · exact .inl (congrArg ArpEntry.ip (List.mem_singleton.mp he))
      own := fun e he hm => by
        rcases List.mem_append.mp he with he | he
        · have hlookup := h.own e he hm
          rw [AList.lookup_insert_ne ?_, hlookup]
          intro hip
          rw [hip, AList.lookup_eq_none.mpr hnew] at hlookup
          exact nomatch hlookup
        · obtain rfl := List.mem_singleton.mp he
          exact AList.lookup_insert _
      served := fun event hevent => (AList.mem_insert _).mpr (.inr (h.served event hevent))
      host := h.host_visit hnew hpopped hplaceholder hlocated halone
      unvisited := fun n ip hnil hlast₀ hseen => by
        have hne : n ≠ m := by
          rintro rfl
          rw [hvisits, if_pos rfl] at hnil
          exact List.append_ne_nil_of_right_ne_nil _ (List.cons_ne_nil _ _) hnil
        rw [hvisits, if_neg hne] at hnil
        rcases (AList.mem_insert _).mp hseen with rfl | hseen
        · exact hne (halone n ((h.lastAt_of_unvisited hnil).mpr hlast₀))
        · exact h.unvisited n ip hnil hlast₀ hseen
      address := fun ip => by
        by_cases hip : ip = entry.ip
        · rw [hip, if_pos ((AList.mem_insert _).mpr (.inl rfl))]
          exact hrecords.address
        · rw [hrecords.others _ (macKey_ne_ipKey m ip).symm
            fun hkey => hip (Ipv4Addr.toText_inj hkey), h.address]
          simp only [AList.mem_insert, hip, false_or]
      record := fun n => by
        rw [hhistory]
        by_cases hn : n = m
        · rw [if_pos hn, hn, hrecords.record, recorded_append, h.record]
          refine recordedStep_congr ?_ _
          exact (h.address entry.ip).trans (if_neg hnew)
        · rw [if_neg hn, ← h.record, hrecords.others _ (fun hkey => hn (macKey_inj hkey))
            (macKey_ne_ipKey _ _)] }

/-! ### A service event -/

/-- A service event of the address of a MAC's last visit, for that MAC. -/
theorem serve {visits : List ArpEntry} (h : Booked cfg c₀ b seenLocal c)
    (hvisits : b.visits m = visits ++ [entry]) (hip : event.ip = entry.ip) (hw : WellFormed c')
    (hclean : NoPlaceholder c')
    (hrecords : RecordsAt c Namer.generate m (serviceDevice cfg entry.mac event) c') :
    Booked cfg c₀ (b.serve event) seenLocal c' := by
  have hlast : entry ∈ b.visits m := by
    rw [hvisits]
    exact List.mem_append_right _ List.mem_cons_self
  have hself : (b.serve event).history cfg m
      = b.history cfg m ++ [serviceDevice cfg entry.mac event] := by
    refine Book.history_serve_self hvisits hip fun e he hsame => ?_
    -- the visit before would be the last one
    have hvisit : e ∈ b.visits m := by
      rw [hvisits]
      exact List.mem_append_left _ he
    obtain rfl := h.visit_unique hlast hvisit (hip.symm.trans hsame)
    have hnodup := h.visits_nodup m
    rw [hvisits] at hnodup
    exact (List.nodup_append.mp hnodup).2.2 _ he _ List.mem_cons_self rfl
  have hother : ∀ n, n ≠ m → (b.serve event).history cfg n = b.history cfg n := by
    refine fun n hne => Book.history_serve_of_ne fun e he hsame => hne ?_
    obtain rfl := h.visit_unique hlast he (hip.symm.trans hsame)
    exact h.visitor_unique he hlast
  have hseen : event.ip ∈ seenLocal := hip ▸ h.mem_seenLocal hlast
  exact
    { wellFormed := hw
      clean := hclean
      seen := h.seen
      passed := h.passed
      own := h.own
      served := fun e he => (List.mem_append.mp he).elim (h.served e) fun he => by
        rw [List.mem_singleton.mp he]
        exact hseen
      host := h.host
      unvisited := h.unvisited
      address := fun ip => by
        by_cases hsame : ip = event.ip
        · rw [hsame, if_pos hseen]
          exact hrecords.address
        · rw [hrecords.others _ (macKey_ne_ipKey m ip).symm
            fun hkey => hsame (Ipv4Addr.toText_inj hkey), h.address]
      record := fun n => by
        by_cases hn : n = m
        · -- the MAC was sighted, so it has a record
          obtain ⟨r, hr, -⟩ := ip_mem_recorded (c := c₀) (m := m)
            (Book.entryDevice_mem_history hlast)
          rw [hn, hself, recorded_append, hrecords.record, h.record, hr]
          exact recordedStep_of_some c c₀ r
        · rw [hother n hn, ← h.record, hrecords.others _ (fun hkey => hn (macKey_inj hkey))
            (macKey_ne_ipKey _ _)] }

end Booked

/-! ## Steps of the listener -/

open Listener

variable {s t : Listener} {ev : Event} {events : List Event}

/-- A step leaves each sighting with the host it is about. A placeholder is upserted
only where one MAC alone was last seen, and a real MAC only where no other was, at its
service events where itself was; an entry is skipped only if it says nothing new, and no
service event is dropped. -/
structure KeepsRealMac (s : Listener) (e : Event) : Prop where
  placeholder : ∀ d now key m, e = .sighted d now key → d.mac = some m → m.isPlaceholder = true →
    SoleAt s.store.contents d.ip
  real : ∀ d now key m, e = .sighted d now key → d.mac = some m → m.isPlaceholder = false →
    WinsAddress s.store.contents d m ∧
      (d.ip ∈ s.seenLocal → LastAt s.store.contents d.ip (macKey m))
  skipped : ∀ entry, e = .skipped entry → entry.mac.isPlaceholder = false →
    s.seenLocal.lookup entry.ip = some entry.mac
  taken : ∀ event, e ≠ .dropped event

instance (s : Listener) (e : Event) : Decidable (KeepsRealMac s e) :=
  match e with
  | .sighted d now key =>
    decidable_of_iff (∀ m ∈ d.mac,
        (m.isPlaceholder = true → SoleAt s.store.contents d.ip) ∧
        (m.isPlaceholder = false → WinsAddress s.store.contents d m ∧
          (d.ip ∈ s.seenLocal → LastAt s.store.contents d.ip (macKey m))))
      ⟨fun h => ⟨by rintro _ _ _ m ⟨⟩ hm; exact (h m hm).1, by rintro _ _ _ m ⟨⟩ hm; exact (h m hm).2,
          by rintro _ ⟨⟩, by rintro _ ⟨⟩⟩,
        fun h m hm => ⟨h.placeholder d now key m rfl hm, h.real d now key m rfl hm⟩⟩
  | .skipped entry =>
    decidable_of_iff (entry.mac.isPlaceholder = false →
        s.seenLocal.lookup entry.ip = some entry.mac)
      ⟨fun h => ⟨by rintro _ _ _ _ ⟨⟩, by rintro _ _ _ _ ⟨⟩, by rintro _ ⟨⟩; exact h,
          by rintro _ ⟨⟩⟩,
        fun h => h.skipped entry rfl⟩
  | .dropped event => isFalse fun h => h.taken event rfl
  | .read _ => isTrue ⟨by rintro _ _ _ _ ⟨⟩, by rintro _ _ _ _ ⟨⟩, by rintro _ ⟨⟩, by rintro _ ⟨⟩⟩
  | .sent _ => isTrue ⟨by rintro _ _ _ _ ⟨⟩, by rintro _ _ _ _ ⟨⟩, by rintro _ ⟨⟩, by rintro _ ⟨⟩⟩

/-- The sighting goes into the record of a MAC that alone was last seen at its address,
if any was. -/
theorem KeepsRealMac.exists_recordsAt {key : String}
    (hkeep : KeepsRealMac s (.sighted d now key)) (hw : WellFormed s.store.contents)
    (hclean : NoPlaceholder s.store.contents) (hmac : d.mac = some m)
    (h : Sighting s.store.contents d tagGen now c' r') :
    ∃ n, (m.isPlaceholder = false → m = n) ∧
      (m.isPlaceholder = true → LastAt s.store.contents d.ip (macKey n)) ∧
      (∀ n', LastAt s.store.contents d.ip (macKey n') → n' = n) ∧
      RecordsAt s.store.contents tagGen n d c' ∧ NoPlaceholder c' := by
  cases hm : m.isPlaceholder with
  | true =>
    have hsole := hkeep.placeholder d now key m rfl hmac hm
    obtain ⟨n, hlast, halone, hrecords⟩ := hsole.recordsAt hw hclean hmac hm h
    refine ⟨n, fun hreal => absurd hreal (by decide), fun _ => hlast, halone, hrecords, ?_⟩
    exact (placeholder_sighting_iff hw hclean hmac hm tagGen now).mpr hsole.covered _ _ h
  | false =>
    have hwins := (hkeep.real d now key m rfl hmac hm).1
    refine ⟨m, fun _ => rfl, fun hplaceholder => absurd hplaceholder (by decide),
      fun n' hn' => hwins.alone_mac hn', hwins.recordsAt hw hmac h,
      hclean.sighting (fun n hn => ?_) h⟩
    obtain rfl := Option.some.inj (hmac.symm.trans hn)
    rw [hm]
    decide

/-- The service event a producer sent, if the event is one. -/
def Event.serviceSent : Event → Option MdnsServiceEvent
  | .sent (.service event) => some event
  | _ => none

/-- What was sent was taken or waits. -/
structure Drawn (events : List Event) (s : Listener) (b : Book) : Prop where
  entries : events.filterMap Event.entrySent = b.popped ++ s.rx
  services : events.filterMap Event.serviceSent = b.services ++ s.serviceRx

/-- A step that sends nothing. -/
theorem filterMap_append_none {α β : Type} {f : α → Option β} {xs : List α} {x : α}
    (h : f x = none) : (xs ++ [x]).filterMap f = xs.filterMap f := by
  rw [List.filterMap_append, List.filterMap_cons_none h, List.filterMap_nil, List.append_nil]

theorem filterMap_append_some {α β : Type} {f : α → Option β} {xs : List α} {x : α} {y : β}
    (h : f x = some y) : (xs ++ [x]).filterMap f = xs.filterMap f ++ [y] := by
  rw [List.filterMap_append, List.filterMap_cons_some h, List.filterMap_nil]

/-- A message that is sent is in the channel, so the book has it to come. -/
theorem Drawn.sent {message : Message} (h : Drawn events s b) (hrx : t.rx = (s.deliver message).rx)
    (hserviceRx : t.serviceRx = (s.deliver message).serviceRx) :
    Drawn (events ++ [.sent message]) t b := by
  cases message with
  | entry entry =>
    constructor
    · have hsent : Event.entrySent (.sent (.entry entry)) = some entry := rfl
      rw [filterMap_append_some hsent, h.entries, hrx, List.append_assoc]
      rfl
    · rw [filterMap_append_none rfl, h.services, hserviceRx]
      rfl
  | service event =>
    constructor
    · rw [filterMap_append_none rfl, h.entries, hrx]
      rfl
    · have hsent : Event.serviceSent (.sent (.service event)) = some event := rfl
      rw [filterMap_append_some hsent, h.services, hserviceRx, List.append_assoc]
      rfl

/-- A step that takes an entry, or none, and sends nothing. -/
theorem Drawn.taken {b' : Book} (h : Drawn events s b) (hentry : ev.entrySent = none)
    (hservice : ev.serviceSent = none) (hrx : b.popped ++ s.rx = b'.popped ++ t.rx)
    (hserviceRx : b.services ++ s.serviceRx = b'.services ++ t.serviceRx) :
    Drawn (events ++ [ev]) t b' where
  entries := by rw [filterMap_append_none hentry, h.entries, hrx]
  services := by rw [filterMap_append_none hservice, h.services, hserviceRx]

/-- **Steps**: a step that leaves sightings with their hosts keeps the book in step with
the records. -/
theorem Booked.step (h : Booked cfg c₀ b s.seenLocal s.store.contents) (hdrawn : Drawn events s b)
    (hkeep : KeepsRealMac s ev) (houtcome : Outcome cfg s ev t) :
    ∃ b', Booked cfg c₀ b' t.seenLocal t.store.contents ∧ Drawn (events ++ [ev]) t b' := by
  cases houtcome with
  | @read input store hstore _ =>
    refine ⟨b, ?_, hdrawn.taken rfl rfl rfl rfl⟩
    show Booked cfg c₀ b s.seenLocal store.contents
    rwa [hstore]
  | @sent source message outbox store hstore _ =>
    obtain ⟨hstore', hseen⟩ := deliver_store
      ({ s with store := store }.setProducer source { s.producer source with outbox := outbox })
      message
    refine ⟨b, ?_, hdrawn.sent ?_ ?_⟩
    · rw [hseen, hstore']
      show Booked cfg c₀ b s.seenLocal store.contents
      rwa [hstore]
    · cases message <;> rfl
    · cases message <;> rfl
  | @skipped entry rx store hstore hrx htake =>
    refine ⟨b.skip entry, ?_, hdrawn.taken rfl rfl ?_ rfl⟩
    · show Booked cfg c₀ (b.skip entry) s.seenLocal store.contents
      rw [hstore]
      exact h.skip (takeEntry_eq_none.mp htake) (hkeep.skipped entry rfl)
    · rw [hrx]
      exact List.append_cons ..
  | dropped _ _ _ => exact absurd rfl (hkeep.taken _)
  | @entry entry rx seenLocal device now store record hrx htake hsighting =>
    obtain ⟨hlocated, hnew, rfl, rfl⟩ := takeEntry_eq_some.mp htake
    obtain ⟨n, hreal, hplaceholder, halone, hrecords, hclean⟩ :=
      hkeep.exists_recordsAt h.wellFormed h.clean rfl hsighting
    refine ⟨b.visit n entry, ?_, hdrawn.taken rfl rfl ?_ rfl⟩
    · exact h.visit hnew hreal hplaceholder hlocated halone (h.wellFormed.sighting hsighting)
        hclean hrecords
    · rw [hrx]
      exact List.append_cons ..
  | @service event serviceRx device now store record hserviceRx htake hsighting =>
    obtain ⟨mac, hlookup, rfl⟩ := takeService_eq_some.mp htake
    obtain ⟨n, hreal, hplaceholder, halone, hrecords, hclean⟩ :=
      hkeep.exists_recordsAt h.wellFormed h.clean rfl hsighting
    have hseen : event.ip ∈ s.seenLocal := by
      rw [← AList.lookup_isSome, hlookup]
      rfl
    -- the event follows the last visit of the MAC it goes to
    have hlast : LastAt s.store.contents event.ip (macKey n) := by
      cases hm : mac.isPlaceholder with
      | true => exact hplaceholder hm
      | false =>
        rw [← hreal hm]
        exact (hkeep.real _ _ _ mac rfl rfl hm).2 hseen
    obtain ⟨visits, entry, hvisits, hip⟩ := h.lastAt_seen hlast hseen
    have hmac : entry.mac = mac := by
      have hvisit : entry ∈ b.visits n := by
        rw [hvisits]
        exact List.mem_append_right _ List.mem_cons_self
      have hentry := (h.seen entry).mpr ⟨n, hvisit⟩
      rw [hip] at hentry
      exact Option.some.inj (hentry.symm.trans hlookup)
    refine ⟨b.serve event, ?_, hdrawn.taken rfl rfl rfl ?_⟩
    · exact h.serve hvisits hip.symm (h.wellFormed.sighting hsighting) hclean (hmac ▸ hrecords)
    · rw [hserviceRx]
      exact List.append_cons ..

end Passive

end Gannet
