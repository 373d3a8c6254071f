import Gannet.Identity.Namer
import Gannet.Identity.Sighting

/-!
# The store performs sightings

`Store.upsert` against `Sighting`, in both directions, then the same for whole
calls: `Transition` is a call on the registry's contents, and `Step.transition`
lifts every call on the store to one. The first fact about runs follows: a
store reached by calls is well formed (`Reaches.wellFormed`).
-/

namespace Gannet

open KeyMap Function

variable {s t : Store} {d : Device} {tagGen : String → String} {now : Nat}
  {ip : Ipv4Addr} {m : MacAddr6} {k : String} {r : Record}

namespace Store

/-! ## The search by address -/

/-- What the search finds was last seen at the address, under another key. -/
theorem existingByIp_some (hw : WellFormed s.contents)
    (h : s.existingByIp ip.toText (macKey m) = some k) :
    ∃ r, s.contents k = some r ∧ r.lastIp = ip.toText ∧ k ≠ macKey m := by
  unfold existingByIp at h
  cases hfind : findValue s.records
      (fun r => decide (r.lastIp = ip.toText ∧ r.key ≠ macKey m)) with
  | some v =>
    rw [hfind, Option.map_some, Option.some_or] at h
    obtain ⟨hp, k', hk'⟩ := findValue_spec hfind
    obtain ⟨hip, hne⟩ := of_decide_eq_true hp
    have hkey : v.key = k' := hw.key_eq hk'
    obtain rfl : v.key = k := Option.some.inj h
    exact ⟨v, hkey ▸ hk', hip, hne⟩
  | none =>
    rw [hfind, Option.map_none, Option.none_or] at h
    -- the fallback: a record under the address itself
    by_cases hmem : ip.toText ∈ s.records
    · rw [if_pos hmem] at h
      obtain rfl := Option.some.inj h
      obtain ⟨v, hv⟩ := mem_iff_contents.mp hmem
      exact ⟨v, hv, hw.lastIp_of_ipKey hv, (macKey_ne_ipKey m ip).symm⟩
    · rw [if_neg hmem] at h
      exact nomatch h

/-- When the search fails, only the MAC's own record can have been last seen at
the address. -/
theorem existingByIp_none (hw : WellFormed s.contents)
    (h : s.existingByIp ip.toText (macKey m) = none) (hk : s.contents k = some r)
    (hip : r.lastIp = ip.toText) : k = macKey m := by
  rw [existingByIp, Option.or_eq_none_iff, Option.map_eq_none_iff] at h
  have hno := of_decide_eq_false (findValue_none h.1 hk)
  by_contra hne
  exact hno ⟨hip, (hw.key_eq hk).symm ▸ hne⟩

/-- Any record last seen at the address under another key is found in some
iteration order. -/
theorem exists_existingByIp (hw : WellFormed s.contents) (hk : s.contents k = some r)
    (hip : r.lastIp = ip.toText) (hne : k ≠ macKey m) :
    ∃ s' : Store, SameEntries s.records s'.records ∧
      s'.existingByIp ip.toText (macKey m) = some k := by
  have hkey : r.key = k := hw.key_eq hk
  obtain ⟨records, hsame, hfind⟩ := exists_findValue
    (fun r => decide (r.lastIp = ip.toText ∧ r.key ≠ macKey m)) hk
    (decide_eq_true ⟨hip, hkey.symm ▸ hne⟩)
  refine ⟨⟨records⟩, hsame, ?_⟩
  rw [existingByIp, hfind, Option.map_some, Option.some_or, hkey]

theorem contents_congr {s s' : Store} (h : SameEntries s.records s'.records) :
    s.contents = s'.contents :=
  sameEntries_iff.mp h

/-! ## The three ways through `upsert` -/

theorem upsert_of_found (tagGen : String → String) (now : Nat) (hmac : d.mac = some m)
    (hex : s.existingByIp d.ip.toText (macKey m) = some k) (hk : s.contents k = some r) :
    (s.upsert d tagGen now).1.contents
        = update (update s.contents k none) ((r.promote m).sight d now).key
            (some ((r.promote m).sight d now)) ∧
      (s.upsert d tagGen now).2 = (r.promote m).sight d now := by
  have hlookup : s.records.lookup k = some r := hk
  have hrun : s.upsert d tagGen now
      = (Store.mk (s.records.erase k)).insertRecord ((r.promote m).sight d now) := by
    simp only [upsert, hmac, hex, hlookup]
  rw [hrun, insertRecord, contents, contents_insert, contents_erase]
  exact ⟨rfl, rfl⟩

theorem upsertEntry_eq {id : Identity} :
    (s.upsertEntry id.key id.macText d tagGen now).1.contents
        = update s.contents id.key (some (touch s.contents id d tagGen now)) ∧
      (s.upsertEntry id.key id.macText d tagGen now).2 = touch s.contents id d tagGen now := by
  rw [upsertEntry, contents, contents_insert]
  exact ⟨rfl, rfl⟩

theorem upsert_of_free (hmac : d.mac = some m)
    (hex : s.existingByIp d.ip.toText (macKey m) = none) :
    s.upsert d tagGen now
      = s.upsertEntry (Identity.mac m).key (Identity.mac m).macText d tagGen now := by
  simp only [upsert, hmac, hex]
  rfl

theorem upsert_of_noMac (hmac : d.mac = none) :
    s.upsert d tagGen now
      = s.upsertEntry (Identity.addr d.ip).key (Identity.addr d.ip).macText d tagGen now := by
  simp only [upsert, hmac]
  rfl

/-- A found record that has a MAC absorbs the sighting. -/
theorem upsert_absorb (tagGen : String → String) (now : Nat) (hw : WellFormed s.contents)
    (hmac : d.mac = some m)
    (hex : s.existingByIp d.ip.toText (macKey m) = some k) (hk : s.contents k = some r)
    (hown : r.mac ≠ none) :
    (s.upsert d tagGen now).1.contents = update s.contents k (some (r.sight d now)) ∧
      (s.upsert d tagGen now).2 = r.sight d now := by
  obtain ⟨hc, hr⟩ := upsert_of_found tagGen now hmac hex hk
  rw [Record.promote_of_mac hown] at hc hr
  rw [Record.sight_key, hw.key_eq hk, update_idem] at hc
  exact ⟨hc, hr⟩

/-- A found record without MAC is the address's, and is promoted. -/
theorem upsert_promote (tagGen : String → String) (now : Nat) (hmac : d.mac = some m)
    (hex : s.existingByIp d.ip.toText (macKey m) = some (ipKey d.ip))
    (hk : s.contents (ipKey d.ip) = some r) (hnone : r.mac = none) :
    (s.upsert d tagGen now).1.contents
        = update (update s.contents (ipKey d.ip) none) (macKey m)
            (some ((r.promote m).sight d now)) ∧
      (s.upsert d tagGen now).2 = (r.promote m).sight d now := by
  obtain ⟨hc, hr⟩ := upsert_of_found tagGen now hmac hex hk
  have hkey : ((r.promote m).sight d now).key = macKey m := by
    rw [Record.sight_key, Record.promote_of_none hnone]
  rw [hkey] at hc
  exact ⟨hc, hr⟩

/-! ## `upsert` is `Sighting` -/

theorem upsert_sighting (hw : WellFormed s.contents) (d : Device)
    (tagGen : String → String) (now : Nat) :
    Sighting s.contents d tagGen now (s.upsert d tagGen now).1.contents
      (s.upsert d tagGen now).2 := by
  cases hmac : d.mac with
  | none =>
    rw [upsert_of_noMac hmac, upsertEntry_eq.1, upsertEntry_eq.2]
    exact .anonymous hmac
  | some m =>
    cases hex : s.existingByIp d.ip.toText (macKey m) with
    | none =>
      rw [upsert_of_free hmac hex, upsertEntry_eq.1, upsertEntry_eq.2]
      exact .own hmac fun k r hk hip => existingByIp_none hw hex hk hip
    | some k =>
      obtain ⟨r, hk, hip, hne⟩ := existingByIp_some hw hex
      -- a record without MAC can only be the address's own
      by_cases hown : r.mac = none
      · obtain rfl : k = ipKey d.ip := (hw.key_of_mac_none hk hown).trans hip
        obtain ⟨hc, hr⟩ := upsert_promote tagGen now hmac hex hk hown
        rw [hc, hr]
        exact .promote hmac hk
      · obtain ⟨hc, hr⟩ := upsert_absorb tagGen now hw hmac hex hk hown
        rw [hc, hr]
        exact .absorb hmac hk hip hne hown

/-- Every sighting is performed by `upsert` in some iteration order. -/
theorem exists_upsert_of_sighting (hw : WellFormed s.contents) {c' : Contents} {r' : Record}
    (h : Sighting s.contents d tagGen now c' r') :
    ∃ s' : Store, SameEntries s.records s'.records ∧
      (s'.upsert d tagGen now).1.contents = c' ∧ (s'.upsert d tagGen now).2 = r' := by
  cases h with
  | absorb hmac hk hip hne hown =>
    obtain ⟨s', hsame, hex⟩ := exists_existingByIp hw hk hip hne
    have hc := contents_congr hsame
    rw [hc] at hw hk ⊢
    exact ⟨s', hsame, upsert_absorb tagGen now hw hmac hex hk hown⟩
  | promote hmac hk =>
    obtain ⟨s', hsame, hex⟩ :=
      exists_existingByIp hw hk (hw.lastIp_of_ipKey hk) (macKey_ne_ipKey _ _).symm
    have hnone := hw.mac_of_ipKey hk
    rw [contents_congr hsame] at hk ⊢
    exact ⟨s', hsame, upsert_promote tagGen now hmac hex hk hnone⟩
  | @own m hmac hfree =>
    refine ⟨s, SameEntries.refl _, ?_⟩
    cases hex : s.existingByIp d.ip.toText (macKey m) with
    | none =>
      rw [upsert_of_free hmac hex]
      exact upsertEntry_eq
    | some k =>
      obtain ⟨r, hk, hip, hne⟩ := existingByIp_some hw hex
      exact absurd (hfree k r hk hip) hne
  | anonymous hmac =>
    refine ⟨s, SameEntries.refl _, ?_⟩
    rw [upsert_of_noMac hmac]
    exact upsertEntry_eq

end Store

/-! ## Tagging -/

/-- The record `set_tag` writes to, with its key. -/
def tagTarget (c : Contents) (mac : Option MacAddr6) (ip : Ipv4Addr) :
    Option (String × Record) :=
  match mac.bind fun m => (c (macKey m)).map fun r => (macKey m, r) with
  | some target => some target
  | none => (c (ipKey ip)).map fun r => (ipKey ip, r)

theorem tagTarget_spec {c : Contents} {mac : Option MacAddr6}
    (h : tagTarget c mac ip = some (k, r)) : c k = some r := by
  unfold tagTarget at h
  cases hmac : mac.bind fun m => (c (macKey m)).map fun r => (macKey m, r) with
  | some target =>
    rw [hmac] at h
    obtain rfl := Option.some.inj h
    obtain ⟨m, -, hmap⟩ := Option.bind_eq_some_iff.mp hmac
    obtain ⟨r', hr', heq⟩ := Option.map_eq_some_iff.mp hmap
    obtain ⟨rfl, rfl⟩ := Prod.mk.inj heq
    exact hr'
  | none =>
    rw [hmac] at h
    obtain ⟨r', hr', heq⟩ := Option.map_eq_some_iff.mp h
    obtain ⟨rfl, rfl⟩ := Prod.mk.inj heq
    exact hr'

/-- `set_tag` replaces the tag of its target, and reports whether there is
one. -/
theorem Store.setTag_spec (s : Store) (mac : Option MacAddr6) (ip : Ipv4Addr) (tag : String) :
    match tagTarget s.contents mac ip with
    | some (k, r) =>
      (s.setTag mac ip tag).1.contents = update s.contents k (some { r with tag := some tag }) ∧
        (s.setTag mac ip tag).2 = true
    | none => s.setTag mac ip tag = (s, false) := by
  unfold tagTarget
  cases hmac : mac.bind fun m => (s.contents (macKey m)).map fun r => (macKey m, r) with
  | some target =>
    have hlookup : (mac.bind fun m => (s.records.lookup (macKey m)).map fun r => (macKey m, r))
      = some target := hmac
    have hrun : s.setTag mac ip tag = (s.retag target.1 target.2 tag, true) := by
      simp only [setTag, hlookup]
    rw [hrun]
    exact ⟨contents_insert _ _ _, rfl⟩
  | none =>
    have hlookup : (mac.bind fun m => (s.records.lookup (macKey m)).map fun r => (macKey m, r))
      = none := hmac
    cases hip : s.contents (ipKey ip) with
    | some r =>
      have hfound : s.records.lookup ip.toText = some r := hip
      have hrun : s.setTag mac ip tag = (s.retag (ipKey ip) r tag, true) := by
        simp only [setTag, hlookup, hfound]
        rfl
      rw [hrun]
      exact ⟨contents_insert _ _ _, rfl⟩
    | none =>
      have hmissing : s.records.lookup ip.toText = none := hip
      show s.setTag mac ip tag = (s, false)
      simp only [setTag, hlookup, hmissing]

/-! ## Calls and runs -/

/-- A call, on the contents of the store. -/
inductive Transition (c : Contents) : Store.Op → Contents → Prop where
  | sighting {d : Device} {tagGen : String → String} {now : Nat} {c' : Contents} {r' : Record}
      (h : Sighting c d tagGen now c' r') : Transition c (.upsert d tagGen now) c'
  | retag {mac : Option MacAddr6} {ip : Ipv4Addr} {tag k : String} {r : Record}
      (h : tagTarget c mac ip = some (k, r)) :
      Transition c (.setTag mac ip tag) (update c k (some { r with tag := some tag }))
  | untagged {mac : Option MacAddr6} {ip : Ipv4Addr} {tag : String}
      (h : tagTarget c mac ip = none) : Transition c (.setTag mac ip tag) c

theorem Store.apply_transition (hw : WellFormed s.contents) (op : Store.Op) :
    Transition s.contents op (s.apply op).contents := by
  cases op with
  | upsert d tagGen now => exact .sighting (upsert_sighting hw d tagGen now)
  | setTag mac ip tag =>
    have hspec := setTag_spec s mac ip tag
    show Transition s.contents (.setTag mac ip tag) (s.setTag mac ip tag).1.contents
    cases htarget : tagTarget s.contents mac ip with
    | some target =>
      rw [htarget] at hspec
      rw [hspec.1]
      exact .retag htarget
    | none =>
      rw [htarget] at hspec
      simp only at hspec
      rw [hspec]
      exact .untagged htarget

/-- A call on the store is a call on its contents. -/
theorem Store.Step.transition {op : Store.Op} (hw : WellFormed s.contents)
    (h : Store.Step s op t) : Transition s.contents op t.contents := by
  obtain ⟨s', hs, ht⟩ := h
  rw [contents_congr hs] at hw ⊢
  rw [contents_congr ht]
  exact apply_transition hw op

theorem WellFormed.transition {c c' : Contents} {op : Store.Op} (hw : WellFormed c)
    (h : Transition c op c') : WellFormed c' := by
  cases h with
  | sighting h => exact hw.sighting h
  | @retag _ _ _ k r h =>
    obtain ⟨id, rfl, hd⟩ := hw k r (tagTarget_spec h)
    exact hw.update id ⟨hd.key, hd.mac, hd.lastIp_mem, hd.ips_nodup, hd.addr⟩
  | untagged _ => exact hw

theorem WellFormed.step {op : Store.Op} (hw : WellFormed s.contents)
    (h : Store.Step s op t) : WellFormed t.contents :=
  hw.transition (h.transition hw)

/-- Runs keep the registry well formed. -/
theorem WellFormed.run {ops : List Store.Op} (hw : WellFormed s.contents)
    (h : Lts.Run Store.Step s ops t) : WellFormed t.contents :=
  h.invariant (fun s => WellFormed s.contents) hw fun hw hs => hw.step hs

theorem Store.Reaches.wellFormed {ops : List Store.Op} (h : Store.Reaches ops s) :
    WellFormed s.contents := by
  have hempty : WellFormed Store.empty.contents := wellFormed_empty
  exact hempty.run h

/-! ## Calls in a definite order -/

namespace Store

/-- The upsert of an ARP sighting. -/
def Op.arp (ip : Ipv4Addr) (mac : MacAddr6) (now : Nat) : Op :=
  .upsert (.ofArpEntry ⟨ip, mac⟩) Namer.generate now

/-- The upsert of a host that only answered the sweep. -/
def Op.sweep (ip : Ipv4Addr) (now : Nat) : Op :=
  .upsert (.fromSweep ip) Namer.generate now

/-- The store after `ops`, when no call changes the iteration order. -/
def ofOps (ops : List Op) : Store := ops.foldl apply empty

theorem step_apply (s : Store) (op : Op) : Step s op (s.apply op) :=
  ⟨s, SameEntries.refl _, SameEntries.refl _⟩

theorem run_foldl (s : Store) (ops : List Op) : Lts.Run Step s ops (ops.foldl apply s) := by
  induction ops generalizing s with
  | nil => exact .nil
  | cons op ops ih => exact (Lts.Run.single (step_apply s op)).append (ih (s.apply op))

theorem reaches_ofOps (ops : List Op) : Reaches ops (ofOps ops) := run_foldl empty ops

end Store

/-! ## A small network

Two machines and two addresses. -/

/-- The MAC of a host of the examples. -/
def laptop : MacAddr6 := ⟨0x02, 0, 0, 0, 0, 0x01⟩
/-- The MAC of another host. -/
def phone : MacAddr6 := ⟨0x02, 0, 0, 0, 0, 0x02⟩
/-- The address of one place of the examples. -/
def desk : Ipv4Addr := ⟨192, 168, 1, 10⟩
/-- The address of another place. -/
def sofa : Ipv4Addr := ⟨192, 168, 1, 20⟩

end Gannet
