import Gannet.Identity.StoreSteps

/-!
# Whose record a sighting goes into

A sighting of MAC `m` at address `ip` should go into the record of `m`, and
into no other MAC's. Whether it does depends on who was last seen at `ip`:
`upsert` searches by address first, and a record of another MAC that was last
seen there absorbs the sighting (`HeldByOther`).

- `upsert_resolves_iff`: the sighting lands in the record of `m`, in every
  iteration order, iff no other MAC holds the address.
- `upsert_isolates_iff`: the records of other MACs stay as they were, under
  the same condition.
- `upsert_order_irrelevant_iff`: the result does not depend on the iteration
  order iff at most one record competes for the sighting.
-/

namespace Gannet

open KeyMap Function

variable {s : Store} {ops : List Store.Op} {d : Device} {m : MacAddr6}
  {tagGen : String → String} {now : Nat} {c c' : Contents} {k : String} {r r' : Record}

/-- Another MAC's record was last seen at the address. -/
def HeldByOther (c : Contents) (m : MacAddr6) (ip : Ipv4Addr) : Prop :=
  ∃ k r m', c k = some r ∧ r.mac = some (MacAddr6.toText m') ∧ m' ≠ m ∧
    r.lastIp = ip.toText

/-- The record `r` is what the store has on `m`, last seen at `ip`. -/
structure Store.Resolves (s : Store) (m : MacAddr6) (ip : Ipv4Addr) (r : Record) : Prop where
  found : s.records.lookup (macKey m) = some r
  mac : r.mac = some m.toText
  lastIp : r.lastIp = ip.toText
  ips : ip.toText ∈ r.ips
  get : ∀ ip', s.get (some m) ip' = some r

theorem Store.get_of_found {ip : Ipv4Addr} (h : s.records.lookup (macKey m) = some r) :
    s.get (some m) ip = some r := by
  simp only [Store.get, Option.bind_some, h]

/-- A record with a MAC, under a key that is not `m`'s, is another MAC's. -/
theorem heldByOther_of_mac (hw : WellFormed c) (hk : c k = some r)
    (hip : r.lastIp = d.ip.toText) (hne : k ≠ macKey m) (hown : r.mac ≠ none) :
    HeldByOther c m d.ip := by
  obtain ⟨m', rfl, hmac⟩ := hw.exists_mac hk hown
  exact ⟨macKey m', r, m', hk, hmac, fun h => hne (h ▸ rfl), hip⟩

/-- If another MAC holds the address, its record may absorb the sighting. -/
theorem exists_absorb (hw : WellFormed c) (hmac : d.mac = some m)
    (h : HeldByOther c m d.ip) (tagGen : String → String) (now : Nat) :
    ∃ k r m', c k = some r ∧ r.mac = some (MacAddr6.toText m') ∧ m' ≠ m ∧
      Sighting c d tagGen now (update c k (some (r.sight d now))) (r.sight d now) := by
  obtain ⟨k, r, m', hk, hr, hne, hip⟩ := h
  have hkey : k ≠ macKey m := fun h => hne (macKey_inj ((hw.key_of_mac hk hr).symm.trans h))
  have hown : r.mac ≠ none := by rw [hr]; exact Option.some_ne_none _
  exact ⟨k, r, m', hk, hr, hne, .absorb hmac hk hip hkey hown⟩

theorem HeldByOther.exists_value {ip : Ipv4Addr} (h : HeldByOther s.contents m ip) :
    ∃ r ∈ values s.records, r.lastIp = ip.toText ∧ r.mac ≠ some m.toText := by
  obtain ⟨k, r, m', hk, hr, hne, hip⟩ := h
  refine ⟨r, mem_values.mpr ⟨k, hk⟩, hip, fun hown => hne ?_⟩
  exact MacAddr6.toText_inj (Option.some.inj (hr.symm.trans hown))

/-! ## Resolution by MAC -/

/-- Unless it is absorbed, a sighting goes into the record of its MAC. -/
theorem Sighting.own_record (hw : WellFormed c) (hmac : d.mac = some m)
    (hfree : ¬ HeldByOther c m d.ip) (h : Sighting c d tagGen now c' r') :
    c' (macKey m) = some r' ∧ r'.lastIp = d.ip.toText ∧ d.ip.toText ∈ r'.ips := by
  cases h with
  | absorb hmac' hk hip hne hown =>
    obtain rfl := Option.some.inj (hmac.symm.trans hmac')
    exact absurd (heldByOther_of_mac hw hk hip hne hown) hfree
  | promote hmac' hk =>
    obtain rfl := Option.some.inj (hmac.symm.trans hmac')
    exact ⟨update_self .., rfl, Record.ip_mem_sight_ips⟩
  | own hmac' _ =>
    obtain rfl := Option.some.inj (hmac.symm.trans hmac')
    exact ⟨update_self .., rfl, Record.ip_mem_sight_ips⟩
  | anonymous hnone => exact nomatch hmac.symm.trans hnone

/-- **Resolution by MAC**: in a reachable store, whatever the iteration order, a
sighting of `m` leaves the record of this very sighting under `m`'s key iff no
other MAC's record was last seen at the address. -/
theorem upsert_resolves_iff (h : Store.Reaches ops s) (hmac : d.mac = some m)
    (tagGen : String → String) (now : Nat) :
    (∀ s' : Store, SameEntries s.records s'.records →
        (s'.upsert d tagGen now).1.Resolves m d.ip (s'.upsert d tagGen now).2) ↔
      ¬ HeldByOther s.contents m d.ip := by
  have hw := h.wellFormed
  constructor
  · intro hall hheld
    -- in some order the other MAC's record absorbs the sighting
    obtain ⟨k, r, m', hk, hr, hne, hsight⟩ := exists_absorb hw hmac hheld tagGen now
    obtain ⟨s', hsame, -, hrec⟩ := Store.exists_upsert_of_sighting hw hsight
    have hm : (r.sight d now).mac = some m.toText := hrec ▸ (hall s' hsame).mac
    exact hne (MacAddr6.toText_inj (Option.some.inj (hr.symm.trans hm)))
  · intro hfree s' hsame
    rw [Store.contents_congr hsame] at hw hfree
    have hsight := Store.upsert_sighting hw d tagGen now
    obtain ⟨hfound, hip, hips⟩ := hsight.own_record hw hmac hfree
    exact ⟨hfound, (hw.sighting hsight).mac_of_macKey hfound, hip, hips,
      fun _ => Store.get_of_found hfound⟩

/-- The phone gets the address the laptop had: its sighting leaves no record
under its own MAC. -/
theorem upsert_moved_address_unresolved :
    Store.Reaches [.arp desk laptop 0] (.ofOps [.arp desk laptop 0]) ∧
      ¬ ((Store.ofOps [.arp desk laptop 0]).upsert (.ofArpEntry ⟨desk, phone⟩)
          Namer.generate 1).1.Resolves phone desk
        ((Store.ofOps [.arp desk laptop 0]).upsert (.ofArpEntry ⟨desk, phone⟩)
          Namer.generate 1).2 := by
  refine ⟨Store.reaches_ofOps _, fun h => ?_⟩
  have hnone : ((Store.ofOps [.arp desk laptop 0]).upsert (.ofArpEntry ⟨desk, phone⟩)
      Namer.generate 1).1.records.lookup (macKey phone) = none := by decide
  exact nomatch hnone.symm.trans h.found

/-- The laptop moves to a free address. -/
theorem upsert_laptop_moved_resolves :
    ((Store.ofOps [.arp desk laptop 0]).upsert (.ofArpEntry ⟨sofa, laptop⟩)
        Namer.generate 1).1.Resolves laptop sofa
      ((Store.ofOps [.arp desk laptop 0]).upsert (.ofArpEntry ⟨sofa, laptop⟩)
        Namer.generate 1).2 := by
  have hmac : (Device.ofArpEntry ⟨sofa, laptop⟩).mac = some laptop := rfl
  refine (upsert_resolves_iff (Store.reaches_ofOps [.arp desk laptop 0]) hmac
    Namer.generate 1).mpr (fun h => ?_) _ (SameEntries.refl _)
  obtain ⟨r, hr, hip, hmac⟩ := h.exists_value
  revert r
  decide

/-! ## Isolation -/

/-- Unless it is absorbed, a sighting leaves the records of other MACs alone. -/
theorem Sighting.other_record (hw : WellFormed c) (hmac : d.mac = some m)
    (hfree : ¬ HeldByOther c m d.ip) (h : Sighting c d tagGen now c' r') {m' : MacAddr6}
    (hk : c k = some r) (hr : r.mac = some m'.toText) (hne : m' ≠ m) : c' k = some r := by
  obtain rfl := hw.key_of_mac hk hr
  have hkey : macKey m' ≠ macKey m := fun h => hne (macKey_inj h)
  cases h with
  | absorb hmac' hk' hip hne' hown =>
    obtain rfl := Option.some.inj (hmac.symm.trans hmac')
    exact absurd (heldByOther_of_mac hw hk' hip hne' hown) hfree
  | promote hmac' _ =>
    obtain rfl := Option.some.inj (hmac.symm.trans hmac')
    rw [update_of_ne hkey, update_of_ne (macKey_ne_ipKey _ _), hk]
  | own hmac' _ =>
    obtain rfl := Option.some.inj (hmac.symm.trans hmac')
    rw [update_of_ne hkey, hk]
  | anonymous hnone => exact nomatch hmac.symm.trans hnone

/-- **Isolation**: in a reachable store, whatever the iteration order, a
sighting of `m` leaves every record of another MAC as it was iff none of them
was last seen at the address. -/
theorem upsert_isolates_iff (h : Store.Reaches ops s) (hmac : d.mac = some m)
    (tagGen : String → String) (now : Nat) :
    (∀ s' : Store, SameEntries s.records s'.records → ∀ k r m',
        s.contents k = some r → r.mac = some (MacAddr6.toText m') → m' ≠ m →
        (s'.upsert d tagGen now).1.contents k = some r) ↔
      ¬ HeldByOther s.contents m d.ip := by
  have hw := h.wellFormed
  constructor
  · intro hall hheld
    obtain ⟨k, r, m', hk, hr, hne, hsight⟩ := exists_absorb hw hmac hheld tagGen now
    obtain ⟨s', hsame, hc, -⟩ := Store.exists_upsert_of_sighting hw hsight
    have hkept := hall s' hsame k r m' hk hr hne
    rw [hc, update_self] at hkept
    exact Record.sight_ne (Option.some.inj hkept)
  · intro hfree s' hsame k r m' hk hr hne
    rw [Store.contents_congr hsame] at hw hfree hk
    exact (Store.upsert_sighting hw d tagGen now).other_record hw hmac hfree hk hr hne

/-- The phone gets the address the laptop had: its sighting is written into
the laptop's record. -/
theorem upsert_moved_address_not_isolated :
    Store.Reaches [.arp desk laptop 0] (.ofOps [.arp desk laptop 0]) ∧
      ∃ r, (Store.ofOps [.arp desk laptop 0]).contents (macKey laptop) = some r ∧
        r.mac = some laptop.toText ∧ laptop ≠ phone ∧
        ((Store.ofOps [.arp desk laptop 0]).upsert (.ofArpEntry ⟨desk, phone⟩)
          Namer.generate 1).1.contents (macKey laptop) ≠ some r :=
  ⟨Store.reaches_ofOps _,
    (freshRecord (macKey laptop) (some laptop.toText) (.ofArpEntry ⟨desk, laptop⟩)
      Namer.generate 0).sight (.ofArpEntry ⟨desk, laptop⟩) 0, by decide⟩

/-- The phone appears at a free address: the laptop's record stays. -/
theorem upsert_phone_elsewhere_isolates :
    ((Store.ofOps [.arp desk laptop 0]).upsert (.ofArpEntry ⟨sofa, phone⟩)
        Namer.generate 1).1.contents (macKey laptop)
      = some ((freshRecord (macKey laptop) (some laptop.toText) (.ofArpEntry ⟨desk, laptop⟩)
          Namer.generate 0).sight (.ofArpEntry ⟨desk, laptop⟩) 0) := by
  have hmac : (Device.ofArpEntry ⟨sofa, phone⟩).mac = some phone := rfl
  refine (upsert_isolates_iff (Store.reaches_ofOps [.arp desk laptop 0]) hmac
    Namer.generate 1).mpr (fun h => ?_)
    _ (SameEntries.refl _) (macKey laptop) _ laptop (by decide) rfl (by decide)
  obtain ⟨r, hr, hip, hmac⟩ := h.exists_value
  revert r
  decide

/-! ## Iteration order -/

/-- The record under `k` competes for a sighting of `m` at `ip`. -/
def Competes (c : Contents) (m : MacAddr6) (ip : Ipv4Addr) (k : String) : Prop :=
  k ≠ macKey m ∧ ∃ r, c k = some r ∧ r.lastIp = ip.toText

instance (c : Contents) (m : MacAddr6) (ip : Ipv4Addr) (k : String) :
    Decidable (Competes c m ip k) :=
  decidable_of_iff (k ≠ macKey m ∧ ∃ r ∈ c k, r.lastIp = ip.toText) Iff.rfl

/-- At most one record competes for the device's sighting. -/
def Decided (c : Contents) (d : Device) : Prop :=
  ∀ m, d.mac = some m → ∀ k₁ k₂, Competes c m d.ip k₁ → Competes c m d.ip k₂ → k₁ = k₂

theorem Competes.mem_keys {ip : Ipv4Addr} (h : Competes s.contents m ip k) :
    k ∈ s.records.keys := by
  obtain ⟨-, r, hk, -⟩ := h
  exact AList.mem_keys.mp (mem_iff_contents.mpr ⟨r, hk⟩)

theorem Competes.exists_value {ip : Ipv4Addr} (hw : WellFormed s.contents)
    (h : Competes s.contents m ip k) :
    ∃ r ∈ values s.records, r.key = k ∧ r.lastIp = ip.toText := by
  obtain ⟨-, r, hk, hip⟩ := h
  exact ⟨r, mem_values.mpr ⟨k, hk⟩, hw.key_eq hk, hip⟩

/-- Some outcome of the sighting changes what is filed under a competing key,
and nothing under any third key: the sighted record is under the competing key
or the MAC's. -/
theorem Competes.exists_sighting (hw : WellFormed c) (hmac : d.mac = some m)
    (h : Competes c m d.ip k) (tagGen : String → String) (now : Nat) :
    ∃ c' r', Sighting c d tagGen now c' r' ∧ c' k ≠ c k ∧
      ∀ k', k' ≠ k → k' ≠ macKey m → c' k' = c k' ∧ k' ≠ r'.key := by
  obtain ⟨hne, r, hk, hip⟩ := h
  by_cases hown : r.mac = none
  · obtain rfl : k = ipKey d.ip := (hw.key_of_mac_none hk hown).trans hip
    refine ⟨_, _, .promote hmac hk, ?_, fun k' h₁ h₂ => ⟨?_, ?_⟩⟩
    · rw [update_of_ne hne, update_self, hk]
      exact (Option.some_ne_none _).symm
    · rw [update_of_ne h₂, update_of_ne h₁]
    · rwa [Record.sight_key, Record.promote_of_none hown]
  · refine ⟨_, _, .absorb hmac hk hip hne hown, ?_, fun k' h₁ _ => ⟨?_, ?_⟩⟩
    · rw [update_self, hk]
      exact fun h => Record.sight_ne (Option.some.inj h)
    · rw [update_of_ne h₁]
    · rwa [Record.sight_key, hw.key_eq hk]

/-- With at most one competitor the outcome is determined. -/
theorem Sighting.unique (hw : WellFormed c) {c₁ c₂ : Contents} {r₁ r₂ : Record}
    (huniq : ∀ m, d.mac = some m → ∀ k₁ k₂, Competes c m d.ip k₁ → Competes c m d.ip k₂ →
      k₁ = k₂)
    (h₁ : Sighting c d tagGen now c₁ r₁) (h₂ : Sighting c d tagGen now c₂ r₂) :
    c₁ = c₂ ∧ r₁ = r₂ := by
  -- the address's own record always competes
  have hip : ∀ {m : MacAddr6} {r : Record}, c (ipKey d.ip) = some r →
      Competes c m d.ip (ipKey d.ip) := fun hk =>
    ⟨(macKey_ne_ipKey _ _).symm, _, hk, hw.lastIp_of_ipKey hk⟩
  cases h₁ with
  | absorb hmac₁ hk₁ hip₁ hne₁ hown₁ =>
    cases h₂ with
    | absorb hmac₂ hk₂ hip₂ hne₂ hown₂ =>
      obtain rfl := Option.some.inj (hmac₁.symm.trans hmac₂)
      obtain rfl := huniq _ hmac₁ _ _ ⟨hne₁, _, hk₁, hip₁⟩ ⟨hne₂, _, hk₂, hip₂⟩
      obtain rfl := Option.some.inj (hk₁.symm.trans hk₂)
      exact ⟨rfl, rfl⟩
    | promote hmac₂ hk₂ =>
      obtain rfl := huniq _ hmac₁ _ _ ⟨hne₁, _, hk₁, hip₁⟩ (hip hk₂)
      exact absurd (hw.mac_of_ipKey hk₁) hown₁
    | own hmac₂ hfree =>
      obtain rfl := Option.some.inj (hmac₁.symm.trans hmac₂)
      exact absurd (hfree _ _ hk₁ hip₁) hne₁
    | anonymous hnone => exact nomatch hmac₁.symm.trans hnone
  | promote hmac₁ hk₁ =>
    cases h₂ with
    | absorb hmac₂ hk₂ hip₂ hne₂ hown₂ =>
      obtain rfl := huniq _ hmac₂ _ _ ⟨hne₂, _, hk₂, hip₂⟩ (hip hk₁)
      exact absurd (hw.mac_of_ipKey hk₂) hown₂
    | promote hmac₂ hk₂ =>
      obtain rfl := Option.some.inj (hmac₁.symm.trans hmac₂)
      obtain rfl := Option.some.inj (hk₁.symm.trans hk₂)
      exact ⟨rfl, rfl⟩
    | own hmac₂ hfree =>
      exact absurd (hfree _ _ hk₁ (hw.lastIp_of_ipKey hk₁)) (macKey_ne_ipKey _ _).symm
    | anonymous hnone => exact nomatch hmac₁.symm.trans hnone
  | own hmac₁ hfree =>
    cases h₂ with
    | absorb hmac₂ hk₂ hip₂ hne₂ hown₂ =>
      obtain rfl := Option.some.inj (hmac₁.symm.trans hmac₂)
      exact absurd (hfree _ _ hk₂ hip₂) hne₂
    | promote hmac₂ hk₂ =>
      exact absurd (hfree _ _ hk₂ (hw.lastIp_of_ipKey hk₂)) (macKey_ne_ipKey _ _).symm
    | own hmac₂ _ =>
      obtain rfl := Option.some.inj (hmac₁.symm.trans hmac₂)
      exact ⟨rfl, rfl⟩
    | anonymous hnone => exact nomatch hmac₁.symm.trans hnone
  | anonymous hnone =>
    cases h₂ with
    | absorb hmac₂ _ _ _ _ => exact nomatch hmac₂.symm.trans hnone
    | promote hmac₂ _ => exact nomatch hmac₂.symm.trans hnone
    | own hmac₂ _ => exact nomatch hmac₂.symm.trans hnone
    | anonymous _ => exact ⟨rfl, rfl⟩

/-- **Iteration order**: in a reachable store, `upsert` gives the same map and
the same record in every two iteration orders iff at most one record competes
for the sighting. -/
theorem upsert_order_irrelevant_iff (h : Store.Reaches ops s) (d : Device)
    (tagGen : String → String) (now : Nat) :
    (∀ s₁ s₂ : Store, SameEntries s.records s₁.records → SameEntries s.records s₂.records →
        SameEntries (s₁.upsert d tagGen now).1.records (s₂.upsert d tagGen now).1.records ∧
          (s₁.upsert d tagGen now).2 = (s₂.upsert d tagGen now).2) ↔
      ∀ m, d.mac = some m → ∀ k₁ k₂, Competes s.contents m d.ip k₁ →
        Competes s.contents m d.ip k₂ → k₁ = k₂ := by
  have hw := h.wellFormed
  constructor
  · intro hall m hmac k₁ k₂ hc₁ hc₂
    by_contra hne
    -- one order changes the record of `k₁`, another only that of `k₂`
    obtain ⟨c₁, r₁, hs₁, hchanged, -⟩ := hc₁.exists_sighting hw hmac tagGen now
    obtain ⟨c₂, r₂, hs₂, -, hkept⟩ := hc₂.exists_sighting hw hmac tagGen now
    obtain ⟨s₁, hsame₁, rfl, -⟩ := Store.exists_upsert_of_sighting hw hs₁
    obtain ⟨s₂, hsame₂, rfl, -⟩ := Store.exists_upsert_of_sighting hw hs₂
    have heq := sameEntries_iff.mp (hall s₁ s₂ hsame₁ hsame₂).1
    exact hchanged ((congrFun heq k₁).trans (hkept k₁ hne hc₁.1).1)
  · intro huniq s₁ s₂ hsame₁ hsame₂
    have h₁ := Store.upsert_sighting (Store.contents_congr hsame₁ ▸ hw) d tagGen now
    have h₂ := Store.upsert_sighting (Store.contents_congr hsame₂ ▸ hw) d tagGen now
    rw [← Store.contents_congr hsame₁] at h₁
    rw [← Store.contents_congr hsame₂] at h₂
    obtain ⟨hc, hr⟩ := h₁.unique hw huniq h₂
    exact ⟨sameEntries_iff.mpr hc, hr⟩

/-- A MAC record and an address record for one address: the phone's sighting
promotes the one in the store's own order, and is absorbed by the other in the
reverse order. -/
theorem upsert_order_matters :
    Store.Reaches [.arp desk laptop 0, .sweep desk 1]
        (.ofOps [.arp desk laptop 0, .sweep desk 1]) ∧
      SameEntries (Store.ofOps [.arp desk laptop 0, .sweep desk 1]).records
        (reverse (Store.ofOps [.arp desk laptop 0, .sweep desk 1]).records) ∧
      ¬ SameEntries
        ((Store.ofOps [.arp desk laptop 0, .sweep desk 1]).upsert
          (.ofArpEntry ⟨desk, phone⟩) Namer.generate 2).1.records
        ((Store.mk (reverse (Store.ofOps [.arp desk laptop 0, .sweep desk 1]).records)).upsert
          (.ofArpEntry ⟨desk, phone⟩) Namer.generate 2).1.records := by
  refine ⟨Store.reaches_ofOps _, sameEntries_reverse _, fun h => ?_⟩
  have hphone := congrFun (sameEntries_iff.mp h) (macKey phone)
  revert hphone
  decide

/-- The laptop's record is alone at the desk: of the two orders of the map, in which the
phone's own record comes first and last, both give the same. -/
theorem upsert_order_irrelevant_for_phone :
    values (Store.ofOps [.arp desk laptop 0, .arp sofa phone 1]).records
        ≠ values (reverse (Store.ofOps [.arp desk laptop 0, .arp sofa phone 1]).records) ∧
      SameEntries
        ((Store.ofOps [.arp desk laptop 0, .arp sofa phone 1]).upsert
          (.ofArpEntry ⟨desk, phone⟩) Namer.generate 2).1.records
        ((Store.mk (reverse (Store.ofOps [.arp desk laptop 0, .arp sofa phone 1]).records)).upsert
          (.ofArpEntry ⟨desk, phone⟩) Namer.generate 2).1.records := by
  have hone : ∀ r ∈ values (Store.ofOps [.arp desk laptop 0, .arp sofa phone 1]).records,
      r.lastIp = desk.toText → r.key = macKey laptop := by decide
  have hreach := Store.reaches_ofOps [.arp desk laptop 0, .arp sofa phone 1]
  have hw := hreach.wellFormed
  refine ⟨by decide, ((upsert_order_irrelevant_iff hreach (.ofArpEntry ⟨desk, phone⟩)
    Namer.generate 2).mpr (fun m _ k₁ k₂ h₁ h₂ => ?_) _ _ (SameEntries.refl _)
    (sameEntries_reverse _)).1⟩
  obtain ⟨r₁, hr₁, rfl, hip₁⟩ := h₁.exists_value hw
  obtain ⟨r₂, hr₂, rfl, hip₂⟩ := h₂.exists_value hw
  rw [hone r₁ hr₁ hip₁, hone r₂ hr₂ hip₂]

end Gannet
