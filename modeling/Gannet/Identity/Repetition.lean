import Gannet.Identity.History
import Gannet.Identity.Merging
import Gannet.Identity.Resolution

/-!
# The same sighting twice

A scan that finds nothing new should not change what is recorded, beyond when
and how often. Of one record this is so: sighted again, only its clock and its
counter move (`Record.sight_again`). But the second sighting need not go into
the record the first went into.

`upsert_twice_iff`: it always does iff at most one record under another key than
the MAC's was last seen at the address. With two of them, the first sighting
takes one and leaves the other to be found by the second.
-/

namespace Gannet

open KeyMap Function

variable {s : Store} {ops : List Store.Op} {c c' c'' : Contents} {d : Device} {m : MacAddr6}
  {r r' r'' : Record} {k : String} {tagGen : String → String} {now now' : Nat}

/-! ## One record -/

/-- `r'` is `r` but for when it was last seen and how often. -/
def Record.SameButCounters (r r' : Record) : Prop :=
  r' = { r with lastSeen := r'.lastSeen, seenCount := r'.seenCount }

theorem Record.sight_again (r : Record) (d : Device) (now now' : Nat) :
    (r.sight d now).SameButCounters ((r.sight d now).sight d now') := by
  have hips : ((r.sight d now).sight d now').ips = (r.sight d now).ips :=
    if_pos ip_mem_sight_ips
  have hservices := mergeStringVec_again r.services d.services
  have hcategory := mergeCategory_again r.category d.category
  have hkeep : ∀ {α : Type} (x y : Option α), x.or (x.or y) = x.or y := by
    rintro α (_ | x) y <;> rfl
  unfold SameButCounters
  simp only [sight] at hips ⊢
  simp only [hips, hservices, hcategory, hkeep]

/-- The registries differ at most in the clock and the counter of the record
under `k`. -/
structure SameUpToCounters (k : String) (c c' : Contents) : Prop where
  others : ∀ k', k' ≠ k → c' k' = c k'
  record : ∃ r r', c k = some r ∧ c' k = some r' ∧ r.SameButCounters r'

/-! ## Two sightings -/

/-- Who competes for the same sighting afterwards did so before. -/
theorem Sighting.competed (hmac : d.mac = some m)
    (h : Sighting c d tagGen now c' r') (hc : Competes c' m d.ip k) : Competes c m d.ip k := by
  obtain ⟨hne, r₁, hk, hip⟩ := hc
  cases h with
  | absorb _ hk₀ hip₀ _ _ =>
    rcases update_some_cases hk with ⟨rfl, -⟩ | ⟨-, hk⟩
    · exact ⟨hne, _, hk₀, hip₀⟩
    · exact ⟨hne, r₁, hk, hip⟩
  | promote hmac' _ =>
    obtain rfl := Option.some.inj (hmac.symm.trans hmac')
    rw [update_of_ne hne] at hk
    exact ⟨hne, r₁, (update_none_cases hk).2, hip⟩
  | own hmac' _ =>
    obtain rfl := Option.some.inj (hmac.symm.trans hmac')
    rw [update_of_ne hne] at hk
    exact ⟨hne, r₁, hk, hip⟩
  | anonymous hnone => exact nomatch hmac.symm.trans hnone

/-- A sighting into the MAC's record, which is there. -/
theorem Sighting.own_filed (hmac : d.mac = some m)
    (hfree : ∀ k r, c k = some r → r.lastIp = d.ip.toText → k = macKey m)
    (hk : c (macKey m) = some r) :
    Sighting c d tagGen now (update c (macKey m) (some (r.sight d now))) (r.sight d now) := by
  have htouch : touch c (.mac m) d tagGen now = r.sight d now := touch_of_some hk
  rw [← htouch]
  exact .own hmac hfree

/-- An anonymous sighting into the address's record, which is there. -/
theorem Sighting.anonymous_filed (hnone : d.mac = none) (hk : c (ipKey d.ip) = some r) :
    Sighting c d tagGen now (update c (ipKey d.ip) (some (r.sight d now))) (r.sight d now) := by
  have htouch : touch c (.addr d.ip) d tagGen now = r.sight d now := touch_of_some hk
  rw [← htouch]
  exact .anonymous hnone

/-- With at most one competitor, a second sighting may go where the first
went. -/
theorem Sighting.again (hw : WellFormed c) (hdec : Decided c d)
    (h : Sighting c d tagGen now c' r') (now' : Nat) :
    Sighting c' d tagGen now' (update c' r'.key (some (r'.sight d now'))) (r'.sight d now') := by
  have hw' := hw.sighting h
  have hfiled := h.filed hw
  have hcompeted := fun {m k} hmac (hc : Competes c' m d.ip k) => h.competed hmac hc
  cases h with
  | @absorb k r m hmac hk hip hne hown =>
    have hkey : (r.sight d now).key = k := by rw [Record.sight_key, hw.key_eq hk]
    rw [hkey] at hfiled ⊢
    exact .absorb hmac hfiled rfl hne hown
  | @promote r m hmac hk =>
    -- the competitor is gone
    have hkey : ((r.promote m).sight d now).key = macKey m := by
      rw [Record.sight_key, Record.promote_of_none (hw.mac_of_ipKey hk)]
    have hfree : ∀ k r₁, update (update c (ipKey d.ip) none) (macKey m)
        (some ((r.promote m).sight d now)) k = some r₁ → r₁.lastIp = d.ip.toText →
        k = macKey m := by
      intro k r₁ hk₁ hip₁
      by_contra hne
      have hsame := hdec m hmac k (ipKey d.ip) (hcompeted hmac ⟨hne, r₁, hk₁, hip₁⟩)
        ⟨(macKey_ne_ipKey m d.ip).symm, r, hk, hw.lastIp_of_ipKey hk⟩
      rw [update_of_ne hne, hsame, update_self] at hk₁
      exact nomatch hk₁
    rw [hkey] at hfiled ⊢
    exact .own_filed hmac hfree hfiled
  | @own m hmac hfree =>
    have hkey : (touch c (.mac m) d tagGen now).key = macKey m := (touch_mac_describes hw).key
    rw [hkey] at hfiled ⊢
    refine .own_filed hmac (fun k r₁ hk₁ hip₁ => ?_) hfiled
    by_contra hne
    obtain ⟨-, r, hk, hip⟩ := hcompeted hmac ⟨hne, r₁, hk₁, hip₁⟩
    exact hne (hfree k r hk hip)
  | anonymous hnone =>
    have hkey : (touch c (.addr d.ip) d tagGen now).key = ipKey d.ip :=
      (touch_addr_describes hw).key
    rw [hkey] at hfiled ⊢
    exact .anonymous_filed hnone hfiled

/-- With at most one competitor, the second of two sightings changes no more than
counters. -/
theorem Sighting.sameUpToCounters (hw : WellFormed c) (hdec : Decided c d)
    (h : Sighting c d tagGen now c' r') (h' : Sighting c' d tagGen now' c'' r'') :
    SameUpToCounters r'.key c' c'' := by
  have hdec' : Decided c' d := fun m hmac k₁ k₂ h₁ h₂ =>
    hdec m hmac k₁ k₂ (h.competed hmac h₁) (h.competed hmac h₂)
  obtain ⟨rfl, -⟩ := h'.unique (hw.sighting h) hdec' (h.again hw hdec now')
  refine ⟨fun k' hne => update_of_ne hne .., r', _, h.filed hw, update_self .., ?_⟩
  rcases h.sightedFrom with ⟨_, r, _, _, _, rfl⟩ | ⟨_, _, _, _, rfl⟩
  · exact Record.sight_again _ d now now'
  · exact Record.sight_again _ d now now'

/-- With two competitors, the second sighting may change another record. -/
theorem Competes.exists_twice (hw : WellFormed c) (hmac : d.mac = some m) {k₁ k₂ : String}
    (h₁ : Competes c m d.ip k₁) (h₂ : Competes c m d.ip k₂) (hne : k₁ ≠ k₂)
    (tagGen : String → String) (now now' : Nat) :
    ∃ c' r' c'' r'', Sighting c d tagGen now c' r' ∧ Sighting c' d tagGen now' c'' r'' ∧
      ¬ SameUpToCounters r'.key c' c'' := by
  obtain ⟨c', r', hsight, -, hkept⟩ := h₁.exists_sighting hw hmac tagGen now
  obtain ⟨hsame, hkey⟩ := hkept k₂ hne.symm h₂.1
  -- the other competitor is still there
  have hstill : Competes c' m d.ip k₂ := ⟨h₂.1, by rw [hsame]; exact h₂.2⟩
  obtain ⟨c'', r'', hsight', hchanged, -⟩ :=
    hstill.exists_sighting (hw.sighting hsight) hmac tagGen now'
  exact ⟨c', r', c'', r'', hsight, hsight', fun hcounters => hchanged (hcounters.others k₂ hkey)⟩

/-- **Idempotence**: in a reachable store, and in every iteration order of each of
the two calls, a second `upsert` of a device changes nothing but the clock and
the counter of the record the first went into iff at most one record competes
for the sighting. -/
theorem upsert_twice_iff (h : Store.Reaches ops s) (d : Device) (tagGen : String → String)
    (now now' : Nat) :
    (∀ s₁ s₂ : Store, SameEntries s.records s₁.records →
        SameEntries (s₁.upsert d tagGen now).1.records s₂.records →
        SameUpToCounters (s₁.upsert d tagGen now).2.key (s₁.upsert d tagGen now).1.contents
          (s₂.upsert d tagGen now').1.contents) ↔ Decided s.contents d := by
  have hw := h.wellFormed
  constructor
  · intro hall m hmac k₁ k₂ h₁ h₂
    by_contra hne
    obtain ⟨c', r', c'', r'', hsight, hsight', hnot⟩ :=
      h₁.exists_twice hw hmac h₂ hne tagGen now now'
    obtain ⟨s₁, hsame₁, rfl, rfl⟩ := Store.exists_upsert_of_sighting hw hsight
    obtain ⟨s₂, hsame₂, rfl, -⟩ :=
      Store.exists_upsert_of_sighting (hw.sighting hsight) hsight'
    exact hnot (hall s₁ s₂ hsame₁ hsame₂)
  · intro hdec s₁ s₂ hsame₁ hsame₂
    have hc₁ := Store.contents_congr hsame₁
    have hc₂ := Store.contents_congr hsame₂
    rw [hc₁] at hw hdec
    have hsight := Store.upsert_sighting hw d tagGen now
    have hw' := hw.sighting hsight
    rw [hc₂] at hw'
    have hsight' := Store.upsert_sighting hw' d tagGen now'
    rw [← hc₂] at hsight'
    exact hsight.sameUpToCounters hw hdec hsight'

/-- The phone, which gives its name, at an address that has a record and that
the laptop was last seen at: its first sighting promotes the record, its second
is written into the laptop's. -/
theorem upsert_twice_renames_laptop :
    Store.Reaches [.arp desk laptop 0, .sweep desk 1]
        (.ofOps [.arp desk laptop 0, .sweep desk 1]) ∧
      ∃ once twice, once = ((Store.ofOps [.arp desk laptop 0, .sweep desk 1]).upsert
          { Device.ofArpEntry ⟨desk, phone⟩ with hostname := some "phone" } Namer.generate 2) ∧
        twice = once.1.upsert
          { Device.ofArpEntry ⟨desk, phone⟩ with hostname := some "phone" } Namer.generate 2 ∧
        ((once.1.contents (macKey laptop)).bind Record.hostname) = none ∧
        ((twice.1.contents (macKey laptop)).bind Record.hostname) = some "phone" ∧
        ¬ SameUpToCounters once.2.key once.1.contents twice.1.contents := by
  refine ⟨Store.reaches_ofOps _, _, _, rfl, rfl, by decide, by decide, fun h => ?_⟩
  have hlaptop := h.others (macKey laptop) (by decide)
  revert hlaptop
  decide

/-- The laptop seen twice where it was. -/
theorem upsert_laptop_twice :
    SameUpToCounters (macKey laptop)
      (.ofOps [.arp desk laptop 0, .arp desk laptop 1] : Store).contents
      (.ofOps [.arp desk laptop 0, .arp desk laptop 1, .arp desk laptop 2] : Store).contents := by
  have hdec : Decided (Store.ofOps [.arp desk laptop 0]).contents
      (.ofArpEntry ⟨desk, laptop⟩) := by
    have hvalues : ∀ r ∈ values (Store.ofOps [.arp desk laptop 0]).records,
        r.key = macKey laptop := by decide
    have hw := (Store.reaches_ofOps [.arp desk laptop 0]).wellFormed
    intro m hmac k₁ k₂ h₁ h₂
    obtain ⟨r₁, hr₁, rfl, -⟩ := h₁.exists_value hw
    obtain ⟨r₂, hr₂, rfl, -⟩ := h₂.exists_value hw
    rw [hvalues r₁ hr₁, hvalues r₂ hr₂]
  exact (upsert_twice_iff (Store.reaches_ofOps [.arp desk laptop 0])
    (.ofArpEntry ⟨desk, laptop⟩) Namer.generate 1 2).mpr hdec _ _ (SameEntries.refl _)
    (SameEntries.refl _)

end Gannet
