import Gannet.Identity.Merging
import Gannet.Identity.StoreInvariant

/-!
# What later sightings keep

Two properties of whole runs, each with the step that breaks it.

- `mac_record_kept`: a MAC's record is only ever added to, as long as that MAC
  is not sighted at an address that has a record of its own. Promoting that
  address record would overwrite the MAC's.
- `one_record_per_address_iff`: no two records are last seen at one address, as
  long as no device without MAC is sighted where a MAC was last seen; such a
  step does make two records.
-/

namespace Gannet

open KeyMap Function

variable {s t : Store} {ops ops' : List Store.Op} {c c' : Contents} {k : String}
  {r r' r'' : Record} {d : Device} {tagGen : String → String} {now : Nat} {m : MacAddr6}

/-! ## Records that are only added to -/

/-- `r'` is `r` after more sightings: what the user and the first sighting set
stays, what accumulates only grows. -/
structure Record.Extends (r r' : Record) : Prop where
  tag : r'.tag = r.tag
  firstSeen : r'.firstSeen = r.firstSeen
  ips : r.ips ⊆ r'.ips
  services : r.services ⊆ r'.services
  category : ∀ cat, r.category = some cat → cat ≠ .unknown → r'.category = some cat

namespace Record

theorem Extends.refl (r : Record) : r.Extends r :=
  ⟨rfl, rfl, List.Subset.refl _, List.Subset.refl _, fun _ h _ => h⟩

theorem Extends.trans (h : r.Extends r') (h' : r'.Extends r'') : r.Extends r'' where
  tag := h'.tag.trans h.tag
  firstSeen := h'.firstSeen.trans h.firstSeen
  ips := List.Subset.trans h.ips h'.ips
  services := List.Subset.trans h.services h'.services
  category := fun cat hcat hknown => h'.category cat (h.category cat hcat hknown) hknown

theorem extends_sight : r.Extends (r.sight d now) where
  tag := rfl
  firstSeen := rfl
  ips := ips_subset_sight
  services := subset_mergeStringVec _ _
  category := by
    intro cat hcat hknown
    rw [sight_category, hcat]
    exact mergeCategory_known hknown _

/-- What a sighting makes of a record extends it. -/
theorem SightedFrom.extends (h : r'.SightedFrom r d now) : r.Extends r' := by
  obtain ⟨key, mac, rfl⟩ := h
  have hrenamed : r.Extends { r with key := key, mac := mac } :=
    ⟨rfl, rfl, List.Subset.refl _, List.Subset.refl _, fun _ hcat _ => hcat⟩
  exact hrenamed.trans extends_sight

end Record

/-! ## The records a sighting keeps -/

/-- The sighting may file another record under `k`: the address has a record of
its own, to be promoted to the device's MAC, and `k` is that MAC's key. -/
def Overwrites (c : Contents) (d : Device) (k : String) : Prop :=
  c (ipKey d.ip) ≠ none ∧ ∃ m, d.mac = some m ∧ k = macKey m

/-- A sighting files its record under the record's own key. -/
theorem Sighting.filed (hw : WellFormed c) (h : Sighting c d tagGen now c' r') :
    c' r'.key = some r' := by
  cases h with
  | absorb _ hk _ _ _ =>
    rw [Record.sight_key, hw.key_eq hk]
    exact update_self ..
  | promote _ hk =>
    rw [Record.sight_key, Record.promote_of_none (hw.mac_of_ipKey hk)]
    exact update_self ..
  | own _ _ =>
    rw [(touch_mac_describes hw).key]
    exact update_self ..
  | anonymous _ =>
    rw [(touch_addr_describes hw).key]
    exact update_self ..

/-- A record that is not overwritten stays as it is or is the one sighted; then it
stays under its key, unless it is the address's own. -/
theorem Sighting.kept (hk : c k = some r) (hno : ¬ Overwrites c d k)
    (h : Sighting c d tagGen now c' r') :
    c' k = some r ∨
      r'.SightedFrom r d now ∧ (c' k = some (r.sight d now) ∨ k = ipKey d.ip) := by
  cases h with
  | @absorb k' r₀ _ _ hk' _ _ _ =>
    by_cases hkey : k = k'
    · subst hkey
      obtain rfl := Option.some.inj (hk.symm.trans hk')
      exact .inr ⟨r.sightedFrom_self, .inl (update_self ..)⟩
    · exact .inl (by rw [update_of_ne hkey, hk])
  | @promote r₀ n hmac hk' =>
    -- the record under the MAC would be the overwritten one
    have hmacKey : k ≠ macKey n := fun hkey =>
      hno ⟨by rw [hk']; exact Option.some_ne_none _, n, hmac, hkey⟩
    by_cases hkey : k = ipKey d.ip
    · subst hkey
      obtain rfl := Option.some.inj (hk.symm.trans hk')
      exact .inr ⟨r.sightedFrom_promote n, .inr rfl⟩
    · exact .inl (by rw [update_of_ne hmacKey, update_of_ne hkey, hk])
  | @own n _ _ =>
    by_cases hkey : k = macKey n
    · subst hkey
      have htouch : touch c (.mac n) d tagGen now = r.sight d now := touch_of_some hk
      rw [htouch]
      exact .inr ⟨r.sightedFrom_self, .inl (update_self ..)⟩
    · exact .inl (by rw [update_of_ne hkey, hk])
  | anonymous _ =>
    by_cases hkey : k = ipKey d.ip
    · subst hkey
      have htouch : touch c (.addr d.ip) d tagGen now = r.sight d now := touch_of_some hk
      rw [htouch]
      exact .inr ⟨r.sightedFrom_self, .inr rfl⟩
    · exact .inl (by rw [update_of_ne hkey, hk])

/-! ## The record of a MAC -/

/-- The call does not sight `m` at an address that has a record of its own. -/
def KeepsRecordOf (m : MacAddr6) (s : Store) (op : Store.Op) : Prop :=
  ∀ d tagGen now, op = .upsert d tagGen now → d.mac = some m → s.contents (ipKey d.ip) = none

/-- Unless it promotes an address record to `m`, a sighting leaves the record
of `m` or sights it. -/
theorem Sighting.mac_record (hk : c (macKey m) = some r)
    (hkeep : d.mac = some m → c (ipKey d.ip) = none) (h : Sighting c d tagGen now c' r') :
    c' (macKey m) = some r ∨ c' (macKey m) = some (r.sight d now) := by
  have hno : ¬ Overwrites c d (macKey m) := by
    rintro ⟨hown, n, hmac, hkey⟩
    obtain rfl := macKey_inj hkey
    exact hown (hkeep hmac)
  rcases h.kept hk hno with hk' | ⟨-, hk' | hkey⟩
  · exact .inl hk'
  · exact .inr hk'
  · exact absurd hkey (macKey_ne_ipKey m d.ip)

/-- **Nothing is lost**: from a reachable store, any sightings none of which is
of `m` at an address with a record of its own extend the record of `m`; its
counter does not go down while there are fewer than 2³² sightings in all. -/
theorem mac_record_kept (h : Store.Reaches ops s) (hk : s.contents (macKey m) = some r)
    (hrun : Lts.Run (Lts.Guarded Store.Step (KeepsRecordOf m)) s ops' t)
    (hups : ∀ op ∈ ops', ∃ d tagGen now, op = .upsert d tagGen now)
    (hfew : (Store.clocks (ops ++ ops')).length < UInt32.size) :
    ∃ r', t.contents (macKey m) = some r' ∧ r.Extends r' ∧ r.seenCount ≤ r'.seenCount := by
  refine hrun.invariant_labels (fun ops' t =>
    (∀ op ∈ ops', ∃ d tagGen now, op = Store.Op.upsert d tagGen now) →
    (Store.clocks (ops ++ ops')).length < UInt32.size →
    ∃ r', t.contents (macKey m) = some r' ∧ r.Extends r' ∧ r.seenCount ≤ r'.seenCount)
    ?_ ?_ hups hfew
  · exact fun _ _ => ⟨r, hk, .refl r, UInt32.le_refl _⟩
  intro bs op t u hpre ih hstep hups hfew
  -- the counter is bounded by the sightings of the whole history
  have hreach : Store.Reaches (ops ++ bs) t := Lts.Run.append h hpre.of_guarded
  rw [← List.append_assoc, Store.clocks_append, List.length_append] at hfew
  obtain ⟨r₁, hk₁, hext, hseen⟩ :=
    ih (fun op hop => hups op (List.mem_append_left _ hop)) (by omega)
  obtain ⟨d, tagGen, now, rfl⟩ := hups op (List.mem_append_right _ (List.mem_singleton_self op))
  obtain ⟨hkeep, hstep⟩ := hstep
  cases hstep.transition hreach.wellFormed with
  | sighting hs =>
    rcases hs.mac_record hk₁ (hkeep d tagGen now rfl) with hk₂ | hk₂
    · exact ⟨r₁, hk₂, hext, hseen⟩
    · refine ⟨_, hk₂, hext.trans Record.extends_sight, UInt32.le_trans hseen ?_⟩
      have hcount := (hreach.counted (by omega) _ _ hk₁).le
      rw [UInt32.le_iff_toNat_le, Record.sight_seenCount, seenCount_succ hcount hfew]
      omega

/-- The laptop, tagged by its user, moves to an address the sweep found first:
the promoted address record replaces the laptop's, with its tag. -/
theorem mac_record_overwritten :
    Store.Reaches [.arp desk laptop 0, .setTag (some laptop) desk "alice", .sweep sofa 1]
        (.ofOps [.arp desk laptop 0, .setTag (some laptop) desk "alice", .sweep sofa 1]) ∧
      ∃ r, (Store.ofOps [.arp desk laptop 0, .setTag (some laptop) desk "alice",
          .sweep sofa 1]).contents (macKey laptop) = some r ∧ r.tag = some "alice" ∧
        ∀ r', ((Store.ofOps [.arp desk laptop 0, .setTag (some laptop) desk "alice",
          .sweep sofa 1]).apply (.arp sofa laptop 2)).contents (macKey laptop) = some r' →
          r'.tag ≠ some "alice" ∧ ¬ r.ips ⊆ r'.ips := by
  refine ⟨Store.reaches_ofOps _, _, rfl, by decide, fun r' hr' => ?_⟩
  obtain rfl := Option.some.inj hr'
  decide

/-- The laptop moves to an address nothing was recorded for. -/
theorem mac_record_kept_on_move :
    ∃ r', (Store.ofOps [.arp desk laptop 0, .arp sofa laptop 1]).contents (macKey laptop)
        = some r' ∧
      ((freshRecord (macKey laptop) (some laptop.toText) (.ofArpEntry ⟨desk, laptop⟩)
        Namer.generate 0).sight (.ofArpEntry ⟨desk, laptop⟩) 0).Extends r' := by
  have hrun : Lts.Run (Lts.Guarded Store.Step (KeepsRecordOf laptop))
      (.ofOps [.arp desk laptop 0]) [.arp sofa laptop 1]
      (.ofOps [.arp desk laptop 0, .arp sofa laptop 1]) := by
    refine .single ⟨fun d tagGen now hop _ => ?_, Store.step_apply _ _⟩
    injection hop with hd
    subst hd
    decide
  obtain ⟨r', hr', hext, -⟩ := mac_record_kept (Store.reaches_ofOps [.arp desk laptop 0]) rfl hrun
    (fun op hop => ⟨_, _, _, List.mem_singleton.mp hop⟩) (by decide)
  exact ⟨r', hr', hext⟩

/-! ## One record per address -/

/-- No two records are last seen at one address. -/
def AddressUnique (c : Contents) : Prop :=
  ∀ k₁ k₂ r₁ r₂, c k₁ = some r₁ → c k₂ = some r₂ → r₁.lastIp = r₂.lastIp → k₁ = k₂

/-- The call does not sight a device without MAC where a MAC was last seen. -/
def NoSplit (s : Store) (op : Store.Op) : Prop :=
  ∀ d tagGen now, op = .upsert d tagGen now → d.mac = none →
    ∀ k r, s.contents k = some r → r.lastIp = d.ip.toText → r.mac = none

theorem addressUnique_empty : AddressUnique fun _ => none := fun _ _ _ _ h => nomatch h

/-- Filing a record last seen at an address no other record was last seen at. -/
theorem AddressUnique.update (hu : AddressUnique c)
    (hfree : ∀ k' r', c k' = some r' → r'.lastIp = r.lastIp → k' = k) :
    AddressUnique (update c k (some r)) := by
  intro k₁ k₂ r₁ r₂ h₁ h₂ hip
  rcases update_some_cases h₁ with ⟨hk₁, hr₁⟩ | ⟨-, hold₁⟩
  · rcases update_some_cases h₂ with ⟨hk₂, -⟩ | ⟨-, hold₂⟩
    · exact hk₁.trans hk₂.symm
    · exact hk₁.trans (hfree _ _ hold₂ (hip.symm.trans (by rw [hr₁]))).symm
  · rcases update_some_cases h₂ with ⟨hk₂, hr₂⟩ | ⟨-, hold₂⟩
    · exact (hfree _ _ hold₁ (hip.trans (by rw [hr₂]))).trans hk₂.symm
    · exact hu _ _ _ _ hold₁ hold₂ hip

theorem AddressUnique.update_none (hu : AddressUnique c) :
    AddressUnique (Function.update c k none) := by
  intro k₁ k₂ r₁ r₂ h₁ h₂ hip
  exact hu k₁ k₂ r₁ r₂ (update_none_cases h₁).2 (update_none_cases h₂).2 hip

/-- A sighting keeps one record per address, unless it is anonymous and the
address is a MAC's. -/
theorem AddressUnique.sighting (hw : WellFormed c) (hu : AddressUnique c)
    (hsplit : d.mac = none → ∀ k r, c k = some r → r.lastIp = d.ip.toText → r.mac = none)
    (h : Sighting c d tagGen now c' r') : AddressUnique c' := by
  cases h with
  | absorb _ hk hip _ _ =>
    exact hu.update fun k' r' hk' hip' => hu _ _ _ _ hk' hk (hip'.trans hip.symm)
  | promote _ hk =>
    refine hu.update_none.update fun k' r' hk' hip' => ?_
    -- whoever was last seen there was the address's own record, now gone
    obtain ⟨hkey, hk'⟩ := update_none_cases hk'
    have hlast : r'.lastIp = d.ip.toText := hip'
    exact absurd (hu _ _ _ _ hk' hk (hlast.trans (hw.lastIp_of_ipKey hk).symm)) hkey
  | own _ hfree => exact hu.update fun k' r' hk' hip' => hfree k' r' hk' hip'
  | anonymous hnone =>
    refine hu.update fun k' r' hk' hip' => ?_
    exact (hw.key_of_mac_none hk' (hsplit hnone k' r' hk' hip')).trans hip'

/-- An anonymous sighting where a MAC was last seen makes a second record. -/
theorem Sighting.splits (hw : WellFormed c) (h : Sighting c d tagGen now c' r')
    (hnone : d.mac = none) (hk : c k = some r) (hip : r.lastIp = d.ip.toText)
    (hmac : r.mac ≠ none) : ¬ AddressUnique c' := by
  intro hu
  have hkey : k ≠ ipKey d.ip := by
    rintro rfl
    exact hmac (hw.mac_of_ipKey hk)
  cases h with
  | absorb hsome _ _ _ _ => exact nomatch hnone.symm.trans hsome
  | promote hsome _ => exact nomatch hnone.symm.trans hsome
  | own hsome _ => exact nomatch hnone.symm.trans hsome
  | anonymous _ =>
    refine hkey (hu k (ipKey d.ip) r _ ?_ (update_self ..) hip)
    rw [update_of_ne hkey, hk]

theorem AddressUnique.retag (hu : AddressUnique c) (hk : c k = some r) (tag : Option String) :
    AddressUnique (Function.update c k (some { r with tag := tag })) :=
  hu.update fun k' r' hk' hip' => hu k' k r' r hk' hk hip'

/-- From a store with one record per address, the next call keeps that iff it
splits no device in two. -/
theorem addressUnique_step_iff (hw : WellFormed s.contents) (hu : AddressUnique s.contents)
    {op : Store.Op} (hstep : Store.Step s op t) : AddressUnique t.contents ↔ NoSplit s op := by
  have htrans := hstep.transition hw
  generalize t.contents = c' at htrans
  constructor
  · rintro hu' d tagGen now rfl hnone k r hk hip
    by_contra hmac
    cases htrans with
    | sighting h => exact h.splits hw hnone hk hip hmac hu'
  · intro hsplit
    cases htrans with
    | sighting h => exact hu.sighting hw (hsplit _ _ _ rfl) h
    | retag h => exact hu.retag (tagTarget_spec h) _
    | untagged _ => exact hu

/-- **One record per address**: a run that splits no device in two never has
two records last seen at one address, and its next step makes two exactly when
that step splits a device. -/
theorem one_record_per_address_iff
    (hrun : Lts.Run (Lts.Guarded Store.Step NoSplit) .empty ops s) :
    AddressUnique s.contents ∧
      ∀ op t, Store.Step s op t → (AddressUnique t.contents ↔ NoSplit s op) := by
  have hinv : WellFormed s.contents ∧ AddressUnique s.contents := by
    refine hrun.invariant (fun s => WellFormed s.contents ∧ AddressUnique s.contents)
      ⟨wellFormed_empty, addressUnique_empty⟩ ?_
    rintro s t op ⟨hw, hu⟩ ⟨hsplit, hstep⟩
    exact ⟨hw.step hstep, (addressUnique_step_iff hw hu hstep).mpr hsplit⟩
  exact ⟨hinv.2, fun op t hstep => addressUnique_step_iff hinv.1 hinv.2 hstep⟩

/-- The laptop answers ARP, later only the sweep: its address has two records. -/
theorem two_records_for_laptop :
    Store.Reaches [.arp desk laptop 0, .sweep desk 1]
        (.ofOps [.arp desk laptop 0, .sweep desk 1]) ∧
      ¬ AddressUnique (Store.ofOps [.arp desk laptop 0, .sweep desk 1]).contents := by
  refine ⟨Store.reaches_ofOps _, fun hu => ?_⟩
  exact macKey_ne_ipKey laptop desk (hu _ _ _ _ rfl rfl (by decide))

/-- The sweep first, ARP later: one record. -/
theorem one_record_for_laptop :
    AddressUnique (Store.ofOps [.sweep desk 0, .arp desk laptop 1]).contents := by
  have hrun : Lts.Run (Lts.Guarded Store.Step NoSplit) .empty
      ([.sweep desk 0] ++ [.arp desk laptop 1])
      (.ofOps [.sweep desk 0, .arp desk laptop 1]) := by
    refine .append (.single ⟨fun _ _ _ _ _ _ _ hk => (nomatch hk), Store.step_apply _ _⟩)
      (.single ⟨fun d tagGen now hop hmac => ?_, Store.step_apply _ _⟩)
    injection hop with hd
    subst hd
    exact nomatch hmac
  exact (one_record_per_address_iff hrun).1

end Gannet
