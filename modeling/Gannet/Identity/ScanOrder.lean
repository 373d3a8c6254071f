import Gannet.Identity.Resolution

/-!
# The order of sightings within one scan

A scan upserts its devices one after another with one clock reading. Whether the
order matters depends on the stale addresses in the store: a record that
competes for one device's sighting may belong to the MAC of another device of
the same scan, and then it is moved or written to depending on who comes first.

- `Slot`: which record a sighting reads and where it files the result. Sightings
  with separate slots commute (`refile_comm`).
- `scan_order_law`: two devices may be upserted in either order iff they are
  `Independent`, and so may the devices of a whole scan that are pairwise so.
-/

namespace Gannet

open KeyMap Function Lts

variable {c c' c₁ c₂ : Contents} {d d₁ d₂ : Device} {tagGen : String → String} {now : Nat}
  {m : MacAddr6} {k src dst src₁ dst₁ src₂ dst₂ : String} {r r' : Record}

/-! ## Slots -/

/-- The sighting reads the record under the first key and files it under the
second. -/
inductive Slot (c : Contents) (d : Device) : String → String → Prop where
  | absorb {m : MacAddr6} {k : String} (hmac : d.mac = some m) (hk : Competes c m d.ip k)
      (hne : k ≠ ipKey d.ip) : Slot c d k k
  | promote {m : MacAddr6} (hmac : d.mac = some m) (hk : Competes c m d.ip (ipKey d.ip)) :
      Slot c d (ipKey d.ip) (macKey m)
  | own {m : MacAddr6} (hmac : d.mac = some m) (hfree : ∀ k, ¬ Competes c m d.ip k) :
      Slot c d (macKey m) (macKey m)
  | anonymous (hmac : d.mac = none) : Slot c d (ipKey d.ip) (ipKey d.ip)

/-- The record a sighting makes of the one it reads. -/
def filed (d : Device) (tagGen : String → String) (now : Nat) (old : Option Record) : Record :=
  match d.mac with
  | some m =>
    ((old.getD (freshRecord (macKey m) (some m.toText) d tagGen now)).promote m).sight d now
  | none => (old.getD (freshRecord (ipKey d.ip) none d tagGen now)).sight d now

/-- The registry with what was under `src` filed under `dst`. -/
def refile (c : Contents) (d : Device) (tagGen : String → String) (now : Nat)
    (src dst : String) : Contents :=
  update (update c src none) dst (some (filed d tagGen now (c src)))

theorem filed_of_mac (hmac : d.mac = some m) (hown : r.mac ≠ none) :
    filed d tagGen now (some r) = r.sight d now := by
  rw [filed, hmac]
  show (r.promote m).sight d now = _
  rw [Record.promote_of_mac hown]

theorem filed_none_of_mac (hmac : d.mac = some m) : filed d tagGen now none
    = (freshRecord (macKey m) (some m.toText) d tagGen now).sight d now := by
  rw [filed, hmac]
  exact congrArg (Record.sight · d now) (Record.promote_of_mac (Option.some_ne_none _))

theorem refile_self : refile c d tagGen now k k
    = update c k (some (filed d tagGen now (c k))) :=
  update_idem ..

/-- A record without MAC that competes for a sighting is the address's. -/
theorem WellFormed.mac_ne_none (hw : WellFormed c) (hk : c k = some r)
    (hip : r.lastIp = d.ip.toText) (hne : k ≠ ipKey d.ip) : r.mac ≠ none :=
  fun hnone => hne ((hw.key_of_mac_none hk hnone).trans hip)

theorem touch_mac_eq_filed (hw : WellFormed c) (hmac : d.mac = some m) :
    touch c (.mac m) d tagGen now = filed d tagGen now (c (macKey m)) := by
  cases hk : c (macKey m) with
  | none =>
    have htouch : touch c (.mac m) d tagGen now = _ := touch_of_none hk
    rw [filed_none_of_mac hmac, htouch]
    rfl
  | some r =>
    have hown : r.mac ≠ none := by
      rw [hw.mac_of_macKey hk]
      exact Option.some_ne_none _
    rw [filed_of_mac hmac hown]
    exact touch_of_some hk

/-- A sighting is the filing of one slot. -/
theorem sighting_iff_slot (hw : WellFormed c) :
    (∃ r', Sighting c d tagGen now c' r') ↔
      ∃ src dst, Slot c d src dst ∧ c' = refile c d tagGen now src dst := by
  constructor
  · rintro ⟨r', h⟩
    cases h with
    | @absorb k r m hmac hk hip hne hown =>
      have hkey : k ≠ ipKey d.ip := by
        rintro rfl
        exact hown (hw.mac_of_ipKey hk)
      refine ⟨k, k, .absorb hmac ⟨hne, r, hk, hip⟩ hkey, ?_⟩
      rw [refile_self, hk, filed_of_mac hmac hown]
    | @promote r m hmac hk =>
      refine ⟨_, _, .promote hmac ⟨(macKey_ne_ipKey _ _).symm, r, hk, hw.lastIp_of_ipKey hk⟩, ?_⟩
      rw [refile, hk, filed, hmac]
      rfl
    | @own m hmac hfree =>
      refine ⟨_, _, .own hmac ?_, ?_⟩
      · rintro k ⟨hne, r, hk, hip⟩
        exact hne (hfree k r hk hip)
      · rw [refile_self, touch_mac_eq_filed hw hmac]
    | anonymous hmac =>
      refine ⟨_, _, .anonymous hmac, ?_⟩
      rw [refile_self, filed, hmac]
      rfl
  · rintro ⟨src, dst, hslot, rfl⟩
    cases hslot with
    | absorb hmac hk hne =>
      obtain ⟨hkey, r, hk, hip⟩ := hk
      have hown := hw.mac_ne_none hk hip hne
      rw [refile_self, hk, filed_of_mac hmac hown]
      exact ⟨_, .absorb hmac hk hip hkey hown⟩
    | @promote m hmac hk =>
      obtain ⟨-, r, hk, -⟩ := hk
      rw [refile, hk, filed, hmac]
      exact ⟨_, .promote hmac hk⟩
    | @own m hmac hfree =>
      rw [refile_self, ← touch_mac_eq_filed hw hmac]
      refine ⟨_, .own hmac fun k r hk hip => ?_⟩
      by_contra hne
      exact hfree k ⟨hne, r, hk, hip⟩
    | anonymous hmac =>
      rw [refile_self, filed, hmac]
      exact ⟨_, .anonymous hmac⟩

/-! ## Independence -/

/-- Two devices of one scan: other addresses, other MACs. -/
structure Distinct (d₁ d₂ : Device) : Prop where
  ip : d₁.ip ≠ d₂.ip
  mac : ∀ m, d₁.mac = some m → d₂.mac ≠ some m

/-- If the record of the first device's MAC competes for the second device's
sighting, the first device's sighting is absorbed elsewhere and leaves that
record alone. -/
def Undisturbed (c : Contents) (d₁ d₂ : Device) : Prop :=
  ∀ m₁ m₂, d₁.mac = some m₁ → d₂.mac = some m₂ → Competes c m₂ d₂.ip (macKey m₁) →
    ∃ k, k ≠ ipKey d₁.ip ∧ Competes c m₁ d₁.ip k

/-- Neither sighting decides what the other finds. -/
structure Independent (c : Contents) (d₁ d₂ : Device) : Prop where
  decided₁ : Decided c d₁
  decided₂ : Decided c d₂
  undisturbed₁ : Undisturbed c d₁ d₂
  undisturbed₂ : Undisturbed c d₂ d₁

theorem Distinct.symm (h : Distinct d₁ d₂) : Distinct d₂ d₁ where
  ip := h.ip.symm
  mac := fun m h₂ h₁ => h.mac m h₁ h₂

theorem Independent.symm (h : Independent c d₁ d₂) : Independent c d₂ d₁ :=
  ⟨h.decided₂, h.decided₁, h.undisturbed₂, h.undisturbed₁⟩

/-- A record was last seen at one address only. -/
theorem Competes.disjoint {m' : MacAddr6} (hip : d₁.ip ≠ d₂.ip) (h : Competes c m d₁.ip k) :
    ¬ Competes c m' d₂.ip k := by
  rintro ⟨-, r₂, hk₂, hip₂⟩
  obtain ⟨-, r₁, hk₁, hip₁⟩ := h
  obtain rfl := Option.some.inj (hk₁.symm.trans hk₂)
  exact hip (Ipv4Addr.toText_inj (hip₁.symm.trans hip₂))

namespace Slot

/-- The keys of a slot: the device's own, or one that competes. -/
theorem keys (h : Slot c d src dst) (hk : k = src ∨ k = dst) :
    (∃ m, d.mac = some m ∧ (k = macKey m ∨ Competes c m d.ip k)) ∨
      (d.mac = none ∧ k = ipKey d.ip) := by
  cases h with
  | absorb hmac hcomp hne =>
    rcases hk with rfl | rfl <;> exact .inl ⟨_, hmac, .inr hcomp⟩
  | promote hmac hcomp =>
    rcases hk with rfl | rfl
    · exact .inl ⟨_, hmac, .inr hcomp⟩
    · exact .inl ⟨_, hmac, .inl rfl⟩
  | own hmac hfree =>
    rcases hk with rfl | rfl <;> exact .inl ⟨_, hmac, .inl rfl⟩
  | anonymous hmac =>
    rcases hk with rfl | rfl <;> exact .inr ⟨hmac, rfl⟩

/-- What an undisturbed device's sighting reads and writes does not compete for
the other sighting. -/
theorem not_competes (hw : WellFormed c) (hdist : Distinct d₁ d₂) (hdec : Decided c d₁)
    (hund : Undisturbed c d₁ d₂) (h : Slot c d₁ src dst) (hmac₂ : d₂.mac = some m)
    (hk : k = src ∨ k = dst) : ¬ Competes c m d₂.ip k := by
  intro hcomp₂
  cases h with
  | absorb hmac hcomp hne =>
    rcases hk with rfl | rfl <;> exact hcomp.disjoint hdist.ip hcomp₂
  | promote hmac hcomp =>
    rcases hk with rfl | rfl
    · exact hcomp.disjoint hdist.ip hcomp₂
    · obtain ⟨k, hne, hcomp'⟩ := hund _ _ hmac hmac₂ hcomp₂
      exact hne (hdec _ hmac _ _ hcomp' hcomp)
  | own hmac hfree =>
    rcases hk with rfl | rfl
    all_goals
      obtain ⟨k, -, hcomp'⟩ := hund _ _ hmac hmac₂ hcomp₂
      exact hfree k hcomp'
  | anonymous hmac =>
    obtain ⟨-, r, hr, hip⟩ := hcomp₂
    have hkey : k = ipKey d₁.ip := hk.elim id id
    subst hkey
    exact hdist.ip (Ipv4Addr.toText_inj ((hw.lastIp_of_ipKey hr).symm.trans hip))

/-- Independent sightings read and write under different keys. -/
theorem keys_ne (hw : WellFormed c) (hdist : Distinct d₁ d₂) (hind : Independent c d₁ d₂)
    (h₁ : Slot c d₁ src₁ dst₁) (h₂ : Slot c d₂ src₂ dst₂) {k₁ k₂ : String}
    (hk₁ : k₁ = src₁ ∨ k₁ = dst₁) (hk₂ : k₂ = src₂ ∨ k₂ = dst₂) : k₁ ≠ k₂ := by
  rintro rfl
  rcases h₁.keys hk₁ with ⟨m₁, hmac₁, hown₁⟩ | ⟨hnone₁, hip₁⟩
  · -- it does not compete for the first device, so it is the first device's own
    have hno₁ := h₂.not_competes hw hdist.symm hind.decided₂ hind.undisturbed₂ hmac₁ hk₂
    obtain rfl := hown₁.resolve_right hno₁
    rcases h₂.keys hk₂ with ⟨m₂, hmac₂, hown₂⟩ | ⟨-, hip₂⟩
    · have hno₂ := h₁.not_competes hw hdist hind.decided₁ hind.undisturbed₁ hmac₂ hk₁
      obtain rfl := macKey_inj (hown₂.resolve_right hno₂)
      exact hdist.mac _ hmac₁ hmac₂
    · exact macKey_ne_ipKey _ _ hip₂
  · subst hip₁
    rcases h₂.keys hk₂ with ⟨m₂, hmac₂, hown₂⟩ | ⟨-, hip₂⟩
    · have hno₂ := h₁.not_competes hw hdist hind.decided₁ hind.undisturbed₁ hmac₂ hk₁
      exact macKey_ne_ipKey _ _ (hown₂.resolve_right hno₂).symm
    · exact hdist.ip (Ipv4Addr.toText_inj hip₂)

end Slot

theorem filed_lastIp (old : Option Record) :
    (filed d tagGen now old).lastIp = d.ip.toText := by
  unfold filed
  cases d.mac <;> rfl

/-- Filing one sighting leaves what competes for an independent one. -/
theorem competes_refile_iff (hw : WellFormed c) (hdist : Distinct d₁ d₂) (hdec : Decided c d₁)
    (hund : Undisturbed c d₁ d₂) (h : Slot c d₁ src dst) (hmac₂ : d₂.mac = some m) :
    Competes (refile c d₁ tagGen now src dst) m d₂.ip k ↔ Competes c m d₂.ip k := by
  have hno : ∀ {k}, k = src ∨ k = dst → ¬ Competes c m d₂.ip k :=
    fun hk => h.not_competes hw hdist hdec hund hmac₂ hk
  constructor
  · rintro ⟨hne, r, hk, hip⟩
    rcases update_some_cases hk with ⟨-, rfl⟩ | ⟨-, hk⟩
    · rw [filed_lastIp] at hip
      exact absurd (Ipv4Addr.toText_inj hip) hdist.ip
    · exact ⟨hne, r, (update_none_cases hk).2, hip⟩
  · intro hcomp
    have hsrc : k ≠ src := fun hk => hno (.inl hk) hcomp
    have hdst : k ≠ dst := fun hk => hno (.inr hk) hcomp
    obtain ⟨hne, r, hk, hip⟩ := hcomp
    refine ⟨hne, r, ?_, hip⟩
    rw [refile, update_of_ne hdst, update_of_ne hsrc, hk]

/-- A slot depends only on what competes. -/
theorem Slot.congr (hcomp : ∀ m, d.mac = some m → ∀ k, Competes c m d.ip k ↔ Competes c' m d.ip k)
    (h : Slot c d src dst) : Slot c' d src dst := by
  cases h with
  | absorb hmac hk hne => exact .absorb hmac ((hcomp _ hmac _).mp hk) hne
  | promote hmac hk => exact .promote hmac ((hcomp _ hmac _).mp hk)
  | own hmac hfree => exact .own hmac fun k hk => hfree k ((hcomp _ hmac k).mpr hk)
  | anonymous hmac => exact .anonymous hmac

/-- **Sightings with separate slots commute.** -/
theorem refile_comm (h₁ : src₁ ≠ src₂) (h₂ : src₁ ≠ dst₂) (h₃ : dst₁ ≠ src₂) (h₄ : dst₁ ≠ dst₂) :
    refile (refile c d₁ tagGen now src₁ dst₁) d₂ tagGen now src₂ dst₂
      = refile (refile c d₂ tagGen now src₂ dst₂) d₁ tagGen now src₁ dst₁ := by
  have hread₂ : refile c d₁ tagGen now src₁ dst₁ src₂ = c src₂ := by
    rw [refile, update_of_ne h₃.symm, update_of_ne h₁.symm]
  have hread₁ : refile c d₂ tagGen now src₂ dst₂ src₁ = c src₁ := by
    rw [refile, update_of_ne h₂, update_of_ne h₁]
  rw [refile, hread₂]
  conv_rhs => rw [refile, hread₁]
  rw [refile, refile, update_comm h₃, update_comm h₁, update_comm h₄, update_comm h₂]

/-! ## Scans -/

/-- One sighting, on the contents of the registry. -/
def Sights (tagGen : String → String) (now : Nat) (c : Contents) (d : Device) (c' : Contents) :
    Prop :=
  ∃ r', Sighting c d tagGen now c' r'

theorem Slot.sights (h : Slot c d src dst) (hw : WellFormed c) (tagGen : String → String)
    (now : Nat) : Sights tagGen now c d (refile c d tagGen now src dst) :=
  (sighting_iff_slot hw).mpr ⟨src, dst, h, rfl⟩

theorem Sights.wellFormed (hw : WellFormed c) (h : Sights tagGen now c d c') : WellFormed c' := by
  obtain ⟨r', hsight⟩ := h
  exact hw.sighting hsight

/-- Devices of one scan whose sightings are pairwise independent. -/
structure ScanIndependent (c : Contents) (ds : List Device) : Prop where
  wellFormed : WellFormed c
  decided : ∀ d ∈ ds, Decided c d
  pairs : ds.Pairwise fun d₁ d₂ => Distinct d₁ d₂ ∧ Undisturbed c d₁ d₂ ∧ Undisturbed c d₂ d₁

/-- A sighting leaves what competes for the devices independent of it. -/
theorem Sights.competes_iff (hw : WellFormed c) (hdist : Distinct d₁ d₂) (hdec : Decided c d₁)
    (hund : Undisturbed c d₁ d₂) (h : Sights tagGen now c d₁ c') (hmac₂ : d₂.mac = some m) :
    Competes c' m d₂.ip k ↔ Competes c m d₂.ip k := by
  obtain ⟨src, dst, hslot, rfl⟩ := (sighting_iff_slot hw).mp h
  exact competes_refile_iff hw hdist hdec hund hslot hmac₂

theorem Undisturbed.congr (h : Undisturbed c d₁ d₂)
    (hcomp₁ : ∀ m, d₁.mac = some m → ∀ k, Competes c' m d₁.ip k ↔ Competes c m d₁.ip k)
    (hcomp₂ : ∀ m, d₂.mac = some m → ∀ k, Competes c' m d₂.ip k ↔ Competes c m d₂.ip k) :
    Undisturbed c' d₁ d₂ := by
  intro m₁ m₂ hmac₁ hmac₂ hcomp
  obtain ⟨k, hne, hk⟩ := h m₁ m₂ hmac₁ hmac₂ ((hcomp₂ m₂ hmac₂ _).mp hcomp)
  exact ⟨k, hne, (hcomp₁ m₁ hmac₁ k).mpr hk⟩

theorem ScanIndependent.rest {ds : List Device} (h : ScanIndependent c (d :: ds))
    (hstep : Sights tagGen now c d c') : ScanIndependent c' ds := by
  obtain ⟨hfirst, hpairs⟩ := List.pairwise_cons.mp h.pairs
  have hcomp : ∀ d' ∈ ds, ∀ m, d'.mac = some m → ∀ k,
      Competes c' m d'.ip k ↔ Competes c m d'.ip k := by
    intro d' hd' m hmac k
    obtain ⟨hdist, hund, -⟩ := hfirst d' hd'
    exact hstep.competes_iff h.wellFormed hdist (h.decided d List.mem_cons_self) hund hmac
  refine ⟨hstep.wellFormed h.wellFormed, fun d' hd' m hmac k₁ k₂ hk₁ hk₂ => ?_,
    hpairs.imp_of_mem ?_⟩
  · exact h.decided d' (List.mem_cons_of_mem d hd') m hmac k₁ k₂
      ((hcomp d' hd' m hmac k₁).mp hk₁) ((hcomp d' hd' m hmac k₂).mp hk₂)
  · rintro d₁ d₂ hd₁ hd₂ ⟨hdist, hund₁, hund₂⟩
    exact ⟨hdist, hund₁.congr (hcomp d₁ hd₁) (hcomp d₂ hd₂),
      hund₂.congr (hcomp d₂ hd₂) (hcomp d₁ hd₁)⟩

/-- Two sightings in a row, the other way round. -/
theorem Sights.swap (hw : WellFormed c) (hdist : Distinct d₁ d₂) (hind : Independent c d₁ d₂)
    (h₁ : Sights tagGen now c d₁ c₁) (h₂ : Sights tagGen now c₁ d₂ c₂) :
    ∃ c', Sights tagGen now c d₂ c' ∧ Sights tagGen now c' d₁ c₂ := by
  have hw₁ := h₁.wellFormed hw
  have hcomp₂ : ∀ m, d₂.mac = some m → ∀ k, Competes c₁ m d₂.ip k ↔ Competes c m d₂.ip k :=
    fun m hmac k => h₁.competes_iff hw hdist hind.decided₁ hind.undisturbed₁ hmac
  obtain ⟨src₁, dst₁, hslot₁, rfl⟩ := (sighting_iff_slot hw).mp h₁
  obtain ⟨src₂, dst₂, hslot₂, rfl⟩ := (sighting_iff_slot hw₁).mp h₂
  have hslot₂' : Slot c d₂ src₂ dst₂ := hslot₂.congr hcomp₂
  have hfirst := hslot₂'.sights hw tagGen now
  refine ⟨_, hfirst, ?_⟩
  have hslot₁' : Slot (refile c d₂ tagGen now src₂ dst₂) d₁ src₁ dst₁ :=
    hslot₁.congr fun m hmac k =>
      (hfirst.competes_iff hw hdist.symm hind.decided₂ hind.undisturbed₂ hmac).symm
  refine (sighting_iff_slot (hfirst.wellFormed hw)).mpr ⟨_, _, hslot₁', ?_⟩
  have hkeys : ∀ {k₁ k₂}, (k₁ = src₁ ∨ k₁ = dst₁) → (k₂ = src₂ ∨ k₂ = dst₂) → k₁ ≠ k₂ :=
    fun hk₁ hk₂ => hslot₁.keys_ne hw hdist hind hslot₂' hk₁ hk₂
  exact refile_comm (hkeys (.inl rfl) (.inl rfl)) (hkeys (.inl rfl) (.inr rfl))
    (hkeys (.inr rfl) (.inl rfl)) (hkeys (.inr rfl) (.inr rfl))

/-- The sightings of a scan commute. -/
theorem scan_commuting (tagGen : String → String) (now : Nat) :
    Commuting (Sights tagGen now) ScanIndependent where
  perm := by
    intro c ds ds' hperm h
    refine ⟨h.wellFormed, fun d hd => h.decided d (hperm.mem_iff.mpr hd), ?_⟩
    refine (hperm.pairwise_iff ?_).mp h.pairs
    rintro d₁ d₂ ⟨hdist, hund₁, hund₂⟩
    exact ⟨hdist.symm, hund₂, hund₁⟩
  rest := fun h hstep => h.rest hstep
  unique := by
    rintro c d ds c₁ c₂ h ⟨r₁, h₁⟩ ⟨r₂, h₂⟩
    exact (h₁.unique h.wellFormed (h.decided d List.mem_cons_self) h₂).1
  swap := by
    intro c d₁ d₂ ds c₁ c₂ h h₁ h₂
    obtain ⟨hdist, hund₁, hund₂⟩ := (List.pairwise_cons.mp h.pairs).1 d₂ List.mem_cons_self
    exact h₁.swap h.wellFormed hdist ⟨h.decided d₁ List.mem_cons_self,
      h.decided d₂ (List.mem_cons_of_mem d₁ List.mem_cons_self), hund₁, hund₂⟩ h₂

/-! ## The store performs scans -/

/-- The calls of a scan. -/
def scanOps (ds : List Device) (tagGen : String → String) (now : Nat) : List Store.Op :=
  ds.map fun d => .upsert d tagGen now

variable {s t : Store} {ops : List Store.Op} {ds : List Device}

/-- What a scan does to the store is a run of sightings. -/
theorem scan_run (hw : WellFormed s.contents)
    (h : Run Store.Step s (scanOps ds tagGen now) t) :
    Run (Sights tagGen now) s.contents ds t.contents := by
  induction ds generalizing s with
  | nil =>
    rw [Run.nil_iff.mp h]
    exact .nil
  | cons d ds ih =>
    obtain ⟨u, hstep, hrest⟩ := Run.cons_iff.mp h
    have hu := ih (hw.step hstep) hrest
    cases hstep.transition hw with
    | sighting hsight => exact Run.cons_iff.mpr ⟨_, ⟨_, hsight⟩, hu⟩

/-- Every run of sightings is what a scan does in some iteration orders. -/
theorem exists_scan_run (hw : WellFormed s.contents)
    (h : Run (Sights tagGen now) s.contents ds c') :
    ∃ t, Run Store.Step s (scanOps ds tagGen now) t ∧ t.contents = c' := by
  induction ds generalizing s with
  | nil => exact ⟨s, .nil, (Run.nil_iff.mp h).symm⟩
  | cons d ds ih =>
    obtain ⟨c₁, ⟨r', hsight⟩, hrest⟩ := Run.cons_iff.mp h
    obtain ⟨s', hsame, hc, -⟩ := Store.exists_upsert_of_sighting hw hsight
    have hstep : Store.Step s (.upsert d tagGen now) (s'.upsert d tagGen now).1 :=
      ⟨s', hsame, SameEntries.refl _⟩
    obtain ⟨t, hrun, ht⟩ := ih (hw.step hstep) (hc ▸ hrest)
    exact ⟨t, Run.cons_iff.mpr ⟨_, hstep, hrun⟩, ht⟩

/-! ## Dependent sightings do not commute -/

/-- There always is a slot. -/
theorem exists_slot (c : Contents) (d : Device) : ∃ src dst, Slot c d src dst := by
  cases hmac : d.mac with
  | none => exact ⟨_, _, .anonymous hmac⟩
  | some m =>
    by_cases hcomp : ∃ k, Competes c m d.ip k
    · obtain ⟨k, hk⟩ := hcomp
      by_cases hne : k = ipKey d.ip
      · exact ⟨_, _, .promote hmac (hne ▸ hk)⟩
      · exact ⟨_, _, .absorb hmac hk hne⟩
    · exact ⟨_, _, .own hmac fun k hk => hcomp ⟨k, hk⟩⟩

theorem exists_sights (hw : WellFormed c) (d : Device) (tagGen : String → String) (now : Nat) :
    ∃ c', Sights tagGen now c d c' := by
  obtain ⟨src, dst, hslot⟩ := exists_slot c d
  exact ⟨_, hslot.sights hw tagGen now⟩

/-- A record under another key, last seen at another address, stays. -/
theorem Sights.frame (hw : WellFormed c) (h : Sights tagGen now c d c') (hmac : d.mac = some m)
    (hkey : k ≠ macKey m) (hip : ∀ r, c k = some r → r.lastIp ≠ d.ip.toText) : c' k = c k := by
  obtain ⟨r', h⟩ := h
  cases h with
  | @absorb k' r _ _ hk hlast _ _ =>
    refine update_of_ne ?_ _ _
    rintro rfl
    exact hip r hk hlast
  | promote hmac' hk =>
    obtain rfl := Option.some.inj (hmac.symm.trans hmac')
    have hsrc : k ≠ ipKey d.ip := by
      rintro rfl
      exact hip _ hk (hw.lastIp_of_ipKey hk)
    rw [update_of_ne hkey, update_of_ne hsrc]
  | own hmac' _ =>
    obtain rfl := Option.some.inj (hmac.symm.trans hmac')
    exact update_of_ne hkey _ _
  | anonymous hnone => exact nomatch hmac.symm.trans hnone

/-- If the order does not matter, only one record competes. -/
theorem decided_of_commute (hw : WellFormed c) (hip : d₁.ip ≠ d₂.ip) (hmac₂ : d₂.mac = some m)
    (hall : ∀ c₁₂ c₂₁, Run (Sights tagGen now) c [d₁, d₂] c₁₂ →
      Run (Sights tagGen now) c [d₂, d₁] c₂₁ → c₁₂ = c₂₁) : Decided c d₁ := by
  -- of two competing records one is not that of the second device's MAC
  suffices hdiffer : ∀ m₁, d₁.mac = some m₁ → ∀ k k', Competes c m₁ d₁.ip k →
      Competes c m₁ d₁.ip k' → k ≠ k' → k ≠ macKey m → False by
    intro m₁ hmac₁ k₁ k₂ hk₁ hk₂
    by_contra hne
    by_cases hkey : k₁ = macKey m
    · exact hdiffer m₁ hmac₁ k₂ k₁ hk₂ hk₁ (Ne.symm hne) fun h => hne (hkey.trans h.symm)
    · exact hdiffer m₁ hmac₁ k₁ k₂ hk₁ hk₂ hne hkey
  intro m₁ hmac₁ k k' hk hk' hne hkey
  obtain ⟨c₁, r₁, hs₁, hchanged, -⟩ := hk.exists_sighting hw hmac₁ tagGen now
  obtain ⟨c₁', r₁', hs₁', -, hkept⟩ := hk'.exists_sighting hw hmac₁ tagGen now
  obtain ⟨c₁₂, h₁₂⟩ := exists_sights (hw.sighting hs₁) d₂ tagGen now
  obtain ⟨c₁₂', h₁₂'⟩ := exists_sights (hw.sighting hs₁') d₂ tagGen now
  obtain ⟨c₂, h₂⟩ := exists_sights hw d₂ tagGen now
  obtain ⟨c₂₁, h₂₁⟩ := exists_sights (h₂.wellFormed hw) d₁ tagGen now
  have hrun : Run (Sights tagGen now) c [d₂, d₁] c₂₁ :=
    Run.cons_iff.mpr ⟨c₂, h₂, Run.single h₂₁⟩
  have hsame : c₁₂ = c₁₂' :=
    (hall _ _ (Run.cons_iff.mpr ⟨c₁, ⟨r₁, hs₁⟩, Run.single h₁₂⟩) hrun).trans
      (hall _ _ (Run.cons_iff.mpr ⟨c₁', ⟨r₁', hs₁'⟩, Run.single h₁₂'⟩) hrun).symm
  -- the second sighting leaves the record under `k` in both cases
  obtain ⟨hown, r, hr, hlast⟩ := hk
  have hframe : c₁₂ k = c₁ k := by
    refine h₁₂.frame (hw.sighting hs₁) hmac₂ hkey fun r' hr' hlast' => hip ?_
    rcases hs₁.entry hr' with rfl | hr'
    · exact Ipv4Addr.toText_inj (hs₁.lastIp.symm.trans hlast')
    · obtain rfl := Option.some.inj (hr.symm.trans hr')
      exact Ipv4Addr.toText_inj (hlast.symm.trans hlast')
  have hframe' : c₁₂' k = c k := by
    rw [← (hkept k hne hown).1]
    refine h₁₂'.frame (hw.sighting hs₁') hmac₂ hkey fun r' hr' hlast' => hip ?_
    rw [(hkept k hne hown).1, hr] at hr'
    obtain rfl := Option.some.inj hr'
    exact Ipv4Addr.toText_inj (hlast.symm.trans hlast')
  exact hchanged (hframe.symm.trans ((congrFun hsame k).trans hframe'))

theorem filed_ne_self (hw : WellFormed c) (hmac : d.mac = some m) :
    some (filed d tagGen now (c (macKey m))) ≠ c (macKey m) := by
  cases hk : c (macKey m) with
  | none => exact Option.some_ne_none _
  | some r =>
    have hown : r.mac ≠ none := by
      rw [hw.mac_of_macKey hk]
      exact Option.some_ne_none _
    rw [filed_of_mac hmac hown]
    exact fun h => Record.sight_ne (Option.some.inj h)

/-- If the order does not matter, the first device does not take a record away
from the second. -/
theorem undisturbed_of_commute (hw : WellFormed c) (hdist : Distinct d₁ d₂)
    (hdec : Decided c d₂)
    (hall : ∀ c₁₂ c₂₁, Run (Sights tagGen now) c [d₁, d₂] c₁₂ →
      Run (Sights tagGen now) c [d₂, d₁] c₂₁ → c₁₂ = c₂₁) : Undisturbed c d₁ d₂ := by
  intro m₁ m₂ hmac₁ hmac₂ hcomp
  by_contra hmoves
  have hne : macKey m₂ ≠ macKey m₁ := hcomp.1.symm
  -- the second device first: its sighting goes into the record of the first one's MAC
  have hslot₂ : Slot c d₂ (macKey m₁) (macKey m₁) :=
    .absorb hmac₂ hcomp (macKey_ne_ipKey m₁ d₂.ip)
  have h₂ := hslot₂.sights hw tagGen now
  obtain ⟨c₂₁, h₂₁⟩ := exists_sights (h₂.wellFormed hw) d₁ tagGen now
  have hread : refile c d₂ tagGen now (macKey m₁) (macKey m₁) (macKey m₂) = c (macKey m₂) := by
    rw [refile_self, update_of_ne hne]
  have hkept : c₂₁ (macKey m₂) = c (macKey m₂) := by
    refine (h₂₁.frame (h₂.wellFormed hw) hmac₁ hne fun r hr hlast => hmoves ?_).trans hread
    exact ⟨macKey m₂, macKey_ne_ipKey m₂ d₁.ip, hne, r, hread.symm.trans hr, hlast⟩
  -- the first device first: it moves that record, and the second makes its own
  obtain ⟨src, dst, hslot₁⟩ := exists_slot c d₁
  have h₁ := hslot₁.sights hw tagGen now
  have hkeys : dst = macKey m₁ ∧ (src = macKey m₁ ∨ src = ipKey d₁.ip) := by
    cases hslot₁ with
    | absorb hmac hk hkey =>
      obtain rfl := Option.some.inj (hmac₁.symm.trans hmac)
      exact absurd ⟨_, hkey, hk⟩ hmoves
    | promote hmac _ =>
      obtain rfl := Option.some.inj (hmac₁.symm.trans hmac)
      exact ⟨rfl, .inr rfl⟩
    | own hmac _ =>
      obtain rfl := Option.some.inj (hmac₁.symm.trans hmac)
      exact ⟨rfl, .inl rfl⟩
    | anonymous hnone => exact nomatch hmac₁.symm.trans hnone
  obtain ⟨rfl, hsrc⟩ := hkeys
  have hfree : ∀ k, ¬ Competes (refile c d₁ tagGen now src (macKey m₁)) m₂ d₂.ip k := by
    rintro k ⟨hkey, r, hk, hlast⟩
    rcases update_some_cases hk with ⟨-, rfl⟩ | ⟨hother, hk⟩
    · rw [filed_lastIp] at hlast
      exact hdist.ip (Ipv4Addr.toText_inj hlast)
    · exact hother (hdec m₂ hmac₂ _ _ ⟨hkey, r, (update_none_cases hk).2, hlast⟩ hcomp)
  have hread₁ : refile c d₁ tagGen now src (macKey m₁) (macKey m₂) = c (macKey m₂) := by
    have hsrc₂ : macKey m₂ ≠ src := by
      rcases hsrc with rfl | rfl
      · exact hne
      · exact macKey_ne_ipKey m₂ d₁.ip
    rw [refile, update_of_ne hne, update_of_ne hsrc₂]
  have h₁₂ := (Slot.own hmac₂ hfree).sights (h₁.wellFormed hw) tagGen now
  have hsame := hall _ _ (Run.cons_iff.mpr ⟨_, h₁, Run.single h₁₂⟩)
    (Run.cons_iff.mpr ⟨_, h₂, Run.single h₂₁⟩)
  have hown := congrFun hsame (macKey m₂)
  rw [refile_self, update_self, hkept, hread₁] at hown
  exact filed_ne_self hw hmac₂ hown

/-! ## The order of a scan -/

theorem Independent.scan (hw : WellFormed c) (hdist : Distinct d₁ d₂)
    (h : Independent c d₁ d₂) : ScanIndependent c [d₁, d₂] where
  wellFormed := hw
  decided := by
    intro d hd
    rcases List.mem_cons.mp hd with rfl | hd
    · exact h.decided₁
    · rw [List.mem_singleton.mp hd]
      exact h.decided₂
  pairs := List.pairwise_pair.mpr ⟨hdist, h.undisturbed₁, h.undisturbed₂⟩

/-- The sightings of a scan in two orders lead to the same store. -/
theorem ScanIndependent.sameEntries {ds' : List Device} {t' : Store}
    (h : ScanIndependent s.contents ds) (hperm : ds.Perm ds')
    (hrun : Run Store.Step s (scanOps ds tagGen now) t)
    (hrun' : Run Store.Step s (scanOps ds' tagGen now) t') :
    SameEntries t.records t'.records := by
  have hc := scan_commuting tagGen now
  have hrun₁ := hc.run_perm hperm h (scan_run h.wellFormed hrun)
  have hrun₂ := scan_run h.wellFormed hrun'
  exact sameEntries_iff.mpr (hc.run_unique (hc.perm hperm h) hrun₁ hrun₂)

/-- **The order of a scan**: in a reachable store, two devices with different
MACs and addresses may be upserted in either order, whatever the iteration
orders, iff they are independent; and any devices that are pairwise so may be
upserted in any order. -/
theorem scan_order_law (h : Store.Reaches ops s) (tagGen : String → String) (now : Nat) :
    (∀ d₁ d₂ m₁ m₂, d₁.mac = some m₁ → d₂.mac = some m₂ → m₁ ≠ m₂ → d₁.ip ≠ d₂.ip →
      ((∀ t t', Run Store.Step s (scanOps [d₁, d₂] tagGen now) t →
          Run Store.Step s (scanOps [d₂, d₁] tagGen now) t' → SameEntries t.records t'.records) ↔
        Independent s.contents d₁ d₂)) ∧
    ∀ ds ds' : List Device, ds.Perm ds' → (∀ d ∈ ds, Decided s.contents d) →
      (ds.Pairwise fun d₁ d₂ => Distinct d₁ d₂ ∧ Independent s.contents d₁ d₂) →
      ∀ t t', Run Store.Step s (scanOps ds tagGen now) t →
        Run Store.Step s (scanOps ds' tagGen now) t' → SameEntries t.records t'.records := by
  have hw := h.wellFormed
  refine ⟨fun d₁ d₂ m₁ m₂ hmac₁ hmac₂ hm hip => ?_,
    fun ds ds' hperm hdec hpairs t t' hrun hrun' => ?_⟩
  · have hdist : Distinct d₁ d₂ :=
      ⟨hip, fun m h₁ h₂ => hm ((Option.some.inj (hmac₁.symm.trans h₁)).trans
        (Option.some.inj (hmac₂.symm.trans h₂)).symm)⟩
    constructor
    · intro hall
      have hlift : ∀ c₁₂ c₂₁, Run (Sights tagGen now) s.contents [d₁, d₂] c₁₂ →
          Run (Sights tagGen now) s.contents [d₂, d₁] c₂₁ → c₁₂ = c₂₁ := by
        intro c₁₂ c₂₁ h₁₂ h₂₁
        obtain ⟨t, hrun, rfl⟩ := exists_scan_run hw h₁₂
        obtain ⟨t', hrun', rfl⟩ := exists_scan_run hw h₂₁
        exact sameEntries_iff.mp (hall t t' hrun hrun')
      have hlift' := fun c₁₂ c₂₁ h₁₂ h₂₁ => (hlift c₂₁ c₁₂ h₂₁ h₁₂).symm
      have hdec₁ := decided_of_commute hw hip hmac₂ hlift
      have hdec₂ := decided_of_commute hw hip.symm hmac₁ hlift'
      exact ⟨hdec₁, hdec₂, undisturbed_of_commute hw hdist hdec₂ hlift,
        undisturbed_of_commute hw hdist.symm hdec₁ hlift'⟩
    · intro hind t t' hrun hrun'
      exact (hind.scan hw hdist).sameEntries (List.Perm.swap d₂ d₁ []) hrun hrun'
  · have hscan : ScanIndependent s.contents ds :=
      ⟨hw, hdec, hpairs.imp fun ⟨hdist, hind⟩ => ⟨hdist, hind.undisturbed₁, hind.undisturbed₂⟩⟩
    exact hscan.sameEntries hperm hrun hrun'

/-- The laptop moved to the sofa and the phone took its place at the desk. With
the laptop first there are two records, with the phone first there is one. -/
theorem scan_order_matters :
    Store.Reaches [.arp desk laptop 0] (.ofOps [.arp desk laptop 0]) ∧
      (∃ t t', Run Store.Step (.ofOps [.arp desk laptop 0])
          (scanOps [.ofArpEntry ⟨sofa, laptop⟩, .ofArpEntry ⟨desk, phone⟩] Namer.generate 1) t ∧
        Run Store.Step (.ofOps [.arp desk laptop 0])
          (scanOps [.ofArpEntry ⟨desk, phone⟩, .ofArpEntry ⟨sofa, laptop⟩] Namer.generate 1) t' ∧
        ¬ SameEntries t.records t'.records) := by
  refine ⟨Store.reaches_ofOps _, _, _, Store.run_foldl _ _, Store.run_foldl _ _, fun hsame => ?_⟩
  have hphone := congrFun (sameEntries_iff.mp hsame) (macKey phone)
  revert hphone
  decide

/-- A laptop at the desk, and an address without a MAC at the sofa. -/
def homeOps : List Store.Op := [.arp desk laptop 0, .sweep sofa 1]

/-- An address at which nobody was recorded. -/
def shelf : Ipv4Addr := ⟨192, 168, 1, 30⟩

/-- The phone takes over the record at the sofa, and the laptop moves from the desk to a free
address: they may come in either order. -/
theorem scan_order_irrelevant_at_home :
    SameEntries
      (scanOps [.ofArpEntry ⟨sofa, phone⟩, .ofArpEntry ⟨shelf, laptop⟩] Namer.generate 2
        |>.foldl Store.apply (.ofOps homeOps)).records
      (scanOps [.ofArpEntry ⟨shelf, laptop⟩, .ofArpEntry ⟨sofa, phone⟩] Namer.generate 2
        |>.foldl Store.apply (.ofOps homeOps)).records := by
  have hreach := Store.reaches_ofOps homeOps
  have hsofa : ∀ {m k}, Competes (Store.ofOps homeOps).contents m sofa k → k = ipKey sofa := by
    have hall : ∀ r ∈ values (Store.ofOps homeOps).records, r.lastIp = sofa.toText →
        r.key = ipKey sofa := by decide
    intro m k h
    obtain ⟨r, hr, rfl, hip⟩ := h.exists_value hreach.wellFormed
    exact hall r hr hip
  have hshelf : ∀ {m k}, ¬ Competes (Store.ofOps homeOps).contents m shelf k := by
    have hall : ∀ r ∈ values (Store.ofOps homeOps).records, r.lastIp ≠ shelf.toText := by decide
    intro m k h
    obtain ⟨r, hr, -, hip⟩ := h.exists_value hreach.wellFormed
    exact hall r hr hip
  have hind : Independent (Store.ofOps homeOps).contents (.ofArpEntry ⟨sofa, phone⟩)
      (.ofArpEntry ⟨shelf, laptop⟩) :=
    ⟨fun _ _ _ _ h₁ h₂ => (hsofa h₁).trans (hsofa h₂).symm, fun _ _ _ _ h₁ _ => absurd h₁ hshelf,
      fun _ _ _ _ h => absurd h hshelf,
      fun m _ _ _ h => absurd (hsofa h) (macKey_ne_ipKey m sofa)⟩
  exact ((scan_order_law hreach Namer.generate 2).1 (.ofArpEntry ⟨sofa, phone⟩)
    (.ofArpEntry ⟨shelf, laptop⟩) phone laptop rfl rfl (by decide) (by decide)).mpr hind _ _
    (Store.run_foldl _ _) (Store.run_foldl _ _)

end Gannet
