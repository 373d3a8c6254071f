import Gannet.Identity.Store

/-!
# What one sighting does to the registry

The registry is meant to hold one record per *identity*: a MAC, or an address
for a device whose MAC is not known. `WellFormed` says that every record is
filed under the key of the identity it describes, and `Sighting` is the
registry's meaning, iteration order aside: the states a sighting may lead to,
with the record it went into.

- `upsert_sighting`: whatever the iteration order, `Store.upsert` performs a
  `Sighting`.
- `exists_upsert_of_sighting`: every `Sighting` is what `Store.upsert` performs
  in some iteration order.

So `Sighting` is exactly `upsert` as its caller can observe it; everything
about runs of the store is proved on `Sighting`.
-/

namespace Gannet

open KeyMap Function

/-! ## Identities and keys -/

/-- Who a record is about. -/
inductive Identity where
  | mac (m : MacAddr6)
  | addr (ip : Ipv4Addr)
deriving DecidableEq, Repr

namespace Identity

/-- The key its record is filed under. -/
def key : Identity → String
  | mac m => macKey m
  | addr ip => ipKey ip

/-- The `mac` field of the identity's record. -/
def macText : Identity → Option String
  | mac m => some m.toText
  | addr _ => none

end Identity

theorem macKey_inj {m n : MacAddr6} (h : macKey m = macKey n) : m = n := by
  have hchars := String.ofList_inj.mp h
  refine MacAddr6.eq_of_bytes Text.hex2 Text.hex2_inj ?_
  simp [MacAddr6.asBytes, Text.hex2] at hchars ⊢
  tauto

/-- A hex key has no dot. -/
theorem macKey_ne_ipKey (m : MacAddr6) (ip : Ipv4Addr) : macKey m ≠ ipKey ip := by
  intro h
  have hdot : '.' ∈ (macKey m).toList := by
    rw [h]
    exact ip.dot_mem_toText
  rw [macKey, String.toList_ofList, List.mem_flatMap] at hdot
  obtain ⟨b, -, hb⟩ := hdot
  exact Text.dot_notMem_hex2 b hb

/-- Different identities have different keys. -/
theorem Identity.key_inj {i j : Identity} (h : i.key = j.key) : i = j := by
  cases i with
  | mac m =>
    cases j with
    | mac n => rw [macKey_inj h]
    | addr ip => exact absurd h (macKey_ne_ipKey m ip)
  | addr ip =>
    cases j with
    | mac m => exact absurd h.symm (macKey_ne_ipKey m ip)
    | addr ip' => rw [Ipv4Addr.toText_inj h]

/-! ## Well-formed registries -/

/-- The registry as a function from keys, whatever the order of its map. -/
abbrev Contents := String → Option Record

/-- The record is about `id`, and its address history is coherent. -/
structure Record.Describes (r : Record) (id : Identity) : Prop where
  key : r.key = id.key
  mac : r.mac = id.macText
  lastIp_mem : r.lastIp ∈ r.ips
  ips_nodup : r.ips.Nodup
  addr : ∀ ip, id = .addr ip → r.lastIp = id.key ∧ r.ips = [id.key]

/-- Every record is filed under the key of the identity it describes. -/
def WellFormed (c : Contents) : Prop :=
  ∀ k r, c k = some r → ∃ id : Identity, k = id.key ∧ r.Describes id

theorem wellFormed_empty : WellFormed fun _ => none := fun _ _ h => nomatch h

namespace WellFormed

variable {c : Contents} {k : String} {r : Record}

theorem key_eq (hw : WellFormed c) (hk : c k = some r) : r.key = k := by
  obtain ⟨id, rfl, hd⟩ := hw k r hk
  exact hd.key

/-- What is filed under an identity's key describes that identity. -/
theorem describes (hw : WellFormed c) (id : Identity) (hk : c id.key = some r) :
    r.Describes id := by
  obtain ⟨id', hid, hd⟩ := hw _ r hk
  rw [Identity.key_inj hid]
  exact hd

theorem mac_of_macKey (hw : WellFormed c) {m : MacAddr6} (hk : c (macKey m) = some r) :
    r.mac = some m.toText :=
  (hw.describes (.mac m) hk).mac

theorem mac_of_ipKey (hw : WellFormed c) {ip : Ipv4Addr} (hk : c (ipKey ip) = some r) :
    r.mac = none :=
  (hw.describes (.addr ip) hk).mac

theorem lastIp_of_ipKey (hw : WellFormed c) {ip : Ipv4Addr} (hk : c (ipKey ip) = some r) :
    r.lastIp = ip.toText :=
  ((hw.describes (.addr ip) hk).addr ip rfl).1

/-- A record without MAC is filed under the address it was last seen at. -/
theorem key_of_mac_none (hw : WellFormed c) (hk : c k = some r) (hmac : r.mac = none) :
    k = r.lastIp := by
  obtain ⟨id, rfl, hd⟩ := hw k r hk
  cases id with
  | mac m => exact absurd (hd.mac.symm.trans hmac) (Option.some_ne_none _)
  | addr ip => exact (hd.addr ip rfl).1.symm

/-- A record with a MAC is filed under that MAC. -/
theorem key_of_mac (hw : WellFormed c) (hk : c k = some r) {m : MacAddr6}
    (hmac : r.mac = some m.toText) : k = macKey m := by
  obtain ⟨id, rfl, hd⟩ := hw k r hk
  cases id with
  | mac n =>
    have htext : n.toText = m.toText := Option.some.inj (hd.mac.symm.trans hmac)
    rw [MacAddr6.toText_inj htext]
    rfl
  | addr ip => exact absurd (hd.mac.symm.trans hmac).symm (Option.some_ne_none _)

/-- A record that has a MAC is filed under some MAC. -/
theorem exists_mac (hw : WellFormed c) (hk : c k = some r) (hmac : r.mac ≠ none) :
    ∃ m : MacAddr6, k = macKey m ∧ r.mac = some m.toText := by
  obtain ⟨id, rfl, hd⟩ := hw k r hk
  cases id with
  | mac m => exact ⟨m, rfl, hd.mac⟩
  | addr ip => exact absurd hd.mac hmac

/-- Filing a record under the identity it describes keeps the registry
well formed. -/
theorem update (hw : WellFormed c) (id : Identity) (hd : r.Describes id) :
    WellFormed (Function.update c id.key (some r)) := by
  intro k' r' hk'
  rcases update_some_cases hk' with ⟨rfl, rfl⟩ | ⟨-, hk'⟩
  · exact ⟨id, rfl, hd⟩
  · exact hw k' r' hk'

theorem update_none (hw : WellFormed c) : WellFormed (Function.update c k none) := by
  intro k' r' hk'
  exact hw k' r' (update_none_cases hk').2

end WellFormed

/-! ## The sighted record -/

namespace Record

variable {r : Record} {d : Device} {now : Nat}

@[simp] theorem sight_key : (r.sight d now).key = r.key := rfl
@[simp] theorem sight_mac : (r.sight d now).mac = r.mac := rfl
@[simp] theorem sight_tag : (r.sight d now).tag = r.tag := rfl
@[simp] theorem sight_firstSeen : (r.sight d now).firstSeen = r.firstSeen := rfl
@[simp] theorem sight_lastIp : (r.sight d now).lastIp = d.ip.toText := rfl
@[simp] theorem sight_lastSeen : (r.sight d now).lastSeen = now := rfl
@[simp] theorem sight_seenCount : (r.sight d now).seenCount = r.seenCount + 1 := rfl
@[simp] theorem sight_services :
    (r.sight d now).services = mergeStringVec r.services d.services := rfl
@[simp] theorem sight_category :
    (r.sight d now).category = mergeCategory r.category d.category := rfl

theorem ip_mem_sight_ips : d.ip.toText ∈ (r.sight d now).ips := by
  show d.ip.toText ∈ (if d.ip.toText ∈ r.ips then r.ips else r.ips ++ [d.ip.toText])
  by_cases h : d.ip.toText ∈ r.ips
  · rw [if_pos h]
    exact h
  · rw [if_neg h]
    exact List.mem_append_right _ List.mem_cons_self

theorem ips_subset_sight : r.ips ⊆ (r.sight d now).ips := by
  show r.ips ⊆ (if d.ip.toText ∈ r.ips then r.ips else r.ips ++ [d.ip.toText])
  by_cases h : d.ip.toText ∈ r.ips
  · rw [if_pos h]
    exact List.Subset.refl _
  · rw [if_neg h]
    exact List.subset_append_left _ _

theorem sight_ips_nodup (h : r.ips.Nodup) : (r.sight d now).ips.Nodup := by
  show (if d.ip.toText ∈ r.ips then r.ips else r.ips ++ [d.ip.toText]).Nodup
  by_cases hmem : d.ip.toText ∈ r.ips
  · rw [if_pos hmem]
    exact h
  · rw [if_neg hmem]
    exact List.Nodup.append h (List.nodup_singleton _)
      (fun x hx hx' => hmem (List.mem_singleton.mp hx' ▸ hx))

/-- A sighting always changes the record: it is counted. -/
theorem sight_ne : r.sight d now ≠ r := by
  intro h
  have hcount : r.seenCount + 1 = r.seenCount := congrArg Record.seenCount h
  have hnat := congrArg UInt32.toNat hcount
  have hlt := r.seenCount.toNat_lt
  simp only [UInt32.toNat_add, UInt32.toNat_one] at hnat
  omega

theorem promote_of_none {m : MacAddr6} (h : r.mac = none) :
    r.promote m = { r with mac := some m.toText, key := macKey m } := by
  rw [promote, h]
  rfl

theorem promote_of_mac {m : MacAddr6} (h : r.mac ≠ none) : r.promote m = r := by
  rw [promote, if_neg]
  rwa [Option.isNone_iff_eq_none]

/-- A record with a MAC stays about that MAC when it is sighted. -/
theorem Describes.sight_mac {m : MacAddr6} (h : r.Describes (.mac m)) :
    (r.sight d now).Describes (.mac m) where
  key := h.key
  mac := h.mac
  lastIp_mem := ip_mem_sight_ips
  ips_nodup := sight_ips_nodup h.ips_nodup
  addr := fun _ hid => nomatch hid

/-- A record about an address, sighted at that address. -/
theorem Describes.sight_addr (h : r.Describes (.addr d.ip)) :
    (r.sight d now).Describes (.addr d.ip) where
  key := h.key
  mac := h.mac
  lastIp_mem := ip_mem_sight_ips
  ips_nodup := sight_ips_nodup h.ips_nodup
  addr := by
    intro ip hid
    have hips : r.ips = [d.ip.toText] := (h.addr d.ip rfl).2
    have hsame : (r.sight d now).ips = r.ips := by
      show (if d.ip.toText ∈ r.ips then r.ips else r.ips ++ [d.ip.toText]) = r.ips
      rw [if_pos (by rw [hips]; exact List.mem_cons_self)]
    exact ⟨rfl, hsame.trans hips⟩

/-- A promoted record is about the MAC it was promoted to. -/
theorem Describes.promote {ip : Ipv4Addr} {m : MacAddr6} (h : r.Describes (.addr ip)) :
    (r.promote m).Describes (.mac m) := by
  rw [promote_of_none h.mac]
  exact ⟨rfl, rfl, h.lastIp_mem, h.ips_nodup, fun _ hid => nomatch hid⟩

end Record

/-- The record a sighting finds or creates under its own key, sighted. -/
def touch (c : Contents) (id : Identity) (d : Device) (tagGen : String → String)
    (now : Nat) : Record :=
  ((c id.key).getD (freshRecord id.key id.macText d tagGen now)).sight d now

/-- A sighting that finds its record. -/
theorem touch_of_some {c : Contents} {id : Identity} {d : Device} {tagGen : String → String}
    {now : Nat} {r : Record} (hk : c id.key = some r) :
    touch c id d tagGen now = r.sight d now := by
  rw [touch, hk, Option.getD_some]

/-- A sighting that creates its record. -/
theorem touch_of_none {c : Contents} {id : Identity} {d : Device} {tagGen : String → String}
    {now : Nat} (hk : c id.key = none) :
    touch c id d tagGen now = (freshRecord id.key id.macText d tagGen now).sight d now := by
  rw [touch, hk, Option.getD_none]

theorem freshRecord_describes (id : Identity) {d : Device} {tagGen : String → String}
    {now : Nat} (hid : ∀ ip, id = .addr ip → ip = d.ip) :
    (freshRecord id.key id.macText d tagGen now).Describes id where
  key := rfl
  mac := rfl
  lastIp_mem := List.mem_cons_self
  ips_nodup := List.nodup_singleton _
  addr := by
    rintro ip rfl
    rw [hid ip rfl]
    exact ⟨rfl, rfl⟩

/-! ## Sightings -/

/-- What one sighting may do. -/
inductive Sighting (c : Contents) (d : Device) (tagGen : String → String) (now : Nat) :
    Contents → Record → Prop where
  /-- A record of another MAC, last seen at the address, absorbs the sighting. -/
  | absorb {k : String} {r : Record} {m : MacAddr6} (hmac : d.mac = some m)
      (hk : c k = some r) (hip : r.lastIp = d.ip.toText) (hne : k ≠ macKey m)
      (hown : r.mac ≠ none) :
      Sighting c d tagGen now (update c k (some (r.sight d now))) (r.sight d now)
  /-- The record of the address moves to the device's MAC. -/
  | promote {r : Record} {m : MacAddr6} (hmac : d.mac = some m)
      (hk : c (ipKey d.ip) = some r) :
      Sighting c d tagGen now
        (update (update c (ipKey d.ip) none) (macKey m) (some ((r.promote m).sight d now)))
        ((r.promote m).sight d now)
  /-- No other record was last seen at the address: the MAC's own record. -/
  | own {m : MacAddr6} (hmac : d.mac = some m)
      (hfree : ∀ k r, c k = some r → r.lastIp = d.ip.toText → k = macKey m) :
      Sighting c d tagGen now
        (update c (macKey m) (some (touch c (.mac m) d tagGen now)))
        (touch c (.mac m) d tagGen now)
  /-- A device without MAC: the address's own record. -/
  | anonymous (hmac : d.mac = none) :
      Sighting c d tagGen now
        (update c (ipKey d.ip) (some (touch c (.addr d.ip) d tagGen now)))
        (touch c (.addr d.ip) d tagGen now)

variable {c c' : Contents} {d : Device} {tagGen : String → String} {now : Nat}
  {r' : Record}

theorem touch_mac_describes (hw : WellFormed c) {m : MacAddr6} :
    (touch c (.mac m) d tagGen now).Describes (.mac m) := by
  cases hk : c (Identity.mac m).key with
  | none =>
    rw [touch_of_none hk]
    exact (freshRecord_describes (.mac m) fun _ h => nomatch h).sight_mac
  | some r =>
    rw [touch_of_some hk]
    exact (hw.describes _ hk).sight_mac

theorem touch_addr_describes (hw : WellFormed c) :
    (touch c (.addr d.ip) d tagGen now).Describes (.addr d.ip) := by
  cases hk : c (Identity.addr d.ip).key with
  | none =>
    rw [touch_of_none hk]
    exact (freshRecord_describes _ fun _ h => (Identity.addr.inj h).symm).sight_addr
  | some r =>
    rw [touch_of_some hk]
    exact (hw.describes _ hk).sight_addr

/-- Sightings keep the registry well formed. -/
theorem WellFormed.sighting (hw : WellFormed c) (h : Sighting c d tagGen now c' r') :
    WellFormed c' := by
  cases h with
  | absorb hmac hk hip hne hown =>
    obtain ⟨m, rfl, -⟩ := hw.exists_mac hk hown
    exact hw.update (.mac m) (hw.describes (.mac m) hk).sight_mac
  | promote hmac hk =>
    exact hw.update_none.update (.mac _) (hw.describes (.addr d.ip) hk).promote.sight_mac
  | own hmac hfree => exact hw.update (.mac _) (touch_mac_describes hw)
  | anonymous hmac => exact hw.update (.addr _) (touch_addr_describes hw)

/-! ## What a sighting leaves behind -/

/-- `r'` is `r` sighted, possibly under a new identity. -/
def Record.SightedFrom (r' r : Record) (d : Device) (now : Nat) : Prop :=
  ∃ key mac, r' = { r with key := key, mac := mac }.sight d now

theorem Record.sightedFrom_self (r : Record) : (r.sight d now).SightedFrom r d now :=
  ⟨r.key, r.mac, rfl⟩

theorem Record.sightedFrom_promote (r : Record) (m : MacAddr6) :
    ((r.promote m).sight d now).SightedFrom r d now := by
  by_cases h : r.mac = none
  · rw [promote_of_none h]
    exact ⟨macKey m, some m.toText, rfl⟩
  · rw [promote_of_mac h]
    exact r.sightedFrom_self

theorem touch_sightedFrom {id : Identity} :
    (∃ r, c id.key = some r ∧ (touch c id d tagGen now).SightedFrom r d now) ∨
      (touch c id d tagGen now).SightedFrom (freshRecord id.key id.macText d tagGen now) d now := by
  cases hk : c id.key with
  | some r =>
    rw [touch_of_some hk]
    exact .inl ⟨r, rfl, r.sightedFrom_self⟩
  | none =>
    rw [touch_of_none hk]
    exact .inr (Record.sightedFrom_self _)

/-- The record a sighting went into is one that was there, or a fresh one. -/
theorem Sighting.sightedFrom (h : Sighting c d tagGen now c' r') :
    (∃ k r, c k = some r ∧ r'.SightedFrom r d now) ∨
      ∃ key mac, r'.SightedFrom (freshRecord key mac d tagGen now) d now := by
  cases h with
  | absorb _ hk _ _ _ => exact .inl ⟨_, _, hk, Record.sightedFrom_self _⟩
  | promote _ hk => exact .inl ⟨_, _, hk, Record.sightedFrom_promote _ _⟩
  | own _ _ => exact touch_sightedFrom.imp (fun ⟨r, hr⟩ => ⟨_, r, hr⟩) fun h => ⟨_, _, h⟩
  | anonymous _ => exact touch_sightedFrom.imp (fun ⟨r, hr⟩ => ⟨_, r, hr⟩) fun h => ⟨_, _, h⟩

/-- The record a sighting went into was last seen at its address. -/
theorem Sighting.lastIp (h : Sighting c d tagGen now c' r') : r'.lastIp = d.ip.toText := by
  rcases h.sightedFrom with ⟨_, _, _, _, _, rfl⟩ | ⟨_, _, _, _, rfl⟩
  · rfl
  · rfl

/-- Every record there is after a sighting is the sighted one, or was there
before under the same key. -/
theorem Sighting.entry (h : Sighting c d tagGen now c' r') {k : String} {r : Record}
    (hk : c' k = some r) : r = r' ∨ c k = some r := by
  have hset : ∀ {c₀ : Contents} {k₀ : String}, update c₀ k₀ (some r') k = some r →
      r = r' ∨ c₀ k = some r := by
    intro c₀ k₀ h
    rcases update_some_cases h with ⟨-, hr⟩ | ⟨-, hk⟩
    · exact .inl hr
    · exact .inr hk
  cases h with
  | absorb _ _ _ _ _ => exact hset hk
  | promote _ _ =>
    rcases hset hk with hr | hk
    · exact .inl hr
    · exact .inr (update_none_cases hk).2
  | own _ _ => exact hset hk
  | anonymous _ => exact hset hk

end Gannet
