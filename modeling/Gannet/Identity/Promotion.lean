import Gannet.Identity.Merging
import Gannet.Identity.Resolution
import Gannet.Identity.StoreInvariant

/-!
# Promotion of an address's record

A host first found without its MAC has a record under its address. When a
device with a MAC appears at that address, `upsert` takes the record out, gives
it the MAC and files it under the MAC's key.

`upsert_promotes`: if no other record was last seen there, the record moves with
all it has, whatever the iteration order, and nothing else changes.
-/

namespace Gannet

open KeyMap Function

variable {s : Store} {ops : List Store.Op} {c c' : Contents} {d : Device} {m : MacAddr6}
  {r r' : Record} {k : String} {tagGen : String → String} {now : Nat}

/-- `r'` is `r`, promoted to the MAC `m` by the sighting of `d`. -/
structure Record.PromotedFrom (r' r : Record) (d : Device) (m : MacAddr6) : Prop where
  key : r'.key = macKey m
  mac : r'.mac = some m.toText
  tag : r'.tag = r.tag
  firstSeen : r'.firstSeen = r.firstSeen
  ips : r'.ips = r.ips
  services : r'.services
    = r.services ++ (d.services.filter fun service => service ∉ r.services).eraseDups
  seenCount : r'.seenCount.toNat = r.seenCount.toNat + 1
  category : ∀ cat, (knownCategory r.category).or (knownCategory d.category) = some cat →
    r'.category = some cat
  vendor : r'.vendor = d.vendor.or r.vendor
  hostname : r'.hostname = d.hostname.or r.hostname
  osHint : r'.osHint = d.osHint.or r.osHint

/-- The record of the address, promoted and sighted there. -/
theorem Record.promotedFrom_sight (h : r.Describes (.addr d.ip))
    (hcount : r.seenCount.toNat + 1 < UInt32.size) (m : MacAddr6) (now : Nat) :
    ((r.promote m).sight d now).PromotedFrom r d m := by
  have hips : d.ip.toText ∈ r.ips := by
    rw [(h.addr d.ip rfl).2]
    exact List.mem_singleton_self _
  rw [promote_of_none h.mac]
  exact {
    key := rfl
    mac := rfl
    tag := rfl
    firstSeen := rfl
    ips := if_pos hips
    services := mergeStringVec_eq r.services d.services
    seenCount := seenCount_succ (Nat.le_refl _) hcount
    category := fun _ hcat => mergeCategory_of_known hcat
    vendor := rfl
    hostname := rfl
    osHint := rfl }

/-- With the address's record alone at the address, a sighting of a MAC there
promotes it. -/
theorem Sighting.promotes (hw : WellFormed c) (hk : c k = some r)
    (hip : r.lastIp = d.ip.toText) (hnone : r.mac = none)
    (honly : ∀ k' r', c k' = some r' → r'.lastIp = d.ip.toText → k' = k)
    (hmac : d.mac = some m) (h : Sighting c d tagGen now c' r') :
    k = ipKey d.ip ∧ r' = (r.promote m).sight d now ∧
      c' = update (update c (ipKey d.ip) none) (macKey m) (some r') := by
  obtain rfl : k = ipKey d.ip := (hw.key_of_mac_none hk hnone).trans hip
  have huniq : ∀ m', d.mac = some m' → ∀ k₁ k₂, Competes c m' d.ip k₁ → Competes c m' d.ip k₂ →
      k₁ = k₂ := by
    rintro m' - k₁ k₂ ⟨-, r₁, hk₁, hip₁⟩ ⟨-, r₂, hk₂, hip₂⟩
    rw [honly k₁ r₁ hk₁ hip₁, honly k₂ r₂ hk₂ hip₂]
  obtain ⟨rfl, rfl⟩ := h.unique hw huniq (.promote hmac hk)
  exact ⟨rfl, rfl, rfl⟩

/-- **Promotion**: in a reachable store whose only record last seen at the
device's address has no MAC, a sighting of MAC `m` there moves that record to
`m` with its history, whatever the iteration order, and leaves all records but
the one of the address and the one of `m` as they are. -/
theorem upsert_promotes (h : Store.Reaches ops s) (hk : s.contents k = some r)
    (hip : r.lastIp = d.ip.toText) (hnone : r.mac = none)
    (honly : ∀ k' r', s.contents k' = some r' → r'.lastIp = d.ip.toText → k' = k)
    (hmac : d.mac = some m) (hcount : r.seenCount.toNat + 1 < UInt32.size)
    (tagGen : String → String) (now : Nat) (s' : Store)
    (hsame : SameEntries s.records s'.records) :
    (s'.upsert d tagGen now).1.contents (ipKey d.ip) = none ∧
      (∃ r', (s'.upsert d tagGen now).1.contents (macKey m) = some r' ∧
        r'.PromotedFrom r d m) ∧
      ∀ k', k' ≠ ipKey d.ip → k' ≠ macKey m →
        (s'.upsert d tagGen now).1.contents k' = s.contents k' := by
  have hw := h.wellFormed
  have hsight := Store.upsert_sighting (Store.contents_congr hsame ▸ hw) d tagGen now
  rw [← Store.contents_congr hsame] at hsight
  obtain ⟨rfl, hr, hc⟩ := hsight.promotes hw hk hip hnone honly hmac
  have hkeys : ipKey d.ip ≠ macKey m := (macKey_ne_ipKey m d.ip).symm
  rw [hc, hr]
  refine ⟨?_, ⟨_, update_self .., ?_⟩, fun k' hne hne' => ?_⟩
  · rw [update_of_ne hkeys, update_self]
  · exact Record.promotedFrom_sight (hw.describes (.addr d.ip) hk) hcount m now
  · rw [update_of_ne hne', update_of_ne hne]

/-- The phone turns up at an address the sweep had found. -/
theorem upsert_promotes_phone :
    ∃ r r', (Store.ofOps [.arp sofa laptop 0, .sweep desk 1]).contents (ipKey desk) = some r ∧
      ((Store.ofOps [.arp sofa laptop 0, .sweep desk 1]).upsert (.ofArpEntry ⟨desk, phone⟩)
        Namer.generate 2).1.contents (macKey phone) = some r' ∧
      r'.PromotedFrom r (.ofArpEntry ⟨desk, phone⟩) phone := by
  have hreach := Store.reaches_ofOps [.arp sofa laptop 0, .sweep desk 1]
  have hk : (Store.ofOps [.arp sofa laptop 0, .sweep desk 1]).contents (ipKey desk)
      = some ((freshRecord (ipKey desk) none (.fromSweep desk) Namer.generate 1).sight
          (.fromSweep desk) 1) := by decide
  have hvalues : ∀ r ∈ values (Store.ofOps [.arp sofa laptop 0, .sweep desk 1]).records,
      r.lastIp = desk.toText → r.key = ipKey desk := by decide
  have honly : ∀ k' r', (Store.ofOps [.arp sofa laptop 0, .sweep desk 1]).contents k' = some r' →
      r'.lastIp = desk.toText → k' = ipKey desk := fun k' r' hk' hip' =>
    (hreach.wellFormed.key_eq hk').symm.trans (hvalues r' (mem_values.mpr ⟨k', hk'⟩) hip')
  obtain ⟨-, ⟨r', hr', hpromoted⟩, -⟩ := upsert_promotes (d := .ofArpEntry ⟨desk, phone⟩) hreach hk
    rfl rfl honly rfl (by decide) Namer.generate 2 _ (SameEntries.refl _)
  exact ⟨_, r', hk, hr', hpromoted⟩

end Gannet
