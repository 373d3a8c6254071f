import Mathlib.Data.List.Induction
import Gannet.Identity.Resolution

/-!
# What its devices make of a MAC's record

A sighting goes into the record of one MAC, and what that record becomes depends
on the record and on the device, but for the times on nothing else: not on the
other records, and not on how many sightings of other MACs there were in between.
So a record is, apart from its times, its first one with the MAC's devices folded
over it (`recorded`).

- `WinsAddress.recordsAt`: where nobody else's record was last seen, a sighting of
  a MAC goes into that MAC's record, and takes the place of the address's own.
- `recorded_lastIp`, `ip_mem_recorded`: where the record was last seen, and that it
  has the addresses of all its devices.
-/

namespace Gannet

open KeyMap Function

variable {c c' c₀ : Contents} {d : Device} {ds : List Device} {tagGen : String → String}
  {now : Nat} {m n : MacAddr6} {r r' : Record} {ip : Ipv4Addr}

/-! ## Records apart from their times -/

/-- The record without the times at which it was made and last sighted. -/
def Record.timeless (r : Record) : Record := { r with firstSeen := 0, lastSeen := 0 }

namespace Record

@[simp] theorem timeless_lastIp : r.timeless.lastIp = r.lastIp := rfl

theorem timeless_sight : (r.sight d now).timeless = r.timeless.sight d 0 := rfl

theorem timeless_promote : (r.promote m).timeless = r.timeless.promote m := by
  unfold promote timeless
  by_cases hmac : r.mac.isNone = true
  · rw [if_pos hmac, if_pos hmac]
  · rw [if_neg hmac, if_neg hmac]

end Record

/-! ## The record of a MAC -/

/-- A MAC's record after one more device, if before it was `r`. The first device
takes over the record of its address, where there is one in `c`. -/
def recordedStep (c : Contents) (tagGen : String → String) (m : MacAddr6) (r : Option Record)
    (d : Device) : Option Record :=
  let promoted := (c (ipKey d.ip)).map fun r => r.timeless.promote m
  let record := (r.or promoted).getD (freshRecord (macKey m) (some m.toText) d tagGen 0)
  some (record.sight d 0)

/-- What the devices make of the record the MAC has in `c`, apart from its times. -/
def recorded (c : Contents) (tagGen : String → String) (m : MacAddr6) (ds : List Device) :
    Option Record :=
  ds.foldl (recordedStep c tagGen m) ((c (macKey m)).map Record.timeless)

theorem recorded_append : recorded c tagGen m (ds ++ [d])
    = recordedStep c tagGen m (recorded c tagGen m ds) d := by
  rw [recorded, List.foldl_append]
  rfl

/-- A record is where the last of its devices was. -/
theorem recorded_lastIp (h : recorded c tagGen m (ds ++ [d]) = some r) :
    r.lastIp = d.ip.toText := by
  rw [recorded_append] at h
  obtain rfl := Option.some.inj h
  rfl

/-- A record has the addresses of all its devices. -/
theorem ip_mem_recorded (hd : d ∈ ds) :
    ∃ r, recorded c tagGen m ds = some r ∧ d.ip.toText ∈ r.ips := by
  induction ds using List.reverseRecOn with
  | nil => exact nomatch hd
  | append_singleton ds last ih =>
    rw [recorded_append]
    refine ⟨_, rfl, ?_⟩
    rcases List.mem_append.mp hd with hd | hd
    · obtain ⟨r, hr, hip⟩ := ih hd
      rw [hr]
      exact Record.ips_subset_sight hip
    · obtain rfl := List.mem_singleton.mp hd
      exact Record.ip_mem_sight_ips

/-- The devices of a MAC that has a record go into that record, whatever was filed
under their addresses. -/
theorem recordedStep_of_some (c c' : Contents) (r : Record) :
    recordedStep c tagGen m (some r) d = recordedStep c' tagGen m (some r) d := by
  rfl

/-- A device meets the same record under its address. -/
theorem recordedStep_congr (h : c (ipKey d.ip) = c' (ipKey d.ip)) (r : Option Record) :
    recordedStep c tagGen m r d = recordedStep c' tagGen m r d := by
  rw [recordedStep, recordedStep, h]

/-! ## Sightings of one MAC's device -/

/-- The device went into the record of the MAC, and no other record is left at its
address; the rest stayed. -/
structure RecordsAt (c : Contents) (tagGen : String → String) (m : MacAddr6) (d : Device)
    (c' : Contents) : Prop where
  record : (c' (macKey m)).map Record.timeless
    = recordedStep c tagGen m ((c (macKey m)).map Record.timeless) d
  address : c' (ipKey d.ip) = none
  others : ∀ k, k ≠ macKey m → k ≠ ipKey d.ip → c' k = c k

/-- A record that is there is sighted. -/
theorem recordsAt_of_some (hk : c (macKey m) = some r) (haddress : c (ipKey d.ip) = none) :
    RecordsAt c tagGen m d (update c (macKey m) (some (r.sight d now))) where
  record := by
    rw [update_self, hk]
    rfl
  address := by rw [update_of_ne (macKey_ne_ipKey m d.ip).symm, haddress]
  others := fun _ hne _ => update_of_ne hne ..

/-- The sighting's own MAC gets it: no record but the address's own competes, and none
is promoted over the MAC's. -/
structure WinsAddress (c : Contents) (d : Device) (m : MacAddr6) : Prop where
  alone : ∀ k, Competes c m d.ip k → k = ipKey d.ip
  kept : c (ipKey d.ip) ≠ none → c (macKey m) = none

instance (s : Store) (d : Device) (m : MacAddr6) : Decidable (WinsAddress s.contents d m) :=
  decidable_of_iff
    ((∀ k ∈ s.records.keys, Competes s.contents m d.ip k → k = ipKey d.ip) ∧
      (s.contents (ipKey d.ip) ≠ none → s.contents (macKey m) = none))
    ⟨fun h => ⟨fun k hcomp => h.1 k hcomp.mem_keys hcomp, h.2⟩,
      fun h => ⟨fun k _ hcomp => h.alone k hcomp, h.kept⟩⟩

theorem WinsAddress.recordsAt (hw : WellFormed c) (hwins : WinsAddress c d m)
    (hmac : d.mac = some m) (h : Sighting c d tagGen now c' r') :
    RecordsAt c tagGen m d c' := by
  cases h with
  | @absorb k₀ r₀ _ hmac' hk hip hne hown =>
    obtain rfl := Option.some.inj (hmac.symm.trans hmac')
    -- another MAC's record would compete
    obtain rfl := hwins.alone k₀ ⟨hne, r₀, hk, hip⟩
    exact absurd (hw.mac_of_ipKey hk) hown
  | @promote r₀ _ hmac' hk =>
    obtain rfl := Option.some.inj (hmac.symm.trans hmac')
    have hfree := hwins.kept (by rw [hk]; exact Option.some_ne_none _)
    refine ⟨?_, ?_, fun k hmacKey hipKey => ?_⟩
    · rw [update_self, hfree, Option.map_some, Record.timeless_sight, Record.timeless_promote,
        recordedStep, hk]
      rfl
    · rw [update_of_ne (macKey_ne_ipKey m d.ip).symm, update_self]
    · rw [update_of_ne hmacKey, update_of_ne hipKey]
  | own hmac' hfree =>
    obtain rfl := Option.some.inj (hmac.symm.trans hmac')
    -- the address's own record would have been found
    have hnone : c (ipKey d.ip) = none := by
      by_contra hsome
      obtain ⟨r, hr⟩ := Option.ne_none_iff_exists'.mp hsome
      exact macKey_ne_ipKey m d.ip (hfree _ r hr (hw.lastIp_of_ipKey hr)).symm
    refine ⟨?_, ?_, fun k hmacKey _ => update_of_ne hmacKey ..⟩
    · rw [update_self, recordedStep, hnone]
      cases hk : c (macKey m) with
      | none =>
        rw [touch_of_none hk]
        rfl
      | some r =>
        rw [touch_of_some hk]
        rfl
    · rw [update_of_ne (macKey_ne_ipKey m d.ip).symm, hnone]
  | anonymous hnone => exact nomatch hmac.symm.trans hnone

end Gannet
