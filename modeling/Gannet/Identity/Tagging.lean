import Gannet.Identity.StoreSteps

/-!
# Tagging a device by its address

`gannet tag <ip> <tag>` calls `set_tag` without a MAC, which looks under the
address's own key. A device recorded by MAC is not there, even when it was last
seen at that address.

- `setTag_by_ip_iff`: tagging by address reaches a device at that address, and
  changes nothing else, iff a record without MAC was last seen there.
-/

namespace Gannet

open KeyMap Function

variable {s : Store} {ops : List Store.Op} {c c' : Contents} {k : String} {r : Record}
  {ip : Ipv4Addr} {tag : String}

/-- A record without MAC was last seen at the address. -/
def HeldAnonymously (c : Contents) (ip : Ipv4Addr) : Prop :=
  ∃ k r, c k = some r ∧ r.lastIp = ip.toText ∧ r.mac = none

/-- Every field of the record but its tag. -/
def Record.untagged (r : Record) : Record := { r with tag := none }

/-- From `c` to `c'` a record last seen at `ip` took the tag, and nothing else
happened. -/
structure TaggedAt (c c' : Contents) (ip : Ipv4Addr) (tag : String) : Prop where
  tagged : ∃ k r, c' k = some r ∧ r.lastIp = ip.toText ∧ r.tag = some tag
  fields : ∀ k, (c' k).map Record.untagged = (c k).map Record.untagged
  elsewhere : ∀ k r, c k = some r → r.lastIp ≠ ip.toText → c' k = some r

theorem heldAnonymously_iff (hw : WellFormed c) :
    HeldAnonymously c ip ↔ ∃ r, c (ipKey ip) = some r := by
  constructor
  · rintro ⟨k, r, hk, hip, hmac⟩
    obtain rfl : k = ipKey ip := (hw.key_of_mac_none hk hmac).trans hip
    exact ⟨r, hk⟩
  · rintro ⟨r, hk⟩
    exact ⟨ipKey ip, r, hk, hw.lastIp_of_ipKey hk, hw.mac_of_ipKey hk⟩

/-- Replacing the tag of one record last seen at `ip`. -/
theorem taggedAt_update (hk : c k = some r) (hip : r.lastIp = ip.toText) :
    TaggedAt c (update c k (some { r with tag := some tag })) ip tag where
  tagged := ⟨k, { r with tag := some tag }, update_self .., hip, rfl⟩
  fields := by
    intro k'
    by_cases hkey : k' = k
    · subst hkey
      rw [update_self, hk]
      rfl
    · rw [update_of_ne hkey]
  elsewhere := by
    intro k' r' hk' hip'
    have hkey : k' ≠ k := by
      rintro rfl
      exact hip' (Option.some.inj (hk.symm.trans hk') ▸ hip)
    rw [update_of_ne hkey, hk']

/-- Without a MAC, `set_tag` looks under the address's key. -/
theorem Store.setTag_none_spec (s : Store) (ip : Ipv4Addr) (tag : String) :
    match s.contents (ipKey ip) with
    | some r =>
      (s.setTag none ip tag).1.contents
          = update s.contents (ipKey ip) (some { r with tag := some tag }) ∧
        (s.setTag none ip tag).2 = true
    | none => s.setTag none ip tag = (s, false) := by
  have hspec := Store.setTag_spec s none ip tag
  rw [tagTarget, Option.bind_none] at hspec
  cases hk : s.contents (ipKey ip) with
  | some r =>
    rw [hk] at hspec
    exact hspec
  | none =>
    rw [hk] at hspec
    exact hspec

/-- **Tagging by address**: in a reachable store, `set_tag` without a MAC
returns true, tags a record last seen at the address and changes nothing else
iff a record without MAC was last seen there. -/
theorem setTag_by_ip_iff (h : Store.Reaches ops s) (ip : Ipv4Addr) (tag : String) :
    ((s.setTag none ip tag).2 = true ∧
        TaggedAt s.contents (s.setTag none ip tag).1.contents ip tag) ↔
      HeldAnonymously s.contents ip := by
  have hw := h.wellFormed
  have hspec := Store.setTag_none_spec s ip tag
  rw [heldAnonymously_iff hw]
  cases hk : s.contents (ipKey ip) with
  | some r =>
    rw [hk] at hspec
    obtain ⟨hc, htrue⟩ := hspec
    rw [hc]
    exact ⟨fun _ => ⟨r, rfl⟩, fun _ => ⟨htrue, taggedAt_update hk (hw.lastIp_of_ipKey hk)⟩⟩
  | none =>
    rw [hk] at hspec
    rw [hspec]
    constructor
    · intro hfound
      exact nomatch hfound.1
    · rintro ⟨r, hr⟩
      exact nomatch hr

/-- The laptop was last seen at the desk by ARP: tagging the desk's address
finds nothing. -/
theorem setTag_by_ip_misses_laptop :
    Store.Reaches [.arp desk laptop 0] (.ofOps [.arp desk laptop 0]) ∧
      (∃ k r, (Store.ofOps [.arp desk laptop 0]).contents k = some r ∧ r.lastIp = desk.toText) ∧
      ((Store.ofOps [.arp desk laptop 0]).setTag none desk "work").2 = false := by
  refine ⟨Store.reaches_ofOps _, ⟨macKey laptop, _, rfl, ?_⟩, ?_⟩ <;> decide

/-- A host found by the sweep can be tagged. -/
theorem setTag_by_ip_finds_host :
    ((Store.ofOps [.sweep desk 0]).setTag none desk "printer").2 = true :=
  ((setTag_by_ip_iff (Store.reaches_ofOps [.sweep desk 0]) desk "printer").mpr
    ⟨ipKey desk, _, rfl, by decide, by decide⟩).1

end Gannet
