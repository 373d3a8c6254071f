import Gannet.Identity.StoreSteps

/-!
# The representation invariant of the registry

What holds of every record of every reachable store: the part that does not
look at the history is `WellFormed`; here the clock readings and counters of
the run come in (`Counted`, `Dated`), and all together give the invariant a reader of
the store relies on (`Record.Coherent`).

- `Store.Reaches.represented`: every record is coherent, a MAC has at most one
  record, and no MAC key is an address key.
-/

namespace Gannet

open KeyMap Function

variable {s t : Store} {ops : List Store.Op} {c c' : Contents} {k : String} {r r' : Record}
  {d : Device} {tagGen : String → String} {now : Nat}

/-! ## Clock readings and counters -/

namespace Store

/-- The clock reading a call takes, if it is a sighting. -/
def Op.clock : Op → Option Nat
  | .upsert _ _ now => some now
  | .setTag _ _ _ => none

/-- The clock readings of the sightings, oldest first. -/
def clocks (ops : List Op) : List Nat := ops.filterMap Op.clock

theorem clocks_append (ops ops' : List Op) : clocks (ops ++ ops') = clocks ops ++ clocks ops' :=
  List.filterMap_append

end Store

/-- The record's counter agrees with `n` sightings in all. -/
structure Record.Counted (n : Nat) (r : Record) : Prop where
  pos : 1 ≤ r.seenCount.toNat
  le : r.seenCount.toNat ≤ n

/-- The record's dates agree with the sightings at `times`. -/
structure Record.Dated (times : List Nat) (r : Record) : Prop where
  first_le_last : r.firstSeen ≤ r.lastSeen
  last_mem : r.lastSeen ∈ times

/-- All counters agree with so many sightings. -/
def Counted (n : Nat) (c : Contents) : Prop := ∀ k r, c k = some r → r.Counted n

/-- All times are among these clock readings. -/
def Dated (times : List Nat) (c : Contents) : Prop := ∀ k r, c k = some r → r.Dated times

theorem counted_empty (n : Nat) : Counted n fun _ => none := fun _ _ h => nomatch h

theorem dated_empty (times : List Nat) : Dated times fun _ => none := fun _ _ h => nomatch h

/-- Counting one more sighting does not wrap below 2³². -/
theorem seenCount_succ {count : UInt32} {n : Nat} (hcount : count.toNat ≤ n)
    (hfew : n + 1 < UInt32.size) : (count + 1).toNat = count.toNat + 1 := by
  rw [UInt32.toNat_add, UInt32.toNat_one, Nat.mod_eq_of_lt]
  exact Nat.lt_of_le_of_lt (Nat.succ_le_succ hcount) hfew

theorem Record.SightedFrom.counted {n : Nat} (h : r'.SightedFrom r d now)
    (hseen : r.seenCount.toNat ≤ n) (hfew : n + 1 < UInt32.size) : r'.Counted (n + 1) := by
  obtain ⟨key, mac, rfl⟩ := h
  have hcount := seenCount_succ hseen hfew
  refine ⟨?_, ?_⟩
  · rw [sight_seenCount, hcount]
    omega
  · rw [sight_seenCount, hcount]
    omega

theorem Record.SightedFrom.dated {times : List Nat} (h : r'.SightedFrom r d now)
    (hfirst : r.firstSeen ≤ now) : r'.Dated (times ++ [now]) := by
  obtain ⟨key, mac, rfl⟩ := h
  exact ⟨hfirst, List.mem_append_right _ (List.mem_singleton_self now)⟩

/-- One more sighting. -/
theorem Counted.sighting {n : Nat} (hc : Counted n c) (h : Sighting c d tagGen now c' r')
    (hfew : n + 1 < UInt32.size) : Counted (n + 1) c' := by
  intro k r hk
  rcases h.entry hk with rfl | hk
  · rcases h.sightedFrom with ⟨k₀, r₀, hk₀, hfrom⟩ | ⟨key, mac, hfrom⟩
    · exact hfrom.counted (hc k₀ r₀ hk₀).le hfew
    · exact hfrom.counted (Nat.zero_le _) hfew
  · have hr := hc k r hk
    exact ⟨hr.pos, Nat.le_succ_of_le hr.le⟩

/-- One more sighting, at a clock reading no earlier than the others. -/
theorem Dated.sighting {times : List Nat} (hd : Dated times c)
    (h : Sighting c d tagGen now c' r') (hclock : ∀ time ∈ times, time ≤ now) :
    Dated (times ++ [now]) c' := by
  intro k r hk
  rcases h.entry hk with rfl | hk
  · -- the sighted record: its dates were no later than the clock now
    rcases h.sightedFrom with ⟨k₀, r₀, hk₀, hfrom⟩ | ⟨key, mac, hfrom⟩
    · have hr₀ := hd k₀ r₀ hk₀
      exact hfrom.dated (Nat.le_trans hr₀.first_le_last (hclock _ hr₀.last_mem))
    · exact hfrom.dated (Nat.le_refl now)
  · have hr := hd k r hk
    exact ⟨hr.first_le_last, List.mem_append_left _ hr.last_mem⟩

/-- One more call, for the counters. -/
theorem Counted.transition {op : Store.Op} (hc : Counted (Store.clocks ops).length c)
    (h : Transition c op c') (hfew : (Store.clocks (ops ++ [op])).length < UInt32.size) :
    Counted (Store.clocks (ops ++ [op])).length c' := by
  rw [Store.clocks_append, List.length_append] at hfew ⊢
  cases h with
  | sighting hs => exact hc.sighting hs hfew
  | @retag _ _ _ k r htarget =>
    intro k' r' hk'
    rcases update_some_cases hk' with ⟨-, rfl⟩ | ⟨-, hk'⟩
    · have hr := hc k r (tagTarget_spec htarget)
      exact ⟨hr.pos, hr.le⟩
    · exact hc k' r' hk'
  | untagged _ => exact hc

/-- One more call, for the dates. -/
theorem Dated.transition {op : Store.Op} (hd : Dated (Store.clocks ops) c)
    (h : Transition c op c') (hclock : (Store.clocks (ops ++ [op])).Pairwise (· ≤ ·)) :
    Dated (Store.clocks (ops ++ [op])) c' := by
  rw [Store.clocks_append] at hclock ⊢
  cases h with
  | @sighting d tagGen now _ _ hs =>
    obtain ⟨-, -, hlast⟩ := List.pairwise_append.mp hclock
    exact hd.sighting hs fun time ht => hlast time ht now (List.mem_singleton_self _)
  | @retag _ _ _ k r htarget =>
    -- a tag change reads no clock
    show Dated (Store.clocks ops ++ []) _
    rw [List.append_nil]
    intro k' r' hk'
    rcases update_some_cases hk' with ⟨-, rfl⟩ | ⟨-, hk'⟩
    · have hr := hd k r (tagTarget_spec htarget)
      exact ⟨hr.first_le_last, hr.last_mem⟩
    · exact hd k' r' hk'
  | untagged _ =>
    show Dated (Store.clocks ops ++ []) _
    rwa [List.append_nil]

/-- Whatever was called, every record was seen at least once, and no more often
than there were sightings. -/
theorem Store.Reaches.counted (h : Store.Reaches ops s)
    (hfew : (Store.clocks ops).length < UInt32.size) :
    Counted (Store.clocks ops).length s.contents := by
  refine h.invariant_labels (fun ops s => (Store.clocks ops).length < UInt32.size →
    Counted (Store.clocks ops).length s.contents) ?_ ?_ hfew
  · exact fun _ => counted_empty 0
  intro ops op t u hrun ih hstep hfew
  refine (ih ?_).transition (hstep.transition (Store.Reaches.wellFormed hrun)) hfew
  rw [Store.clocks_append, List.length_append] at hfew
  omega

/-- Whatever was called, the records are dated by the sightings so far. -/
theorem Store.Reaches.dated (h : Store.Reaches ops s)
    (hclock : (Store.clocks ops).Pairwise (· ≤ ·)) : Dated (Store.clocks ops) s.contents := by
  refine h.invariant_labels (fun ops s => (Store.clocks ops).Pairwise (· ≤ ·) →
    Dated (Store.clocks ops) s.contents) ?_ ?_ hclock
  · exact fun _ => dated_empty []
  intro ops op t u hrun ih hstep hclock
  refine (ih ?_).transition (hstep.transition (Store.Reaches.wellFormed hrun)) hclock
  rw [Store.clocks_append] at hclock
  exact (List.pairwise_append.mp hclock).1

/-! ## The invariant -/

/-- What the record filed under `k` satisfies. -/
structure Record.Coherent (k : String) (r : Record) : Prop where
  key : r.key = k
  addressed : r.mac = none → k = r.lastIp ∧ r.ips = [k]
  owned : ∀ m : MacAddr6, r.mac = some m.toText → k = macKey m
  mac_text : ∀ text, r.mac = some text → ∃ m : MacAddr6, text = m.toText
  lastIp_mem : r.lastIp ∈ r.ips
  ips_nodup : r.ips.Nodup
  first_le_last : r.firstSeen ≤ r.lastSeen
  seen_pos : 1 ≤ r.seenCount.toNat

theorem WellFormed.coherent (hw : WellFormed c) {times : List Nat} {n : Nat}
    (hd : Dated times c) (hc : Counted n c) (hk : c k = some r) : r.Coherent k := by
  obtain ⟨id, rfl, hr⟩ := hw k r hk
  refine ⟨hr.key, fun hmac => ?_, fun m hmac => hw.key_of_mac hk hmac, fun text hmac => ?_,
    hr.lastIp_mem, hr.ips_nodup, (hd _ _ hk).first_le_last, (hc _ _ hk).pos⟩
  · cases id with
    | mac m => exact nomatch hr.mac.symm.trans hmac
    | addr ip => exact ⟨(hr.addr ip rfl).1.symm, (hr.addr ip rfl).2⟩
  · cases id with
    | mac m => exact ⟨m, Option.some.inj (hmac.symm.trans hr.mac)⟩
    | addr ip => exact nomatch hmac.symm.trans hr.mac

/-- A MAC has at most one record. -/
theorem WellFormed.mac_unique (hw : WellFormed c) {k₁ k₂ : String} {r₁ r₂ : Record}
    {text : String} (h₁ : c k₁ = some r₁) (h₂ : c k₂ = some r₂)
    (hm₁ : r₁.mac = some text) (hm₂ : r₂.mac = some text) : k₁ = k₂ ∧ r₁ = r₂ := by
  obtain ⟨m, rfl, htext⟩ := hw.exists_mac h₁ (by rw [hm₁]; exact Option.some_ne_none _)
  obtain rfl := hw.key_of_mac h₂ (hm₂.trans (hm₁.symm.trans htext))
  exact ⟨rfl, Option.some.inj (h₁.symm.trans h₂)⟩

/-- **Representation invariant**: after any calls whose clock readings never go
back, with fewer than 2³² sightings among them, every record is coherent, a MAC
has at most one record, and MAC keys never collide with address keys. -/
theorem Store.Reaches.represented (h : Store.Reaches ops s)
    (hclock : (Store.clocks ops).Pairwise (· ≤ ·))
    (hfew : (Store.clocks ops).length < UInt32.size) :
    (∀ k r, s.contents k = some r → r.Coherent k) ∧
      (∀ k₁ k₂ r₁ r₂ text, s.contents k₁ = some r₁ → s.contents k₂ = some r₂ →
        r₁.mac = some text → r₂.mac = some text → k₁ = k₂ ∧ r₁ = r₂) ∧
      ∀ m ip, macKey m ≠ ipKey ip :=
  ⟨fun _ _ hk => h.wellFormed.coherent (h.dated hclock) (h.counted hfew) hk,
    fun _ _ _ _ _ h₁ h₂ hm₁ hm₂ => h.wellFormed.mac_unique h₁ h₂ hm₁ hm₂, macKey_ne_ipKey⟩

/-- A sweep hit, promoted, then seen at a second address. -/
theorem Store.represented_promoted :
    ∃ r, (Store.ofOps [.sweep desk 0, .arp desk laptop 1, .setTag (some laptop) desk "work",
      .arp sofa laptop 2]).contents (macKey laptop) = some r ∧ r.Coherent (macKey laptop) :=
  ⟨_, rfl, ((Store.reaches_ofOps [.sweep desk 0, .arp desk laptop 1,
    .setTag (some laptop) desk "work", .arp sofa laptop 2]).represented
    (by decide) (by decide)).1 _ _ rfl⟩

end Gannet
