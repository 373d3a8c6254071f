import Gannet.Lib.CompareExchange
import Gannet.Lib.Machine

/-!
# Source ports of the probes (sweep.rs, fingerprint.rs)

Probes run on many threads, and each takes its source port from a counter that all
of them share. `next_probe_port` and `next_src_port` are the same compare-exchange
loop over different ranges.

`probe_ports_allocated`: whatever the interleaving and however stale the reads, the
ports stay in the range, and none comes back before the whole range has been handed
out.
-/

namespace Gannet

open Bytes Machine CompareExchange

variable {θ : Type}

/-- `if current >= last { first } else { current + 1 }` -/
def nextPort (profile : Profile) (first last current : UInt16) : Except Panic UInt16 :=
  if last ≤ current then .ok first else addU16 profile current 1

/-- `next_probe_port` of sweep.rs: the steps of its calls, on any number of threads. -/
def Sweep.nextProbePort [DecidableEq θ] (profile : Profile) :
    State θ UInt16 → Label θ UInt16 Panic → State θ UInt16 → Prop :=
  Step (nextPort profile 51000 60000)

/-- `next_src_port` of fingerprint.rs, the same code on another range. -/
def Fingerprint.nextSrcPort [DecidableEq θ] (profile : Profile) :
    State θ UInt16 → Label θ UInt16 Panic → State θ UInt16 → Prop :=
  Step (nextPort profile 43210 50000)

variable {profile : Profile} {first last v w : UInt16}

/-! ## The range -/

/-- A port of the range, as its offset. -/
def offset (first v : UInt16) : Nat := v.toNat - first.toNat

/-- Inside the range the next port is the next offset, after the last the first. -/
theorem nextPort_spec (profile : Profile) (hrange : first ≤ last) (hfirst : first ≤ v)
    (hlast : v ≤ last) : ∃ w, nextPort profile first last v = .ok w ∧ (first ≤ w ∧ w ≤ last) ∧
      offset first w = (offset first v + 1) % (offset first last + 1) := by
  rw [UInt16.le_iff_toNat_le] at hrange hfirst hlast
  by_cases hwrap : last ≤ v
  · refine ⟨first, if_pos hwrap, ⟨UInt16.le_refl _, UInt16.le_iff_toNat_le.mpr hrange⟩, ?_⟩
    have heq : v.toNat = last.toNat := Nat.le_antisymm hlast (UInt16.le_iff_toNat_le.mp hwrap)
    rw [offset, offset, offset, heq, Nat.mod_self, Nat.sub_self]
  · have hlt : v.toNat < last.toNat := Nat.lt_of_not_le fun h =>
      hwrap (UInt16.le_iff_toNat_le.mpr h)
    have hmax : last.toNat < 2 ^ 16 := last.toNat_lt
    have hfits : v.toNat + (1 : UInt16).toNat < 2 ^ 16 := by
      rw [UInt16.toNat_one]
      omega
    have hval : (v + 1).toNat = v.toNat + 1 := by
      rw [UInt16.toNat_add, Nat.mod_eq_of_lt hfits, UInt16.toNat_one]
    refine ⟨v + 1, (if_neg hwrap).trans (addU16_of_lt hfits), ⟨?_, ?_⟩, ?_⟩
    · rw [UInt16.le_iff_toNat_le, hval]
      omega
    · rw [UInt16.le_iff_toNat_le, hval]
      omega
    · rw [offset, offset, offset, hval, Nat.mod_eq_of_lt (by omega)]
      omega

/-- The counter does not leave its range, and overflows in no build. -/
theorem closed_range (profile : Profile) (hrange : first ≤ last) :
    Closed (nextPort profile first last) first fun v => first ≤ v ∧ v ≤ last where
  init := ⟨UInt16.le_refl _, hrange⟩
  next := by
    intro v hv
    obtain ⟨w, hw, hin, -⟩ := nextPort_spec profile hrange hv.1 hv.2
    exact ⟨w, hw, hin⟩

/-! ## Runs -/

/-- What a run has handed out, for a range of `count` ports. -/
structure Allocated (first last : UInt16) (count : Nat) (labels : List (Label θ UInt16 Panic))
    (s : State θ UInt16) : Prop where
  inRange : ∀ result ∈ s.returned, first ≤ result.2 ∧ result.2 ≤ last
  noOverflow : ∀ t e, Label.fail t e ∉ labels
  distinct : ∀ results, results <:+: s.returned → results.length ≤ count →
    (results.map Prod.snd).Nodup
  apart : ∀ later between earlier r r', s.returned = later ++ r :: (between ++ r' :: earlier) →
    between.length + 1 < count → r.2 ≠ r'.2

/-- The offsets of the ports, in the order they were taken, count round the range. -/
theorem offsets_chain {s : State θ UInt16} (profile : Profile) (hrange : first ≤ last)
    (h : Inv (nextPort profile first last) first s) :
    ((s.returned.map Prod.snd).map (offset first)).IsChain
      fun c d => c = (d + 1) % (offset first last + 1) := by
  have hclosed := closed_range profile hrange
  have hchain := h.chain
  rw [h.returned] at hchain
  have hports := hchain.left_of_append
  rw [List.isChain_map]
  refine hports.imp_of_mem_imp fun w v _ hv hnext => ?_
  obtain ⟨result, hmem, rfl⟩ := List.mem_map.mp hv
  have hin := hclosed.returned h result hmem
  obtain ⟨w', hw', -, hoffset⟩ := nextPort_spec profile hrange hin.1 hin.2
  rw [hnext] at hw'
  rw [Except.ok.inj hw', hoffset]

variable [DecidableEq θ]

/-- Every run of the threads allocates ports round the range. -/
theorem allocated_of_run {labels : List (Label θ UInt16 Panic)} {s : State θ UInt16}
    (profile : Profile) (hrange : first ≤ last)
    (h : Lts.Run (Step (nextPort profile first last)) (.init first) labels s) :
    Allocated first last (offset first last + 1) labels s := by
  have hclosed := closed_range profile hrange
  have hdistinct : ∀ results, results <:+: s.returned →
      results.length ≤ offset first last + 1 → (results.map Prod.snd).Nodup := by
    intro results hpart hlen
    have hchain := List.IsChain.infix (offsets_chain profile hrange (inv_run h))
      ((hpart.map Prod.snd).map (offset first))
    refine List.Nodup.of_map (offset first) (cyclic_nodup hchain ?_ ?_)
    · intro c hc
      obtain ⟨port, hport, rfl⟩ := List.mem_map.mp hc
      obtain ⟨result, hresult, rfl⟩ := List.mem_map.mp hport
      have hin := hclosed.returned (inv_run h) result (hpart.subset hresult)
      have hle := UInt16.le_iff_toNat_le.mp hin.2
      unfold offset
      omega
    · rwa [List.length_map, List.length_map]
  refine ⟨hclosed.returned (inv_run h), ?_, hdistinct, ?_⟩
  · -- every step of the run starts in a state of the invariant
    refine h.invariant_labels (fun labels _ => ∀ t e, Label.fail t e ∉ labels)
      (fun t e hmem => nomatch hmem) ?_
    intro bs b s₁ s₂ hrun hnone hstep t e hmem
    rcases List.mem_append.mp hmem with hmem | hmem
    · exact hnone t e hmem
    · rw [← List.mem_singleton.mp hmem] at hstep
      exact hclosed.not_fail (inv_run hrun) hstep
  · intro later between earlier r r' hreturned hlen
    have hpart : r :: (between ++ [r']) <:+: s.returned :=
      ⟨later, earlier, by rw [hreturned]; simp⟩
    have hlen' : (r :: (between ++ [r'])).length ≤ offset first last + 1 := by
      rw [List.length_cons, List.length_append]
      exact hlen
    have hnodup := hdistinct _ hpart hlen'
    rw [List.map_cons, List.nodup_cons] at hnodup
    intro heq
    exact hnodup.1 (List.mem_map.mpr ⟨r', by simp, heq.symm⟩)

/-- **Source ports**: for any number of threads and every interleaving of their
steps, the ports of a probe stay in its range, the addition does not overflow, and
as many allocations in a row as the range has ports are pairwise distinct. -/
theorem probe_ports_allocated (profile : Profile) (labels : List (Label θ UInt16 Panic))
    (s : State θ UInt16) :
    (Lts.Run (Sweep.nextProbePort profile) (.init 51000) labels s →
      Allocated 51000 60000 9001 labels s) ∧
    (Lts.Run (Fingerprint.nextSrcPort profile) (.init 43210) labels s →
      Allocated 43210 50000 6791 labels s) :=
  ⟨fun h => allocated_of_run profile (by decide) h,
    fun h => allocated_of_run profile (by decide) h⟩

/-- Two threads read the same port; the one that comes second sees the other's and
takes the next. -/
theorem probe_ports_of_two : ∃ s : State Bool UInt16,
    s.returned = [(false, 51002), (true, 51001)] ∧
      Allocated 51000 60000 9001
        [.load true 51000, .load false 51000, .exchange true 51001, .retry false 51001,
          .exchange false 51002] s := by
  have hboth : Lts.Run (Sweep.nextProbePort .debug) (.init 51000)
      [.load true 51000, .load false 51000] _ :=
    .snoc (.snoc .nil (.load rfl List.mem_cons_self)) (.load rfl List.mem_cons_self)
  have hfirst := hboth.snoc (.exchange (t := true) rfl rfl)
  have hsecond := (hfirst.snoc (.retry (t := false) rfl rfl List.mem_cons_self (by decide))).snoc
    (.exchange (t := false) rfl rfl)
  exact ⟨_, rfl, (probe_ports_allocated .debug _ _).1 hsecond⟩

end Gannet
