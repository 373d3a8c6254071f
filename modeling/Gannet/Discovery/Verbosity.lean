import Gannet.Discovery.Survey

/-!
# What the verbose flag changes (survey.rs, commands.rs)

Everywhere else `verbose` only prints. In `probe_subnet_for_hosts` it also decides
whether a subnet without an answer to the sweep is scanned with ARP, so that a
subnet whose hosts answer ARP only has hosts in a verbose run and none in a
silent one.

`verbosity_iff`: these subnets are the only difference, in the host counts and in
the store.
-/

namespace Gannet

open Machine

namespace Survey

/-- In the subnet nobody answers the sweep, but the ARP scan hears somebody. -/
def Candidate.ArpOnly (profile : Profile) (candidate : Candidate) : Prop :=
  24 ≤ candidate.prefixLen ∧ candidate.prefixLen ≤ 30 ∧
    Sweep.sweepSubnet profile candidate.network candidate.prefixLen []
      candidate.probe.srcIp candidate.probe.probeHost = .ok ∅ ∧
    ∃ heard, Arp.scanSubnet profile candidate.network candidate.prefixLen candidate.probe.scan
      = .ok heard ∧ heard.Nonempty

/-- The candidate's entry is one of a subnet with a host. -/
def Candidate.isLive (profile : Profile) (verbose : Bool) (candidate : Candidate) : Bool :=
  ((candidate.discovered profile verbose).map fun subnet => decide subnet.Live).getD false

variable {profile : Profile} {candidate : Candidate} {candidates : List Candidate}

/-! ## One probe -/

/-- The two host counts are the same, or there is no host in a silent run and one
in a verbose run. -/
theorem probe_verbosity (profile : Profile) (candidate : Candidate) :
    ∃ silent verbose,
      probeSubnetForHosts profile candidate.network candidate.prefixLen false candidate.probe
        = .ok silent ∧
      probeSubnetForHosts profile candidate.network candidate.prefixLen true candidate.probe
        = .ok verbose ∧
      (candidate.ArpOnly profile ∧ silent = some 0 ∧ (∃ n, verbose = some (n + 1)) ∨
        ¬ candidate.ArpOnly profile ∧ verbose = silent) := by
  by_cases hrange : candidate.prefixLen < 24 ∨ 30 < candidate.prefixLen
  · have hnot : ¬ candidate.ArpOnly profile := by
      rintro ⟨hlo, hhi, -⟩
      rcases hrange with h | h
      · exact UInt8.not_lt.mpr hlo h
      · exact UInt8.not_lt.mpr hhi h
    exact ⟨none, none, if_pos hrange, if_pos hrange, .inr ⟨hnot, rfl⟩⟩
  obtain ⟨hlo, hhi⟩ := not_or.mp hrange
  rw [UInt8.not_lt] at hlo hhi
  obtain ⟨found, hfound, hheard, -, hsilent⟩ :=
    probeSubnetForHosts_spec profile candidate.network hlo hhi false candidate.probe
  obtain ⟨found', hfound', -, -, hverbose⟩ :=
    probeSubnetForHosts_spec profile candidate.network hlo hhi true candidate.probe
  obtain rfl := Except.ok.inj (hfound.symm.trans hfound')
  refine ⟨_, _, hsilent, hverbose, ?_⟩
  rw [if_pos (show found.Nonempty ∨ true = true from .inr rfl)]
  by_cases hnonempty : found.Nonempty
  · refine .inr ⟨?_, by rw [if_pos (.inl hnonempty)]⟩
    rintro ⟨-, -, hempty, -⟩
    rw [Except.ok.inj (hfound.symm.trans hempty)] at hnonempty
    exact Finset.not_nonempty_empty hnonempty
  -- nobody answers the sweep: what counts is the ARP scan
  obtain rfl := Finset.not_nonempty_iff_eq_empty.mp hnonempty
  rw [if_neg (by simp), Finset.card_empty, Nat.zero_max]
  by_cases hhears : candidate.probe.scan.heard.toFinset.Nonempty
  · obtain ⟨n, hn⟩ := Nat.exists_eq_succ_of_ne_zero (Finset.card_pos.mpr hhears).ne'
    exact .inl ⟨⟨hlo, hhi, hfound, _, hheard, hhears⟩, rfl, n, congrArg some hn⟩
  · refine .inr ⟨?_, ?_⟩
    · rintro ⟨-, -, -, heard', hheard', hhears'⟩
      exact hhears (Except.ok.inj (hheard.symm.trans hheard') ▸ hhears')
    · rw [Finset.not_nonempty_iff_eq_empty.mp hhears, Finset.card_empty]

/-- The count depends on the flag iff only ARP is answered. -/
theorem probe_verbosity_iff :
    probeSubnetForHosts profile candidate.network candidate.prefixLen true candidate.probe
        = probeSubnetForHosts profile candidate.network candidate.prefixLen false candidate.probe ↔
      ¬ candidate.ArpOnly profile := by
  obtain ⟨silent, verbose, hsilent, hverbose, hcases⟩ := probe_verbosity profile candidate
  rw [hsilent, hverbose]
  rcases hcases with ⟨honly, rfl, n, rfl⟩ | ⟨hnot, rfl⟩
  · exact iff_of_false (fun h => absurd (Option.some.inj (Except.ok.inj h)) (Nat.succ_ne_zero n))
      (not_not.mpr honly)
  · exact iff_of_true rfl hnot

/-- The entries of both runs agree on whether there is a host iff the counts do. -/
theorem isLive_verbosity (profile : Profile) (candidate : Candidate) :
    (candidate.ArpOnly profile ∧ candidate.isLive profile false = false ∧
        candidate.isLive profile true = true) ∨
      ¬ candidate.ArpOnly profile ∧
        candidate.discovered profile true = candidate.discovered profile false := by
  obtain ⟨silent, verbose, hsilent, hverbose, hcases⟩ := probe_verbosity profile candidate
  simp only [Candidate.isLive, Candidate.discovered, hsilent, hverbose]
  rcases hcases with ⟨honly, rfl, n, rfl⟩ | ⟨hnot, rfl⟩
  · exact .inl ⟨honly, rfl, decide_eq_true (Nat.succ_pos n)⟩
  · exact .inr ⟨hnot, rfl⟩

/-! ## The survey -/

/-- Without a candidate that answers ARP only, the runs list the same. -/
theorem survey_congr (hnone : ∀ candidate ∈ candidates, ¬ candidate.ArpOnly profile) :
    survey profile true candidates = survey profile false candidates := by
  have hsame : ∀ candidate ∈ candidates,
      candidate.discovered profile true = candidate.discovered profile false := by
    intro candidate hmem
    rcases isLive_verbosity profile candidate with ⟨honly, -⟩ | ⟨-, hsame⟩
    · exact absurd honly (hnone candidate hmem)
    · exact hsame
  rw [survey, survey, List.filterMap_congr hsame]

/-- There are as many records as candidates with a host. -/
theorem length_recordSurvey (clock : Nat → Nat) (verbose : Bool) (n : Nat) (s : Store) :
    (Commands.recordSurvey clock (survey profile verbose candidates) n s).2.length
      = candidates.countP (Candidate.isLive profile verbose) := by
  have hlength := congrArg List.length
    (recordSurvey_lastIp clock (survey profile verbose candidates) n s)
  rw [List.length_map, List.length_map, ← List.countP_eq_length_filter] at hlength
  rw [hlength, survey, (List.mergeSort_perm _ _).countP_eq, List.countP_filterMap]
  rfl

/-- Two counts of which one counts more are the same only if both count the same
elements. -/
theorem countP_le_and_eq {α : Type} {p q : α → Bool} (hpq : ∀ x, p x = true → q x = true)
    (xs : List α) : xs.countP p ≤ xs.countP q ∧
      (xs.countP p = xs.countP q → ∀ x ∈ xs, q x = true → p x = true) := by
  induction xs with
  | nil => exact ⟨Nat.le_refl _, fun _ x hx => absurd hx List.not_mem_nil⟩
  | cons y ys ih =>
    obtain ⟨hle, heq⟩ := ih
    rw [List.countP_cons, List.countP_cons, List.forall_mem_cons]
    cases hp : p y with
    | true =>
      rw [if_pos (hpq y hp), if_pos rfl]
      exact ⟨by omega, fun h => ⟨fun _ => rfl, heq (by omega)⟩⟩
    | false =>
      cases hq : q y with
      | true =>
        -- `y` is counted once more, and nothing makes up for it
        rw [if_pos rfl, if_neg Bool.false_ne_true]
        exact ⟨by omega, fun h => absurd h (by omega)⟩
      | false =>
        rw [if_neg Bool.false_ne_true]
        exact ⟨hle, fun h => ⟨fun hy => absurd hy Bool.false_ne_true, heq h⟩⟩

end Survey

open Survey

/-- **Verbosity**: for every list of candidates and whatever their probes meet, a
verbose run and a silent one have the same host counts, and leave the same store
with the same records, iff no candidate answers ARP only. -/
theorem verbosity_iff (profile : Profile) (candidates : List Candidate) (clock : Nat → Nat)
    (s : Store) :
    ((∀ candidate ∈ candidates,
        probeSubnetForHosts profile candidate.network candidate.prefixLen true candidate.probe
          = probeSubnetForHosts profile candidate.network candidate.prefixLen false
              candidate.probe) ↔
      ∀ candidate ∈ candidates, ¬ candidate.ArpOnly profile) ∧
    (Commands.recordSurvey clock (survey profile true candidates) 0 s
        = Commands.recordSurvey clock (survey profile false candidates) 0 s ↔
      ∀ candidate ∈ candidates, ¬ candidate.ArpOnly profile) := by
  refine ⟨forall₂_congr fun _ _ => probe_verbosity_iff, ?_⟩
  constructor
  · intro hsame candidate hmem honly
    have hcounts := congrArg (fun result => result.2.length) hsame
    rw [length_recordSurvey, length_recordSurvey] at hcounts
    -- a silent run has no host that a verbose run does not have
    have himp : ∀ candidate, Candidate.isLive profile false candidate = true →
        Candidate.isLive profile true candidate = true := by
      intro candidate hlive
      rcases isLive_verbosity profile candidate with ⟨-, -, hverbose⟩ | ⟨-, heq⟩
      · exact hverbose
      · rw [Candidate.isLive, heq]
        exact hlive
    have hlive := (countP_le_and_eq himp candidates).2 hcounts.symm candidate hmem
    rcases isLive_verbosity profile candidate with ⟨-, hsilent, hverbose⟩ | ⟨hnot, -⟩
    · rw [hlive hverbose] at hsilent
      cases hsilent
    · exact hnot honly
  · exact fun hnone => by rw [survey_congr hnone]

namespace Survey

/-- 10.0.0.4/30, where 10.0.0.5 replies to ARP and does not answer the sweep. -/
def quietNetwork : Candidate where
  network := ⟨10, 0, 0, 4⟩
  prefixLen := 30
  source := .upnpDiscovery
  gateway := none
  probe := { probeHearing [⟨⟨10, 0, 0, 5⟩, ⟨2, 0, 0, 0, 0, 5⟩⟩] with probeHost := fun _ => false }

/-- It has a host in a verbose run only, and only then a record. -/
theorem quietNetwork_verbosity :
    probeSubnetForHosts .release ⟨10, 0, 0, 4⟩ 30 true quietNetwork.probe = .ok (some 1) ∧
      probeSubnetForHosts .release ⟨10, 0, 0, 4⟩ 30 false quietNetwork.probe = .ok (some 0) ∧
      (Commands.recordSurvey (fun _ => 0) (survey .release true [quietNetwork]) 0 .empty).2.map
        (·.lastIp) = ["10.0.0.4"] ∧
      (Commands.recordSurvey (fun _ => 0) (survey .release false [quietNetwork]) 0 .empty).2
        = [] := by
  have hverbose : survey .release true [quietNetwork]
      = [⟨⟨10, 0, 0, 4⟩, 30, some 1, .upnpDiscovery, none⟩] := by decide +kernel
  have hsilent : survey .release false [quietNetwork]
      = [⟨⟨10, 0, 0, 4⟩, 30, some 0, .upnpDiscovery, none⟩] := by decide +kernel
  refine ⟨by decide +kernel, by decide +kernel, ?_, ?_⟩
  · rw [recordSurvey_lastIp, hverbose]
    decide +kernel
  · rw [hsilent]
    rfl

end Survey

end Gannet
