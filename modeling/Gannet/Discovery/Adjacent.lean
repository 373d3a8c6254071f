import Gannet.Discovery.Survey
import Gannet.Lib.KeyMap

/-!
# The subnets next to the local one (survey.rs)

`adjacent_subnets_from` takes the second and the third octet of the local network
one up and one down, as `u32` values, and goes on to a list of common private
networks. A second octet of 256 is left out of the first candidates; the loop
after them does not look, and the cast back to `u8` makes it 0.

- `mem_candidateOctets`: below 255 the candidates are the octets of the
  neighbours.
- `adjacent_subnets_iff`: the result has exactly the neighbours, and no network
  twice, iff the second octet is not 255.
-/

namespace Gannet.Survey

open KeyMap

/-! ## The candidates -/

/-- A subnet to be probed, with where it comes from. -/
abbrev Target := Ipv4Addr × UInt8 × SubnetSource

/-- `adjacent`: the second octets, as `u32` values that are at most 256. -/
def adjacentOctets (second : Nat) : List Nat := [second - 1, second, second + 1]

/-- A round of the loop over the third octets. -/
def candidateRound (second third : Nat) (candidates : List (Nat × Nat)) (i : Nat) :
    List (Nat × Nat) :=
  if 3 ≤ candidates.length ∧ (i < third - 1 ∨ third + 1 < i) then candidates
  else candidates ++ (adjacentOctets second).map (·, i)

/-- `candidates` before the loop. -/
def firstCandidates (second third : Nat) : List (Nat × Nat) :=
  ((adjacentOctets second).filter (· ≤ 255)).map (·, third)

/-- `candidates` after the loop. -/
def candidateOctets (second third : Nat) : List (Nat × Nat) :=
  (List.range 256).foldl (candidateRound second third) (firstCandidates second third)

/-- The entry of two octets; `as u8` keeps the low eight bits. -/
def sweepEntry (a : UInt8) : Nat × Nat → Target
  | (b, c) => (⟨a, .ofNat b, .ofNat c, 0⟩, 24, .adjacentSweep)

/-- `subnets` before the private networks, in the order in which `seen`
iterates. -/
def sweepEntries (order : SetOrder (Nat × Nat)) (base : Ipv4Addr) : List Target :=
  let second := base.b.toNat
  let third := base.c.toNat
  let seen := order.elements (candidateOctets second third)
  (seen.filter fun (b, c) => ¬ (b = second ∧ c = third)).map (sweepEntry base.a)

/-- `common_private` -/
def commonPrivate : List (UInt8 × UInt8 × UInt8) :=
  [(10, 0, 0), (10, 0, 1), (10, 0, 10), (10, 10, 0), (10, 10, 10),
    (172, 16, 0), (172, 16, 1), (172, 17, 0),
    (192, 168, 0), (192, 168, 1), (192, 168, 10), (192, 168, 100)]

/-- A round of the loop over `common_private`. -/
def privateRound (base : Ipv4Addr) (subnets : List Target) :
    UInt8 × UInt8 × UInt8 → List Target
  | (a, b, c) =>
    let network : Ipv4Addr := ⟨a, b, c, 0⟩
    let isCurrent := base.a = a ∧ base.b = b ∧ base.c = c
    let alreadyIncluded := network ∈ subnets.map (·.1)
    if ¬ isCurrent ∧ ¬ alreadyIncluded then subnets ++ [(network, 24, .commonPrivate)]
    else subnets

/-- `adjacent_subnets_from` -/
def adjacentSubnetsFrom (order : SetOrder (Nat × Nat)) (base : Ipv4Addr) (prefixLen : UInt8) :
    List Target :=
  if prefixLen ≠ 24 then [(base, prefixLen, .adjacentSweep)]
  else commonPrivate.foldl (privateRound base) (sweepEntries order base)

variable {second third : Nat} {candidates : List (Nat × Nat)} {x : Nat × Nat}

/-- With three candidates the loop adds those whose third octet is near. -/
theorem mem_foldl_candidateRound (is : List Nat) (hthree : 3 ≤ candidates.length) :
    x ∈ is.foldl (candidateRound second third) candidates ↔
      x ∈ candidates ∨ x.1 ∈ adjacentOctets second ∧ x.2 ∈ is ∧
        third ≤ x.2 + 1 ∧ x.2 ≤ third + 1 := by
  induction is generalizing candidates with
  | nil => simp
  | cons i is ih =>
    rw [List.foldl_cons, candidateRound]
    by_cases hfar : i < third - 1 ∨ third + 1 < i
    · rw [if_pos ⟨hthree, hfar⟩, ih hthree, List.mem_cons]
      refine or_congr_right (and_congr_right fun _ => ?_)
      constructor
      · exact fun h => ⟨.inr h.1, h.2⟩
      · rintro ⟨rfl | hmem, hlo, hhi⟩
        · omega
        · exact ⟨hmem, hlo, hhi⟩
    · rw [if_neg fun h => hfar h.2, ih (by rw [List.length_append]; omega), List.mem_append,
        List.mem_cons, or_assoc]
      refine or_congr_right ?_
      have hround : x ∈ (adjacentOctets second).map (·, i) ↔
          x.1 ∈ adjacentOctets second ∧ x.2 = i := by
        obtain ⟨b, c⟩ := x
        simp [eq_comm]
      rw [hround]
      constructor
      · rintro (⟨hb, rfl⟩ | ⟨hb, hmem, hnear⟩)
        · exact ⟨hb, .inl rfl, by omega, by omega⟩
        · exact ⟨hb, .inr hmem, hnear⟩
      · rintro ⟨hb, rfl | hmem, hnear⟩
        · exact .inl ⟨hb, rfl⟩
        · exact .inr ⟨hb, hmem, hnear⟩

/-- What is a candidate stays one. -/
theorem subset_foldl_candidateRound (is : List Nat) :
    candidates ⊆ is.foldl (candidateRound second third) candidates := by
  induction is generalizing candidates with
  | nil => exact List.Subset.refl _
  | cons i is ih =>
    rw [List.foldl_cons, candidateRound]
    by_cases hskip : 3 ≤ candidates.length ∧ (i < third - 1 ∨ third + 1 < i)
    · rw [if_pos hskip]
      exact ih
    · rw [if_neg hskip]
      exact fun y hy => ih (List.mem_append_left _ hy)

/-- Below 255 all three second octets are candidates from the start. -/
theorem mem_candidateOctets (hsecond : second < 255) (hthird : third < 256) :
    x ∈ candidateOctets second third ↔
      (second ≤ x.1 + 1 ∧ x.1 ≤ second + 1) ∧ x.2 < 256 ∧ third ≤ x.2 + 1 ∧ x.2 ≤ third + 1 := by
  have hall : (adjacentOctets second).filter (· ≤ 255) = adjacentOctets second := by
    refine List.filter_eq_self.mpr fun b hb => decide_eq_true ?_
    simp only [adjacentOctets, List.mem_cons, List.not_mem_nil, or_false] at hb
    omega
  have hadjacent : x.1 ∈ adjacentOctets second ↔ second ≤ x.1 + 1 ∧ x.1 ≤ second + 1 := by
    simp only [adjacentOctets, List.mem_cons, List.not_mem_nil, or_false]
    omega
  have hfirst : x ∈ firstCandidates second third ↔ x.1 ∈ adjacentOctets second ∧ x.2 = third := by
    obtain ⟨b, c⟩ := x
    rw [firstCandidates, hall]
    simp [eq_comm]
  have hthree : 3 ≤ (firstCandidates second third).length := by
    rw [firstCandidates, hall, List.length_map]
    exact Nat.le_refl 3
  rw [candidateOctets, mem_foldl_candidateRound _ hthree, hfirst, hadjacent, List.mem_range]
  constructor
  · rintro (⟨hb, hc⟩ | h)
    · exact ⟨hb, by omega, by omega, by omega⟩
    · exact h
  · exact .inr

/-- At 255 the loop starts with two candidates, and its first round adds a
second octet of 256. -/
theorem wrapped_mem_candidateOctets (third : Nat) : (256, 0) ∈ candidateOctets 255 third := by
  have hfirst : firstCandidates 255 third = [(254, third), (255, third)] := rfl
  rw [candidateOctets, hfirst, List.range_succ_eq_map, List.foldl_cons]
  refine subset_foldl_candidateRound _ ?_
  have hshort : ¬ 3 ≤ [(254, third), (255, third)].length := show ¬ 3 ≤ 2 by omega
  rw [candidateRound, if_neg fun h => hshort h.1]
  simp [adjacentOctets]

/-! ## The common private networks -/

variable {base : Ipv4Addr} {subnets : List Target}

/-- What the loop over the private networks keeps: networks that are different
from each other and from the local one, and the entries of the sweep. -/
structure Extends (base : Ipv4Addr) (subnets subnets' : List Target) : Prop where
  nodup : (subnets.map (·.1)).Nodup → (subnets'.map (·.1)).Nodup
  local_notMem : base ∉ subnets.map (·.1) → base ∉ subnets'.map (·.1)
  sweep_iff : ∀ network prefixLen, (network, prefixLen, SubnetSource.adjacentSweep) ∈ subnets' ↔
    (network, prefixLen, SubnetSource.adjacentSweep) ∈ subnets

theorem Extends.refl (base : Ipv4Addr) (subnets : List Target) : Extends base subnets subnets :=
  ⟨id, id, fun _ _ => Iff.rfl⟩

theorem Extends.trans {subnets₁ subnets₂ subnets₃ : List Target}
    (h : Extends base subnets₁ subnets₂) (h' : Extends base subnets₂ subnets₃) :
    Extends base subnets₁ subnets₃ where
  nodup := h'.nodup ∘ h.nodup
  local_notMem := h'.local_notMem ∘ h.local_notMem
  sweep_iff := fun network prefixLen =>
    (h'.sweep_iff network prefixLen).trans (h.sweep_iff network prefixLen)

/-- A round adds a /24 network that is neither local nor there already, or
nothing. -/
theorem privateRound_cases (base : Ipv4Addr) (subnets : List Target)
    (octets : UInt8 × UInt8 × UInt8) :
    (∃ network : Ipv4Addr, network.d = 0 ∧ network ≠ base ∧ network ∉ subnets.map (·.1) ∧
        privateRound base subnets octets = subnets ++ [(network, 24, .commonPrivate)]) ∨
      privateRound base subnets octets = subnets := by
  obtain ⟨a, b, c⟩ := octets
  by_cases hadd : ¬ (base.a = a ∧ base.b = b ∧ base.c = c) ∧
      ¬ (⟨a, b, c, 0⟩ : Ipv4Addr) ∈ subnets.map (·.1)
  · refine .inl ⟨⟨a, b, c, 0⟩, rfl, ?_, hadd.2, if_pos hadd⟩
    rintro rfl
    exact hadd.1 ⟨rfl, rfl, rfl⟩
  · exact .inr (if_neg hadd)

/-- A round adds at most one subnet, and keeps those there are. -/
theorem extends_privateRound (subnets : List Target) (octets : UInt8 × UInt8 × UInt8) :
    Extends base subnets (privateRound base subnets octets) := by
  rcases privateRound_cases base subnets octets with ⟨network, -, hother, hnew, heq⟩ | heq
  · rw [heq]
    refine ⟨fun hnodup => ?_, fun hnot hmem => ?_, fun network prefixLen => ?_⟩
    · rw [List.map_append, List.map_singleton, List.nodup_append]
      refine ⟨hnodup, List.nodup_singleton _, fun x hx y hy => ?_⟩
      rw [List.mem_singleton.mp hy]
      rintro rfl
      exact hnew hx
    · rw [List.map_append, List.map_singleton, List.mem_append, List.mem_singleton] at hmem
      exact hmem.elim hnot fun hbase => hother hbase.symm
    · simp
  · rw [heq]
    exact .refl base subnets

/-- So do all rounds. -/
theorem extends_foldl_privateRound (base : Ipv4Addr) (networks : List (UInt8 × UInt8 × UInt8))
    (subnets : List Target) :
    Extends base subnets (networks.foldl (privateRound base) subnets) := by
  induction networks generalizing subnets with
  | nil => exact .refl base subnets
  | cons octets networks ih => exact (extends_privateRound subnets octets).trans (ih _)

/-- All of these networks are a.b.c.0/24. -/
theorem privateRound_octets {octets : UInt8 × UInt8 × UInt8}
    (h : ∀ target ∈ subnets, target.2.1 = 24 ∧ target.1.d = 0) :
    ∀ target ∈ privateRound base subnets octets, target.2.1 = 24 ∧ target.1.d = 0 := by
  rcases privateRound_cases base subnets octets with ⟨network, hd, -, -, heq⟩ | heq
  · rw [heq]
    intro target hmem
    rcases List.mem_append.mp hmem with hmem | hmem
    · exact h target hmem
    · rw [List.mem_singleton.mp hmem]
      exact ⟨rfl, hd⟩
  · rw [heq]
    exact h

/-! ## The neighbours -/

/-- At most one apart. -/
def Near (x y : UInt8) : Prop := x.toNat ≤ y.toNat + 1 ∧ y.toNat ≤ x.toNat + 1

/-- A network a.b'.c'.0 next to a.b.c.0. -/
structure Neighbour (base network : Ipv4Addr) : Prop where
  first : network.a = base.a
  second : Near network.b base.b
  third : Near network.c base.c
  fourth : network.d = 0
  other : ¬ (network.b = base.b ∧ network.c = base.c)

/-- The entries of the adjacent sweep are the neighbours of the local network;
no entry is the local network or another entry. -/
structure AreNeighbours (base : Ipv4Addr) (subnets : List Target) : Prop where
  sweep_iff : ∀ network prefixLen, (network, prefixLen, SubnetSource.adjacentSweep) ∈ subnets ↔
    prefixLen = 24 ∧ Neighbour base network
  nodup : (subnets.map (·.1)).Nodup
  local_notMem : base ∉ subnets.map (·.1)

/-- The subnets of the sweep, and then the rounds over the private networks. -/
theorem adjacentSubnetsFrom_eq (order : SetOrder (Nat × Nat)) (base : Ipv4Addr) :
    adjacentSubnetsFrom order base 24
      = commonPrivate.foldl (privateRound base) (sweepEntries order base) :=
  if_neg (not_not.mpr rfl)

/-- The subnets of the sweep go by their octets, the own one left out. -/
theorem mem_sweepEntries {order : SetOrder (Nat × Nat)} {target : Target} :
    target ∈ sweepEntries order base ↔ ∃ b c, (b, c) ∈ candidateOctets base.b.toNat base.c.toNat ∧
      ¬ (b = base.b.toNat ∧ c = base.c.toNat) ∧ sweepEntry base.a (b, c) = target := by
  simp only [sweepEntries, List.mem_map, List.mem_filter, order.mem_iff, Prod.exists,
    decide_eq_true_iff, and_assoc]

/-- All of them are a.b.c.0/24. -/
theorem adjacentSubnetsFrom_octets (order : SetOrder (Nat × Nat)) (base : Ipv4Addr) :
    ∀ target ∈ adjacentSubnetsFrom order base 24, target.2.1 = 24 ∧ target.1.d = 0 := by
  rw [adjacentSubnetsFrom_eq]
  have hsweep : ∀ target ∈ sweepEntries order base, target.2.1 = 24 ∧ target.1.d = 0 := by
    intro target hmem
    obtain ⟨b, c, -, -, rfl⟩ := mem_sweepEntries.mp hmem
    exact ⟨rfl, rfl⟩
  generalize sweepEntries order base = subnets at hsweep
  induction commonPrivate generalizing subnets with
  | nil => exact hsweep
  | cons octets networks ih => exact ih _ (privateRound_octets hsweep)

/-- The candidates below 256 are octets, and give different networks. -/
theorem sweepEntry_inj {a : UInt8} {b c b' c' : Nat} (hb : b < 256) (hc : c < 256) (hb' : b' < 256)
    (hc' : c' < 256) (h : (sweepEntry a (b, c)).1 = (sweepEntry a (b', c')).1) :
    (b, c) = (b', c') := by
  have hsecond := congrArg (fun ip : Ipv4Addr => ip.b.toNat) h
  have hthird := congrArg (fun ip : Ipv4Addr => ip.c.toNat) h
  simp only [sweepEntry, UInt8.toNat_ofNat'] at hsecond hthird
  rw [Prod.mk.injEq]
  omega

/-- Below 255 the entries of the sweep are the neighbours, each once. -/
theorem sweepEntries_neighbours (base : Ipv4Addr) (order : SetOrder (Nat × Nat))
    (hsecond : base.b ≠ 255) :
    (∀ network prefixLen,
        (network, prefixLen, SubnetSource.adjacentSweep) ∈ sweepEntries order base ↔
          prefixLen = 24 ∧ Neighbour base network) ∧
      ((sweepEntries order base).map (·.1)).Nodup := by
  have hb : base.b.toNat < 255 := by
    have hlt := base.b.toNat_lt
    have hne : base.b.toNat ≠ 255 := UInt8.toNat_inj.not.mpr hsecond
    omega
  have hc : base.c.toNat < 256 := base.c.toNat_lt
  constructor
  · intro network prefixLen
    rw [mem_sweepEntries]
    constructor
    · rintro ⟨b, c, hmem, hother, heq⟩
      obtain ⟨⟨hb₁, hb₂⟩, hc₀, hc₁, hc₂⟩ := (mem_candidateOctets hb hc).mp hmem
      simp only [sweepEntry, Prod.mk.injEq, and_true] at heq
      obtain ⟨rfl, rfl⟩ := heq
      have hb' : (UInt8.ofNat b).toNat = b := by
        rw [UInt8.toNat_ofNat']
        omega
      have hc' : (UInt8.ofNat c).toNat = c := by
        rw [UInt8.toNat_ofNat']
        omega
      refine ⟨rfl, rfl, ?_, ?_, rfl, ?_⟩
      · show (UInt8.ofNat b).toNat ≤ base.b.toNat + 1 ∧ base.b.toNat ≤ (UInt8.ofNat b).toNat + 1
        omega
      · show (UInt8.ofNat c).toNat ≤ base.c.toNat + 1 ∧ base.c.toNat ≤ (UInt8.ofNat c).toNat + 1
        omega
      · rintro ⟨hsame₁, hsame₂⟩
        exact hother ⟨hb' ▸ congrArg UInt8.toNat hsame₁, hc' ▸ congrArg UInt8.toNat hsame₂⟩
    · rintro ⟨rfl, hfirst, ⟨hb₁, hb₂⟩, ⟨hc₁, hc₂⟩, hfourth, hother⟩
      refine ⟨network.b.toNat, network.c.toNat, ?_, ?_, ?_⟩
      · exact (mem_candidateOctets hb hc).mpr ⟨⟨hb₂, hb₁⟩, network.c.toNat_lt, hc₂, hc₁⟩
      · exact fun h => hother ⟨UInt8.toNat_inj.mp h.1, UInt8.toNat_inj.mp h.2⟩
      · rw [sweepEntry, UInt8.ofNat_toNat, UInt8.ofNat_toNat, ← hfirst, ← hfourth]
  · rw [sweepEntries, List.map_map]
    refine List.Nodup.map_on ?_ ((order.nodup _).filter _)
    rintro ⟨b, c⟩ hmem ⟨b', c'⟩ hmem' heq
    have hin := (order.mem_iff _ _).mp (List.mem_filter.mp hmem).1
    have hin' := (order.mem_iff _ _).mp (List.mem_filter.mp hmem').1
    obtain ⟨⟨-, hlt⟩, hlt', -⟩ := (mem_candidateOctets hb hc).mp hin
    obtain ⟨⟨-, hlt₁⟩, hlt₁', -⟩ := (mem_candidateOctets hb hc).mp hin'
    exact sweepEntry_inj (by omega) hlt' (by omega) hlt₁' heq

/-- **Adjacent subnets**: for every local network a.b.c.0/24 and every order of
the hash set, the entries of the adjacent sweep are exactly the neighbours, and
no entry is the local network or another entry, iff `b` is not 255. -/
theorem adjacent_subnets_iff (order : SetOrder (Nat × Nat)) (a b c : UInt8) :
    AreNeighbours ⟨a, b, c, 0⟩ (adjacentSubnetsFrom order ⟨a, b, c, 0⟩ 24) ↔ b ≠ 255 := by
  rw [adjacentSubnetsFrom_eq]
  have hextends := extends_foldl_privateRound ⟨a, b, c, 0⟩ commonPrivate
    (sweepEntries order ⟨a, b, c, 0⟩)
  constructor
  · rintro hneighbours rfl
    -- the second octet 256 becomes 0
    have hwrapped : ((⟨a, 0, 0, 0⟩, 24, .adjacentSweep) : Target)
        ∈ sweepEntries order ⟨a, 255, c, 0⟩ :=
      mem_sweepEntries.mpr
        ⟨256, 0, wrapped_mem_candidateOctets _, fun h => absurd h.1 (show 256 ≠ 255 by omega), rfl⟩
    obtain ⟨-, hneighbour⟩ := (hneighbours.sweep_iff _ _).mp ((hextends.sweep_iff _ _).mpr hwrapped)
    exact absurd hneighbour.second.2 (show ¬ 255 ≤ 0 + 1 by omega)
  · intro hb
    obtain ⟨hsweep, hnodup⟩ := sweepEntries_neighbours ⟨a, b, c, 0⟩ order hb
    refine ⟨fun network prefixLen => ?_, hextends.nodup hnodup, hextends.local_notMem ?_⟩
    · rw [hextends.sweep_iff, hsweep]
    · intro hmem
      obtain ⟨⟨network, prefixLen, source⟩, hmem, rfl⟩ := List.mem_map.mp hmem
      have hsource : source = .adjacentSweep := by
        obtain ⟨_, _, -, -, heq⟩ := mem_sweepEntries.mp hmem
        exact congrArg (·.2.2) heq.symm
      subst hsource
      exact ((hsweep _ _).mp hmem).2.other ⟨rfl, rfl⟩

/-- Next to 10.255.7.0/24 the sweep has 10.0.0.0/24, which is not. -/
theorem adjacent_of_10_255 :
    (⟨10, 0, 0, 0⟩, 24, .adjacentSweep) ∈ adjacentSubnetsFrom (.dedup _) ⟨10, 255, 7, 0⟩ 24 ∧
      ¬ Neighbour ⟨10, 255, 7, 0⟩ ⟨10, 0, 0, 0⟩ ∧
      ¬ AreNeighbours ⟨10, 255, 7, 0⟩ (adjacentSubnetsFrom (.dedup _) ⟨10, 255, 7, 0⟩ 24) := by
  have hmem : ((⟨10, 0, 0, 0⟩, 24, .adjacentSweep) : Target)
      ∈ adjacentSubnetsFrom (.dedup _) ⟨10, 255, 7, 0⟩ 24 := by decide +kernel
  have hnot : ¬ Neighbour ⟨10, 255, 7, 0⟩ ⟨10, 0, 0, 0⟩ := fun h => absurd h.second.2 (by decide)
  exact ⟨hmem, hnot, fun h => hnot ((h.sweep_iff _ _).mp hmem).2⟩

end Gannet.Survey
