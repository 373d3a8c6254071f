import Gannet.Discovery.Targets

/-!
# One block, four ways (passive.rs, survey.rs, arp.rs, sweep.rs)

Whether an address belongs to a subnet is a comparison under the mask, the
subnet's first address is the address under the mask, and the scans count up from
there. `blocks_agree` says that for every prefix from 1 to 32 these are one block,
also where it ends with the last address there is.
-/

namespace Gannet

open Bytes Machine

variable {prefixLen : UInt8} {a b : Ipv4Addr}

/-- Clearing the low bits keeps the top bits. -/
theorem Ipv4Addr.topBits_clearLow (ip : Ipv4Addr) (hle : prefixLen ≤ 32) :
    (ip.clearLow prefixLen).topBits prefixLen = ip.topBits prefixLen := by
  rw [topBits, ip.toNat_clearLow hle, Nat.mul_div_cancel _ (Nat.two_pow_pos _)]

/-- Clearing twice is clearing once. -/
theorem Ipv4Addr.clearLow_clearLow (ip : Ipv4Addr) (hle : prefixLen ≤ 32) :
    (ip.clearLow prefixLen).clearLow prefixLen = ip.clearLow prefixLen := by
  rw [clearLow, ip.topBits_clearLow hle, clearLow]

/-- The first address of a block is that of its top bits. -/
theorem Ipv4Addr.clearLow_inj (hle : prefixLen ≤ 32) :
    a.clearLow prefixLen = b.clearLow prefixLen ↔ a.topBits prefixLen = b.topBits prefixLen := by
  constructor
  · intro h
    rw [← a.topBits_clearLow hle, h, b.topBits_clearLow hle]
  · intro h
    rw [clearLow, h, clearLow]

/-- **One block**: for every prefix from 1 to 32 and in both builds, an address is in
the subnet of another iff their first addresses agree iff it is enumerated, no
addition of the enumeration overflows, and the first address is its own. -/
theorem blocks_agree (profile : Profile) (a b : Ipv4Addr) {prefixLen : UInt8}
    (hpos : 1 ≤ prefixLen) (hle : prefixLen ≤ 32) :
    ∃ inside first base,
      ipInSubnet profile a b prefixLen = .ok inside ∧
      Survey.networkBase profile a prefixLen = .ok first ∧
      Survey.networkBase profile b prefixLen = .ok base ∧
      (inside = true ↔ first = base) ∧
      (inside = true ↔
        ∃ i < 2 ^ (32 - prefixLen.toNat), a = .ofU32 (base.toU32 + .ofNat i)) ∧
      (∀ i < 2 ^ (32 - prefixLen.toNat), base.toU32.toNat + i < 2 ^ 32) ∧
      Arp.subnetIter profile b prefixLen
        = .ok ((blockAddrs base prefixLen).filter Ipv4Addr.hasHostOctet) ∧
      (∀ known srcIp, Sweep.targets profile b prefixLen known srcIp
        = .ok ((blockAddrs base prefixLen).filter fun ip =>
            ip.hasHostOctet && !known.contains ip && ip ≠ srcIp)) ∧
      Survey.networkBase profile base prefixLen = .ok base := by
  have hne : prefixLen ≠ 0 := by
    rintro rfl
    exact absurd hpos (by decide)
  obtain ⟨inside, hinside, htop⟩ := ipInSubnet_spec profile hle hne a b
  have hblock := blockIps_eq profile b hle hne
  have hmem := (lists_blockAddrs b hle).mem a
  rw [blockAddrs, List.mem_map] at hmem
  refine ⟨inside, a.clearLow prefixLen, b.clearLow prefixLen, hinside,
    networkBase_spec hle hne, networkBase_spec hle hne, ?_, ?_, fun i hi => ?_, ?_,
    fun known srcIp => ?_, ?_⟩
  · rw [htop, Ipv4Addr.clearLow_inj hle]
  · rw [htop, ← hmem]
    simp only [List.mem_range, eq_comm]
  · rw [b.toNat_clearLow hle]
    exact b.topBits_add_lt hle hi
  · rw [Arp.subnetIter, hblock]
    rfl
  · rw [Sweep.targets, hblock]
    rfl
  · rw [Survey.networkBase, networkBase_spec hle hne, b.clearLow_clearLow hle]

/-- A block that ends with 255.255.255.255. -/
theorem blocks_agree_at_end :
    ∃ inside first base,
      ipInSubnet .debug ⟨255, 255, 255, 255⟩ ⟨255, 255, 255, 253⟩ 30 = .ok inside ∧
      Survey.networkBase .debug ⟨255, 255, 255, 255⟩ 30 = .ok first ∧
      Survey.networkBase .debug ⟨255, 255, 255, 253⟩ 30 = .ok base ∧
      (inside = true ↔ first = base) := by
  obtain ⟨inside, first, base, hinside, hfirst, hbase, hiff, -⟩ :=
    blocks_agree .debug ⟨255, 255, 255, 255⟩ ⟨255, 255, 255, 253⟩
      (show (1 : UInt8) ≤ 30 by decide) (by decide)
  exact ⟨inside, first, base, hinside, hfirst, hbase, hiff⟩

end Gannet
