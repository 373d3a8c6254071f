import Mathlib.Logic.Nontrivial.Basic
import Gannet.Lib.Loop
import Gannet.Net.Subnet

/-!
# The addresses a scan probes (arp.rs, sweep.rs)

`subnet_iter` and `sweep_subnet` walk the block of a subnet in ascending order
and leave out the addresses whose last octet is 0 or 255.

- `mask_law_iff`: the mask arithmetic under all this neither overflows nor goes
  wrong, in both builds, iff the prefix is not 0.
- `host_targets_iff`: what is left of a block of prefix 1 to 30 is exactly its
  usable hosts iff the prefix is 24.
-/

namespace Gannet

open Bytes Loop Machine

/-! ## Enumeration -/

/-- `(0..count).map(|i| Ipv4Addr::from(base + i))` with the subnet's `base` and
`count`. -/
def blockIps (profile : Profile) (subnet : Ipv4Addr) (prefixLen : UInt8) :
    Except Panic (List Ipv4Addr) := do
  let mask ← subnetMask profile prefixLen
  let base := subnet.toU32 &&& mask
  let count ← blockSize profile prefixLen
  (List.range count.toNat).mapM fun i => do
    return .ofU32 (← addU32 profile base (.ofNat i))

/-- `octets[3] != 0 && octets[3] != 255` -/
def Ipv4Addr.hasHostOctet (ip : Ipv4Addr) : Bool := ip.d ≠ 0 && ip.d ≠ 255

/-- `subnet_iter` -/
def Arp.subnetIter (profile : Profile) (subnet : Ipv4Addr) (prefixLen : UInt8) :
    Except Panic (List Ipv4Addr) := do
  return (← blockIps profile subnet prefixLen).filter Ipv4Addr.hasHostOctet

/-- The `targets` of `sweep_subnet`. -/
def Sweep.targets (profile : Profile) (subnet : Ipv4Addr) (prefixLen : UInt8)
    (known : List Ipv4Addr) (srcIp : Ipv4Addr) : Except Panic (List Ipv4Addr) := do
  return (← blockIps profile subnet prefixLen).filter fun ip =>
    ip.hasHostOctet && !known.contains ip && ip ≠ srcIp

example : Arp.subnetIter .debug ⟨10, 0, 0, 253⟩ 30
    = .ok [⟨10, 0, 0, 252⟩, ⟨10, 0, 0, 253⟩, ⟨10, 0, 0, 254⟩] := by decide

variable {profile : Profile} {prefixLen : UInt8} {subnet ip : Ipv4Addr}

/-- The list has the addresses with the property, in ascending order. -/
structure Lists (ips : List Ipv4Addr) (p : Ipv4Addr → Prop) : Prop where
  ascending : ips.Pairwise fun x y => x.toU32 < y.toU32
  mem : ∀ ip, ip ∈ ips ↔ p ip

/-- A list stays one without repeats when some are left out. -/
theorem Lists.filter {ips : List Ipv4Addr} {p : Ipv4Addr → Prop} (h : Lists ips p)
    (q : Ipv4Addr → Bool) : Lists (ips.filter q) fun ip => p ip ∧ q ip = true where
  ascending := h.ascending.filter q
  mem := fun ip => by rw [List.mem_filter, h.mem]

/-- What is listed may be described otherwise. -/
theorem Lists.congr {ips : List Ipv4Addr} {p q : Ipv4Addr → Prop} (h : Lists ips p)
    (hpq : ∀ ip, p ip ↔ q ip) : Lists ips q where
  ascending := h.ascending
  mem := fun ip => (h.mem ip).trans (hpq ip)

/-- The last address of a block still fits. -/
theorem Ipv4Addr.topBits_add_lt (subnet : Ipv4Addr) {i : Nat} (hle : prefixLen ≤ 32)
    (hi : i < 2 ^ (32 - prefixLen.toNat)) :
    subnet.topBits prefixLen * 2 ^ (32 - prefixLen.toNat) + i < 2 ^ 32 := by
  have hle' : prefixLen.toNat ≤ 32 := UInt8.le_iff_toNat_le.mp hle
  have hpow : 2 ^ 32 = 2 ^ prefixLen.toNat * 2 ^ (32 - prefixLen.toNat) := by
    rw [← Nat.pow_add, Nat.add_sub_cancel' hle']
  have htop : subnet.topBits prefixLen < 2 ^ prefixLen.toNat := by
    refine Nat.div_lt_of_lt_mul ?_
    rw [Nat.mul_comm, ← hpow]
    exact subnet.toU32.toNat_lt
  calc subnet.topBits prefixLen * 2 ^ (32 - prefixLen.toNat) + i
      < (subnet.topBits prefixLen + 1) * 2 ^ (32 - prefixLen.toNat) := by
        rw [Nat.add_mul, Nat.one_mul]
        omega
    _ ≤ 2 ^ 32 := by
        rw [hpow]
        exact Nat.mul_le_mul_right _ htop

/-- The addresses of the block that starts at `base`. -/
def blockAddrs (base : Ipv4Addr) (prefixLen : UInt8) : List Ipv4Addr :=
  (List.range (2 ^ (32 - prefixLen.toNat))).map fun i => .ofU32 (base.toU32 + .ofNat i)

/-- The network base as a number. -/
theorem Ipv4Addr.toNat_clearLow (subnet : Ipv4Addr) (hle : prefixLen ≤ 32) :
    (subnet.clearLow prefixLen).toU32.toNat
      = subnet.topBits prefixLen * 2 ^ (32 - prefixLen.toNat) := by
  have hfits := subnet.topBits_add_lt hle (Nat.two_pow_pos _)
  rw [Nat.add_zero] at hfits
  rw [clearLow, toU32_ofU32, UInt32.toNat_ofNat_of_lt' hfits]

/-- The addresses of a block as numbers. -/
theorem Ipv4Addr.toNat_clearLow_add (subnet : Ipv4Addr) (hle : prefixLen ≤ 32) {i : Nat}
    (hi : i < 2 ^ (32 - prefixLen.toNat)) :
    ((subnet.clearLow prefixLen).toU32 + .ofNat i).toNat
      = subnet.topBits prefixLen * 2 ^ (32 - prefixLen.toNat) + i := by
  have hfits := subnet.topBits_add_lt hle hi
  rw [UInt32.toNat_add, subnet.toNat_clearLow hle,
    UInt32.toNat_ofNat_of_lt' (by rw [UInt32.size]; omega)]
  exact Nat.mod_eq_of_lt hfits

/-- No addition of the enumeration overflows. -/
theorem blockIps_eq (profile : Profile) (subnet : Ipv4Addr) (hle : prefixLen ≤ 32)
    (hpos : prefixLen ≠ 0) :
    blockIps profile subnet prefixLen = .ok (blockAddrs (subnet.clearLow prefixLen) prefixLen) := by
  obtain ⟨mask, hmask, hbase⟩ := subnetMask_spec profile hle hpos
  obtain ⟨count, hcount, hsize⟩ := blockSize_spec profile hle hpos
  have hclear : subnet.toU32 &&& mask = (subnet.clearLow prefixLen).toU32 :=
    UInt32.toNat_inj.mp ((hbase subnet).trans (subnet.toNat_clearLow hle).symm)
  rw [blockIps, hmask, hcount, blockAddrs, ← hsize]
  refine mapM_ok fun i hi => ?_
  have hfits := subnet.topBits_add_lt hle (hsize ▸ List.mem_range.mp hi)
  rw [addU32_of_lt, hclear]
  · rfl
  · rw [hclear, subnet.toNat_clearLow hle, UInt32.toNat_ofNat_of_lt' (by rw [UInt32.size]; omega)]
    exact hfits

/-- The block is the addresses with the subnet's top bits. -/
theorem lists_blockAddrs (subnet : Ipv4Addr) (hle : prefixLen ≤ 32) :
    Lists (blockAddrs (subnet.clearLow prefixLen) prefixLen) fun ip =>
      ip.topBits prefixLen = subnet.topBits prefixLen := by
  refine ⟨?_, fun ip => ?_⟩
  · rw [blockAddrs, List.pairwise_map]
    refine List.pairwise_lt_range.imp_of_mem fun {i j} hi hj hij => ?_
    rw [Ipv4Addr.toU32_ofU32, Ipv4Addr.toU32_ofU32, UInt32.lt_iff_toNat_lt,
      subnet.toNat_clearLow_add hle (List.mem_range.mp hi),
      subnet.toNat_clearLow_add hle (List.mem_range.mp hj)]
    omega
  · rw [blockAddrs, List.mem_map]
    constructor
    · rintro ⟨i, hi, rfl⟩
      have hi := List.mem_range.mp hi
      rw [Ipv4Addr.topBits, Ipv4Addr.toU32_ofU32, subnet.toNat_clearLow_add hle hi, Nat.add_comm,
        Nat.add_mul_div_right _ _ (Nat.two_pow_pos _), Nat.div_eq_of_lt hi, Nat.zero_add]
    · intro htop
      have hmod := Nat.mod_lt ip.toU32.toNat (Nat.two_pow_pos (32 - prefixLen.toNat))
      refine ⟨ip.toU32.toNat % 2 ^ (32 - prefixLen.toNat), List.mem_range.mpr hmod, ?_⟩
      refine Ipv4Addr.toU32_inj (UInt32.toNat_inj.mp ?_)
      rw [Ipv4Addr.toU32_ofU32, subnet.toNat_clearLow_add hle hmod, ← htop, Ipv4Addr.topBits,
        Nat.mul_comm]
      exact Nat.div_add_mod _ _

/-- The whole block is listed. -/
theorem blockIps_spec (profile : Profile) (subnet : Ipv4Addr) (hle : prefixLen ≤ 32)
    (hpos : prefixLen ≠ 0) : ∃ ips, blockIps profile subnet prefixLen = .ok ips ∧
      Lists ips fun ip => ip.topBits prefixLen = subnet.topBits prefixLen :=
  ⟨_, blockIps_eq profile subnet hle hpos, lists_blockAddrs subnet hle⟩

/-- ARP asks the addresses of the block that end like a host's. -/
theorem Arp.subnetIter_spec (profile : Profile) (subnet : Ipv4Addr) (hle : prefixLen ≤ 32) (hpos : prefixLen ≠ 0) :
    ∃ hosts, Arp.subnetIter profile subnet prefixLen = .ok hosts ∧
      Lists hosts fun ip =>
        ip.topBits prefixLen = subnet.topBits prefixLen ∧ ip.hasHostOctet = true := by
  obtain ⟨ips, hips, hlists⟩ := blockIps_spec profile subnet hle hpos
  refine ⟨ips.filter Ipv4Addr.hasHostOctet, ?_, hlists.filter _⟩
  rw [Arp.subnetIter, hips]
  rfl

/-- The sweep asks those that are neither known nor the own one. -/
theorem Sweep.targets_spec (profile : Profile) (subnet : Ipv4Addr) (hle : prefixLen ≤ 32)
    (hpos : prefixLen ≠ 0) (known : List Ipv4Addr) (srcIp : Ipv4Addr) :
    ∃ hosts, Sweep.targets profile subnet prefixLen known srcIp = .ok hosts ∧
      Lists hosts fun ip => ip.topBits prefixLen = subnet.topBits prefixLen ∧
        ip.hasHostOctet = true ∧ ip ∉ known ∧ ip ≠ srcIp := by
  obtain ⟨ips, hips, hlists⟩ := blockIps_spec profile subnet hle hpos
  refine ⟨ips.filter fun ip => ip.hasHostOctet && !known.contains ip && ip ≠ srcIp, ?_,
    (hlists.filter _).congr fun ip => ?_⟩
  · rw [Sweep.targets, hips]
    rfl
  · simp [and_assoc]

/-! ## Masks -/

/-- What the mask arithmetic is meant to do for a prefix: in no build does it
stop, and it cuts addresses after their top `prefixLen` bits. -/
structure MaskLaw (a b : Ipv4Addr) (prefixLen : UInt8) : Prop where
  networkBase : ∀ profile,
    Commands.networkBase profile a prefixLen = .ok (a.clearLow prefixLen) ∧
      Survey.networkBase profile a prefixLen = .ok (a.clearLow prefixLen)
  ipInSubnet : ∀ profile, ∃ inside, Gannet.ipInSubnet profile a b prefixLen = .ok inside ∧
    Survey.ipInSubnet profile a b prefixLen = .ok inside ∧
    (inside = true ↔ a.topBits prefixLen = b.topBits prefixLen)
  ofInterface : ∀ profile n ips,
    Passive.subnetFromPnet profile (List.replicate n .v6 ++ .v4 a prefixLen :: ips)
        = .ok (some (a.clearLow prefixLen, prefixLen)) ∧
      Survey.subnetFromInterface profile (List.replicate n .v6 ++ .v4 a prefixLen :: ips)
        = .ok (some (a.clearLow prefixLen, prefixLen))
  targets : ∀ profile, (∃ hosts, Arp.subnetIter profile a prefixLen = .ok hosts) ∧
    ∀ known srcIp, ∃ hosts, Sweep.targets profile a prefixLen known srcIp = .ok hosts

/-- The base is the address without its host bits. -/
theorem networkBase_spec (hle : prefixLen ≤ 32) (hpos : prefixLen ≠ 0) :
    networkBase profile ip prefixLen = .ok (ip.clearLow prefixLen) := by
  obtain ⟨mask, hmask, hbase⟩ := subnetMask_spec profile hle hpos
  have hclear : ip.toU32 &&& mask
      = .ofNat (ip.topBits prefixLen * 2 ^ (32 - prefixLen.toNat)) := by
    refine UInt32.toNat_inj.mp ?_
    rw [UInt32.toNat_ofNat_of_lt' (hbase ip ▸ UInt32.toNat_lt _), hbase]
  rw [networkBase, hmask]
  show Except.ok (Ipv4Addr.ofU32 (ip.toU32 &&& mask)) = _
  rw [hclear]
  rfl

/-- The subnet of an interface is that of its first IPv4 address. -/
theorem subnetOfInterface_spec (hle : prefixLen ≤ 32) (hpos : prefixLen ≠ 0) (n : Nat)
    (ips : List IpNetwork) :
    subnetOfInterface profile (List.replicate n .v6 ++ .v4 ip prefixLen :: ips)
      = .ok (some (ip.clearLow prefixLen, prefixLen)) := by
  induction n with
  | zero =>
    show (networkBase profile ip prefixLen >>= fun base => .ok (some (base, prefixLen))) = _
    rw [networkBase_spec hle hpos]
    rfl
  | succ n ih => exact ih

/-- Two addresses share a subnet iff their network bits agree. -/
theorem ipInSubnet_spec (profile : Profile) (hle : prefixLen ≤ 32) (hpos : prefixLen ≠ 0) (a b : Ipv4Addr) :
    ∃ inside, ipInSubnet profile a b prefixLen = .ok inside ∧
      (inside = true ↔ a.topBits prefixLen = b.topBits prefixLen) := by
  obtain ⟨mask, hmask, hbase⟩ := subnetMask_spec profile hle hpos
  refine ⟨a.toU32 &&& mask == b.toU32 &&& mask, ?_, ?_⟩
  · rw [ipInSubnet, hmask]
    rfl
  · rw [beq_iff_eq, ← UInt32.toNat_inj, hbase, hbase]
    exact Nat.mul_left_inj (Nat.ne_of_gt (Nat.two_pow_pos _))

/-- **Masks**: for every admitted prefix, the mask arithmetic works in both
builds iff the prefix is not 0. -/
theorem mask_law_iff (a b : Ipv4Addr) {prefixLen : UInt8} (hle : prefixLen ≤ 32) :
    MaskLaw a b prefixLen ↔ prefixLen ≠ 0 := by
  constructor
  · rintro hlaw rfl
    -- a debug build stops at the shift
    have hzero : Commands.networkBase .debug a 0 = .error .overflow := by
      rw [Commands.networkBase, Gannet.networkBase, subnetMask_zero]
      rfl
    cases hzero.symm.trans (hlaw.networkBase .debug).1
  · intro hpos
    refine ⟨fun profile => ⟨networkBase_spec hle hpos, networkBase_spec hle hpos⟩,
      fun profile => ?_, fun profile n ips => ?_, fun profile => ⟨?_, fun known srcIp => ?_⟩⟩
    · obtain ⟨inside, hinside, hiff⟩ := ipInSubnet_spec profile hle hpos a b
      exact ⟨inside, hinside, hinside, hiff⟩
    · exact ⟨subnetOfInterface_spec hle hpos n ips, subnetOfInterface_spec hle hpos n ips⟩
    · obtain ⟨hosts, hhosts, -⟩ := Arp.subnetIter_spec profile a hle hpos
      exact ⟨hosts, hhosts⟩
    · obtain ⟨hosts, hhosts, -⟩ :=
        Sweep.targets_spec profile a hle hpos known srcIp
      exact ⟨hosts, hhosts⟩

/-- At the command line the prefix 0 is accepted. The scan of 10.0.0.0/0 stops in
a debug build; in a release build two addresses are not both in it. -/
theorem mask_law_fails_at_zero :
    Commands.parseSubnet "10.0.0.0/0".toList = .ok (⟨10, 0, 0, 0⟩, 0) ∧
      Arp.subnetIter .debug ⟨10, 0, 0, 0⟩ 0 = .error .overflow ∧
      ipInSubnet .release ⟨10, 0, 0, 1⟩ ⟨10, 0, 0, 2⟩ 0 = .ok false ∧
      Ipv4Addr.topBits ⟨10, 0, 0, 1⟩ 0 = Ipv4Addr.topBits ⟨10, 0, 0, 2⟩ 0 ∧
      ¬ MaskLaw ⟨10, 0, 0, 1⟩ ⟨10, 0, 0, 2⟩ 0 := by
  refine ⟨by decide, by decide, by decide, by decide, fun hlaw => ?_⟩
  have hbase := (hlaw.networkBase .debug).1
  revert hbase
  decide

/-- The base of a /24. -/
theorem mask_law_at_24 :
    Commands.networkBase .debug ⟨192, 168, 1, 10⟩ 24 = .ok ⟨192, 168, 1, 0⟩ :=
  (((mask_law_iff ⟨192, 168, 1, 10⟩ ⟨192, 168, 1, 20⟩ (by decide)).mpr
    (by decide)).networkBase .debug).1

/-! ## Usable hosts -/

/-- The last address of the subnet. -/
def Ipv4Addr.broadcastOf (subnet : Ipv4Addr) (prefixLen : UInt8) : Ipv4Addr :=
  .ofU32 (.ofNat (subnet.topBits prefixLen * 2 ^ (32 - prefixLen.toNat)
    + (2 ^ (32 - prefixLen.toNat) - 1)))

/-- An address of the subnet that is neither its first nor its last. -/
def Usable (subnet : Ipv4Addr) (prefixLen : UInt8) (ip : Ipv4Addr) : Prop :=
  ip.topBits prefixLen = subnet.topBits prefixLen ∧ ip ≠ subnet.clearLow prefixLen ∧
    ip ≠ subnet.broadcastOf prefixLen

/-- The addresses of a block, by their offset in it. -/
theorem exists_offset (subnet : Ipv4Addr) (hle : prefixLen ≤ 32) {i : Nat} (hi : i < 2 ^ (32 - prefixLen.toNat)) :
    ∃ ip : Ipv4Addr, ip = .ofU32 (.ofNat (subnet.topBits prefixLen * 2 ^ (32 - prefixLen.toNat) + i))
      ∧ ip.toU32.toNat = subnet.topBits prefixLen * 2 ^ (32 - prefixLen.toNat) + i
      ∧ ip.topBits prefixLen = subnet.topBits prefixLen := by
  have hfits := subnet.topBits_add_lt hle hi
  have hnat : (Ipv4Addr.ofU32 (.ofNat (subnet.topBits prefixLen * 2 ^ (32 - prefixLen.toNat)
      + i))).toU32.toNat = subnet.topBits prefixLen * 2 ^ (32 - prefixLen.toNat) + i := by
    rw [Ipv4Addr.toU32_ofU32, UInt32.toNat_ofNat_of_lt' hfits]
  refine ⟨_, rfl, hnat, ?_⟩
  rw [Ipv4Addr.topBits, hnat, Nat.add_comm, Nat.add_mul_div_right _ _ (Nat.two_pow_pos _),
    Nat.div_eq_of_lt hi, Nat.zero_add]

/-- The last octet of a host is neither 0 nor 255. -/
theorem hasHostOctet_iff :
    ip.hasHostOctet = true ↔ ip.toU32.toNat % 2 ^ 8 ≠ 0 ∧ ip.toU32.toNat % 2 ^ 8 ≠ 255 := by
  rw [← ip.toNat_d, Ipv4Addr.hasHostOctet, Bool.and_eq_true, decide_eq_true_iff,
    decide_eq_true_iff, Ne, Ne, ← UInt8.toNat_inj, ← UInt8.toNat_inj]
  rfl

/-- An address is known by its number. -/
theorem eq_offset_iff (hle : prefixLen ≤ 32) {i : Nat} (hi : i < 2 ^ (32 - prefixLen.toNat)) :
    ip = .ofU32 (.ofNat (subnet.topBits prefixLen * 2 ^ (32 - prefixLen.toNat) + i)) ↔
      ip.toU32.toNat = subnet.topBits prefixLen * 2 ^ (32 - prefixLen.toNat) + i := by
  obtain ⟨_, rfl, hnat, -⟩ := exists_offset subnet hle hi
  constructor
  · rintro rfl
    exact hnat
  · exact fun h => Ipv4Addr.toU32_inj (UInt32.toNat_inj.mp (h.trans hnat.symm))

theorem eq_clearLow_iff (hle : prefixLen ≤ 32) : ip = subnet.clearLow prefixLen ↔
    ip.toU32.toNat = subnet.topBits prefixLen * 2 ^ (32 - prefixLen.toNat) := by
  rw [Ipv4Addr.clearLow, ← Nat.add_zero (subnet.topBits prefixLen * _)]
  exact eq_offset_iff hle (Nat.two_pow_pos _)

theorem eq_broadcastOf_iff (hle : prefixLen ≤ 32) : ip = subnet.broadcastOf prefixLen ↔
    ip.toU32.toNat = subnet.topBits prefixLen * 2 ^ (32 - prefixLen.toNat)
      + (2 ^ (32 - prefixLen.toNat) - 1) := by
  rw [Ipv4Addr.broadcastOf]
  exact eq_offset_iff hle (Nat.sub_one_lt (Nat.ne_of_gt (Nat.two_pow_pos _)))

/-- In a block of 256 addresses the last octet tells. -/
theorem usable_iff_of_24 (htop : ip.topBits 24 = subnet.topBits 24) :
    Usable subnet 24 ip ↔ ip.hasHostOctet = true := by
  have hblock : ip.toU32.toNat / 2 ^ 8 = subnet.topBits 24 := htop
  rw [Usable, Ne, Ne, eq_clearLow_iff (by decide), eq_broadcastOf_iff (by decide),
    hasHostOctet_iff]
  show _ ∧ ip.toU32.toNat ≠ subnet.topBits 24 * 2 ^ 8 ∧
    ip.toU32.toNat ≠ subnet.topBits 24 * 2 ^ 8 + (2 ^ 8 - 1) ↔ _
  constructor
  · rintro ⟨-, hfirst, hlast⟩
    omega
  · rintro ⟨hfirst, hlast⟩
    exact ⟨htop, by omega, by omega⟩

/-- In any other block it misjudges some address: a larger block has usable
addresses that end in 255, a smaller one does not both start at 0 and end at
255. -/
theorem exists_misjudged (hpos : 1 ≤ prefixLen) (hle : prefixLen ≤ 30) (hne : prefixLen ≠ 24)
    (subnet : Ipv4Addr) :
    ∃ ip : Ipv4Addr, ip.topBits prefixLen = subnet.topBits prefixLen ∧
      ¬ (Usable subnet prefixLen ip ↔ ip.hasHostOctet = true) := by
  have hle' : prefixLen ≤ 32 := UInt8.le_trans hle (by decide)
  have hn₁ : 1 ≤ prefixLen.toNat := UInt8.le_iff_toNat_le.mp hpos
  have hn₂ : prefixLen.toNat ≤ 30 := UInt8.le_iff_toNat_le.mp hle
  have hn₃ : prefixLen.toNat ≠ 24 := UInt8.toNat_inj.not.mpr hne
  obtain ⟨k, hk⟩ : ∃ k, k = 32 - prefixLen.toNat := ⟨_, rfl⟩
  -- enough to give an offset whose address is usable iff its octet says it is not
  suffices hoff : ∃ i < 2 ^ k,
      ¬ ((i ≠ 0 ∧ i ≠ 2 ^ k - 1) ↔ ((subnet.topBits prefixLen * 2 ^ k + i) % 2 ^ 8 ≠ 0 ∧
        (subnet.topBits prefixLen * 2 ^ k + i) % 2 ^ 8 ≠ 255)) by
    obtain ⟨i, hi, hwrong⟩ := hoff
    rw [hk] at hi hwrong
    obtain ⟨ip, -, hnat, htop⟩ := exists_offset subnet hle' hi
    refine ⟨ip, htop, fun hiff => hwrong ?_⟩
    rw [Usable, Ne, Ne, eq_clearLow_iff hle', eq_broadcastOf_iff hle', hasHostOctet_iff,
      hnat] at hiff
    rw [← hiff]
    exact ⟨fun h => ⟨htop, by omega, by omega⟩, fun h => ⟨by omega, by omega⟩⟩
  by_cases hlarge : prefixLen.toNat < 24
  · -- the first address of the block that ends in 255
    obtain ⟨j, hj⟩ : ∃ j, k = j + 9 := ⟨k - 9, by omega⟩
    have hpow : 2 ^ k = 2 ^ j * 512 := by rw [hj, Nat.pow_add]
    have hj₁ := Nat.two_pow_pos j
    have hbase : subnet.topBits prefixLen * (2 ^ j * 512)
        = subnet.topBits prefixLen * 2 ^ j * 2 * 256 := by
      rw [← Nat.mul_assoc, Nat.mul_assoc _ 2 256]
    refine ⟨255, by omega, fun hiff => ?_⟩
    have hmod : (subnet.topBits prefixLen * 2 ^ k + 255) % 2 ^ 8 = 255 := by
      rw [hpow, hbase]
      omega
    exact (hiff.mp ⟨by omega, by omega⟩).2 hmod
  · obtain ⟨j, hj⟩ : ∃ j, k = j + 2 := ⟨k - 2, by omega⟩
    have hpow : 2 ^ k = 2 ^ j * 4 := by rw [hj, Nat.pow_add]
    have hj₁ := Nat.two_pow_pos j
    have hj₂ : 2 ^ j ≤ 2 ^ 5 := Nat.pow_le_pow_right (by omega) (by omega)
    have hbase : subnet.topBits prefixLen * 2 ^ k = subnet.topBits prefixLen * 2 ^ j * 4 := by
      rw [hpow, Nat.mul_assoc]
    by_cases hstart : subnet.topBits prefixLen * 2 ^ k % 2 ^ 8 = 0
    · -- it starts at 0 and ends before 255
      refine ⟨2 ^ k - 1, by omega, fun hiff => ?_⟩
      exact (hiff.mpr ⟨by omega, by omega⟩).2 rfl
    · -- it starts elsewhere
      refine ⟨0, by omega, fun hiff => ?_⟩
      exact (hiff.mpr ⟨hstart, by omega⟩).1 rfl

instance : Nontrivial Ipv4Addr :=
  ⟨⟨0, 0, 0, 0⟩, ⟨0, 0, 0, 1⟩, by decide⟩

/-- **Host enumeration**: for every subnet of prefix 1 to 30, in both builds,
the ARP scan walks the usable hosts in order, and the sweep those that are not
the scanner itself, iff the prefix is 24. -/
theorem host_targets_iff (profile : Profile) (subnet : Ipv4Addr) {prefixLen : UInt8}
    (hpos : 1 ≤ prefixLen) (hle : prefixLen ≤ 30) :
    ((∃ hosts, Arp.subnetIter profile subnet prefixLen = .ok hosts ∧
        Lists hosts (Usable subnet prefixLen)) ↔ prefixLen = 24) ∧
      ((∀ srcIp, ∃ hosts, Sweep.targets profile subnet prefixLen [] srcIp = .ok hosts ∧
        Lists hosts fun ip => Usable subnet prefixLen ip ∧ ip ≠ srcIp) ↔ prefixLen = 24) := by
  have hle' : prefixLen ≤ 32 := UInt8.le_trans hle (by decide)
  have hne : prefixLen ≠ 0 := by
    rintro rfl
    exact absurd hpos (by decide)
  constructor
  · obtain ⟨hosts, hhosts, hlists⟩ :=
      Arp.subnetIter_spec profile subnet hle' hne
    constructor
    · rintro ⟨hosts', hhosts', hlists'⟩
      by_contra h24
      obtain ⟨ip, htop, hwrong⟩ := exists_misjudged hpos hle h24 subnet
      obtain rfl := Except.ok.inj (hhosts.symm.trans hhosts')
      exact hwrong (((hlists'.mem ip).symm.trans (hlists.mem ip)).trans (and_iff_right htop))
    · rintro rfl
      refine ⟨hosts, hhosts, hlists.congr fun ip => ?_⟩
      constructor
      · exact fun h => (usable_iff_of_24 h.1).mpr h.2
      · exact fun h => ⟨h.1, (usable_iff_of_24 h.1).mp h⟩
  · constructor
    · intro hall
      by_contra h24
      obtain ⟨ip, htop, hwrong⟩ := exists_misjudged hpos hle h24 subnet
      -- a scanner elsewhere
      obtain ⟨srcIp, hsrc⟩ := exists_ne ip
      obtain ⟨hosts, hhosts, hlists⟩ :=
        Sweep.targets_spec profile subnet hle' hne [] srcIp
      obtain ⟨hosts', hhosts', hlists'⟩ := hall srcIp
      obtain rfl := Except.ok.inj (hhosts.symm.trans hhosts')
      have hiff := (hlists'.mem ip).symm.trans (hlists.mem ip)
      refine hwrong ⟨fun h => (hiff.mp ⟨h, hsrc.symm⟩).2.1, fun h => ?_⟩
      exact (hiff.mpr ⟨htop, h, List.not_mem_nil, hsrc.symm⟩).1
    · rintro rfl srcIp
      obtain ⟨hosts, hhosts, hlists⟩ :=
        Sweep.targets_spec profile subnet hle' hne [] srcIp
      refine ⟨hosts, hhosts, hlists.congr fun ip => ?_⟩
      constructor
      · exact fun h => ⟨(usable_iff_of_24 h.1).mpr h.2.1, h.2.2.2⟩
      · exact fun h => ⟨h.1.1, (usable_iff_of_24 h.1.1).mp h.1, List.not_mem_nil, h.2⟩

/-- The block 10.0.0.4/30: its network address and its broadcast address are
probed. -/
theorem host_targets_of_small_block :
    Arp.subnetIter .debug ⟨10, 0, 0, 4⟩ 30
        = .ok [⟨10, 0, 0, 4⟩, ⟨10, 0, 0, 5⟩, ⟨10, 0, 0, 6⟩, ⟨10, 0, 0, 7⟩] ∧
      ¬ ∃ hosts, Arp.subnetIter .debug ⟨10, 0, 0, 4⟩ 30 = .ok hosts ∧
        Lists hosts (Usable ⟨10, 0, 0, 4⟩ 30) := by
  have hrun : Arp.subnetIter .debug ⟨10, 0, 0, 4⟩ 30
      = .ok [⟨10, 0, 0, 4⟩, ⟨10, 0, 0, 5⟩, ⟨10, 0, 0, 6⟩, ⟨10, 0, 0, 7⟩] := by decide
  refine ⟨hrun, ?_⟩
  rintro ⟨hosts, hhosts, hlists⟩
  obtain rfl := Except.ok.inj (hrun.symm.trans hhosts)
  have hfirst := ((hlists.mem ⟨10, 0, 0, 4⟩).mp (by decide)).2.1
  exact hfirst (by decide)

/-- In a /24 these are the usable hosts. -/
theorem host_targets_at_24 :
    ∃ hosts, Arp.subnetIter .debug ⟨192, 168, 1, 0⟩ 24 = .ok hosts ∧
      Lists hosts (Usable ⟨192, 168, 1, 0⟩ 24) :=
  (host_targets_iff .debug ⟨192, 168, 1, 0⟩ (by decide) (by decide)).1.mpr rfl

end Gannet
