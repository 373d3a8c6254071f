import Gannet.Lib.Machine
import Gannet.Net.Addr

/-!
# Subnets (passive.rs, survey.rs, commands.rs)

The prefix of a subnet comes from the command line (`parseSubnet`), from a
gateway's mask (`maskToPrefix`) or from an interface, and all three admit 0 to
32. The code then shifts a 32-bit one by `32 - prefix` to build the mask, in
five places; `subnetMask` is that expression, and the functions built on it
follow.

- `subnetMask_spec`: for every prefix but 0 the mask is the right one, and
  nothing overflows.
- `subnetMask_zero`, `subnetMask_zero_release`: for the prefix 0 the shift
  overflows, and where that wraps the mask clears nothing.
-/

namespace Gannet

open Bytes Machine

/-! ## Masks -/

/-- `1u32 << (32 - prefix)` -/
def blockSize (profile : Profile) (prefixLen : UInt8) : Except Panic UInt32 := do
  let hostBits ← subU8 profile 32 prefixLen
  shlU32 profile 1 hostBits

/-- `!((1u32 << (32 - prefix)) - 1)` -/
def subnetMask (profile : Profile) (prefixLen : UInt8) : Except Panic UInt32 := do
  let hostBits ← subU8 profile 32 prefixLen
  let bit ← shlU32 profile 1 hostBits
  let hostMask ← subU32 profile bit 1
  return ~~~hostMask

/-- `ip_in_subnet` -/
def ipInSubnet (profile : Profile) (ip base : Ipv4Addr) (prefixLen : UInt8) :
    Except Panic Bool := do
  let mask ← subnetMask profile prefixLen
  return ip.toU32 &&& mask == base.toU32 &&& mask

example : ipInSubnet .debug ⟨192, 168, 1, 10⟩ ⟨192, 168, 1, 0⟩ 24 = .ok true := by decide

example : ipInSubnet .debug ⟨192, 168, 1, 10⟩ ⟨0, 0, 0, 0⟩ 0 = .error .overflow := by decide

/-- The address with the bits outside the mask cleared. -/
def networkBase (profile : Profile) (ip : Ipv4Addr) (prefixLen : UInt8) :
    Except Panic Ipv4Addr := do
  let mask ← subnetMask profile prefixLen
  return .ofU32 (ip.toU32 &&& mask)

/-- An address of an interface, as the `ipnetwork` crate has it. -/
inductive IpNetwork where
  | v4 (ip : Ipv4Addr) (prefixLen : UInt8)
  | v6
deriving DecidableEq, Repr

/-- The address and the prefix, if they are IPv4. -/
def IpNetwork.v4? : IpNetwork → Option (Ipv4Addr × UInt8)
  | .v4 ip prefixLen => some (ip, prefixLen)
  | .v6 => none

/-- The addresses of an interface; `Ipv4Network::new` refuses a longer prefix. -/
structure NetworkInterface where
  ips : List IpNetwork
  prefix_le : ∀ ip prefixLen, IpNetwork.v4 ip prefixLen ∈ ips → prefixLen ≤ 32

/-- The subnet of the first IPv4 address of an interface. -/
def subnetOfInterface (profile : Profile) : List IpNetwork →
    Except Panic (Option (Ipv4Addr × UInt8))
  | [] => .ok none
  | .v6 :: ips => subnetOfInterface profile ips
  | .v4 ip prefixLen :: _ => do
    let base ← networkBase profile ip prefixLen
    return some (base, prefixLen)

/-- `network_base` of commands.rs. -/
def Commands.networkBase (profile : Profile) (ip : Ipv4Addr) (prefixLen : UInt8) :
    Except Panic Ipv4Addr :=
  Gannet.networkBase profile ip prefixLen

/-- `network_base` of survey.rs, the same code. -/
def Survey.networkBase (profile : Profile) (ip : Ipv4Addr) (prefixLen : UInt8) :
    Except Panic Ipv4Addr :=
  Gannet.networkBase profile ip prefixLen

/-- `subnet_from_pnet` of passive.rs. -/
def Passive.subnetFromPnet (profile : Profile) (ips : List IpNetwork) :
    Except Panic (Option (Ipv4Addr × UInt8)) :=
  subnetOfInterface profile ips

/-- `subnet_from_interface` of survey.rs, the same code. -/
def Survey.subnetFromInterface (profile : Profile) (ips : List IpNetwork) :
    Except Panic (Option (Ipv4Addr × UInt8)) :=
  subnetOfInterface profile ips

/-- `ip_in_subnet` of survey.rs, the same code. -/
def Survey.ipInSubnet (profile : Profile) (ip base : Ipv4Addr) (prefixLen : UInt8) :
    Except Panic Bool :=
  Gannet.ipInSubnet profile ip base prefixLen

/-! ## Where prefixes come from -/

/-- `mask_to_prefix`: the number of ones in the mask. -/
def Survey.maskToPrefix (mask : Ipv4Addr) : UInt8 :=
  .ofNat (((List.range 32).filter mask.toU32.toNat.testBit).length)

/-- `u8::from_str`: decimal digits after an optional plus sign. -/
def parseU8 (cs : List Char) : Option UInt8 :=
  let digits := if cs.head? = some '+' then cs.drop 1 else cs
  if digits ≠ [] ∧ digits.all Char.isDigit = true then
    let n := Nat.ofDigitChars 10 digits 0
    if n < 256 then some (UInt8.ofNat n) else none
  else none

/-- `str::split_once`: what is before and after the first separator. -/
def splitOnce (separator : Char) (cs : List Char) : Option (List Char × List Char) :=
  match cs.dropWhile (· ≠ separator) with
  | [] => none
  | _ :: after => some (cs.takeWhile (· ≠ separator), after)

/-- `parse_subnet`, with the message it prints before it exits. -/
def Commands.parseSubnet (input : List Char) : Except String (Ipv4Addr × UInt8) :=
  match splitOnce '/' input with
  | none => .error "Invalid subnet format. Use: 192.168.1.0/24"
  | some (ipStr, prefixStr) =>
    match Ipv4Addr.parse ipStr with
    | none => .error ("Invalid IP: " ++ String.ofList ipStr)
    | some ip =>
      match parseU8 prefixStr with
      | none => .error ("Invalid prefix: " ++ String.ofList prefixStr)
      | some prefixLen => if 32 < prefixLen then .error "Prefix must be 0-32" else .ok (ip, prefixLen)

example : Commands.parseSubnet "10.0.0.0/8".toList = .ok (⟨10, 0, 0, 0⟩, 8) := by decide

theorem parseU8_dec (b : UInt8) : parseU8 (Text.dec b) = some b := by
  have hall : ∀ n < 256, parseU8 (Nat.toDigits 10 n) = some (.ofNat n) := by decide +kernel
  rw [Text.dec, hall b.toNat b.toNat_lt, UInt8.ofNat_toNat]

theorem splitOnce_append {sep : Char} {before after : List Char} (h : sep ∉ before) :
    splitOnce sep (before ++ sep :: after) = some (before, after) := by
  have hne : ∀ c ∈ before, decide (c ≠ sep) = true := fun c hc =>
    decide_eq_true fun heq => h (heq ▸ hc)
  rw [splitOnce, List.dropWhile_append_of_pos hne, List.takeWhile_append_of_pos hne,
    List.dropWhile_cons_of_neg (by simp), List.takeWhile_cons_of_neg (by simp), List.append_nil]

theorem Survey.maskToPrefix_le (mask : Ipv4Addr) : Survey.maskToPrefix mask ≤ 32 := by
  have hlen := List.length_filter_le mask.toU32.toNat.testBit (List.range 32)
  rw [List.length_range] at hlen
  rw [UInt8.le_iff_toNat_le, maskToPrefix, UInt8.toNat_ofNat_of_lt' (Nat.lt_of_le_of_lt hlen (by decide))]
  exact hlen

/-! ## What the mask keeps -/

/-- The top `prefixLen` bits of an address, as a number. -/
def Ipv4Addr.topBits (ip : Ipv4Addr) (prefixLen : UInt8) : Nat :=
  ip.toU32.toNat / 2 ^ (32 - prefixLen.toNat)

/-- The address with its low `32 - prefixLen` bits cleared. -/
def Ipv4Addr.clearLow (ip : Ipv4Addr) (prefixLen : UInt8) : Ipv4Addr :=
  .ofU32 (.ofNat (ip.topBits prefixLen * 2 ^ (32 - prefixLen.toNat)))

variable {prefixLen : UInt8}

theorem toNat_hostBits (hle : prefixLen ≤ 32) :
    (32 - prefixLen).toNat = 32 - prefixLen.toNat :=
  UInt8.toNat_sub_of_le _ _ hle

theorem hostBits_lt (hle : prefixLen ≤ 32) (hpos : prefixLen ≠ 0) :
    (32 - prefixLen).toNat < 32 := by
  have hne : prefixLen.toNat ≠ 0 := UInt8.toNat_inj.not.mpr hpos
  rw [toNat_hostBits hle]
  omega

theorem blockSize_spec (profile : Profile) (hle : prefixLen ≤ 32) (hpos : prefixLen ≠ 0) :
    ∃ size, blockSize profile prefixLen = .ok size ∧
      size.toNat = 2 ^ (32 - prefixLen.toNat) := by
  have hbits := hostBits_lt hle hpos
  refine ⟨(1 : UInt32) <<< (32 - prefixLen).toUInt32, ?_, ?_⟩
  · rw [blockSize, subU8_of_le hle]
    exact shlU32_of_lt (UInt8.lt_iff_toNat_lt.mpr hbits)
  · rw [toNat_one_shiftLeft hbits, toNat_hostBits hle]

/-- The mask clears the host bits. -/
theorem subnetMask_spec (profile : Profile) (hle : prefixLen ≤ 32) (hpos : prefixLen ≠ 0) :
    ∃ mask, subnetMask profile prefixLen = .ok mask ∧ ∀ ip : Ipv4Addr,
      (ip.toU32 &&& mask).toNat = ip.topBits prefixLen * 2 ^ (32 - prefixLen.toNat) := by
  have hbits := hostBits_lt hle hpos
  have hone := toNat_one_shiftLeft hbits
  have hle₁ : (1 : UInt32) ≤ 1 <<< (32 - prefixLen).toUInt32 := by
    rw [UInt32.le_iff_toNat_le, hone]
    exact Nat.one_le_two_pow
  refine ⟨~~~(1 <<< (32 - prefixLen).toUInt32 - 1), ?_, fun ip => ?_⟩
  · rw [subnetMask, subU8_of_le hle]
    show (shlU32 profile 1 (32 - prefixLen) >>= fun bit =>
      subU32 profile bit 1 >>= fun hostMask => .ok (~~~hostMask)) = _
    rw [shlU32_of_lt (UInt8.lt_iff_toNat_lt.mpr hbits)]
    show (subU32 profile (1 <<< (32 - prefixLen).toUInt32) 1 >>= fun hostMask =>
      .ok (~~~hostMask)) = _
    rw [subU32_of_le hle₁]
    rfl
  · have hmask : (1 <<< (32 - prefixLen).toUInt32 - 1 : UInt32).toNat
        = 2 ^ (32 - prefixLen).toNat - 1 := by
      rw [UInt32.toNat_sub_of_le _ _ hle₁, hone]
      rfl
    rw [toNat_and_not ip.toU32 hbits hmask, toNat_hostBits hle]
    rfl

/-- The shift by 32 overflows. -/
theorem subnetMask_zero : subnetMask .debug 0 = .error .overflow := by decide

theorem subnetMask_zero_release : subnetMask .release 0 = .ok (-1) := by decide

theorem networkBase_zero_release (ip : Ipv4Addr) : networkBase .release ip 0 = .ok ip := by
  rw [networkBase, subnetMask_zero_release]
  show Except.ok (Ipv4Addr.ofU32 (ip.toU32 &&& -1)) = _
  rw [UInt32.and_neg_one, Ipv4Addr.ofU32_toU32]

theorem ipInSubnet_zero_release (ip base : Ipv4Addr) :
    ipInSubnet .release ip base 0 = .ok (ip == base) := by
  rw [ipInSubnet, subnetMask_zero_release]
  show Except.ok (ip.toU32 &&& -1 == base.toU32 &&& -1) = _
  rw [UInt32.and_neg_one, UInt32.and_neg_one]
  by_cases heq : ip = base
  · rw [heq, beq_self_eq_true, beq_self_eq_true]
  · rw [beq_false_of_ne heq, beq_false_of_ne fun h => heq (Ipv4Addr.toU32_inj h)]

theorem networkBase_zero_debug (ip : Ipv4Addr) : networkBase .debug ip 0 = .error .overflow := by
  rw [networkBase, subnetMask_zero]
  rfl

/-- The subnet of an interface is that of one of its addresses. -/
theorem subnetOfInterface_some {profile : Profile} {ips : List IpNetwork} {base : Ipv4Addr}
    (h : subnetOfInterface profile ips = .ok (some (base, prefixLen))) :
    ∃ ip, IpNetwork.v4 ip prefixLen ∈ ips ∧ networkBase profile ip prefixLen = .ok base := by
  induction ips with
  | nil => cases h
  | cons network ips ih =>
    cases network with
    | v6 =>
      obtain ⟨ip, hmem, hbase⟩ := ih h
      exact ⟨ip, List.mem_cons_of_mem _ hmem, hbase⟩
    | v4 ip len =>
      rw [subnetOfInterface] at h
      cases hbase : networkBase profile ip len with
      | error e =>
        rw [hbase] at h
        cases h
      | ok base' =>
        rw [hbase] at h
        cases h
        exact ⟨ip, List.mem_cons_self, hbase⟩

/-- Its prefix is at most 32, and in a debug build not 0. -/
theorem NetworkInterface.prefix_spec {profile : Profile} (interface : NetworkInterface)
    {base : Ipv4Addr}
    (h : subnetOfInterface profile interface.ips = .ok (some (base, prefixLen))) :
    prefixLen ≤ 32 ∧ (prefixLen = 0 → profile = .release) := by
  obtain ⟨ip, hmem, hbase⟩ := subnetOfInterface_some h
  refine ⟨interface.prefix_le ip prefixLen hmem, ?_⟩
  rintro rfl
  cases profile with
  | release => rfl
  | debug => cases (networkBase_zero_debug ip).symm.trans hbase

/-- No bits are the same bits. -/
theorem Ipv4Addr.topBits_zero (ip : Ipv4Addr) : ip.topBits 0 = 0 :=
  Nat.div_eq_of_lt ip.toU32.toNat_lt

end Gannet
