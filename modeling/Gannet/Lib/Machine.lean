import Gannet.Lib.Bytes

/-!
# Fixed-width arithmetic in two build profiles

An overflowing `+`, `-` or `<<` stops a debug build and wraps in a release build
(a shift by the width or more then uses the amount modulo the width). The
operations take the profile, so that a result about the code says in which
builds it holds; where nothing overflows they agree (`addU32_of_lt` and its
siblings).

The second half is the arithmetic of masks: `toNat_and_not` says what clearing
the low bits of a number does to it.
-/

namespace Machine

open Bytes

/-- Whether arithmetic is checked. -/
inductive Profile where
  | debug
  | release
deriving DecidableEq, Repr

/-- `x` where nothing overflowed, else what the profile makes of it. -/
def Profile.guard {α : Type} (profile : Profile) (ok : Bool) (x : α) : Except Panic α :=
  if ok || profile = .release then .ok x else .error .overflow

/-- `-` on `u8` -/
def subU8 (profile : Profile) (x y : UInt8) : Except Panic UInt8 :=
  profile.guard (y ≤ x) (x - y)

/-- `-` on `u32` -/
def subU32 (profile : Profile) (x y : UInt32) : Except Panic UInt32 :=
  profile.guard (y ≤ x) (x - y)

/-- `+` on `u16` -/
def addU16 (profile : Profile) (x y : UInt16) : Except Panic UInt16 :=
  profile.guard (x.toNat + y.toNat < 2 ^ 16) (x + y)

/-- `+` on `u32` -/
def addU32 (profile : Profile) (x y : UInt32) : Except Panic UInt32 :=
  profile.guard (x.toNat + y.toNat < 2 ^ 32) (x + y)

/-- `x << n`; the shift of `UInt32` reduces the amount modulo 32 itself. -/
def shlU32 (profile : Profile) (x : UInt32) (n : UInt8) : Except Panic UInt32 :=
  profile.guard (n < 32) (x <<< n.toUInt32)

/-- `x + y` on 64-bit `usize` values. -/
def addUsize (profile : Profile) (x y : Nat) : Except Panic Nat :=
  profile.guard (x + y < 2 ^ 64) ((x + y) % 2 ^ 64)

/-- A byte slice: nothing is larger than `isize::MAX` bytes. -/
structure Slice where
  bytes : List UInt8
  length_lt : bytes.length < 2 ^ 63

/-! ## Without overflow -/

variable {profile : Profile}

theorem Profile.guard_true {α : Type} {ok : Bool} (h : ok = true) (x : α) :
    profile.guard ok x = .ok x := by
  rw [guard, h, Bool.true_or, if_pos rfl]

theorem subU8_of_le {x y : UInt8} (h : y ≤ x) : subU8 profile x y = .ok (x - y) :=
  Profile.guard_true (decide_eq_true h) _

theorem subU32_of_le {x y : UInt32} (h : y ≤ x) : subU32 profile x y = .ok (x - y) :=
  Profile.guard_true (decide_eq_true h) _

theorem addU16_of_lt {x y : UInt16} (h : x.toNat + y.toNat < 2 ^ 16) :
    addU16 profile x y = .ok (x + y) :=
  Profile.guard_true (decide_eq_true h) _

theorem addU32_of_lt {x y : UInt32} (h : x.toNat + y.toNat < 2 ^ 32) :
    addU32 profile x y = .ok (x + y) :=
  Profile.guard_true (decide_eq_true h) _

theorem shlU32_of_lt {x : UInt32} {n : UInt8} (h : n < 32) :
    shlU32 profile x n = .ok (x <<< n.toUInt32) :=
  Profile.guard_true (decide_eq_true h) _

theorem addUsize_of_lt {x y : Nat} (h : x + y < 2 ^ 64) : addUsize profile x y = .ok (x + y) := by
  rw [addUsize, Profile.guard_true (decide_eq_true h), Nat.mod_eq_of_lt h]

/-- A position in a slice is far from the largest `usize`. -/
theorem Slice.addUsize_ok (data : Slice) {pos n : Nat} (hpos : pos ≤ data.bytes.length)
    (hn : n < 2 ^ 63) : addUsize profile pos n = .ok (pos + n) := by
  have := data.length_lt
  exact addUsize_of_lt (by omega)

/-! ## Masks -/

theorem toNat_one_shiftLeft {n : UInt8} (hn : n.toNat < 32) :
    ((1 : UInt32) <<< n.toUInt32).toNat = 2 ^ n.toNat := by
  have hpow := Nat.pow_lt_pow_right (a := 2) (by omega) hn
  rw [UInt32.toNat_shiftLeft, UInt8.toNat_toUInt32, Nat.mod_eq_of_lt hn]
  show 1 <<< n.toNat % 2 ^ 32 = 2 ^ n.toNat
  rw [Nat.shiftLeft_eq, Nat.one_mul, Nat.mod_eq_of_lt hpow]

/-- Clearing the low `n` bits rounds down to a multiple of `2 ^ n`. -/
theorem toNat_and_not (x : UInt32) {mask : UInt32} {n : Nat} (hn : n < 32)
    (hmask : mask.toNat = 2 ^ n - 1) : (x &&& ~~~mask).toNat = x.toNat / 2 ^ n * 2 ^ n := by
  have hpow := Nat.pow_lt_pow_right (a := 2) (by omega) hn
  have hnot : (~~~mask).toNat = 2 ^ 32 - (2 ^ n - 1 + 1) := by
    rw [UInt32.toNat_not, hmask]
    show 2 ^ 32 - 1 - (2 ^ n - 1) = _
    omega
  rw [UInt32.toNat_and, hnot]
  refine Nat.eq_of_testBit_eq fun i => ?_
  rw [Nat.testBit_and, Nat.testBit_mul_two_pow, Nat.testBit_div_two_pow,
    Nat.testBit_two_pow_sub_succ (by omega), Nat.testBit_two_pow_sub_one]
  by_cases hlow : n ≤ i
  · rw [Nat.sub_add_cancel hlow, decide_eq_true hlow,
      decide_eq_false (show ¬ i < n by omega)]
    by_cases hhigh : i < 32
    · simp [hhigh]
    · -- beyond the width there are no bits
      have hbit : x.toNat.testBit i = false :=
        Nat.testBit_lt_two_pow
          (Nat.lt_of_lt_of_le x.toNat_lt (Nat.pow_le_pow_right (by omega) (by omega)))
      rw [hbit, Bool.false_and, Bool.true_and]
  · rw [decide_eq_false hlow, decide_eq_true (show i < n by omega)]
    simp

end Machine
