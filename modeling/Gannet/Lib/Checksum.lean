import Gannet.Lib.Bytes

/-!
# The Internet checksum

The checksum of IP and the protocols above it: the ones' complement of the ones'
complement sum of all 16-bit words. A sum is held in a wider register and its carries are
folded back at the end (`fold`).

- `checks_iff`: a receiver accepts a sum iff it is a positive multiple of 65535.
- `checks_complement`: it accepts what was sent with the complement of its sum.
- `Checks.word_unique`: of a word that was changed on the way it accepts the other zero only.
-/

namespace Checksum

open Bytes

/-! ## Folding carries -/

/-- `while sum >> 16 != 0 { sum = (sum >> 16) + (sum & 0xFFFF) }` -/
def fold (sum : Nat) : Nat :=
  if sum / 65536 = 0 then sum else fold (sum / 65536 + sum % 65536)
termination_by sum
decreasing_by omega

theorem fold_of_lt {sum : Nat} (h : sum < 65536) : fold sum = sum := by
  rw [fold, if_pos (by omega)]

theorem fold_of_ge {sum : Nat} (h : 65536 ≤ sum) :
    fold sum = fold (sum / 65536 + sum % 65536) := by
  rw [fold, if_neg (by omega)]

/-- Folding keeps the residue, and the zeros apart. -/
theorem fold_spec (sum : Nat) :
    fold sum < 65536 ∧ fold sum % 65535 = sum % 65535 ∧ (fold sum = 0 ↔ sum = 0) := by
  induction sum using Nat.strongRecOn with
  | ind sum ih =>
    by_cases h : sum < 65536
    · rw [fold_of_lt h]
      exact ⟨h, rfl, Iff.rfl⟩
    · obtain ⟨hlt, hmod, hzero⟩ := ih (sum / 65536 + sum % 65536) (by omega)
      rw [fold_of_ge (by omega)]
      refine ⟨hlt, ?_, ?_⟩
      · rw [hmod]
        omega
      · rw [hzero]
        omega

/-- `!sum as u16`, after folding. -/
def complement (sum : Nat) : Nat := 65535 - fold sum

theorem complement_lt (sum : Nat) : complement sum < 65536 := by
  unfold complement
  omega

/-! ## Verification -/

/-- The receiver's sum is all ones. -/
def Checks (sum : Nat) : Prop := fold sum = 65535

instance (sum : Nat) : Decidable (Checks sum) := inferInstanceAs (Decidable (_ = _))

theorem checks_iff {sum : Nat} : Checks sum ↔ sum % 65535 = 0 ∧ sum ≠ 0 := by
  obtain ⟨hlt, hmod, hzero⟩ := fold_spec sum
  unfold Checks
  omega

theorem checks_complement (sum : Nat) : Checks (sum + complement sum) := by
  obtain ⟨hlt, hmod, hzero⟩ := fold_spec sum
  rw [checks_iff, complement]
  omega

/-- Two accepted sums that differ in one word only. -/
theorem Checks.word_unique {rest w w' : Nat} (hw : w < 65536) (hw' : w' < 65536)
    (h : Checks (rest + w)) (h' : Checks (rest + w')) :
    w = w' ∨ w = 0 ∧ w' = 65535 ∨ w = 65535 ∧ w' = 0 := by
  rw [checks_iff] at h h'
  omega

/-! ## Words -/

/-- The sum of the big-endian words, the last one filled up with a zero. -/
def wordSum : List UInt8 → Nat
  | [] => 0
  | [last] => be16 last 0
  | hi :: lo :: rest => be16 hi lo + wordSum rest

/-- The same with one word left out. -/
def wordSumSkip (skip : Nat) : List UInt8 → Nat
  | [] => 0
  | [last] => if skip = 0 then 0 else be16 last 0
  | hi :: lo :: rest =>
    match skip with
    | 0 => wordSum rest
    | skip + 1 => be16 hi lo + wordSumSkip skip rest

theorem wordSum_le (data : List UInt8) : wordSum data ≤ 65535 * ((data.length + 1) / 2) := by
  induction data using wordSum.induct with
  | case1 => exact Nat.zero_le _
  | case2 last =>
    have := be16_lt last 0
    simp only [wordSum, List.length_singleton]
    omega
  | case3 hi lo rest ih =>
    have := be16_lt hi lo
    simp only [wordSum, List.length_cons]
    omega

/-- Two bytes put in for a word add their word to the others. -/
theorem wordSum_set (skip : Nat) (hi lo : UInt8) (data : List UInt8)
    (h : 2 * skip + 2 ≤ data.length) :
    wordSum (data.take (2 * skip) ++ [hi, lo] ++ data.drop (2 * skip + 2))
      = wordSumSkip skip data + be16 hi lo := by
  induction skip generalizing data with
  | zero =>
    match data, h with
    | _ :: _ :: rest, _ => exact Nat.add_comm _ _
  | succ skip ih =>
    match data, h with
    | a :: b :: rest, h =>
      simp only [List.length_cons] at h
      have hrest := ih rest (by omega)
      rw [Nat.mul_succ]
      simp only [List.take_succ_cons, List.drop_succ_cons, List.cons_append, wordSum, wordSumSkip]
      rw [hrest, Nat.add_assoc]

end Checksum
