import Mathlib.Algebra.Group.Nat.Defs
import Mathlib.Data.List.Basic

/-!
# Reading byte strings

Code that indexes a byte slice can panic. Here every read says so: `index` and
`slice` return a `Panic` where the access is out of bounds, so that "never
indexes outside the data" is a statement about their results and not a feature
of the model. Lengths and positions are natural numbers.

`StandsAt data xs offset` is the other direction, for data that was written:
`xs` is what the data has at the offset.

A `View n` is a byte string with at least `n` bytes, as a packet type of `n`
header bytes takes it; its header bytes can be read without a check.
-/

namespace Bytes

universe u

variable {α : Type u}

/-- How a run of the program can end abnormally. -/
inductive Panic where
  | outOfBounds
  | overflow
  | unwrapNone
  /-- Not a panic of the program: the model was given too little fuel. -/
  | outOfFuel
deriving DecidableEq, Repr

/-- `xs[i]` -/
def index (xs : List α) (i : Nat) : Except Panic α :=
  match xs[i]? with
  | some x => .ok x
  | none => .error .outOfBounds

/-- `xs[i..j]` -/
def slice (xs : List α) (i j : Nat) : Except Panic (List α) :=
  if i ≤ j ∧ j ≤ xs.length then .ok ((xs.drop i).take (j - i)) else .error .outOfBounds

/-- `u16::from_be_bytes([hi, lo])` as a number. -/
def be16 (hi lo : UInt8) : Nat := hi.toNat * 256 + lo.toNat

/-- `u32::from_be_bytes([b₀, b₁, b₂, b₃])` as a number. -/
def be32 (b₀ b₁ b₂ b₃ : UInt8) : Nat := be16 b₀ b₁ * 65536 + be16 b₂ b₃

theorem index_of_getElem? {xs : List α} {i : Nat} {x : α} (h : xs[i]? = some x) :
    index xs i = .ok x := by
  rw [index, h]

theorem index_ok {xs : List α} {i : Nat} (h : i < xs.length) : ∃ x, index xs i = .ok x :=
  ⟨xs[i], index_of_getElem? (List.getElem?_eq_getElem h)⟩

theorem be16_lt (hi lo : UInt8) : be16 hi lo < 2 ^ 16 := by
  have hhi : hi.toNat < 256 := hi.toNat_lt
  have hlo : lo.toNat < 256 := lo.toNat_lt
  unfold be16
  omega

/-- The two bytes of a number give it back. -/
theorem be16_ofNat {n : Nat} (hn : n < 2 ^ 16) : be16 (.ofNat (n / 256)) (.ofNat n) = n := by
  rw [be16, UInt8.toNat_ofNat', UInt8.toNat_ofNat']
  omega

theorem toNat_lengthByte {n : Nat} (hn : n < 256) : (UInt8.ofNat n).toNat = n := by
  rw [UInt8.toNat_ofNat']
  exact Nat.mod_eq_of_lt hn

theorem slice_of_le (xs : List α) {i j : Nat} (hij : i ≤ j) (hj : j ≤ xs.length) :
    slice xs i j = .ok ((xs.drop i).take (j - i)) := by
  rw [slice, if_pos ⟨hij, hj⟩]

theorem slice_to_end (xs : List α) {i : Nat} (hi : i ≤ xs.length) :
    slice xs i xs.length = .ok (xs.drop i) := by
  rw [slice_of_le xs hi (Nat.le_refl _), ← List.length_drop, List.take_length]

/-! ## Views -/

/-- A buffer that is long enough for the fields of a packet. -/
structure View (size : Nat) where
  bytes : List UInt8
  size_le : size ≤ bytes.length
deriving DecidableEq, Repr

namespace View

variable {size : Nat}

/-- A view of the bytes, if there are enough of them. -/
def new (size : Nat) (bytes : List UInt8) : Option (View size) :=
  if h : size ≤ bytes.length then some ⟨bytes, h⟩ else none

/-- A byte of the fields, which is there. -/
def byte (v : View size) (i : Fin size) : UInt8 := v.bytes.get (i.castLE v.size_le)

theorem getElem?_byte (v : View size) (i : Fin size) : v.bytes[i.val]? = some (v.byte i) :=
  List.getElem?_eq_getElem _

theorem new_of_le {bytes : List UInt8} (h : size ≤ bytes.length) :
    new size bytes = some ⟨bytes, h⟩ :=
  dif_pos h

/-- Views of the same bytes read the same bytes. -/
theorem byte_congr {size' : Nat} {v : View size} {w : View size'} (i : Fin size) (j : Fin size')
    (h : v.bytes[i.val]? = w.bytes[j.val]?) : v.byte i = w.byte j := by
  rw [getElem?_byte, getElem?_byte] at h
  exact Option.some.inj h

end View

/-! ## Where bytes stand -/

/-- The list stands in the data, starting at the offset. -/
def StandsAt (data xs : List α) (offset : Nat) : Prop :=
  ∀ i x, xs[i]? = some x → data[offset + i]? = some x

variable {data xs ys : List α} {x : α} {offset : Nat}

theorem standsAt_nil : StandsAt data [] offset := fun _ _ h => nomatch h

@[simp] theorem standsAt_cons :
    StandsAt data (x :: xs) offset ↔ data[offset]? = some x ∧ StandsAt data xs (offset + 1) := by
  constructor
  · intro h
    refine ⟨h 0 x rfl, fun i y hy => ?_⟩
    have hstep := h (i + 1) y hy
    rwa [Nat.add_comm i 1, ← Nat.add_assoc] at hstep
  · rintro ⟨hhead, htail⟩ i y hy
    cases i with
    | zero =>
      obtain rfl := Option.some.inj hy
      exact hhead
    | succ i =>
      have hstep := htail i y hy
      rwa [Nat.add_assoc, Nat.add_comm 1 i] at hstep

theorem standsAt_append : StandsAt data (xs ++ ys) offset ↔
    StandsAt data xs offset ∧ StandsAt data ys (offset + xs.length) := by
  induction xs generalizing offset with
  | nil => exact ⟨fun h => ⟨standsAt_nil, h⟩, fun h => h.2⟩
  | cons x xs ih =>
    rw [List.cons_append, standsAt_cons, standsAt_cons, ih, List.length_cons,
      Nat.add_assoc offset 1, Nat.add_comm 1 xs.length, and_assoc]

theorem standsAt_after (pre xs post : List α) : StandsAt (pre ++ (xs ++ post)) xs pre.length := by
  intro i x hx
  have hi := (List.getElem?_eq_some_iff.mp hx).1
  rw [List.getElem?_append_right (Nat.le_add_right _ _), Nat.add_sub_cancel_left,
    List.getElem?_append_left hi, hx]

namespace StandsAt

theorem index (h : StandsAt data xs offset) {i : Nat} (hx : xs[i]? = some x) :
    index data (offset + i) = .ok x :=
  index_of_getElem? (h i x hx)

/-- What stands at an offset in the data ends in the data. -/
theorem le_length (h : StandsAt data xs offset) (hoffset : offset ≤ data.length) :
    offset + xs.length ≤ data.length := by
  cases hlast : xs.length with
  | zero => exact hoffset
  | succ n =>
    have hx : xs[n]? = some xs[n] := List.getElem?_eq_getElem (by omega)
    have := (List.getElem?_eq_some_iff.mp (h n _ hx)).1
    omega

/-- It is what the data has there. -/
theorem take_drop (h : StandsAt data xs offset) : (data.drop offset).take xs.length = xs := by
  refine List.ext_getElem? fun i => ?_
  by_cases hi : i < xs.length
  · rw [List.getElem?_take_of_lt hi, List.getElem?_drop]
    have hx : xs[i]? = some xs[i] := List.getElem?_eq_getElem hi
    rw [h i _ hx, hx]
  · rw [List.getElem?_eq_none (Nat.le_of_not_lt hi), List.getElem?_eq_none]
    exact Nat.le_trans (List.length_take_le _ _) (Nat.le_of_not_lt hi)

end StandsAt

end Bytes
