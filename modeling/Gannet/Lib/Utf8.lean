import Mathlib.Data.List.Basic

/-!
# Lossy UTF-8 decoding

`String::from_utf8_lossy`: well-formed sequences are decoded, and every maximal
prefix of a sequence that goes wrong becomes one U+FFFD. The ranges of the
second byte exclude overlong forms, surrogates and values beyond U+10FFFF.
-/

namespace Utf8

/-- U+FFFD -/
def replacement : Char := Char.ofNat 0xFFFD

/-- The length of the sequence a byte starts, 0 if it starts none. -/
def width (b : UInt8) : Nat :=
  if b < 0x80 then 1
  else if 0xC2 ≤ b ∧ b ≤ 0xDF then 2
  else if 0xE0 ≤ b ∧ b ≤ 0xEF then 3
  else if 0xF0 ≤ b ∧ b ≤ 0xF4 then 4
  else 0

/-- A byte that continues a sequence. -/
def isContinuation (b : UInt8) : Bool := b &&& 0xC0 == 0x80

/-- The second bytes that may follow a first byte of a sequence of three. -/
def isSecondOf3 (b₀ b₁ : UInt8) : Bool :=
  (b₀ == 0xE0 && 0xA0 ≤ b₁ && b₁ ≤ 0xBF) ||
  (0xE1 ≤ b₀ && b₀ ≤ 0xEC && 0x80 ≤ b₁ && b₁ ≤ 0xBF) ||
  (b₀ == 0xED && 0x80 ≤ b₁ && b₁ ≤ 0x9F) ||
  (0xEE ≤ b₀ && b₀ ≤ 0xEF && 0x80 ≤ b₁ && b₁ ≤ 0xBF)

/-- The second bytes that may follow a first byte of a sequence of four. -/
def isSecondOf4 (b₀ b₁ : UInt8) : Bool :=
  (b₀ == 0xF0 && 0x90 ≤ b₁ && b₁ ≤ 0xBF) ||
  (0xF1 ≤ b₀ && b₀ ≤ 0xF3 && 0x80 ≤ b₁ && b₁ ≤ 0xBF) ||
  (b₀ == 0xF4 && 0x80 ≤ b₁ && b₁ ≤ 0x8F)

/-- The character of a sequence of two. -/
def char2 (b₀ b₁ : UInt8) : Char :=
  Char.ofNat ((b₀ &&& 0x1F).toNat * 64 + (b₁ &&& 0x3F).toNat)

/-- The character of a sequence of three. -/
def char3 (b₀ b₁ b₂ : UInt8) : Char :=
  Char.ofNat ((b₀ &&& 0x0F).toNat * 4096 + (b₁ &&& 0x3F).toNat * 64 + (b₂ &&& 0x3F).toNat)

/-- The character of a sequence of four. -/
def char4 (b₀ b₁ b₂ b₃ : UInt8) : Char :=
  Char.ofNat ((b₀ &&& 0x07).toNat * 262144 + (b₁ &&& 0x3F).toNat * 4096
    + (b₂ &&& 0x3F).toNat * 64 + (b₃ &&& 0x3F).toNat)

/-- The characters of the lossy decoding. A sequence that goes wrong is resumed
at the byte that does not belong to it. -/
def lossyChars : List UInt8 → List Char
  | [] => []
  | b₀ :: rest =>
    match width b₀, rest with
    | 1, rest => Char.ofNat b₀.toNat :: lossyChars rest
    | 2, b₁ :: rest =>
      if isContinuation b₁ then char2 b₀ b₁ :: lossyChars rest
      else replacement :: lossyChars (b₁ :: rest)
    | 3, b₁ :: rest =>
      if isSecondOf3 b₀ b₁ then
        match rest with
        | b₂ :: rest =>
          if isContinuation b₂ then char3 b₀ b₁ b₂ :: lossyChars rest
          else replacement :: lossyChars (b₂ :: rest)
        | [] => [replacement]
      else replacement :: lossyChars (b₁ :: rest)
    | 4, b₁ :: rest =>
      if isSecondOf4 b₀ b₁ then
        match rest with
        | b₂ :: rest =>
          if isContinuation b₂ then
            match rest with
            | b₃ :: rest =>
              if isContinuation b₃ then char4 b₀ b₁ b₂ b₃ :: lossyChars rest
              else replacement :: lossyChars (b₃ :: rest)
            | [] => [replacement]
          else replacement :: lossyChars (b₂ :: rest)
        | [] => [replacement]
      else replacement :: lossyChars (b₁ :: rest)
    | _, rest => replacement :: lossyChars rest

/-- `String::from_utf8_lossy(bytes).into_owned()` -/
def fromUtf8Lossy (bytes : List UInt8) : String := String.ofList (lossyChars bytes)

/-- The UTF-8 bytes of a text. -/
def encode (cs : List Char) : List UInt8 := cs.flatMap String.utf8EncodeChar

/-- `std::str::from_utf8`: the text, if the bytes are well formed, that is, if
the lossy decoding loses nothing. -/
def fromUtf8 (bytes : List UInt8) : Option (List Char) :=
  if encode (lossyChars bytes) = bytes then some (lossyChars bytes) else none

example : lossyChars [0x68, 0xC3, 0xA9, 0xE2, 0x82, 0x21] = ['h', 'é', replacement, '!'] := by
  decide

example : fromUtf8 [0x66, 0x6E, 0xC3] = none := by decide

/-! ## Decoding what was encoded -/

theorem width_lead2 : ∀ n < 32, 2 ≤ n → width (.ofNat (n + 0xC0)) = 2 := by decide

theorem width_lead3 : ∀ n < 16, width (.ofNat (n + 0xE0)) = 3 := by decide

theorem width_lead4 : ∀ n < 5, width (.ofNat (n + 0xF0)) = 4 := by decide

theorem isContinuation_tail : ∀ n < 64, isContinuation (.ofNat (n + 0x80)) = true := by decide

theorem bits_lead2 : ∀ n < 32, (UInt8.ofNat (n + 0xC0) &&& 0x1F).toNat = n := by decide

theorem bits_lead3 : ∀ n < 16, (UInt8.ofNat (n + 0xE0) &&& 0x0F).toNat = n := by decide

theorem bits_lead4 : ∀ n < 8, (UInt8.ofNat (n + 0xF0) &&& 0x07).toNat = n := by decide

theorem bits_tail : ∀ n < 64, (UInt8.ofNat (n + 0x80) &&& 0x3F).toNat = n := by decide

/-- Neither overlong nor a surrogate. -/
theorem isSecondOf3_tail : ∀ h < 16, ∀ n < 64, (h = 0 → 32 ≤ n) → (h = 13 → n < 32) →
    isSecondOf3 (.ofNat (h + 0xE0)) (.ofNat (n + 0x80)) = true := by decide

/-- Neither overlong nor beyond U+10FFFF. -/
theorem isSecondOf4_tail : ∀ h < 5, ∀ n < 64, (h = 0 → 16 ≤ n) → (h = 4 → n < 16) →
    isSecondOf4 (.ofNat (h + 0xF0)) (.ofNat (n + 0x80)) = true := by decide

variable {b₀ b₁ b₂ b₃ : UInt8}

theorem lossyChars_seq1 (hwidth : width b₀ = 1) (rest : List UInt8) :
    lossyChars (b₀ :: rest) = Char.ofNat b₀.toNat :: lossyChars rest := by
  simp [lossyChars, hwidth]

theorem lossyChars_seq2 (hwidth : width b₀ = 2) (h₁ : isContinuation b₁ = true)
    (rest : List UInt8) : lossyChars (b₀ :: b₁ :: rest) = char2 b₀ b₁ :: lossyChars rest := by
  simp [lossyChars, hwidth, h₁]

theorem lossyChars_seq3 (hwidth : width b₀ = 3) (h₁ : isSecondOf3 b₀ b₁ = true)
    (h₂ : isContinuation b₂ = true) (rest : List UInt8) :
    lossyChars (b₀ :: b₁ :: b₂ :: rest) = char3 b₀ b₁ b₂ :: lossyChars rest := by
  simp [lossyChars, hwidth, h₁, h₂]

theorem lossyChars_seq4 (hwidth : width b₀ = 4) (h₁ : isSecondOf4 b₀ b₁ = true)
    (h₂ : isContinuation b₂ = true) (h₃ : isContinuation b₃ = true) (rest : List UInt8) :
    lossyChars (b₀ :: b₁ :: b₂ :: b₃ :: rest) = char4 b₀ b₁ b₂ b₃ :: lossyChars rest := by
  simp [lossyChars, hwidth, h₁, h₂, h₃]

/-- The sequence of a character decodes to it, whatever follows. -/
theorem lossyChars_encodeChar (c : Char) (rest : List UInt8) :
    lossyChars (String.utf8EncodeChar c ++ rest) = c :: lossyChars rest := by
  have hvalid : c.val.toNat < 0xD800 ∨ 0xDFFF < c.val.toNat ∧ c.val.toNat < 0x110000 := c.valid
  have hc : Char.ofNat c.val.toNat = c := Char.ofNat_toNat c
  unfold String.utf8EncodeChar
  dsimp only
  generalize c.val.toNat = v at hvalid hc ⊢
  by_cases h1 : v ≤ 0x7F
  · rw [if_pos h1]
    have hv : (UInt8.ofNat v).toNat = v := by
      rw [UInt8.toNat_ofNat']
      omega
    have hwidth : width (.ofNat v) = 1 := if_pos (UInt8.lt_iff_toNat_lt.mpr (by
      rw [hv]
      exact Nat.lt_succ_of_le h1))
    rw [List.singleton_append, lossyChars_seq1 hwidth, hv, hc]
  rw [if_neg h1]
  by_cases h2 : v ≤ 0x7FF
  · rw [if_pos h2]
    have hlead : v / 64 % 0x20 < 32 := Nat.mod_lt _ (by decide)
    have htail : v % 0x40 < 64 := Nat.mod_lt _ (by decide)
    rw [List.cons_append, List.cons_append, List.nil_append,
      lossyChars_seq2 (width_lead2 _ hlead (by omega)) (isContinuation_tail _ htail), char2,
      bits_lead2 _ hlead, bits_tail _ htail,
      show v / 64 % 0x20 * 64 + v % 0x40 = v by omega, hc]
  rw [if_neg h2]
  have hmid : v / 64 % 0x40 < 64 := Nat.mod_lt _ (by decide)
  have htail : v % 0x40 < 64 := Nat.mod_lt _ (by decide)
  by_cases h3 : v ≤ 0xFFFF
  · rw [if_pos h3]
    have hlead : v / 4096 % 0x10 < 16 := Nat.mod_lt _ (by decide)
    have hsecond := isSecondOf3_tail _ hlead _ hmid (by omega) (by omega)
    rw [List.cons_append, List.cons_append, List.cons_append, List.nil_append,
      lossyChars_seq3 (width_lead3 _ hlead) hsecond (isContinuation_tail _ htail), char3,
      bits_lead3 _ hlead, bits_tail _ hmid, bits_tail _ htail,
      show v / 4096 % 0x10 * 4096 + v / 64 % 0x40 * 64 + v % 0x40 = v by omega, hc]
  · rw [if_neg h3]
    have hlead : v / 262144 % 0x08 < 5 := by omega
    have hhigh : v / 4096 % 0x40 < 64 := Nat.mod_lt _ (by decide)
    have hsecond := isSecondOf4_tail _ hlead _ hhigh (by omega) (by omega)
    rw [List.cons_append, List.cons_append, List.cons_append, List.cons_append, List.nil_append,
      lossyChars_seq4 (width_lead4 _ hlead) hsecond (isContinuation_tail _ hmid)
        (isContinuation_tail _ htail), char4,
      bits_lead4 _ (Nat.lt_trans hlead (by decide)), bits_tail _ hhigh, bits_tail _ hmid,
      bits_tail _ htail, show v / 262144 % 0x08 * 262144 + v / 4096 % 0x40 * 4096
        + v / 64 % 0x40 * 64 + v % 0x40 = v by omega, hc]

theorem lossyChars_encode_append (cs : List Char) (rest : List UInt8) :
    lossyChars (encode cs ++ rest) = cs ++ lossyChars rest := by
  induction cs with
  | nil => rfl
  | cons c cs ih =>
    show lossyChars ((String.utf8EncodeChar c ++ encode cs) ++ rest) = _
    rw [List.append_assoc, lossyChars_encodeChar, ih]
    rfl

theorem lossyChars_encode (cs : List Char) : lossyChars (encode cs) = cs := by
  have h := lossyChars_encode_append cs []
  rwa [List.append_nil, show lossyChars [] = [] from rfl, List.append_nil] at h

theorem fromUtf8Lossy_encode (cs : List Char) : fromUtf8Lossy (encode cs) = .ofList cs :=
  congrArg String.ofList (lossyChars_encode cs)

theorem fromUtf8_encode (cs : List Char) : fromUtf8 (encode cs) = some cs := by
  rw [fromUtf8, lossyChars_encode, if_pos rfl]

/-- What a cut encoding decodes to, if to anything, is the start of the text. -/
theorem prefix_of_fromUtf8_take {cs ds : List Char} {n : Nat}
    (h : fromUtf8 ((encode cs).take n) = some ds) : ds <+: cs ∧ encode ds = (encode cs).take n := by
  unfold fromUtf8 at h
  by_cases hvalid : encode (lossyChars ((encode cs).take n)) = (encode cs).take n
  · rw [if_pos hvalid] at h
    obtain rfl := Option.some.inj h
    refine ⟨⟨lossyChars ((encode cs).drop n), ?_⟩, hvalid⟩
    calc lossyChars ((encode cs).take n) ++ lossyChars ((encode cs).drop n)
        = lossyChars (encode (lossyChars ((encode cs).take n)) ++ (encode cs).drop n) := by
          rw [lossyChars_encode_append]
      _ = lossyChars (encode cs) := by rw [hvalid, List.take_append_drop]
      _ = cs := lossyChars_encode cs
  · rw [if_neg hvalid] at h
    exact nomatch h

/-- A character starts with a byte that continues none. -/
theorem encodeChar_head (c : Char) :
    ∃ b bs, String.utf8EncodeChar c = b :: bs ∧ isContinuation b = false := by
  have h1 : ∀ n < 128, isContinuation (.ofNat n) = false := by decide
  have h2 : ∀ n < 32, isContinuation (.ofNat (n + 0xC0)) = false := by decide
  have h3 : ∀ n < 16, isContinuation (.ofNat (n + 0xE0)) = false := by decide
  have h4 : ∀ n < 8, isContinuation (.ofNat (n + 0xF0)) = false := by decide
  unfold String.utf8EncodeChar
  dsimp only
  generalize c.val.toNat = v
  split
  · exact ⟨_, _, rfl, h1 v (Nat.lt_succ_of_le ‹_›)⟩
  split
  · exact ⟨_, _, rfl, h2 _ (Nat.mod_lt _ (by decide))⟩
  split
  · exact ⟨_, _, rfl, h3 _ (Nat.mod_lt _ (by decide))⟩
  · exact ⟨_, _, rfl, h4 _ (Nat.mod_lt _ (by decide))⟩

/-- `len()` counts the bytes. -/
theorem length_encode_toList (s : String) : (encode s.toList).length = s.utf8ByteSize := by
  rw [← String.size_toByteArray, ← String.utf8Encode_toList, List.utf8Encode,
    List.size_toByteArray]
  rfl

end Utf8
