import Mathlib.Data.List.Basic
import Mathlib.Logic.Function.Iterate

/-!
# Formatting and splitting text

Text is handled as lists of characters. The first half is what fixed-format
keys are written with: bytes in two hexadecimal digits or in decimal, and the
facts that make such texts readable back (`hex2_inj`, `dec_inj`,
`append_sep_inj`). The second half is the text splitting of a standard
library: lines, and words between Unicode white space, with what is left of a text
that was written in lines (`lines_flatMap`, `splitWhitespace_trim`), and its
hexadecimal numbers.
-/

namespace Text

/-! ## Bytes as text -/

/-- A byte in two lower-case hexadecimal digits, high half first. -/
def hex2 (b : UInt8) : List Char :=
  [Nat.digitChar (b.toNat / 16), Nat.digitChar (b.toNat % 16)]

/-- A byte in two upper-case hexadecimal digits. -/
def hex2Upper (b : UInt8) : List Char := (hex2 b).map Char.toUpper

/-- A byte in decimal, without padding. -/
def dec (b : UInt8) : List Char := Nat.toDigits 10 b.toNat

/-- Even in upper case the sixteen digits are different characters. -/
theorem digitChar_toUpper_inj :
    ∀ m < 16, ∀ n < 16, (Nat.digitChar m).toUpper = (Nat.digitChar n).toUpper → m = n := by
  decide

theorem hex2Upper_inj {a b : UInt8} (h : hex2Upper a = hex2Upper b) : a = b := by
  have ha : a.toNat < 256 := a.toNat_lt
  have hb : b.toNat < 256 := b.toNat_lt
  simp only [hex2Upper, hex2, List.map_cons, List.map_nil, List.cons.injEq, and_true] at h
  have hdiv := digitChar_toUpper_inj _ (by omega) _ (by omega) h.1
  have hmod := digitChar_toUpper_inj _ (by omega) _ (by omega) h.2
  exact UInt8.toNat_inj.mp (by omega)

theorem hex2_inj {a b : UInt8} (h : hex2 a = hex2 b) : a = b :=
  hex2Upper_inj (congrArg (List.map Char.toUpper) h)

theorem dec_inj {a b : UInt8} (h : dec a = dec b) : a = b := by
  have hval := congrArg (fun cs => Nat.ofDigitChars 10 cs 0) h
  simp only [dec, Nat.ofDigitChars_ten_toDigits] at hval
  exact UInt8.toNat_inj.mp hval

theorem digitChar_ne_dot : ∀ n < 16, Nat.digitChar n ≠ '.' := by decide

theorem dot_notMem_hex2 (b : UInt8) : '.' ∉ hex2 b := by
  have hb : b.toNat < 256 := b.toNat_lt
  simp only [hex2, List.mem_cons, List.not_mem_nil, or_false, not_or]
  exact ⟨fun h => digitChar_ne_dot _ (by omega) h.symm,
    fun h => digitChar_ne_dot _ (by omega) h.symm⟩

theorem dot_notMem_dec (b : UInt8) : '.' ∉ dec b := by
  intro h
  have hdigit := Nat.isDigit_of_mem_toDigits (by decide) (by decide) h
  exact absurd hdigit (by decide)

/-- A separator that occurs in neither first part determines both parts. -/
theorem append_sep_inj {α : Type*} {x : α} :
    ∀ {l₁ l₂ t₁ t₂ : List α}, x ∉ l₁ → x ∉ l₂ →
      l₁ ++ x :: t₁ = l₂ ++ x :: t₂ → l₁ = l₂ ∧ t₁ = t₂
  | [], [], _, _, _, _, h => ⟨rfl, (List.cons.inj h).2⟩
  | [], _ :: _, _, _, _, h₂, h =>
    absurd ((List.cons.inj h).1 ▸ List.mem_cons_self) h₂
  | _ :: _, [], _, _, h₁, _, h =>
    absurd ((List.cons.inj h).1 ▸ List.mem_cons_self) h₁
  | a :: l₁, b :: l₂, _, _, h₁, h₂, h => by
    obtain ⟨hab, hrest⟩ := List.cons.inj h
    obtain ⟨hl, ht⟩ := append_sep_inj (fun hm => h₁ (List.mem_cons_of_mem _ hm))
      (fun hm => h₂ (List.mem_cons_of_mem _ hm)) hrest
    exact ⟨by rw [hab, hl], ht⟩

/-! ## Splitting -/

/-- The Unicode `White_Space` property. -/
def isWhitespace (c : Char) : Bool :=
  let n := c.toNat
  (0x09 ≤ n && n ≤ 0x0D) || n == 0x20 || n == 0x85 || n == 0xA0 || n == 0x1680 ||
    (0x2000 ≤ n && n ≤ 0x200A) || n == 0x2028 || n == 0x2029 || n == 0x202F ||
    n == 0x205F || n == 0x3000

/-- `str::split_whitespace`: the non-empty runs between white space. -/
def splitWhitespace (cs : List Char) : List (List Char) :=
  (cs.splitOnP isWhitespace).filter (· ≠ [])

/-- Without its final `'\r'`, if it has one. -/
def stripCr (cs : List Char) : List Char :=
  if cs.getLast? = some '\r' then cs.dropLast else cs

/-- The parts between separators have no separator. -/
theorem notMem_of_mem_splitOn {α : Type*} [BEq α] [LawfulBEq α] {sep : α} {xs part : List α}
    (h : part ∈ xs.splitOn sep) : sep ∉ part := by
  induction xs generalizing part with
  | nil =>
    rw [List.splitOn_nil, List.mem_singleton] at h
    rw [h]
    exact List.not_mem_nil
  | cons x xs ih =>
    rw [List.splitOn_cons_eq_if_modifyHead] at h
    by_cases hx : (x == sep) = true
    · rw [if_pos hx] at h
      rcases List.mem_cons.mp h with rfl | h
      · exact List.not_mem_nil
      · exact ih h
    · rw [if_neg hx] at h
      cases hparts : xs.splitOn sep with
      | nil => exact absurd hparts (List.splitOn_ne_nil sep xs)
      | cons first rest =>
        rw [hparts] at h ih
        rw [List.modifyHead_cons] at h
        rcases List.mem_cons.mp h with rfl | h
        · rw [List.mem_cons, not_or]
          exact ⟨fun heq => hx (beq_iff_eq.mpr heq.symm), ih List.mem_cons_self⟩
        · exact ih (List.mem_cons_of_mem first h)

/-- The first part ends before the first separator. -/
theorem head?_splitOn {α : Type*} [BEq α] [LawfulBEq α] (sep : α) (xs : List α) :
    (xs.splitOn sep).head? = some (xs.takeWhile (· != sep)) := by
  induction xs with
  | nil => rfl
  | cons x xs ih =>
    rw [List.splitOn_cons_eq_if_modifyHead]
    by_cases hx : (x == sep) = true
    · rw [if_pos hx, List.takeWhile_cons_of_neg (by simpa using hx)]
      rfl
    · rw [if_neg hx, List.takeWhile_cons_of_pos (by simpa using hx)]
      cases hparts : xs.splitOn sep with
      | nil => exact absurd hparts (List.splitOn_ne_nil sep xs)
      | cons first rest =>
        rw [hparts] at ih
        obtain rfl := Option.some.inj ih
        rfl

/-- `str::lines`: a line ends at `"\n"` or `"\r\n"`; the last line need not
end, and then keeps a `'\r'`. -/
def lines (cs : List Char) : List (List Char) :=
  let parts := cs.splitOn '\n'
  let last := parts.getLastD []
  parts.dropLast.map stripCr ++ if last = [] then [] else [last]

/-- Without the suffix at its end, if it ends with it. -/
def stripSuffix (suffix cs : List Char) : List Char := (cs.dropSuffix? suffix).getD cs

/-- `str::strip_prefix` -/
def stripStart (start cs : List Char) : Option (List Char) :=
  if start <+: cs then some (cs.drop start.length) else none

/-- `str::trim_end_matches`: without the suffix, as often as it stands at the
end. No text ends with it more often than it is long. -/
def trimEndMatches (suffix cs : List Char) : List Char := (stripSuffix suffix)^[cs.length] cs

/-- `str::trim`: without the white space at both ends. -/
def trim (cs : List Char) : List Char :=
  ((cs.dropWhile isWhitespace).reverse.dropWhile isWhitespace).reverse

/-- `str::find` for a pattern: the text before its first occurrence, and the text
after that. -/
def splitAtFirst (pattern : List Char) : List Char → Option (List Char × List Char)
  | [] => if pattern = [] then some ([], []) else none
  | c :: cs =>
    if pattern.isPrefixOf (c :: cs) then some ([], (c :: cs).drop pattern.length)
    else (splitAtFirst pattern cs).map fun (before, after) => (c :: before, after)

/-- `char::to_lowercase`, as far as a comparison with an ASCII text can tell:
outside ASCII only the Kelvin sign has an ASCII lower case. -/
def lowerAscii (c : Char) : Char := if c = Char.ofNat 0x212A then 'k' else c.toLower

/-- `str::to_lowercase`, as far as a search for an ASCII text can tell: outside
ASCII only U+0130 besides has ASCII in its lower case, an `i` before a combining
dot. -/
def lowercase (cs : List Char) : List Char :=
  cs.flatMap fun c => if c = Char.ofNat 0x130 then ['i', Char.ofNat 0x307] else [lowerAscii c]

example : lines "a b\r\nc\n".toList = ["a b".toList, "c".toList] := by decide

example : trimEndMatches ".local".toList "a.local.local".toList = ['a'] := by decide

example : trim " 10.0.0.1\n".toList = "10.0.0.1".toList := by decide

example : splitAtFirst "ab".toList "aabb".toList = some (['a'], ['b']) := by decide

example : splitWhitespace "  a\tbc ".toList = [['a'], ['b', 'c']] := by decide

theorem stripStart_append (start cs : List Char) : stripStart start (start ++ cs) = some cs := by
  rw [stripStart, if_pos (List.prefix_append _ _), List.drop_left]

/-- A pattern is found where its first character is. -/
theorem splitAtFirst_append {c : Char} {pattern before : List Char} (h : c ∉ before)
    (after : List Char) :
    splitAtFirst (c :: pattern) (before ++ (c :: pattern ++ after)) = some (before, after) := by
  induction before with
  | nil => simp [splitAtFirst]
  | cons x before ih =>
    rw [List.mem_cons, not_or] at h
    rw [List.cons_append, splitAtFirst, List.isPrefixOf_cons_cons, beq_false_of_ne h.1, Bool.false_and,
      if_neg Bool.false_ne_true, ih h.2]
    rfl

/-- A pattern is found where its first two characters are. -/
theorem splitAtFirst_append_of_pair {c d : Char} {pattern before : List Char}
    (h : splitAtFirst [c, d] (before ++ [c]) = none) (after : List Char) :
    splitAtFirst (c :: d :: pattern) (before ++ (c :: d :: pattern ++ after))
      = some (before, after) := by
  induction before with
  | nil => simp [splitAtFirst]
  | cons x before ih =>
    rw [List.cons_append, splitAtFirst] at h
    split at h
    · cases h
    · have hne : ¬ (c :: d :: pattern).isPrefixOf (x :: (before ++ (c :: d :: pattern ++ after)))
          = true := by
        cases before <;> simp_all [List.isPrefixOf]
      rw [List.cons_append, splitAtFirst, if_neg hne, ih (Option.map_eq_none_iff.mp h)]
      rfl

/-! ## Words and lines -/

variable {c : Char} {cs : List Char}

theorem splitWhitespace_cons (hc : isWhitespace c = true) :
    splitWhitespace (c :: cs) = splitWhitespace cs := by
  rw [splitWhitespace, List.splitOnP_cons_eq_if_modifyHead, if_pos hc,
    List.filter_cons_of_neg (by simp)]
  rfl

theorem splitWhitespace_concat (hc : isWhitespace c = true) :
    splitWhitespace (cs ++ [c]) = splitWhitespace cs := by
  rw [splitWhitespace, List.splitOnP_append_cons cs [] hc, List.splitOnP_nil, List.filter_append,
    List.filter_cons_of_neg (by simp), List.filter_nil, List.append_nil]
  rfl

/-- White space at the ends is not part of a word. -/
theorem splitWhitespace_trim (cs : List Char) : splitWhitespace (trim cs) = splitWhitespace cs := by
  have hfront : ∀ cs : List Char, splitWhitespace (cs.dropWhile isWhitespace)
      = splitWhitespace cs := by
    intro cs
    induction cs with
    | nil => rfl
    | cons c cs ih =>
      by_cases hc : isWhitespace c = true
      · rw [List.dropWhile_cons_of_pos hc, ih, splitWhitespace_cons hc]
      · rw [List.dropWhile_cons_of_neg hc]
  have hback : ∀ cs : List Char, splitWhitespace (cs.dropWhile isWhitespace).reverse
      = splitWhitespace cs.reverse := by
    intro cs
    induction cs with
    | nil => rfl
    | cons c cs ih =>
      by_cases hc : isWhitespace c = true
      · rw [List.dropWhile_cons_of_pos hc, ih, List.reverse_cons, splitWhitespace_concat hc]
      · rw [List.dropWhile_cons_of_neg hc]
  rw [trim, hback, List.reverse_reverse, hfront]

/-- A line is what it was before the white space after it. -/
theorem trim_concat (hc : isWhitespace c = true)
    (hhead : ∀ x, cs.head? = some x → isWhitespace x = false)
    (hlast : ∀ x, cs.getLast? = some x → isWhitespace x = false) : trim (cs ++ [c]) = cs := by
  have hkeep : ∀ cs : List Char, (∀ x, cs.head? = some x → isWhitespace x = false) →
      cs.dropWhile isWhitespace = cs := by
    intro cs h
    cases cs with
    | nil => rfl
    | cons x xs => exact List.dropWhile_cons_of_neg (by simp [h x rfl])
  cases cs with
  | nil =>
    rw [List.nil_append, trim, List.dropWhile_cons_of_pos hc]
    rfl
  | cons x xs =>
    have hx : ¬ isWhitespace x = true := by simp [hhead x rfl]
    rw [trim, List.cons_append, List.dropWhile_cons_of_neg hx, ← List.cons_append,
      List.reverse_append, List.reverse_singleton, List.singleton_append,
      List.dropWhile_cons_of_pos hc, hkeep _ (by rwa [List.head?_reverse]), List.reverse_reverse]

theorem stripCr_of_notMem (h : '\r' ∉ cs) : stripCr cs = cs :=
  if_neg fun hlast => h (List.mem_of_getLast? hlast)

/-- Lines that are written one after the other are read back. -/
theorem lines_flatMap {ls : List (List Char)} (hnl : ∀ l ∈ ls, '\n' ∉ l)
    (hcr : ∀ l ∈ ls, '\r' ∉ l) : lines (ls.flatMap (· ++ ['\n'])) = ls := by
  have hsplit : (ls.flatMap (· ++ ['\n'])).splitOn '\n' = ls ++ [[]] := by
    clear hcr
    induction ls with
    | nil => rfl
    | cons l ls ih =>
      rw [List.flatMap_cons, List.append_assoc, List.singleton_append,
        List.splitOn_append_cons_self_of_not_mem (hnl l List.mem_cons_self),
        ih fun l' hl' => hnl l' (List.mem_cons_of_mem l hl')]
      rfl
  rw [lines, hsplit]
  simp only [List.dropLast_concat, List.getLastD_concat, if_true, List.append_nil]
  calc ls.map stripCr = ls.map id := List.map_congr_left fun l hl => stripCr_of_notMem (hcr l hl)
    _ = ls := List.map_id ls

/-! ## Hexadecimal numbers -/

/-- `char::to_digit(16)` -/
def hexDigit (c : Char) : Option Nat :=
  if '0' ≤ c ∧ c ≤ '9' then some (c.toNat - 48)
  else if 'a' ≤ c ∧ c ≤ 'f' then some (c.toNat - 97 + 10)
  else if 'A' ≤ c ∧ c ≤ 'F' then some (c.toNat - 65 + 10)
  else none

/-- The digits from `n` on. -/
def hexDigits (n : Nat) : List Char → Option Nat
  | [] => some n
  | c :: cs => (hexDigit c).bind fun d => hexDigits (n * 16 + d) cs

/-- `from_str_radix(cs, 16)` for an unsigned type with values below `bound`: digits
after an optional plus sign. -/
def fromStrRadix16 (bound : Nat) (cs : List Char) : Option Nat :=
  let digits := if cs.head? = some '+' then cs.drop 1 else cs
  if digits = [] then none
  else (hexDigits 0 digits).filter (· < bound)

example : fromStrRadix16 256 "fF".toList = some 255 := by decide

example : fromStrRadix16 256 "100".toList = none := by decide

theorem hexDigit_digitChar : ∀ d < 16, hexDigit (Nat.digitChar d) = some d := by decide

theorem hexDigits_append (n : Nat) (xs ys : List Char) :
    hexDigits n (xs ++ ys) = (hexDigits n xs).bind (hexDigits · ys) := by
  induction xs generalizing n with
  | nil => rfl
  | cons x xs ih =>
    rw [List.cons_append, hexDigits, hexDigits]
    cases hexDigit x with
    | none => rfl
    | some d => exact ih _

theorem hexDigits_toDigits (n : Nat) : hexDigits 0 (Nat.toDigits 16 n) = some n := by
  induction n using Nat.strongRecOn with
  | ind n ih =>
    rw [Nat.toDigits_eq_if (by decide)]
    by_cases hlt : n < 16
    · rw [if_pos hlt, hexDigits, hexDigit_digitChar n hlt]
      simp [hexDigits]
    · rw [if_neg hlt, hexDigits_append, ih (n / 16) (by omega)]
      show (hexDigit _).bind _ = _
      rw [hexDigit_digitChar _ (Nat.mod_lt _ (by decide))]
      exact congrArg some (by omega)

/-- The last digit is the remainder. -/
theorem getLast?_toDigits (n : Nat) :
    (Nat.toDigits 16 n).getLast? = some (Nat.digitChar (n % 16)) := by
  rw [Nat.toDigits_eq_if (by decide)]
  split
  · rw [Nat.mod_eq_of_lt ‹_›]
    rfl
  · exact List.getLast?_concat

theorem hexDigits_replicate_zero (k : Nat) (cs : List Char) :
    hexDigits 0 (List.replicate k '0' ++ cs) = hexDigits 0 cs := by
  induction k with
  | zero => rfl
  | succ k ih => exact ih

/-- A text that is all digits is read as its number. -/
theorem fromStrRadix16_of_hexDigits {bound n : Nat} (hne : cs ≠ [])
    (hdigits : hexDigits 0 cs = some n) (hn : n < bound) : fromStrRadix16 bound cs = some n := by
  have hplus : cs.head? ≠ some '+' := by
    intro hhead
    obtain ⟨rest, rfl⟩ := List.head?_eq_some_iff.mp hhead
    cases hdigits
  rw [fromStrRadix16, if_neg hplus, if_neg hne, hdigits, Option.filter_some,
    if_pos (decide_eq_true hn)]

end Text
