import Gannet.Lib.Bytes
import Gannet.Lib.Text
import Gannet.Lib.Utf8

/-!
# Lower case and bytes

A program that looks for a word in the lower case of a text, and then cuts the text
itself at the length of the word, relies on both having the same bytes there. Lower
case does not keep lengths in general: the table of Unicode is a parameter here, with
what it says about ASCII characters.

- `ascii_of_prefix`: where the lower case starts with an ASCII word that has no `k` and
  does not end in `i`, the text starts with as many ASCII characters.
- `sliceFrom_ascii`: after ASCII characters a text can be cut.
-/

namespace CaseMapping

open Bytes Text Utf8

/-- A character of ASCII. -/
def IsAscii (c : Char) : Prop := c.toNat < 128

instance (c : Char) : Decidable (IsAscii c) := inferInstanceAs (Decidable (_ < _))

/-- `'İ'`, whose lower case is an `i` and a combining dot. -/
def dottedI : Char := Char.ofNat 0x130

/-- The Kelvin sign, whose lower case is a `k`. -/
def kelvin : Char := Char.ofNat 0x212A

/-- The table of `char::to_lowercase`. -/
structure LowerTable where
  lower : Char → List Char
  /-- Whether a sigma ends a word, by what is before it and after it. -/
  finalSigma : List Char → List Char → Bool
  ascii : ∀ c, IsAscii c → lower c = [c.toLower]
  dottedI : lower dottedI = ['i', Char.ofNat 0x307]
  kelvin : lower kelvin = ['k']
  ne_nil : ∀ c, lower c ≠ []
  other : ∀ c, ¬ IsAscii c → c ≠ CaseMapping.dottedI → c ≠ CaseMapping.kelvin →
    ∀ x ∈ lower c, ¬ IsAscii x

namespace LowerTable

/-- The lower case of a character where it stands: only a sigma looks around itself. -/
def lowerAt (table : LowerTable) (before : List Char) (c : Char) (after : List Char) :
    List Char :=
  if c = 'Σ' then [if table.finalSigma before after then 'ς' else 'σ'] else table.lower c

/-- The lower case of a text after what stands before it. -/
def toLowercaseFrom (table : LowerTable) (before : List Char) : List Char → List Char
  | [] => []
  | c :: after => table.lowerAt before c after ++ table.toLowercaseFrom (before ++ [c]) after

/-- `str::to_lowercase` -/
def toLowercase (table : LowerTable) (cs : List Char) : List Char := table.toLowercaseFrom [] cs

end LowerTable

/-- The table of a text that has no letters outside ASCII but the two. -/
def asciiTable : LowerTable where
  lower c := if c = dottedI then ['i', Char.ofNat 0x307] else if c = kelvin then ['k']
    else [c.toLower]
  finalSigma _ _ := false
  ascii c hc := by
    have hdotted : c ≠ dottedI := fun h => absurd (h ▸ hc) (by decide)
    have hkelvin : c ≠ kelvin := fun h => absurd (h ▸ hc) (by decide)
    rw [if_neg hdotted, if_neg hkelvin]
  dottedI := if_pos rfl
  kelvin := rfl
  ne_nil c := by
    split
    · exact List.cons_ne_nil _ _
    split <;> exact List.cons_ne_nil _ _
  other c hc hdotted hkelvin x hx := by
    rw [if_neg hdotted, if_neg hkelvin, List.mem_singleton] at hx
    have hsame : c.toLower = c := dif_neg fun h =>
      hc (Nat.lt_of_le_of_lt (UInt32.le_iff_toNat_le.mp h.2) (by decide))
    rwa [hx, hsame]

/-- `str::is_char_boundary` -/
def isCharBoundary (bytes : List UInt8) (n : Nat) : Bool :=
  n == 0 || match bytes[n]? with
    | some b => !isContinuation b
    | none => n == bytes.length

/-- `&s[n..]`, which panics where no character starts. -/
def sliceFrom (cs : List Char) (n : Nat) : Except Panic (List Char) :=
  if isCharBoundary (encode cs) n then .ok (lossyChars ((encode cs).drop n))
  else .error .outOfBounds

example : sliceFrom "aé!".toList 1 = .ok ['é', '!'] := by decide

example : sliceFrom "aé!".toList 2 = .error .outOfBounds := by decide

/-! ## Lower case -/

variable {table : LowerTable} {before after : List Char} {c : Char}

/-- What an ASCII character at the start of a lower case comes from. -/
theorem lowerAt_cases (table : LowerTable) (before after : List Char) (c : Char) :
    IsAscii c ∧ table.lowerAt before c after = [c.toLower] ∨
      table.lowerAt before c after = ['i', Char.ofNat 0x307] ∨
      table.lowerAt before c after = ['k'] ∨
      ∃ x xs, table.lowerAt before c after = x :: xs ∧ ¬ IsAscii x := by
  unfold LowerTable.lowerAt
  by_cases hsigma : c = 'Σ'
  · refine .inr (.inr (.inr ⟨_, [], if_pos hsigma, ?_⟩))
    cases table.finalSigma before after <;> decide
  rw [if_neg hsigma]
  by_cases hascii : IsAscii c
  · exact .inl ⟨hascii, table.ascii c hascii⟩
  by_cases hdotted : c = dottedI
  · exact .inr (.inl (hdotted ▸ table.dottedI))
  by_cases hkelvin : c = kelvin
  · exact .inr (.inr (.inl (hkelvin ▸ table.kelvin)))
  · obtain ⟨x, xs, hlower⟩ := List.exists_cons_of_ne_nil (table.ne_nil c)
    refine .inr (.inr (.inr ⟨x, xs, hlower, ?_⟩))
    exact table.other c hascii hdotted hkelvin x (hlower ▸ List.mem_cons_self)

theorem ascii_of_prefix_from {word cs : List Char} (hword : ∀ x ∈ word, IsAscii x)
    (hk : 'k' ∉ word) (hi : word.getLast? ≠ some 'i')
    (h : word <+: table.toLowercaseFrom before cs) :
    ∃ start rest, cs = start ++ rest ∧ start.map Char.toLower = word ∧
      ∀ c ∈ start, IsAscii c := by
  induction word generalizing before cs with
  | nil => exact ⟨[], cs, rfl, rfl, List.forall_mem_nil _⟩
  | cons w word ih =>
    have hw := hword w List.mem_cons_self
    cases cs with
    | nil => cases List.prefix_nil.mp h
    | cons c after =>
      rw [LowerTable.toLowercaseFrom] at h
      obtain ⟨hascii, hlower⟩ | hlower | hlower | ⟨x, xs, hlower, hx⟩ :=
        lowerAt_cases table before after c
      · rw [hlower, List.singleton_append, List.cons_prefix_cons] at h
        have hi' : word.getLast? ≠ some 'i' := by
          cases word with
          | nil => exact nofun
          | cons w' word => exact hi
        obtain ⟨start, rest, rfl, hmap, hstart⟩ :=
          ih (fun x hx => hword x (List.mem_cons_of_mem w hx))
            (fun hmem => hk (List.mem_cons_of_mem w hmem)) hi' h.2
        refine ⟨c :: start, rest, rfl, ?_, List.forall_mem_cons.mpr ⟨hascii, hstart⟩⟩
        rw [List.map_cons, hmap, h.1]
      · -- the dot would have to be the next character of the word
        rw [hlower, List.cons_append, List.cons_prefix_cons] at h
        obtain ⟨rfl, h⟩ := h
        cases word with
        | nil => exact absurd rfl hi
        | cons w' word =>
          rw [List.singleton_append, List.cons_prefix_cons] at h
          obtain ⟨rfl, -⟩ := h
          exact absurd (hword _ (List.mem_cons_of_mem _ List.mem_cons_self)) (by decide)
      · rw [hlower, List.singleton_append, List.cons_prefix_cons] at h
        exact absurd (h.1 ▸ List.mem_cons_self) hk
      · rw [hlower, List.cons_append, List.cons_prefix_cons] at h
        exact absurd (h.1 ▸ hw) hx

/-- The characters of the word come from as many ASCII characters. -/
theorem ascii_of_prefix {word cs : List Char} (hword : ∀ x ∈ word, IsAscii x)
    (hk : 'k' ∉ word) (hi : word.getLast? ≠ some 'i') (h : word <+: table.toLowercase cs) :
    ∃ start rest, cs = start ++ rest ∧ start.map Char.toLower = word ∧
      ∀ c ∈ start, IsAscii c :=
  ascii_of_prefix_from hword hk hi h

/-- A word with a `k` may come from more bytes. -/
example : "ok".toList <+: asciiTable.toLowercase ['o', kelvin] ∧
    sliceFrom ['o', kelvin] 2 = .error .outOfBounds := by decide

/-! ## Bytes -/

theorem encode_append (start rest : List Char) :
    encode (start ++ rest) = encode start ++ encode rest :=
  List.flatMap_append

/-- An ASCII character is one byte. -/
theorem length_encode_ascii {start : List Char} (h : ∀ c ∈ start, IsAscii c) :
    (encode start).length = start.length := by
  induction start with
  | nil => rfl
  | cons c start ih =>
    obtain ⟨hc, hstart⟩ := List.forall_mem_cons.mp h
    have hone : String.utf8EncodeChar c = [c.val.toUInt8] :=
      String.utf8EncodeChar_eq_singleton (Char.utf8Size_eq_one_iff.mpr
        (UInt32.le_iff_toNat_le.mpr (Nat.le_of_lt_succ hc)))
    show (String.utf8EncodeChar c ++ encode start).length = _
    rw [hone, List.singleton_append, List.length_cons, List.length_cons, ih hstart]

/-- A character starts after the bytes of the characters before it. -/
theorem isCharBoundary_encode (start rest : List Char) :
    isCharBoundary (encode (start ++ rest)) (encode start).length = true := by
  rw [isCharBoundary, encode_append, List.getElem?_append_right (Nat.le_refl _), Nat.sub_self]
  cases rest with
  | nil => simp [encode]
  | cons c rest =>
    obtain ⟨b, bs, hc, hb⟩ := encodeChar_head c
    show (_ || match (String.utf8EncodeChar c ++ encode rest)[0]? with
      | some b => !isContinuation b
      | none => _) = true
    rw [hc, List.cons_append, List.getElem?_cons_zero]
    simp [hb]

/-- There the text can be cut. -/
theorem sliceFrom_encode (start rest : List Char) :
    sliceFrom (start ++ rest) (encode start).length = .ok rest := by
  rw [sliceFrom, if_pos (isCharBoundary_encode start rest), encode_append, List.drop_left,
    lossyChars_encode]

end CaseMapping
