import Mathlib.Algebra.Group.Nat.Defs
import Gannet.Lib.Text

/-!
# Addresses

`Ipv4Addr` is the standard library's, `MacAddr6` the `macaddr` crate's: octets
in order, their text form (`to_string`) and their parser (`from_str`).

Both text forms are injective (`Ipv4Addr.toText_inj`, `MacAddr6.toText_inj`):
a text kept in a record stands for one address.
-/

namespace Gannet

/-! ## IPv4 -/

/-- An IPv4 address, `Ipv4Addr::new(a, b, c, d)`. -/
@[ext]
structure Ipv4Addr where
  a : UInt8
  b : UInt8
  c : UInt8
  d : UInt8
deriving DecidableEq, Repr

namespace Ipv4Addr

/-- `Ipv4Addr::UNSPECIFIED`. -/
def unspecified : Ipv4Addr := ⟨0, 0, 0, 0⟩

/-- `is_unspecified` -/
def isUnspecified (ip : Ipv4Addr) : Bool := ip = unspecified

/-- 127.0.0.0/8 -/
def isLoopback (ip : Ipv4Addr) : Bool := ip.a = 127

/-- 224.0.0.0/4 -/
def isMulticast (ip : Ipv4Addr) : Bool := 224 ≤ ip.a && ip.a ≤ 239

/-- 10.0.0.0/8, 172.16.0.0/12 and 192.168.0.0/16 -/
def isPrivate (ip : Ipv4Addr) : Bool :=
  ip.a = 10 || (ip.a = 172 && 16 ≤ ip.b && ip.b ≤ 31) || (ip.a = 192 && ip.b = 168)

/-- `Ipv4Addr::BROADCAST`. -/
def broadcast : Ipv4Addr := ⟨255, 255, 255, 255⟩

/-- `u32::from(ip)`: the octets in network order. -/
def toU32 (ip : Ipv4Addr) : UInt32 :=
  ip.a.toUInt32 <<< 24 ||| ip.b.toUInt32 <<< 16 ||| ip.c.toUInt32 <<< 8 ||| ip.d.toUInt32

/-- `Ipv4Addr::from(bits)`. -/
def ofU32 (bits : UInt32) : Ipv4Addr :=
  ⟨(bits >>> 24).toUInt8, (bits >>> 16).toUInt8, (bits >>> 8).toUInt8, bits.toUInt8⟩

/-- The characters of `ip.to_string()`. -/
def chars (ip : Ipv4Addr) : List Char :=
  Text.dec ip.a ++ '.' :: (Text.dec ip.b ++ '.' :: (Text.dec ip.c ++ '.' :: Text.dec ip.d))

/-- `ip.to_string()`: dotted decimal. -/
def toText (ip : Ipv4Addr) : String := String.ofList ip.chars

/-- An octet of a dotted address: one to three digits, no leading zero unless
it is the only digit, at most 255. -/
def parseOctet (cs : List Char) : Option UInt8 :=
  if cs.all Char.isDigit && 0 < cs.length && cs.length ≤ 3
      && (cs.head? != some '0' || cs.length = 1) then
    let n := Nat.ofDigitChars 10 cs 0
    if n < 256 then some (UInt8.ofNat n) else none
  else none

/-- `Ipv4Addr::from_str`: four octets between dots, and nothing else. -/
def parse (cs : List Char) : Option Ipv4Addr :=
  match cs.splitOn '.' with
  | [a, b, c, d] => do
    return ⟨← parseOctet a, ← parseOctet b, ← parseOctet c, ← parseOctet d⟩
  | _ => none

example : parse "192.168.1.42".toList = some ⟨192, 168, 1, 42⟩ := by decide

example : parse "192.168.01.42".toList = none := by decide

theorem chars_inj {x y : Ipv4Addr} (h : x.chars = y.chars) : x = y := by
  obtain ⟨ha, h⟩ := Text.append_sep_inj (Text.dot_notMem_dec _) (Text.dot_notMem_dec _) h
  obtain ⟨hb, h⟩ := Text.append_sep_inj (Text.dot_notMem_dec _) (Text.dot_notMem_dec _) h
  obtain ⟨hc, hd⟩ := Text.append_sep_inj (Text.dot_notMem_dec _) (Text.dot_notMem_dec _) h
  exact Ipv4Addr.ext (Text.dec_inj ha) (Text.dec_inj hb) (Text.dec_inj hc) (Text.dec_inj hd)

/-- Different addresses have different texts. -/
theorem toText_inj {x y : Ipv4Addr} (h : x.toText = y.toText) : x = y :=
  chars_inj (String.ofList_inj.mp h)

/-- Every dotted address has a dot. -/
theorem dot_mem_toText (ip : Ipv4Addr) : '.' ∈ ip.toText.toList := by
  rw [toText, String.toList_ofList, chars]
  exact List.mem_append_right _ List.mem_cons_self

theorem parseOctet_dec (b : UInt8) : parseOctet (Text.dec b) = some b := by
  have hall : ∀ n < 256, parseOctet (Nat.toDigits 10 n) = some (.ofNat n) := by decide +kernel
  rw [Text.dec, hall b.toNat b.toNat_lt, UInt8.ofNat_toNat]

/-- The parser reads the text of every address. -/
theorem parse_chars (ip : Ipv4Addr) : parse ip.chars = some ip := by
  have hsplit : ip.chars.splitOn '.'
      = [Text.dec ip.a, Text.dec ip.b, Text.dec ip.c, Text.dec ip.d] := by
    rw [chars, List.splitOn_append_cons_self_of_not_mem (Text.dot_notMem_dec _),
      List.splitOn_append_cons_self_of_not_mem (Text.dot_notMem_dec _),
      List.splitOn_append_cons_self_of_not_mem (Text.dot_notMem_dec _),
      List.splitOn_eq_singleton (Text.dot_notMem_dec _)]
  rw [parse, hsplit]
  simp only [parseOctet_dec]
  rfl

theorem isDigit_of_parseOctet {cs : List Char} {b : UInt8} (h : parseOctet cs = some b) {c : Char}
    (hc : c ∈ cs) : c.isDigit = true := by
  rw [parseOctet] at h
  split at h
  next hall =>
    simp only [Bool.and_eq_true] at hall
    exact List.all_eq_true.mp hall.1.1.1 c hc
  next => cases h

/-- Only digits and dots are read as an address. -/
theorem isDigit_of_parse {cs : List Char} {ip : Ipv4Addr} (h : parse cs = some ip) {c : Char}
    (hc : c ∈ cs) : c.isDigit = true ∨ c = '.' := by
  rw [parse] at h
  split at h
  next o₁ o₂ o₃ o₄ hsplit =>
    have hcs : cs = o₁ ++ '.' :: (o₂ ++ '.' :: (o₃ ++ '.' :: o₄)) := by
      have hparts : ['.'].intercalate (cs.splitOn '.') = cs := List.intercalate_splitOn '.'
      rw [← hparts, hsplit]
      simp [List.intercalate, List.intersperse]
    simp only [Option.bind_eq_bind, Option.bind_eq_some_iff] at h
    obtain ⟨_, h₁, _, h₂, _, h₃, _, h₄, -⟩ := h
    simp only [hcs, List.mem_append, List.mem_cons] at hc
    obtain hc | rfl | hc | rfl | hc | rfl | hc := hc
    · exact .inl (isDigit_of_parseOctet h₁ hc)
    · exact .inr rfl
    · exact .inl (isDigit_of_parseOctet h₂ hc)
    · exact .inr rfl
    · exact .inl (isDigit_of_parseOctet h₃ hc)
    · exact .inr rfl
    · exact .inl (isDigit_of_parseOctet h₄ hc)
  next => cases h

/-- A dotted address is made of digits and dots. -/
theorem isDigit_of_mem_chars {ip : Ipv4Addr} {c : Char} (hc : c ∈ ip.chars) :
    c.isDigit = true ∨ c = '.' :=
  isDigit_of_parse (parse_chars ip) hc

/-- The number an address is, by its octets. -/
theorem toNat_toU32 (ip : Ipv4Addr) :
    ip.toU32.toNat
      = ip.a.toNat * 2 ^ 24 + ip.b.toNat * 2 ^ 16 + ip.c.toNat * 2 ^ 8 + ip.d.toNat := by
  have ha := ip.a.toNat_lt
  have hb := ip.b.toNat_lt
  have hc := ip.c.toNat_lt
  have hd := ip.d.toNat_lt
  -- each octet is shifted into bits that the ones before it leave free
  have h₁ : ip.a.toNat * 2 ^ 24 ||| ip.b.toNat * 2 ^ 16
      = (ip.a.toNat * 2 ^ 8 + ip.b.toNat) * 2 ^ 16 := by
    rw [Nat.mul_comm, ← Nat.two_pow_add_eq_or_of_lt (by omega)]
    omega
  have h₂ : (ip.a.toNat * 2 ^ 8 + ip.b.toNat) * 2 ^ 16 ||| ip.c.toNat * 2 ^ 8
      = ((ip.a.toNat * 2 ^ 8 + ip.b.toNat) * 2 ^ 8 + ip.c.toNat) * 2 ^ 8 := by
    rw [Nat.mul_comm, ← Nat.two_pow_add_eq_or_of_lt (by omega)]
    omega
  have h₃ : ((ip.a.toNat * 2 ^ 8 + ip.b.toNat) * 2 ^ 8 + ip.c.toNat) * 2 ^ 8 ||| ip.d.toNat
      = ((ip.a.toNat * 2 ^ 8 + ip.b.toNat) * 2 ^ 8 + ip.c.toNat) * 2 ^ 8 + ip.d.toNat := by
    rw [Nat.mul_comm, ← Nat.two_pow_add_eq_or_of_lt (by omega)]
  have hshift : ∀ x < 2 ^ 8, ∀ n ≤ 24, x <<< n % 2 ^ 32 = x * 2 ^ n := by
    intro x hx n hn
    rw [Nat.shiftLeft_eq]
    refine Nat.mod_eq_of_lt ?_
    calc x * 2 ^ n < 2 ^ 8 * 2 ^ n := Nat.mul_lt_mul_of_pos_right hx (Nat.two_pow_pos n)
      _ ≤ 2 ^ 8 * 2 ^ 24 := Nat.mul_le_mul_left _ (Nat.pow_le_pow_right (by omega) hn)
  rw [toU32]
  simp only [UInt32.toNat_or, UInt32.toNat_shiftLeft, UInt8.toNat_toUInt32]
  show (ip.a.toNat <<< 24 % 2 ^ 32 ||| ip.b.toNat <<< 16 % 2 ^ 32 ||| ip.c.toNat <<< 8 % 2 ^ 32
    ||| ip.d.toNat) = _
  rw [hshift _ ha _ (by omega), hshift _ hb _ (by omega), hshift _ hc _ (by omega), h₁, h₂, h₃]
  omega

theorem toU32_ofU32 (bits : UInt32) : (ofU32 bits).toU32 = bits := by
  have hbits := bits.toNat_lt
  refine UInt32.toNat_inj.mp ?_
  rw [toNat_toU32]
  simp only [ofU32, UInt32.toNat_toUInt8, UInt32.toNat_shiftRight]
  show bits.toNat >>> 24 % 2 ^ 8 * 2 ^ 24 + bits.toNat >>> 16 % 2 ^ 8 * 2 ^ 16
    + bits.toNat >>> 8 % 2 ^ 8 * 2 ^ 8 + bits.toNat % 2 ^ 8 = bits.toNat
  simp only [Nat.shiftRight_eq_div_pow]
  omega

/-- Different addresses are different numbers. -/
theorem toU32_inj {x y : Ipv4Addr} (h : x.toU32 = y.toU32) : x = y := by
  have hnat := congrArg UInt32.toNat h
  rw [toNat_toU32, toNat_toU32] at hnat
  have hx := And.intro x.b.toNat_lt (And.intro x.c.toNat_lt x.d.toNat_lt)
  have hy := And.intro y.b.toNat_lt (And.intro y.c.toNat_lt y.d.toNat_lt)
  have ha : x.a.toNat = y.a.toNat := by omega
  have hb : x.b.toNat = y.b.toNat := by omega
  have hc : x.c.toNat = y.c.toNat := by omega
  have hd : x.d.toNat = y.d.toNat := by omega
  exact Ipv4Addr.ext (UInt8.toNat_inj.mp ha) (UInt8.toNat_inj.mp hb) (UInt8.toNat_inj.mp hc)
    (UInt8.toNat_inj.mp hd)

theorem ofU32_toU32 (ip : Ipv4Addr) : ofU32 ip.toU32 = ip := toU32_inj (toU32_ofU32 _)

/-- The last octet is the number modulo 256. -/
theorem toNat_d (ip : Ipv4Addr) : ip.d.toNat = ip.toU32.toNat % 2 ^ 8 := by
  have hd := ip.d.toNat_lt
  rw [toNat_toU32]
  omega

end Ipv4Addr

/-! ## MAC -/

/-- A MAC address, `MacAddr6([b0, …, b5])`. -/
@[ext]
structure MacAddr6 where
  b0 : UInt8
  b1 : UInt8
  b2 : UInt8
  b3 : UInt8
  b4 : UInt8
  b5 : UInt8
deriving DecidableEq, Repr

namespace MacAddr6

/-- Its six bytes. -/
def asBytes (m : MacAddr6) : List UInt8 := [m.b0, m.b1, m.b2, m.b3, m.b4, m.b5]

/-- `nil`, the MAC that stands for none. -/
def nil : MacAddr6 := ⟨0, 0, 0, 0, 0, 0⟩

/-- `broadcast` -/
def broadcast : MacAddr6 := ⟨0xFF, 0xFF, 0xFF, 0xFF, 0xFF, 0xFF⟩

/-- `is_nil` -/
def isNil (m : MacAddr6) : Bool := m.asBytes.all (· == 0)

/-- `is_broadcast` -/
def isBroadcast (m : MacAddr6) : Bool := m.asBytes.all (· == 0xFF)

/-- `{}` of a MAC: upper-case hexadecimal bytes between colons. -/
def toText (m : MacAddr6) : String :=
  String.ofList (List.intercalate [':'] (m.asBytes.map Text.hex2Upper))

example : toText ⟨0xab, 0x0d, 0xef, 0x12, 0x34, 0x56⟩ = "AB:0D:EF:12:34:56" := by decide

theorem isNil_iff {m : MacAddr6} : m.isNil = true ↔ m = nil := by
  cases m
  simp [isNil, asBytes, nil]

theorem isBroadcast_iff {m : MacAddr6} : m.isBroadcast = true ↔ m = broadcast := by
  cases m
  simp [isBroadcast, asBytes, broadcast]

/-- Six bytes written one after the other by an injective two-digit code
determine the address. -/
theorem eq_of_bytes {m n : MacAddr6} (f : UInt8 → List Char)
    (hf : ∀ {x y : UInt8}, f x = f y → x = y)
    (h : m.asBytes.map f = n.asBytes.map f) : m = n := by
  simp only [asBytes, List.map_cons, List.map_nil, List.cons.injEq, and_true] at h
  obtain ⟨h0, h1, h2, h3, h4, h5⟩ := h
  exact MacAddr6.ext (hf h0) (hf h1) (hf h2) (hf h3) (hf h4) (hf h5)

/-- Different MACs have different texts. -/
theorem toText_inj {m n : MacAddr6} (h : m.toText = n.toText) : m = n := by
  have hchars := String.ofList_inj.mp h
  refine eq_of_bytes Text.hex2Upper Text.hex2Upper_inj ?_
  simp [asBytes, Text.hex2Upper, Text.hex2, List.intercalate, List.intersperse] at hchars ⊢
  tauto

/-! ### Parsing -/

/-- A delimiter the parser accepts between bytes. -/
inductive Delimiter where
  | hyphen
  | colon
  | dot
deriving DecidableEq, Repr

/-- The delimiter this character is. -/
def Delimiter.ofChar : Char → Option Delimiter
  | '-' => some .hyphen
  | ':' => some .colon
  | '.' => some .dot
  | _ => none

/-- `Parser::read_digit`. -/
def readDigit : List Char → Option (UInt8 × List Char)
  | [] => none
  | c :: cs =>
    let n := c.toNat
    if '0' ≤ c ∧ c ≤ '9' then some (UInt8.ofNat (n - 48), cs)
    else if 'a' ≤ c ∧ c ≤ 'f' then some (UInt8.ofNat (n - 97 + 10), cs)
    else if 'A' ≤ c ∧ c ≤ 'F' then some (UInt8.ofNat (n - 65 + 10), cs)
    else none

/-- `Parser::probe_delimiter` and the `move_next` after it: an optional
delimiter, which must be the one used before, if one was. -/
def skipDelimiter (delimiter : Option Delimiter) :
    List Char → Option (Option Delimiter × List Char)
  | [] => some (delimiter, [])
  | c :: cs =>
    match Delimiter.ofChar c, delimiter with
    | none, _ => some (delimiter, c :: cs)
    | some d, none => some (some d, cs)
    | some d, some d' => if d = d' then some (some d', cs) else none

/-- The loop of `Parser::read_v6_addr` for `n` more bytes. -/
def readBytes : Nat → Option Delimiter → List Char → Option (List UInt8 × List Char)
  | 0, _, cs => some ([], cs)
  | n + 1, delimiter, cs => do
    let (delimiter, cs) ← skipDelimiter delimiter cs
    let (high, cs) ← readDigit cs
    let (low, cs) ← readDigit cs
    let (bytes, cs) ← readBytes n delimiter cs
    return ((high * 16 + low) :: bytes, cs)

/-- `MacAddr6::from_str`: six bytes and nothing after them. -/
def parse (cs : List Char) : Option MacAddr6 :=
  match readBytes 6 none cs with
  | some ([b0, b1, b2, b3, b4, b5], []) => some ⟨b0, b1, b2, b3, b4, b5⟩
  | _ => none

example : parse "12-34-56-78-9A-BC".toList = some ⟨0x12, 0x34, 0x56, 0x78, 0x9A, 0xBC⟩ := by
  decide

example : parse "12:34-56:78:9A:BC".toList = none := by decide

end MacAddr6

end Gannet
