import Gannet.Lib.Checksum
import Gannet.Net.Packet

/-!
# Writing packets (pnet_packet)

A mutable packet is a view of a buffer, and its setters put their field's bytes in at its
offset. The checksum functions skip the word the checksum goes to.

- `receiverSum_checks`, `checksum_checks`: whoever receives what was sent with such a
  checksum accepts it.
- `receiverSum_word`: and does not accept it with another word in place of one, but for the
  two zeros of ones' complement arithmetic.
-/

namespace Gannet

open Bytes Checksum

/-! ## Fields -/

/-- The buffer with the bytes put in at the offset. -/
def putBytes (buf : List UInt8) (offset : Nat) (bytes : List UInt8) : List UInt8 :=
  buf.take offset ++ bytes ++ buf.drop (offset + bytes.length)

/-- `u16::octets` -/
def octets16 (value : UInt16) : List UInt8 := [.ofNat (value.toNat / 256), .ofNat value.toNat]

/-- `u32::octets` -/
def octets32 (value : UInt32) : List UInt8 :=
  [.ofNat (value.toNat / 16777216), .ofNat (value.toNat / 65536), .ofNat (value.toNat / 256),
    .ofNat value.toNat]

/-- `octets` -/
def Ipv4Addr.octets (ip : Ipv4Addr) : List UInt8 := [ip.a, ip.b, ip.c, ip.d]

theorem be16_octets16 (value : UInt16) :
    be16 (.ofNat (value.toNat / 256)) (.ofNat value.toNat) = value.toNat :=
  be16_ofNat value.toNat_lt

theorem be32_octets32 (value : UInt32) :
    be32 (.ofNat (value.toNat / 16777216)) (.ofNat (value.toNat / 65536))
      (.ofNat (value.toNat / 256)) (.ofNat value.toNat) = value.toNat := by
  have hlt := value.toNat_lt
  simp only [be32, be16, UInt8.toNat_ofNat']
  omega

theorem length_putBytes {buf bytes : List UInt8} {offset : Nat}
    (h : offset + bytes.length ≤ buf.length) : (putBytes buf offset bytes).length = buf.length := by
  simp only [putBytes, List.length_append, List.length_take, List.length_drop]
  omega

/-! ## Checksums (util) -/

/-- The loop of `sum_be_words` at word `i`. The `u32` it adds in is wide enough, see
`pseudoSum_lt`. -/
def sumBeWordsFrom (skipword : Nat) : Nat → List UInt8 → Nat
  | _, [] => 0
  -- "If the length is odd, make sure to checksum the final byte"
  | i, [last] => if i ≠ skipword then last.toNat <<< 8 else 0
  | i, hi :: lo :: rest =>
    (if i ≠ skipword then be16 hi lo else 0) + sumBeWordsFrom skipword (i + 1) rest

/-- `sum_be_words` -/
def sumBeWords (data : List UInt8) (skipword : Nat) : Nat := sumBeWordsFrom skipword 0 data

/-- `util::checksum` -/
def utilChecksum (data : List UInt8) (skipword : Nat) : UInt16 :=
  if data.length = 0 then 0 else .ofNat (complement (sumBeWords data skipword))

/-- `ipv4_word_sum` -/
def ipv4WordSum (ip : Ipv4Addr) : Nat := be16 ip.a ip.b + be16 ip.c ip.d

/-- What is added to the words of the data: the pseudo-header. -/
def pseudoSum (length : Nat) (source destination : Ipv4Addr) (protocol : UInt8) : Nat :=
  ipv4WordSum source + ipv4WordSum destination + protocol.toNat + length

/-- `util::ipv4_checksum`, without extra data. -/
def ipv4Checksum (data : List UInt8) (skipword : Nat) (source destination : Ipv4Addr)
    (protocol : UInt8) : UInt16 :=
  .ofNat (complement
    (pseudoSum data.length source destination protocol + sumBeWords data skipword))

variable {data : List UInt8} {skipword : Nat} {source destination : Ipv4Addr} {protocol : UInt8}

theorem sumBeWordsFrom_past {i : Nat} (h : skipword < i) (data : List UInt8) :
    sumBeWordsFrom skipword i data = wordSum data := by
  induction data using wordSum.induct generalizing i with
  | case1 => rfl
  | case2 last =>
    rw [sumBeWordsFrom, if_pos (by omega), wordSum, be16, Nat.shiftLeft_eq]
    simp
  | case3 hi lo rest ih => rw [sumBeWordsFrom, if_pos (by omega), ih (by omega), wordSum]

theorem sumBeWordsFrom_eq (skip i : Nat) (data : List UInt8) :
    sumBeWordsFrom (i + skip) i data = wordSumSkip skip data := by
  induction data using wordSum.induct generalizing i skip with
  | case1 => rw [sumBeWordsFrom, wordSumSkip]
  | case2 last =>
    rw [sumBeWordsFrom, wordSumSkip, be16, Nat.shiftLeft_eq]
    cases skip <;> simp
  | case3 hi lo rest ih =>
    cases skip with
    | zero =>
      rw [sumBeWordsFrom, if_neg (by omega), sumBeWordsFrom_past (by omega), Nat.zero_add]
      rfl
    | succ skip =>
      have hrest := ih skip (i + 1)
      rw [Nat.add_right_comm] at hrest
      rw [sumBeWordsFrom, if_pos (by omega), wordSumSkip, ← hrest, Nat.add_assoc]

/-- The sum of the words but one. -/
theorem sumBeWords_eq (data : List UInt8) (skipword : Nat) :
    sumBeWords data skipword = wordSumSkip skipword data := by
  have h := sumBeWordsFrom_eq skipword 0 data
  rwa [Nat.zero_add] at h

theorem wordSumSkip_le (skip : Nat) (data : List UInt8) : wordSumSkip skip data ≤ wordSum data := by
  induction data using wordSum.induct generalizing skip with
  | case1 =>
    rw [wordSumSkip]
    exact Nat.zero_le _
  | case2 last =>
    rw [wordSumSkip]
    split_ifs
    · exact Nat.zero_le _
    · exact Nat.le_refl _
  | case3 hi lo rest ih =>
    cases skip with
    | zero => exact Nat.le_add_left _ _
    | succ skip => exact Nat.add_le_add_left (ih skip) _

/-- No sum over an IP packet's data overflows the `u32` it is held in. -/
theorem pseudoSum_lt (hdata : data.length < 65536) :
    pseudoSum data.length source destination protocol + sumBeWords data skipword < 2 ^ 32 := by
  have hwords := wordSum_le data
  have hskip := wordSumSkip_le skipword data
  have hprotocol := protocol.toNat_lt
  have h₁ := be16_lt source.a source.b
  have h₂ := be16_lt source.c source.d
  have h₃ := be16_lt destination.a destination.b
  have h₄ := be16_lt destination.c destination.d
  rw [sumBeWords_eq]
  simp only [pseudoSum, ipv4WordSum]
  omega

/-! ## At the receiver -/

/-- What the receiver of a segment adds up. -/
def receiverSum (source destination : Ipv4Addr) (protocol : UInt8) (segment : List UInt8) : Nat :=
  pseudoSum segment.length source destination protocol + wordSum segment

theorem toNat_complement (sum : Nat) : (UInt16.ofNat (complement sum)).toNat = complement sum := by
  rw [UInt16.toNat_ofNat']
  exact Nat.mod_eq_of_lt (complement_lt sum)

/-- A word put in adds to the others. -/
theorem wordSum_putBytes (hskip : 2 * skipword + 2 ≤ data.length) (value : UInt16) :
    wordSum (putBytes data (2 * skipword) (octets16 value))
      = sumBeWords data skipword + value.toNat := by
  have hset := wordSum_set skipword (.ofNat (value.toNat / 256)) (.ofNat value.toNat) data hskip
  rw [be16_octets16] at hset
  rw [sumBeWords_eq]
  exact hset

theorem receiverSum_putBytes (hskip : 2 * skipword + 2 ≤ data.length) (value : UInt16) :
    receiverSum source destination protocol (putBytes data (2 * skipword) (octets16 value))
      = pseudoSum data.length source destination protocol + sumBeWords data skipword
        + value.toNat := by
  rw [receiverSum, wordSum_putBytes hskip, length_putBytes hskip, Nat.add_assoc]

/-- A segment sent with its checksum is accepted. -/
theorem receiverSum_checks (hskip : 2 * skipword + 2 ≤ data.length) :
    Checks (receiverSum source destination protocol (putBytes data (2 * skipword)
      (octets16 (ipv4Checksum data skipword source destination protocol)))) := by
  rw [receiverSum_putBytes hskip, ipv4Checksum, toNat_complement]
  exact checks_complement _

/-- A message sent with its checksum is accepted. -/
theorem checksum_checks (hskip : 2 * skipword + 2 ≤ data.length) :
    Checks (wordSum (putBytes data (2 * skipword) (octets16 (utilChecksum data skipword)))) := by
  rw [wordSum_putBytes hskip, utilChecksum, if_neg (by omega), toNat_complement]
  exact checks_complement _

theorem octets16_be16 (hi lo : UInt8) : octets16 (.ofNat (be16 hi lo)) = [hi, lo] := by
  have hlt := be16_lt hi lo
  have hhi := hi.toNat_lt
  have hlo := lo.toNat_lt
  rw [octets16, UInt16.toNat_ofNat', Nat.mod_eq_of_lt hlt, be16]
  have h₁ : (hi.toNat * 256 + lo.toNat) / 256 = hi.toNat := by omega
  have h₂ : UInt8.ofNat (hi.toNat * 256 + lo.toNat) = lo := by
    refine UInt8.toNat_inj.mp ?_
    rw [UInt8.toNat_ofNat']
    omega
  rw [h₁, h₂, UInt8.ofNat_toNat]

/-- Every word is one that could be put in. -/
theorem exists_word (hskip : 2 * skipword + 2 ≤ data.length) :
    ∃ value, putBytes data (2 * skipword) (octets16 value) = data := by
  have hdrop : data.drop (2 * skipword) = data[2 * skipword] :: data[2 * skipword + 1] ::
      data.drop (2 * skipword + 2) := by
    rw [List.drop_eq_getElem_cons, List.drop_eq_getElem_cons]
  refine ⟨.ofNat (be16 data[2 * skipword] data[2 * skipword + 1]), ?_⟩
  rw [octets16_be16, putBytes, List.append_assoc]
  conv_rhs => rw [← List.take_append_drop (2 * skipword) data, hdrop]
  rfl

/-- Of two segments that differ in one word only, both accepted, one has a zero there and the
other the other zero. -/
theorem receiverSum_word (hskip : 2 * skipword + 2 ≤ data.length) {value value' : UInt16}
    (h : Checks (receiverSum source destination protocol
      (putBytes data (2 * skipword) (octets16 value))))
    (h' : Checks (receiverSum source destination protocol
      (putBytes data (2 * skipword) (octets16 value')))) :
    value = value' ∨ value = 0 ∧ value' = 0xFFFF ∨ value = 0xFFFF ∧ value' = 0 := by
  rw [receiverSum_putBytes hskip] at h h'
  rcases h.word_unique value.toNat_lt value'.toNat_lt h' with hsame | ⟨h₁, h₂⟩ | ⟨h₁, h₂⟩
  · exact .inl (UInt16.toNat_inj.mp hsame)
  · exact .inr (.inl ⟨UInt16.toNat_inj.mp h₁, UInt16.toNat_inj.mp h₂⟩)
  · exact .inr (.inr ⟨UInt16.toNat_inj.mp h₁, UInt16.toNat_inj.mp h₂⟩)

end Gannet
