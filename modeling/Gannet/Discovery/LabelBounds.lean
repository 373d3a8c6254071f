import Mathlib.Algebra.Order.BigOperators.Group.List
import Mathlib.Algebra.Order.Ring.Nat
import Gannet.Discovery.Label

/-!
# How long a decoded name gets (decode_label of mdns.rs and passive.rs)

A name of the DNS has labels of at most 63 bytes and at most 255 bytes in all.
Neither copy of `decode_label` has a limit: the prefixes 01 and 10 of a length
byte, which are reserved, are lengths, and nothing is added up. What bounds a
name is that no position is visited twice (`Halts.labels`): labels may overlap,
and a name may be longer than the packet it is read from, but each of its labels
takes a position of its own.

`decodeLabel_bounded`: the bounds that hold.
-/

namespace Gannet

open Bytes Loop Utf8

variable {data : List UInt8} {pos next : Nat} {labels : List (List UInt8)}

/-- The bytes of the labels with their length bytes and the final zero. -/
def wireLength (labels : List (List UInt8)) : Nat := (labels.map (·.length + 1)).sum + 1

/-- The data has the label after the length byte at the offset. -/
structure Announced (data : List UInt8) (offset : Nat) (len : UInt8) (label : List UInt8) :
    Prop where
  byte : data[offset]? = some len
  ne_zero : len ≠ 0
  not_pointer : len &&& 0xC0 ≠ 0xC0
  length : label.length = len.toNat
  inside : offset + 1 + label.length ≤ data.length
  stands : label = (data.drop (offset + 1)).take label.length

/-- A length byte is below the prefix of a pointer. -/
theorem lengthByte_le {len : UInt8} (h : len &&& 0xC0 ≠ 0xC0) : len.toNat ≤ 191 := by
  by_contra hlarge
  obtain ⟨n, hn⟩ := Nat.exists_eq_add_of_le (Nat.lt_of_not_le hlarge)
  have hlen : len.toNat < 256 := len.toNat_lt
  have hpointer := (pointerByte_spec n (by omega)).1
  rw [← show len.toNat = 0xC0 + n from hn, UInt8.ofNat_toNat] at hpointer
  exact h hpointer

/-- Every label stands behind a length byte that announces it. -/
theorem Name.announced (h : Name data pos labels next) :
    ∀ label ∈ labels, ∃ offset len, Announced data offset len label := by
  induction h with
  | root _ => exact fun _ hmem => nomatch hmem
  | @label pos next len labels hbyte hpos hlabel hfits _ ih =>
    intro label hmem
    rcases List.mem_cons.mp hmem with rfl | hmem
    · have hlength : ((data.drop (pos + 1)).take len.toNat).length = len.toNat := by
        rw [List.length_take, List.length_drop]
        omega
      exact ⟨pos, len, hbyte, hpos, hlabel, hlength, by rw [hlength]; exact hfits,
        by rw [hlength]⟩
    · exact ih label hmem
  | pointer _ _ _ _ ih => exact ih

/-- A loop that returns a name has made a round for each of its labels. -/
theorem halts_labels {st : LabelState} {n : Nat} {r : Option (String × Nat)}
    (h : Halts (decodeRound data) st n r) (hr : r.isSome) :
    ∃ labels next, Name data st.pos labels next ∧ labels.length ≤ n := by
  induction h with
  | @stop st r hstop =>
    obtain ⟨ctrl, hctrl, hround⟩ := decodeRound_spec data st
    obtain rfl := Except.ok.inj (hctrl.symm.trans hstop)
    cases hround with
    | root hbyte => exact ⟨[], _, .root hbyte, Nat.le_refl 0⟩
    | outside _ => cases hr
    | visited _ => cases hr
    | pointerCut _ _ _ => cases hr
    | labelCut _ _ _ _ => cases hr
  | @again st t n r hagain _ ih =>
    obtain ⟨labels, next, hname, hle⟩ := ih hr
    obtain ⟨ctrl, hctrl, hround⟩ := decodeRound_spec data st
    obtain rfl := Except.ok.inj (hctrl.symm.trans hagain)
    cases hround with
    | pointer _ hbyte hpointer hlo =>
      exact ⟨labels, _, .pointer hbyte hpointer hlo hname, Nat.le_succ_of_le hle⟩
    | label _ hbyte hpos hlabel hfits =>
      exact ⟨_ :: labels, next, .label hbyte hpos hlabel hfits hname, Nat.succ_le_succ hle⟩

/-- A name has fewer labels than the data has bytes. -/
theorem Name.labels_le (h : Name data pos labels next) : labels.length ≤ data.length - 1 := by
  obtain ⟨n, r, hhalts, hn, hrun, -⟩ := decodeLabel_spec data pos
  obtain rfl := Except.ok.inj (hrun.symm.trans (decodeLabel_of_name h))
  obtain ⟨labels', next', hname, hle⟩ := halts_labels hhalts rfl
  obtain ⟨rfl, rfl⟩ := h.unique hname
  exact Nat.le_trans hle hn

/-- Short labels bound the length of a name. -/
theorem wireLength_le {bound : Nat} (h : ∀ label ∈ labels, label.length ≤ bound) :
    wireLength labels ≤ (bound + 1) * labels.length + 1 := by
  have hsum := List.sum_le_card_nsmul (labels.map (·.length + 1)) (bound + 1) (by
    intro n hn
    obtain ⟨label, hmem, rfl⟩ := List.mem_map.mp hn
    exact Nat.succ_le_succ (h label hmem))
  rw [List.length_map, Nat.nsmul_eq_mul, Nat.mul_comm] at hsum
  exact Nat.succ_le_succ hsum

/-- **Bounded names**: if one of the decoders returns a name then each label it
followed was announced by a length byte of at most 191 and lies in the data, the
labels are fewer than the bytes of the data, and their total wire length is at
most 192 for each of these bytes but one, and the final zero. -/
theorem decodeLabel_bounded {text : String}
    (h : Mdns.decodeLabel data pos = .ok (some (text, next)) ∨
      Passive.decodeLabel data pos = .ok (some (text, next))) :
    ∃ labels, Name data pos labels next ∧ text = ".".intercalate (labels.map fromUtf8Lossy) ∧
      (∀ label ∈ labels, ∃ offset len, Announced data offset len label ∧ len.toNat ≤ 191) ∧
      labels.length ≤ data.length - 1 ∧
      wireLength labels ≤ 192 * (data.length - 1) + 1 := by
  obtain ⟨labels, hname, htext⟩ := decodeLabel_some (h.elim id id)
  have hannounced : ∀ label ∈ labels, ∃ offset len,
      Announced data offset len label ∧ len.toNat ≤ 191 := by
    intro label hmem
    obtain ⟨offset, len, hlabel⟩ := hname.announced label hmem
    exact ⟨offset, len, hlabel, lengthByte_le hlabel.not_pointer⟩
  refine ⟨labels, hname, htext, hannounced, hname.labels_le, ?_⟩
  have hwire : wireLength labels ≤ 192 * labels.length + 1 := wireLength_le fun label hmem => by
    obtain ⟨offset, len, hlabel, hlen⟩ := hannounced label hmem
    rw [hlabel.length]
    exact hlen
  have := hname.labels_le
  omega

/-- The name local, and after it nas.local, compressed. -/
def nasLocal : List UInt8 :=
  [5, 0x6C, 0x6F, 0x63, 0x61, 0x6C, 0, 3, 0x6E, 0x61, 0x73, 0xC0, 0]

/-- A name of one label and a pointer to the next. -/
theorem decodeLabel_bounded_nas :
    ∃ labels, Name nasLocal 7 labels 13 ∧
      "nas.local" = ".".intercalate (labels.map fromUtf8Lossy) ∧ labels.length ≤ 12 ∧
      wireLength labels ≤ 192 * 12 + 1 := by
  obtain ⟨labels, hname, htext, -, hcount, hwire⟩ := decodeLabel_bounded
    (show Mdns.decodeLabel nasLocal 7 = .ok (some ("nas.local", 13)) ∨ _ from
      .inl (by decide +kernel))
  exact ⟨labels, hname, htext, hcount, hwire⟩

/-- Two labels of 191 bytes that overlap, with the reserved prefix 10: the second
is reached through the pointer at the end of the first, and ends in it. -/
def overlapping : List UInt8 :=
  191 :: 191 :: List.replicate 190 0x61 ++ [0xC0, 1, 0x61, 0]

/-- Read from 196 bytes, the name takes more than they are, and more than a name
of the DNS may take; so does its first label. -/
theorem overlapping_name :
    ∃ labels next text, Name overlapping 0 labels next ∧
      Mdns.decodeLabel overlapping 0 = .ok (some (text, next)) ∧
      overlapping.length = 196 ∧ wireLength labels = 387 ∧ ∃ label ∈ labels, 63 < label.length := by
  have hbytes : overlapping[0]? = some 191 ∧ overlapping[192]? = some 0xC0 ∧
      overlapping[193]? = some 1 ∧ overlapping[1]? = some 191 ∧ overlapping[195]? = some 0 := by
    decide +kernel
  obtain ⟨hfirst, hpointer, hlow, hsecond, hroot⟩ := hbytes
  have hinner := Name.label hsecond (by decide) (by decide) (by decide +kernel)
    (Name.label hlow (by decide) (by decide) (by decide +kernel) (.root hroot))
  have hname := Name.label hfirst (by decide) (by decide) (by decide +kernel)
    (Name.pointer hpointer (by decide) hlow hinner)
  exact ⟨_, _, _, hname, decodeLabel_of_name hname, by decide +kernel, by decide +kernel,
    _, List.mem_cons_self, by decide +kernel⟩

end Gannet
