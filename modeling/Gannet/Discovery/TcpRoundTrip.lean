import Gannet.Discovery.TcpOptions

/-!
# TCP options, written and read back

`TcpOption` is what a sender writes. `parseStackFingerprint_bytes`: of the
serialisation of a list of options the fingerprint has the kinds in order, the
last MSS and window scale, whether SACK is permitted, and the number of NOPs.
-/

namespace Gannet

open Bytes Loop

/-! ## Options -/

/-- An option as a sender writes it. -/
inductive TcpOption where
  | nop
  | mss (value : UInt16)
  | windowScale (shift : UInt8)
  | sackPermitted
  | timestamp (data : List UInt8) (hdata : data.length = 8)
  | unknown (kind : UInt8) (hkind : kind ∉ [0, 1, 2, 3, 4, 8]) (data : List UInt8)
      (hdata : data.length ≤ 253)
deriving DecidableEq

namespace TcpOption

/-- The first byte of an option. -/
def kindByte : TcpOption → UInt8
  | nop => 1
  | mss _ => 2
  | windowScale _ => 3
  | sackPermitted => 4
  | timestamp _ _ => 8
  | unknown kind _ _ _ => kind

/-- What follows the length byte. -/
def data : TcpOption → List UInt8
  | nop => []
  | mss value => [.ofNat (value.toNat / 256), .ofNat value.toNat]
  | windowScale shift => [shift]
  | sackPermitted => []
  | timestamp data _ => data
  | unknown _ _ data _ => data

/-- The serialisation: the kind, and for all but a NOP the length of the whole
and the data. -/
def bytes (o : TcpOption) : List UInt8 :=
  if o = nop then [o.kindByte] else o.kindByte :: .ofNat (o.data.length + 2) :: o.data

/-- The kind that is reported. -/
def kind : TcpOption → TcpOptionKind
  | nop => .nop
  | mss _ => .mss
  | windowScale _ => .windowScale
  | sackPermitted => .sackPermitted
  | timestamp _ _ => .timestamp
  | unknown kind _ _ _ => .unknown kind

/-- The value of an MSS option. -/
def mssValue : TcpOption → Option UInt16
  | mss value => some value
  | _ => none

/-- The shift of a window scale option. -/
def scaleValue : TcpOption → Option UInt8
  | windowScale shift => some shift
  | _ => none

variable {o : TcpOption}

theorem data_length_le (o : TcpOption) : o.data.length ≤ 253 := by
  cases o with
  | timestamp data hdata => exact (show data.length = 8 from hdata) ▸ by decide
  | unknown kind hkind data hdata => exact hdata
  | _ => exact Nat.le_of_ble_eq_true rfl

theorem bytes_of_ne_nop (h : o ≠ nop) :
    o.bytes = o.kindByte :: .ofNat (o.data.length + 2) :: o.data :=
  if_neg h

/-- What the length byte says. -/
theorem bytes_length (h : o ≠ nop) : o.bytes.length = o.data.length + 2 := by
  rw [bytes_of_ne_nop h]
  rfl

theorem bytes_length_pos (o : TcpOption) : 0 < o.bytes.length := by
  by_cases h : o = nop
  · subst h
    decide
  · rw [bytes_length h]
    omega

/-- No option is the end of the list. -/
theorem kindByte_ne_zero (o : TcpOption) : o.kindByte ≠ 0 := by
  cases o with
  | unknown kind hkind data hdata => exact fun h => hkind (by rw [show kind = 0 from h]; decide)
  | _ => simp [kindByte]

/-- Only a NOP has no length byte. -/
theorem kindByte_eq_one_iff : o.kindByte = 1 ↔ o = nop := by
  cases o with
  | nop => exact iff_of_true rfl rfl
  | unknown kind hkind data hdata =>
    exact iff_of_false (fun h => hkind (by rw [show kind = 1 from h]; decide)) nofun
  | _ => simp [kindByte]

/-- The option as the walk sees it at a position. -/
def placed (o : TcpOption) (pos : Nat) : PassedOption := ⟨pos, o.kindByte, o.bytes.length⟩

/-- The kind of an option where it stands. -/
theorem optionKind_placed (o : TcpOption) (pos : Nat) : (o.placed pos).optionKind = o.kind := by
  cases o with
  | unknown kind hkind data hdata =>
    simp only [List.mem_cons, List.not_mem_nil, or_false, not_or] at hkind
    obtain ⟨-, h1, h2, h3, h4, h8⟩ := hkind
    have hkindOf : TcpOptionKind.ofByte kind = .unknown kind := by
      unfold TcpOptionKind.ofByte
      grind
    exact (if_neg h1).trans hkindOf
  | _ => rfl

section Placed

variable {bytes : List UInt8} {pos : Nat}

/-- An option that stands at a position is the one the walk passes there. -/
theorem optionAt_placed (h : StandsAt bytes o.bytes pos)
    (hfits : pos + o.bytes.length ≤ bytes.length) : optionAt bytes pos = some (o.placed pos) := by
  by_cases hnop : o = nop
  · subst hnop
    have hkind : bytes[pos]? = some 1 := (standsAt_cons.mp h).1
    rw [optionAt, hkind]
    rfl
  rw [bytes_of_ne_nop hnop, standsAt_cons, standsAt_cons] at h
  obtain ⟨hkind, hlen, -⟩ := h
  have hlength := bytes_length hnop
  have hbyte : (UInt8.ofNat (o.data.length + 2)).toNat = o.bytes.length := by
    have := o.data_length_le
    rw [toNat_lengthByte (by omega), hlength]
  rw [optionAt, hkind]
  dsimp only
  rw [if_neg o.kindByte_ne_zero, if_neg (kindByte_eq_one_iff.not.mpr hnop), hlen]
  dsimp only
  rw [hbyte, if_neg (by omega)]
  rfl

/-- Its value, if it is an MSS. -/
theorem mss_placed (h : StandsAt bytes o.bytes pos) : (o.placed pos).mss bytes = o.mssValue := by
  cases o with
  | mss value =>
    have hhigh : bytes[pos + 2]? = some _ := h 2 _ rfl
    have hlow : bytes[pos + 3]? = some _ := h 3 _ rfl
    have hvalue := be16_ofNat value.toNat_lt
    rw [PassedOption.mss, if_pos ⟨rfl, Nat.le_refl 4⟩]
    simp only [placed, hhigh, hlow, Option.getD_some, hvalue, UInt16.ofNat_toNat, mssValue]
  | unknown kind hkind data hdata =>
    refine if_neg fun h => hkind ?_
    rw [show kind = 2 from h.1]
    decide
  | _ => rfl

/-- Its shift, if it is a window scale. -/
theorem scale_placed (h : StandsAt bytes o.bytes pos) :
    (o.placed pos).scale bytes = o.scaleValue := by
  cases o with
  | windowScale shift =>
    have hbyte : bytes[pos + 2]? = some shift := h 2 _ rfl
    rw [PassedOption.scale, if_pos ⟨rfl, Nat.le_refl 3⟩]
    simp only [placed, hbyte, Option.getD_some, scaleValue]
  | unknown kind hkind data hdata =>
    refine if_neg fun h => hkind ?_
    rw [show kind = 3 from h.1]
    decide
  | _ => rfl

end Placed

end TcpOption

/-! ## Reading back what was written -/

/-- The options one after the other. -/
def serialise (opts : List TcpOption) : List UInt8 := opts.flatMap TcpOption.bytes

/-- The options as the walk sees them, the first at `pos`. -/
def placedFrom : List TcpOption → Nat → List PassedOption
  | [], _ => []
  | o :: opts, pos => o.placed pos :: placedFrom opts (pos + o.bytes.length)

/-- What may follow the options: nothing, or an end marker and padding. -/
def EndsOptions (tail : List UInt8) : Prop := tail = [] ∨ ∃ padding, tail = 0 :: padding

/-- At the end of the list the walk stops. -/
theorem EndsOptions.optionAt {tail : List UInt8} (h : EndsOptions tail) (written : List UInt8) :
    optionAt (written ++ tail) written.length = none := by
  rw [Gannet.optionAt, List.getElem?_append_right (Nat.le_refl _), Nat.sub_self]
  rcases h with rfl | ⟨padding, rfl⟩ <;> rfl

section Written

variable {bytes : List UInt8}

/-- The walk over options that stand in the bytes passes just these. -/
theorem Walk.placedFrom {opts : List TcpOption} {pos : Nat}
    (h : StandsAt bytes (serialise opts) pos)
    (hfits : pos + (serialise opts).length ≤ bytes.length)
    (hend : optionAt bytes (pos + (serialise opts).length) = none) :
    Walk bytes pos (Gannet.placedFrom opts pos) (pos + (serialise opts).length) := by
  induction opts generalizing pos with
  | nil => exact .stop hend
  | cons o opts ih =>
    have hsplit : serialise (o :: opts) = o.bytes ++ serialise opts := List.flatMap_cons
    rw [hsplit, standsAt_append] at h
    rw [hsplit, List.length_append, ← Nat.add_assoc] at hfits hend ⊢
    have hat := TcpOption.optionAt_placed h.1 (by omega)
    exact .pass hat (ih h.2 hfits hend)

/-- The kinds of the options, wherever they start. -/
theorem map_placedFrom (opts : List TcpOption) (pos : Nat) :
    (placedFrom opts pos).map PassedOption.optionKind = opts.map TcpOption.kind := by
  induction opts generalizing pos with
  | nil => rfl
  | cons o opts ih => rw [placedFrom, List.map_cons, List.map_cons, o.optionKind_placed, ih]

/-- The values of the options, read where they stand. -/
theorem filterMap_placedFrom {β : Type} {f : PassedOption → Option β} {g : TcpOption → Option β}
    (hfg : ∀ o pos, StandsAt bytes o.bytes pos → f (o.placed pos) = g o)
    {opts : List TcpOption} {pos : Nat} (h : StandsAt bytes (serialise opts) pos) :
    (placedFrom opts pos).filterMap f = opts.filterMap g := by
  induction opts generalizing pos with
  | nil => rfl
  | cons o opts ih =>
    obtain ⟨hhead, htail⟩ := standsAt_append.mp (show StandsAt bytes (o.bytes ++ _) pos from h)
    rw [placedFrom, List.filterMap_cons, List.filterMap_cons, hfg o pos hhead, ih htail]

end Written

theorem TcpOption.kind_eq_nop_iff {o : TcpOption} : o.kind = .nop ↔ o = .nop := by
  cases o <;> simp [kind]

theorem TcpOption.kind_eq_sackPermitted_iff {o : TcpOption} :
    o.kind = .sackPermitted ↔ o = .sackPermitted := by
  cases o <;> simp [kind]

/-- NOPs are counted by their kind. -/
theorem count_kind_nop (opts : List TcpOption) :
    (opts.map TcpOption.kind).count .nop = opts.count .nop := by
  rw [List.count, List.countP_map, List.count]
  refine List.countP_congr fun o _ => ?_
  simp [TcpOption.kind_eq_nop_iff]

theorem length_le_serialise (opts : List TcpOption) : opts.length ≤ (serialise opts).length := by
  induction opts with
  | nil => exact Nat.le_refl 0
  | cons o opts ih =>
    have := o.bytes_length_pos
    rw [serialise, List.flatMap_cons, List.length_append, List.length_cons, ← serialise]
    omega

/-- **Round trip**: of options that take at most 40 bytes, with or without an end
marker and padding behind them, the fingerprint has the kinds in order, the last
values, and the number of NOPs. -/
theorem parseStackFingerprint_bytes {opts : List TcpOption} {tail : List UInt8}
    (hlength : (serialise opts).length ≤ 40) (htail : EndsOptions tail) (ttl : UInt8)
    (window : UInt16) :
    ∃ fp, parseStackFingerprint ttl window (serialise opts ++ tail) = .ok fp ∧
      fp.options = opts.map TcpOption.kind ∧
      fp.mss = (opts.filterMap TcpOption.mssValue).getLast? ∧
      fp.scale = (opts.filterMap TcpOption.scaleValue).getLast? ∧
      (fp.sackOk = true ↔ .sackPermitted ∈ opts) ∧
      fp.nopCount.toNat = opts.count .nop := by
  have hstands : StandsAt (serialise opts ++ tail) (serialise opts) 0 :=
    standsAt_after [] (serialise opts) tail
  have hend := htail.optionAt (serialise opts)
  have hwalk := Walk.placedFrom hstands (by rw [List.length_append]; omega)
    (by rw [Nat.zero_add]; exact hend)
  refine ⟨_, parseStackFingerprint_eq hwalk ttl window, map_placedFrom opts 0, ?_, ?_, ?_, ?_⟩
  · exact congrArg List.getLast?
      (filterMap_placedFrom (fun _ _ => TcpOption.mss_placed) hstands)
  · exact congrArg List.getLast?
      (filterMap_placedFrom (fun _ _ => TcpOption.scale_placed) hstands)
  · rw [map_placedFrom, List.contains_iff_mem, List.mem_map]
    simp only [TcpOption.kind_eq_sackPermitted_iff, exists_eq_right]
  · have hcount : opts.count .nop ≤ opts.length := List.count_le_length
    have := length_le_serialise opts
    dsimp only
    rw [map_placedFrom, count_kind_nop]
    exact toNat_lengthByte (by omega)

/-- The options of a common SYN+ACK. -/
def sampleOptions : List TcpOption :=
  [.mss 1460, .nop, .windowScale 7, .nop, .nop, .timestamp [0, 0, 0, 1, 0, 0, 0, 0] rfl,
    .sackPermitted]

/-- Three NOPs and an MSS, and padding after the end of the list. -/
theorem parseStackFingerprint_bytes_sample :
    ∃ fp, parseStackFingerprint 64 65535 (serialise sampleOptions ++ [0, 7]) = .ok fp ∧
      fp.mss = some 1460 ∧ fp.nopCount.toNat = 3 := by
  have hlength : (serialise sampleOptions).length ≤ 40 := by decide
  have htail : EndsOptions [0, 7] := .inr ⟨[7], rfl⟩
  obtain ⟨fp, hfp, -, hmss, -, -, hnops⟩ := parseStackFingerprint_bytes hlength htail 64 65535
  exact ⟨fp, hfp, hmss, hnops⟩

end Gannet
