import Gannet.Lib.Bytes
import Gannet.Lib.Loop

/-!
# TCP options (discovery/fingerprint.rs)

`parse_tcp_options` collects the kinds of the options of a SYN+ACK, and
`parse_stack_fingerprint` walks the same bytes a second time for the values of
the MSS and the window scale. Each loop has its own copy of the bounds checks;
the bytes are the remote host's.

`optionAt` is the one decision both copies make at a position, and `Walk` the
options they pass. Both loops are folds over that list (`Walking`), so what one
sees the other sees.

`option_walks_agree`: on every byte string both loops return, having visited the
same offsets, and the values are those of options that were reported.
-/

namespace Gannet

open Bytes Loop

/-! ## The code -/

/-- `TcpOptionKind` -/
inductive TcpOptionKind where
  | mss
  | windowScale
  | sackPermitted
  | timestamp
  | nop
  | unknown (kind : UInt8)
deriving DecidableEq, Repr

/-- `StackFingerprint` -/
structure StackFingerprint where
  ttl : UInt8
  window : UInt16
  options : List TcpOptionKind
  mss : Option UInt16
  scale : Option UInt8
  sackOk : Bool
  nopCount : UInt8
deriving DecidableEq, Repr

/-- The kind an option with a length byte is pushed as. -/
def TcpOptionKind.ofByte (kind : UInt8) : TcpOptionKind :=
  match kind with
  | 2 => .mss
  | 3 => .windowScale
  | 4 => .sackPermitted
  | 8 => .timestamp
  | _ => .unknown kind

/-- One round of `parse_tcp_options`, over the position and the kinds so far. -/
def kindsRound (data : List UInt8) (st : Nat × List TcpOptionKind) :
    Except Panic (Control (Nat × List TcpOptionKind) (List TcpOptionKind)) :=
  if data.length ≤ st.1 then .ok (.stop st.2)
  else do
    let kind ← index data st.1
    if kind = 0 then return .stop st.2
    else if kind = 1 then return .again (st.1 + 1, st.2 ++ [.nop])
    else if data.length ≤ st.1 + 1 then return .stop st.2
    else
      let len := (← index data (st.1 + 1)).toNat
      if len < 2 ∨ data.length < st.1 + len then return .stop st.2
      else return .again (st.1 + len, st.2 ++ [.ofByte kind])

/-- `parse_tcp_options`; the fuel is enough (`parseTcpOptions_eq`). -/
def parseTcpOptions (data : List UInt8) : Except Panic (List TcpOptionKind) :=
  (run (kindsRound data) (data.length + 1) (0, [])).getD (.error .outOfFuel)

/-- The variables `mss` and `scale`. -/
abbrev OptionValues := Option UInt16 × Option UInt8

/-- One round of the loop of `parse_stack_fingerprint`. -/
def valuesRound (data : List UInt8) (st : Nat × OptionValues) :
    Except Panic (Control (Nat × OptionValues) OptionValues) :=
  if data.length ≤ st.1 then .ok (.stop st.2)
  else do
    let kind ← index data st.1
    if kind = 0 then return .stop st.2
    else if kind = 1 then return .again (st.1 + 1, st.2)
    else if data.length ≤ st.1 + 1 then return .stop st.2
    else
      let len := (← index data (st.1 + 1)).toNat
      if len < 2 ∨ data.length < st.1 + len then return .stop st.2
      else if kind = 2 ∧ 4 ≤ len then
        let mss := be16 (← index data (st.1 + 2)) (← index data (st.1 + 3))
        return .again (st.1 + len, some (.ofNat mss), st.2.2)
      else if kind = 3 ∧ 3 ≤ len then
        let scale ← index data (st.1 + 2)
        return .again (st.1 + len, st.2.1, some scale)
      else return .again (st.1 + len, st.2)

/-- `parse_stack_fingerprint`; `count() as u8` keeps the low byte. -/
def parseStackFingerprint (ttl : UInt8) (window : UInt16) (optionsRaw : List UInt8) :
    Except Panic StackFingerprint := do
  let kinds ← parseTcpOptions optionsRaw
  let (mss, scale) ← (run (valuesRound optionsRaw) (optionsRaw.length + 1) (0, none, none)).getD
    (.error .outOfFuel)
  return {
    ttl := ttl
    window := window
    options := kinds
    mss := mss
    scale := scale
    sackOk := kinds.contains .sackPermitted
    nopCount := .ofNat (kinds.count .nop) }

example : parseStackFingerprint 64 65535 [2, 4, 0x05, 0xB4, 1, 3, 3, 7]
    = .ok ⟨64, 65535, [.mss, .nop, .windowScale], some 1460, some 7, false, 1⟩ := by decide

/-! ## The walk -/

/-- An option that is passed: where it starts, its kind byte and its size. -/
structure PassedOption where
  offset : Nat
  kind : UInt8
  size : Nat
deriving DecidableEq, Repr

/-- The option at a position, unless the walk ends there. -/
def optionAt (data : List UInt8) (pos : Nat) : Option PassedOption :=
  match data[pos]? with
  | none => none
  | some kind =>
    if kind = 0 then none
    else if kind = 1 then some ⟨pos, kind, 1⟩
    else
      match data[pos + 1]? with
      | none => none
      | some len =>
        if len.toNat < 2 ∨ data.length < pos + len.toNat then none
        else some ⟨pos, kind, len.toNat⟩

/-- From `pos` the walk passes the options and ends at `last`. -/
inductive Walk (data : List UInt8) : Nat → List PassedOption → Nat → Prop where
  | stop {pos : Nat} : optionAt data pos = none → Walk data pos [] pos
  | pass {pos last : Nat} {o : PassedOption} {passed : List PassedOption} :
      optionAt data pos = some o → Walk data (pos + o.size) passed last →
      Walk data pos (o :: passed) last

/-- How a round finds the position it is at, with the option it passes if it does
not end the walk. -/
inductive Head (data : List UInt8) (pos : Nat) : Option PassedOption → Prop where
  | outside (hout : data.length ≤ pos) : Head data pos none
  | listEnd (hkind : data[pos]? = some 0) : Head data pos none
  | nop (hkind : data[pos]? = some 1) : Head data pos (some ⟨pos, 1, 1⟩)
  | cut {kind : UInt8} (hkind : data[pos]? = some kind) (hend : kind ≠ 0) (hnop : kind ≠ 1)
      (hout : data.length ≤ pos + 1) : Head data pos none
  | malformed {kind len : UInt8} (hkind : data[pos]? = some kind) (hend : kind ≠ 0)
      (hnop : kind ≠ 1) (hlen : data[pos + 1]? = some len)
      (hbad : len.toNat < 2 ∨ data.length < pos + len.toNat) : Head data pos none
  | option {kind len : UInt8} (hkind : data[pos]? = some kind) (hend : kind ≠ 0)
      (hnop : kind ≠ 1) (hlen : data[pos + 1]? = some len)
      (hgood : ¬ (len.toNat < 2 ∨ data.length < pos + len.toNat)) :
      Head data pos (some ⟨pos, kind, len.toNat⟩)

/-- What the walk does at a position. -/
theorem optionAt_head (data : List UInt8) (pos : Nat) : Head data pos (optionAt data pos) := by
  unfold optionAt
  cases hkind : data[pos]? with
  | none => exact .outside (List.getElem?_eq_none_iff.mp hkind)
  | some kind =>
    dsimp only
    by_cases hend : kind = 0
    · rw [if_pos hend]
      exact .listEnd (hend ▸ hkind)
    rw [if_neg hend]
    by_cases hnop : kind = 1
    · subst hnop
      exact .nop hkind
    rw [if_neg hnop]
    cases hlen : data[pos + 1]? with
    | none => exact .cut hkind hend hnop (List.getElem?_eq_none_iff.mp hlen)
    | some len =>
      dsimp only
      by_cases hbad : len.toNat < 2 ∨ data.length < pos + len.toNat
      · rw [if_pos hbad]
        exact .malformed hkind hend hnop hlen hbad
      · rw [if_neg hbad]
        exact .option hkind hend hnop hlen hbad

/-- What is known of an option that is passed. -/
theorem optionAt_some {data : List UInt8} {pos : Nat} {o : PassedOption}
    (h : optionAt data pos = some o) :
    o.offset = pos ∧ data[pos]? = some o.kind ∧ 0 < o.size ∧ pos + o.size ≤ data.length ∧
      (o.kind ≠ 1 → ∃ len, data[pos + 1]? = some len ∧ len.toNat = o.size) := by
  cases h ▸ optionAt_head data pos with
  | nop hkind =>
    have hpos := (List.getElem?_eq_some_iff.mp hkind).1
    exact ⟨rfl, hkind, Nat.one_pos, hpos, fun hne => absurd rfl hne⟩
  | @option kind len hkind _ _ hlen hgood =>
    exact ⟨rfl, hkind, by show 0 < len.toNat; omega, by show pos + len.toNat ≤ _; omega,
      fun _ => ⟨len, hlen, rfl⟩⟩

namespace Walk

variable {data : List UInt8} {pos last : Nat} {passed : List PassedOption}

/-- Every position has a walk: each option takes at least its kind byte. -/
theorem exists_walk (data : List UInt8) (pos : Nat) : ∃ passed last, Walk data pos passed last := by
  induction hm : data.length - pos using Nat.strongRecOn generalizing pos with
  | ind m ih =>
    cases hat : optionAt data pos with
    | none => exact ⟨[], pos, .stop hat⟩
    | some o =>
      obtain ⟨-, -, hsize, hfits, -⟩ := optionAt_some hat
      obtain ⟨passed, last, hwalk⟩ := ih (data.length - (pos + o.size)) (by omega) _ rfl
      exact ⟨o :: passed, last, .pass hat hwalk⟩

/-- Every option takes a byte at least. -/
theorem length_le (h : Walk data pos passed last) : passed.length ≤ data.length - pos := by
  induction h with
  | stop _ => exact Nat.zero_le _
  | pass hat _ ih =>
    obtain ⟨-, -, hsize, hfits, -⟩ := optionAt_some hat
    rw [List.length_cons]
    omega

/-- An option that is passed is the one at its offset. -/
theorem optionAt_eq (h : Walk data pos passed last) {o : PassedOption} (ho : o ∈ passed) :
    optionAt data o.offset = some o := by
  induction h with
  | stop _ => exact absurd ho List.not_mem_nil
  | pass hat _ ih =>
    rcases List.mem_cons.mp ho with rfl | ho
    · rw [(optionAt_some hat).1]
      exact hat
    · exact ih ho

end Walk

/-! ## The loops are folds over the walk -/

/-- The loop body decides as `optionAt` does, and updates its variables by `f`. -/
def Walking {σ : Type} (data : List UInt8)
    (body : Nat × σ → Except Panic (Control (Nat × σ) σ)) (f : σ → PassedOption → σ) : Prop :=
  ∀ pos acc, body (pos, acc) = .ok (match optionAt data pos with
    | none => .stop acc
    | some o => .again (pos + o.size, f acc o))

namespace Walking

variable {σ : Type} {data : List UInt8} {body : Nat × σ → Except Panic (Control (Nat × σ) σ)}
  {f : σ → PassedOption → σ} {pos last : Nat} {passed : List PassedOption}

/-- The loop visits the offsets of the options that are passed, and ends with
the fold over them. -/
theorem visits (h : Walking data body f) (hwalk : Walk data pos passed last) (acc : σ) :
    ∃ states, Visits body (pos, acc) states (last, passed.foldl f acc) (passed.foldl f acc) ∧
      states.map Prod.fst = passed.map PassedOption.offset := by
  induction hwalk generalizing acc with
  | @stop pos hat =>
    refine ⟨[], .stop ?_, rfl⟩
    rw [h, hat]
    rfl
  | @pass pos last o passed hat _ ih =>
    obtain ⟨states, hvisits, hoffsets⟩ := ih (f acc o)
    refine ⟨(pos, acc) :: states, .again ?_ hvisits, ?_⟩
    · rw [h, hat]
    · rw [List.map_cons, List.map_cons, hoffsets, (optionAt_some hat).1]

/-- A loop that goes along the walk folds over the options it passes. -/
theorem run_eq (h : Walking data body f) (hwalk : Walk data 0 passed last) (acc : σ) :
    run body (data.length + 1) (0, acc) = some (.ok (passed.foldl f acc)) := by
  obtain ⟨states, hvisits, hoffsets⟩ := h.visits hwalk acc
  have hlength : states.length = passed.length := by
    rw [← List.length_map Prod.fst, hoffsets, List.length_map]
  have := hwalk.length_le
  exact hvisits.halts.run_eq (by omega)

end Walking

/-- The kind an option is reported as. -/
def PassedOption.optionKind (o : PassedOption) : TcpOptionKind :=
  if o.kind = 1 then .nop else .ofByte o.kind

/-- The MSS of an option, if it is one and has its two bytes. -/
def PassedOption.mss (data : List UInt8) (o : PassedOption) : Option UInt16 :=
  if o.kind = 2 ∧ 4 ≤ o.size then
    some (.ofNat (be16 (data[o.offset + 2]?.getD 0) (data[o.offset + 3]?.getD 0)))
  else none

/-- The window scale of an option, if it is one and has its byte. -/
def PassedOption.scale (data : List UInt8) (o : PassedOption) : Option UInt8 :=
  if o.kind = 3 ∧ 3 ≤ o.size then some (data[o.offset + 2]?.getD 0) else none

/-- A kind pushed to the list. -/
def pushKind (kinds : List TcpOptionKind) (o : PassedOption) : List TcpOptionKind :=
  kinds ++ [o.optionKind]

/-- A later value replaces an earlier one. -/
def setValues (data : List UInt8) (values : OptionValues) (o : PassedOption) : OptionValues :=
  ((o.mss data).or values.1, (o.scale data).or values.2)

/-- A byte that is there is not past the end. -/
theorem not_length_le {data : List UInt8} {pos : Nat} {b : UInt8} (h : data[pos]? = some b) :
    ¬ data.length ≤ pos :=
  Nat.not_le.mpr (List.getElem?_eq_some_iff.mp h).1

/-- A byte that is there passes the check before it is read. -/
theorem index_checked {β : Type} {data : List UInt8} {pos : Nat} {b : UInt8}
    (h : data[pos]? = some b) (outside : Except Panic β) (next : UInt8 → Except Panic β) :
    (if data.length ≤ pos then outside else index data pos >>= next) = next b := by
  rw [if_neg (not_length_le h), index_of_getElem? h]
  rfl

/-- The loop for the kinds goes along the walk. -/
theorem kindsRound_walking (data : List UInt8) : Walking data (kindsRound data) pushKind := by
  intro pos kinds
  have hhead := optionAt_head data pos
  generalize optionAt data pos = passes at hhead ⊢
  unfold kindsRound
  cases hhead with
  | outside hout => exact if_pos hout
  | listEnd hkind =>
    rw [index_checked hkind]
    rfl
  | nop hkind =>
    rw [index_checked hkind]
    rfl
  | cut hkind hend hnop hout =>
    rw [index_checked hkind, if_neg hend, if_neg hnop, if_pos hout]
    rfl
  | malformed hkind hend hnop hlen hbad =>
    rw [index_checked hkind, if_neg hend, if_neg hnop, index_checked hlen]
    exact if_pos hbad
  | option hkind hend hnop hlen hgood =>
    rw [index_checked hkind, if_neg hend, if_neg hnop, index_checked hlen]
    refine (if_neg hgood).trans ?_
    simp only [pushKind, PassedOption.optionKind, if_neg hnop]
    rfl

/-- The bytes of an option can be read. -/
theorem index_inside {data : List UInt8} {pos size i : Nat} (hfits : pos + size ≤ data.length)
    (hi : i < size) : index data (pos + i) = .ok (data[pos + i]?.getD 0) := by
  rw [List.getElem?_eq_getElem (by omega), Option.getD_some]
  exact index_of_getElem? (List.getElem?_eq_getElem _)

/-- And so does the loop for the values. -/
theorem valuesRound_walking (data : List UInt8) :
    Walking data (valuesRound data) (setValues data) := by
  rintro pos ⟨mss, scale⟩
  have hhead := optionAt_head data pos
  generalize optionAt data pos = passes at hhead ⊢
  unfold valuesRound
  cases hhead with
  | outside hout => exact if_pos hout
  | listEnd hkind =>
    rw [index_checked hkind]
    rfl
  | nop hkind =>
    rw [index_checked hkind]
    rfl
  | cut hkind hend hnop hout =>
    rw [index_checked hkind, if_neg hend, if_neg hnop, if_pos hout]
    rfl
  | malformed hkind hend hnop hlen hbad =>
    rw [index_checked hkind, if_neg hend, if_neg hnop, index_checked hlen]
    exact if_pos hbad
  | @option kind len hkind hend hnop hlen hgood =>
    have hfits : pos + len.toNat ≤ data.length := by omega
    rw [index_checked hkind, if_neg hend, if_neg hnop, index_checked hlen]
    refine (if_neg hgood).trans ?_
    simp only [setValues, PassedOption.mss, PassedOption.scale]
    by_cases hmss : kind = 2 ∧ 4 ≤ len.toNat
    · have hscale : ¬ (kind = 3 ∧ 3 ≤ len.toNat) := fun h =>
        absurd (hmss.1.symm.trans h.1) (by decide)
      simp only [if_pos hmss, if_neg hscale, index_inside hfits (show 2 < len.toNat by omega),
        index_inside hfits (show 3 < len.toNat by omega)]
      rfl
    by_cases hscale : kind = 3 ∧ 3 ≤ len.toNat
    · simp only [if_neg hmss, if_pos hscale, index_inside hfits (show 2 < len.toNat by omega)]
      rfl
    · simp only [if_neg hmss, if_neg hscale]
      rfl

/-! ## What both functions return -/

theorem foldl_pushKind (passed : List PassedOption) (kinds : List TcpOptionKind) :
    passed.foldl pushKind kinds = kinds ++ passed.map PassedOption.optionKind := by
  induction passed generalizing kinds with
  | nil => exact (List.append_nil kinds).symm
  | cons o passed ih =>
    rw [List.foldl_cons, ih, pushKind, List.map_cons, List.append_assoc, List.singleton_append]

/-- The last value written, of a list with one more element in front. -/
theorem getLast?_filterMap_cons {α β : Type} (f : α → Option β) (x : α) (xs : List α)
    (before : Option β) : ((x :: xs).filterMap f).getLast?.or before
      = (xs.filterMap f).getLast?.or ((f x).or before) := by
  cases hx : f x with
  | none => rw [List.filterMap_cons_none hx, Option.none_or]
  | some y =>
    rw [List.filterMap_cons_some hx, List.getLast?_cons, Option.some_or, Option.some_or]
    cases (xs.filterMap f).getLast? <;> rfl

/-- The values are those of the last option that has one. -/
theorem foldl_setValues (data : List UInt8) (passed : List PassedOption) (values : OptionValues) :
    passed.foldl (setValues data) values =
      ((passed.filterMap (·.mss data)).getLast?.or values.1,
        (passed.filterMap (·.scale data)).getLast?.or values.2) := by
  induction passed generalizing values with
  | nil => rfl
  | cons o passed ih =>
    rw [List.foldl_cons, ih, setValues, getLast?_filterMap_cons, getLast?_filterMap_cons]

section Results

variable {data : List UInt8} {last : Nat} {passed : List PassedOption}

/-- The kinds of the options passed. -/
theorem parseTcpOptions_eq (hwalk : Walk data 0 passed last) :
    parseTcpOptions data = .ok (passed.map PassedOption.optionKind) := by
  rw [parseTcpOptions, (kindsRound_walking data).run_eq hwalk, foldl_pushKind]
  rfl

/-- The fingerprint by the options passed. -/
theorem parseStackFingerprint_eq (hwalk : Walk data 0 passed last) (ttl : UInt8)
    (window : UInt16) :
    parseStackFingerprint ttl window data = .ok {
      ttl := ttl
      window := window
      options := passed.map PassedOption.optionKind
      mss := (passed.filterMap (·.mss data)).getLast?
      scale := (passed.filterMap (·.scale data)).getLast?
      sackOk := (passed.map PassedOption.optionKind).contains .sackPermitted
      nopCount := .ofNat ((passed.map PassedOption.optionKind).count .nop) } := by
  rw [parseStackFingerprint, parseTcpOptions_eq hwalk, (valuesRound_walking data).run_eq hwalk,
    foldl_setValues, Option.or_none, Option.or_none]
  rfl

/-! ## Agreement -/

/-- The loop from position 0 visits the offsets, in order, and ends at `last`. -/
def VisitsOffsets {σ : Type} (body : Nat × σ → Except Panic (Control (Nat × σ) σ)) (init : σ)
    (offsets : List Nat) (last : Nat) : Prop :=
  ∃ states result,
    Visits body (0, init) states (last, result) result ∧ states.map Prod.fst = offsets

theorem optionKind_eq_mss_iff {o : PassedOption} : o.optionKind = .mss ↔ o.kind = 2 := by
  unfold PassedOption.optionKind TcpOptionKind.ofByte
  grind

theorem optionKind_eq_windowScale_iff {o : PassedOption} :
    o.optionKind = .windowScale ↔ o.kind = 3 := by
  unfold PassedOption.optionKind TcpOptionKind.ofByte
  grind

/-- A reported value is that of a reported option. -/
theorem exists_of_getLast? {β : Type} {f : PassedOption → Option β} {kind : TcpOptionKind}
    (hf : ∀ o, f o ≠ none → o.optionKind = kind)
    (h : (passed.filterMap f).getLast? ≠ none) : kind ∈ passed.map PassedOption.optionKind := by
  obtain ⟨y, hy⟩ := Option.ne_none_iff_exists'.mp h
  obtain ⟨o, ho, hfo⟩ := List.mem_filterMap.mp (List.mem_of_getLast? hy)
  exact List.mem_map.mpr ⟨o, ho, hf o (by rw [hfo]; exact Option.some_ne_none y)⟩

/-- Where no value is reported, no option that is passed has one. -/
theorem eq_none_of_getLast? {β : Type} {f : PassedOption → Option β}
    (h : (passed.filterMap f).getLast? = none) {o : PassedOption} (ho : o ∈ passed) :
    f o = none := by
  rw [List.getLast?_eq_none_iff, List.filterMap_eq_nil_iff] at h
  exact h o ho

/-- An option of a kind with a length byte, seen from its offset. -/
theorem Walk.size_at (hwalk : Walk data 0 passed last) {pos : Nat} {kind : UInt8}
    (hpos : pos ∈ passed.map PassedOption.offset) (hkind : data[pos]? = some kind)
    (hne : kind ≠ 1) :
    ∃ o ∈ passed, o.kind = kind ∧ ∃ len, data[pos + 1]? = some len ∧ len.toNat = o.size := by
  obtain ⟨o, ho, rfl⟩ := List.mem_map.mp hpos
  obtain ⟨-, hat, -, -, hlen⟩ := optionAt_some (hwalk.optionAt_eq ho)
  obtain rfl := Option.some.inj (hat.symm.trans hkind)
  exact ⟨o, ho, rfl, hlen hne⟩

/-- **Agreement**: on every byte string both loops return, and visit the same
options; a value that is reported has its kind among the options, and where it
is missing every visited option of its kind was too short. -/
theorem option_walks_agree (ttl : UInt8) (window : UInt16) (data : List UInt8) :
    ∃ fp offsets last, parseStackFingerprint ttl window data = .ok fp ∧
      parseTcpOptions data = .ok fp.options ∧
      VisitsOffsets (kindsRound data) [] offsets last ∧
      VisitsOffsets (valuesRound data) (none, none) offsets last ∧
      (fp.mss ≠ none → .mss ∈ fp.options) ∧
      (fp.scale ≠ none → .windowScale ∈ fp.options) ∧
      (fp.mss = none → ∀ pos ∈ offsets, data[pos]? = some 2 →
        ∃ len, data[pos + 1]? = some len ∧ len.toNat < 4) ∧
      (fp.scale = none → ∀ pos ∈ offsets, data[pos]? = some 3 →
        ∃ len, data[pos + 1]? = some len ∧ len.toNat < 3) := by
  obtain ⟨passed, last, hwalk⟩ := Walk.exists_walk data 0
  obtain ⟨states, hkinds, hstates⟩ := (kindsRound_walking data).visits hwalk []
  obtain ⟨states', hvalues, hstates'⟩ := (valuesRound_walking data).visits hwalk (none, none)
  refine ⟨_, passed.map PassedOption.offset, last, parseStackFingerprint_eq hwalk ttl window,
    parseTcpOptions_eq hwalk, ⟨states, _, hkinds, hstates⟩, ⟨states', _, hvalues, hstates'⟩,
    ?_, ?_, ?_, ?_⟩
  · refine exists_of_getLast? fun o ho => optionKind_eq_mss_iff.mpr ?_
    by_contra hkind
    exact ho (if_neg fun h => hkind h.1)
  · refine exists_of_getLast? fun o ho => optionKind_eq_windowScale_iff.mpr ?_
    by_contra hkind
    exact ho (if_neg fun h => hkind h.1)
  · intro hnone pos hpos hkind
    obtain ⟨o, ho, hok, len, hlen, hsize⟩ := hwalk.size_at hpos hkind (by decide)
    refine ⟨len, hlen, Nat.not_le.mp fun hlong => ?_⟩
    have hmss := eq_none_of_getLast? hnone ho
    rw [PassedOption.mss, if_pos ⟨hok, hsize ▸ hlong⟩] at hmss
    exact nomatch hmss
  · intro hnone pos hpos hkind
    obtain ⟨o, ho, hok, len, hlen, hsize⟩ := hwalk.size_at hpos hkind (by decide)
    refine ⟨len, hlen, Nat.not_le.mp fun hlong => ?_⟩
    have hscale := eq_none_of_getLast? hnone ho
    rw [PassedOption.scale, if_pos ⟨hok, hsize ▸ hlong⟩] at hscale
    exact nomatch hscale

end Results

end Gannet
