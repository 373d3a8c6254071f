import Mathlib.Data.List.Perm.Subperm
import Mathlib.Logic.Relation
import Gannet.Lib.Bytes
import Gannet.Lib.Loop
import Gannet.Lib.Utf8

/-!
# Compressed names (decode_label of mdns.rs and passive.rs)

A name in a DNS message is a chain of labels, closed by a zero byte; a pointer
continues the name at another offset of the message. The message is untrusted:
pointers may go forwards, backwards or round in circles, and labels may run past
the end. `decode_label` keeps the set of positions it has been at and gives up
when it comes back to one.

- `Name` says which positions hold a name, with its labels and where the bytes
  after it start.
- `decodeLabel_exact`: the decoder halts in time, stays inside the data and
  returns exactly the names.
- `InPlace.reads_iff`: which bytes it reads before the first pointer.

A slice has fewer than 2⁶³ bytes, so no sum of a position in it and a length
byte overflows a `usize`; positions are natural numbers here.
-/

namespace Gannet

open Bytes Loop Utf8 Relation

/-! ## The decoder -/

/-- The variables of the loop. `visited` is a set. -/
structure LabelState where
  pos : Nat
  parts : List String
  visited : List Nat
  endPos : Option Nat
deriving DecidableEq, Repr

/-- The loop's variables before its first round. -/
def LabelState.init (pos : Nat) : LabelState := ⟨pos, [], [], none⟩

/-- One round of the loop. -/
def decodeRound (data : List UInt8) (st : LabelState) :
    Except Panic (Control LabelState (Option (String × Nat))) :=
  if data.length ≤ st.pos then .ok (.stop none)
  else if st.pos ∈ st.visited then .ok (.stop none)
  else do
    -- `visited.insert(pos)` succeeded
    let visited := st.pos :: st.visited
    let byte ← index data st.pos
    if byte = 0x00 then
      let endPos := st.endPos.or (some (st.pos + 1))
      return .stop (some (".".intercalate st.parts, endPos.getD (st.pos + 1)))
    else if byte &&& 0xC0 = 0xC0 then
      if data.length ≤ st.pos + 1 then return .stop none
      else
        -- only the first pointer sets `end_pos`
        let lo ← index data (st.pos + 1)
        return .again ⟨be16 (byte &&& 0x3F) lo, st.parts, visited, st.endPos.or (some (st.pos + 2))⟩
    else
      -- any other length byte, also one of the reserved prefixes 01 and 10
      let first := st.pos + 1
      let last := first + byte.toNat
      if data.length < last then return .stop none
      else
        let label ← slice data first last
        return .again ⟨last, st.parts ++ [fromUtf8Lossy label], visited, st.endPos⟩

/-- The decoder; the fuel is enough for every input (`decodeLabel_exact`). -/
def decodeLabel (data : List UInt8) (pos : Nat) : Except Panic (Option (String × Nat)) :=
  (run (decodeRound data) (data.length + 1) (.init pos)).getD (.error .outOfFuel)

/-- `decode_label` of mdns.rs. -/
def Mdns.decodeLabel (data : List UInt8) (pos : Nat) : Except Panic (Option (String × Nat)) :=
  Gannet.decodeLabel data pos

/-- `decode_label` of passive.rs, the same code. -/
def Passive.decodeLabel (data : List UInt8) (pos : Nat) : Except Panic (Option (String × Nat)) :=
  Gannet.decodeLabel data pos

/-! ## Names -/

/-- At `pos` there is a name with these labels; `next` is the first byte after
its encoding in place. -/
inductive Name (data : List UInt8) : Nat → List (List UInt8) → Nat → Prop where
  | root {pos : Nat} (hbyte : data[pos]? = some 0) : Name data pos [] (pos + 1)
  | label {pos next : Nat} {len : UInt8} {labels : List (List UInt8)}
      (hbyte : data[pos]? = some len) (hpos : len ≠ 0) (hlabel : len &&& 0xC0 ≠ 0xC0)
      (hfits : pos + 1 + len.toNat ≤ data.length)
      (hrest : Name data (pos + 1 + len.toNat) labels next) :
      Name data pos ((data.drop (pos + 1)).take len.toNat :: labels) next
  | pointer {pos next : Nat} {hi lo : UInt8} {labels : List (List UInt8)}
      (hbyte : data[pos]? = some hi) (hpointer : hi &&& 0xC0 = 0xC0)
      (hlo : data[pos + 1]? = some lo)
      (hrest : Name data (be16 (hi &&& 0x3F) lo) labels next) :
      Name data pos labels (pos + 2)

/-- The name at `q` is the rest of the name at `p`. -/
inductive Follows (data : List UInt8) : Nat → Nat → Prop where
  | label {pos : Nat} {len : UInt8} (hbyte : data[pos]? = some len) (hpos : len ≠ 0)
      (hlabel : len &&& 0xC0 ≠ 0xC0) (hfits : pos + 1 + len.toNat ≤ data.length) :
      Follows data pos (pos + 1 + len.toNat)
  | pointer {pos : Nat} {hi lo : UInt8} (hbyte : data[pos]? = some hi)
      (hpointer : hi &&& 0xC0 = 0xC0) (hlo : data[pos + 1]? = some lo) :
      Follows data pos (be16 (hi &&& 0x3F) lo)

variable {data : List UInt8} {pos next p q : Nat} {labels : List (List UInt8)}

theorem pointer_ne_zero {byte : UInt8} (h : byte &&& 0xC0 = 0xC0) : byte ≠ 0 := by
  rintro rfl
  exact absurd h (by decide)

/-- The first byte of a pointer is the prefix and the high bits of the offset. -/
theorem pointerByte_spec : ∀ n < 64, UInt8.ofNat (0xC0 + n) &&& 0xC0 = 0xC0 ∧
    (UInt8.ofNat (0xC0 + n) &&& 0x3F).toNat = n := by decide

theorem Follows.unique {q' : Nat} (h : Follows data p q) (h' : Follows data p q') : q = q' := by
  cases h with
  | label hbyte _ hlabel _ =>
    cases h' with
    | label hbyte' _ _ _ => rw [Option.some.inj (hbyte.symm.trans hbyte')]
    | pointer hbyte' hpointer _ =>
      exact absurd (Option.some.inj (hbyte.symm.trans hbyte') ▸ hpointer) hlabel
  | pointer hbyte hpointer hlo =>
    cases h' with
    | label hbyte' _ hlabel _ =>
      exact absurd (Option.some.inj (hbyte.symm.trans hbyte') ▸ hpointer) hlabel
    | pointer hbyte' _ hlo' =>
      rw [Option.some.inj (hbyte.symm.trans hbyte'), Option.some.inj (hlo.symm.trans hlo')]

namespace Name

/-- A name takes at least a byte. -/
theorem lt_next (h : Name data pos labels next) : pos < next := by
  induction h with
  | root _ => omega
  | label _ _ _ _ _ ih => omega
  | pointer _ _ _ _ _ => omega

/-- And no more than there are. -/
theorem next_le (h : Name data pos labels next) : next ≤ data.length := by
  induction h with
  | root hbyte => exact (List.getElem?_eq_some_iff.mp hbyte).1
  | label _ _ _ _ _ ih => exact ih
  | pointer _ _ hlo _ _ => exact (List.getElem?_eq_some_iff.mp hlo).1

/-- A name that goes on goes on as a name. -/
theorem rest (h : Name data p labels next) (hfollows : Follows data p q) :
    ∃ labels' next', Name data q labels' next' := by
  cases h with
  | root hbyte =>
    cases hfollows with
    | label hbyte' hpos _ _ => exact absurd (Option.some.inj (hbyte'.symm.trans hbyte)) hpos
    | pointer hbyte' hpointer _ =>
      exact absurd (Option.some.inj (hbyte'.symm.trans hbyte)) (pointer_ne_zero hpointer)
  | label hbyte hpos hlabel hfits hrest =>
    rw [hfollows.unique (.label hbyte hpos hlabel hfits)]
    exact ⟨_, _, hrest⟩
  | pointer hbyte hpointer hlo hrest =>
    rw [hfollows.unique (.pointer hbyte hpointer hlo)]
    exact ⟨_, _, hrest⟩

/-- A position has at most one name. -/
theorem unique {labels' : List (List UInt8)} {next' : Nat} (h : Name data pos labels next)
    (h' : Name data pos labels' next') : labels = labels' ∧ next = next' := by
  induction h generalizing labels' next' with
  | root hbyte =>
    cases h' with
    | root _ => exact ⟨rfl, rfl⟩
    | label hbyte' hpos _ _ _ => exact absurd (Option.some.inj (hbyte'.symm.trans hbyte)) hpos
    | pointer hbyte' hpointer _ _ =>
      exact absurd (Option.some.inj (hbyte'.symm.trans hbyte)) (pointer_ne_zero hpointer)
  | label hbyte hpos hlabel _ _ ih =>
    cases h' with
    | root hbyte' => exact absurd (Option.some.inj (hbyte.symm.trans hbyte')) hpos
    | label hbyte' _ _ _ hrest' =>
      obtain rfl := Option.some.inj (hbyte.symm.trans hbyte')
      obtain ⟨rfl, rfl⟩ := ih hrest'
      exact ⟨rfl, rfl⟩
    | pointer hbyte' hpointer _ _ =>
      exact absurd (Option.some.inj (hbyte.symm.trans hbyte') ▸ hpointer) hlabel
  | pointer hbyte hpointer hlo _ ih =>
    cases h' with
    | root hbyte' =>
      exact absurd (Option.some.inj (hbyte.symm.trans hbyte')) (pointer_ne_zero hpointer)
    | label hbyte' _ hlabel _ _ =>
      exact absurd (Option.some.inj (hbyte.symm.trans hbyte') ▸ hpointer) hlabel
    | pointer hbyte' _ hlo' hrest' =>
      obtain rfl := Option.some.inj (hbyte.symm.trans hbyte')
      obtain rfl := Option.some.inj (hlo.symm.trans hlo')
      exact ⟨(ih hrest').1, rfl⟩

/-- A cycle of continuations starts with a step, after which it is a cycle of
the next position. -/
theorem cycle_rest (hfollows : Follows data p q) (hcycle : TransGen (Follows data) p p) :
    TransGen (Follows data) q q := by
  obtain ⟨q', hfirst, hback⟩ := TransGen.head'_iff.mp hcycle
  obtain rfl := hfollows.unique hfirst
  exact .tail' hback hfirst

/-- A position that holds a name is on no cycle. -/
theorem acyclic (h : Name data p labels next) : ¬ TransGen (Follows data) p p := by
  induction h with
  | @root pos hbyte =>
    intro hcycle
    obtain ⟨q, hfollows, -⟩ := TransGen.head'_iff.mp hcycle
    cases hfollows with
    | label hbyte' hpos _ _ => exact hpos (Option.some.inj (hbyte'.symm.trans hbyte))
    | pointer hbyte' hpointer _ =>
      exact pointer_ne_zero hpointer (Option.some.inj (hbyte'.symm.trans hbyte))
  | label hbyte hpos hlabel hfits _ ih =>
    exact fun hcycle => ih (cycle_rest (.label hbyte hpos hlabel hfits) hcycle)
  | pointer hbyte hpointer hlo _ ih =>
    exact fun hcycle => ih (cycle_rest (.pointer hbyte hpointer hlo) hcycle)

end Name

/-! ## One round -/

/-- What a round can do. -/
inductive Round (data : List UInt8) (st : LabelState) :
    Control LabelState (Option (String × Nat)) → Prop where
  | outside (hbyte : data[st.pos]? = none) : Round data st (.stop none)
  | visited (hvisited : st.pos ∈ st.visited) : Round data st (.stop none)
  | root (hbyte : data[st.pos]? = some 0) :
      Round data st
        (.stop (some (".".intercalate st.parts, st.endPos.getD (st.pos + 1))))
  | pointerCut {hi : UInt8} (hbyte : data[st.pos]? = some hi) (hpointer : hi &&& 0xC0 = 0xC0)
      (hlo : data[st.pos + 1]? = none) : Round data st (.stop none)
  | pointer {hi lo : UInt8} (hnew : st.pos ∉ st.visited) (hbyte : data[st.pos]? = some hi)
      (hpointer : hi &&& 0xC0 = 0xC0) (hlo : data[st.pos + 1]? = some lo) :
      Round data st (.again ⟨be16 (hi &&& 0x3F) lo, st.parts, st.pos :: st.visited,
        st.endPos.or (some (st.pos + 2))⟩)
  | labelCut {len : UInt8} (hbyte : data[st.pos]? = some len) (hpos : len ≠ 0)
      (hlabel : len &&& 0xC0 ≠ 0xC0) (hcut : data.length < st.pos + 1 + len.toNat) :
      Round data st (.stop none)
  | label {len : UInt8} (hnew : st.pos ∉ st.visited) (hbyte : data[st.pos]? = some len)
      (hpos : len ≠ 0) (hlabel : len &&& 0xC0 ≠ 0xC0)
      (hfits : st.pos + 1 + len.toNat ≤ data.length) :
      Round data st (.again ⟨st.pos + 1 + len.toNat,
        st.parts ++ [fromUtf8Lossy ((data.drop (st.pos + 1)).take len.toNat)],
        st.pos :: st.visited, st.endPos⟩)

/-- Every round stays inside the data and does one of these. -/
theorem decodeRound_spec (data : List UInt8) (st : LabelState) :
    ∃ ctrl, decodeRound data st = .ok ctrl ∧ Round data st ctrl := by
  unfold decodeRound
  by_cases hout : data.length ≤ st.pos
  · exact ⟨_, if_pos hout, .outside (List.getElem?_eq_none hout)⟩
  rw [if_neg hout]
  by_cases hvisited : st.pos ∈ st.visited
  · exact ⟨_, if_pos hvisited, .visited hvisited⟩
  rw [if_neg hvisited]
  obtain ⟨byte, hbyte⟩ : ∃ byte, data[st.pos]? = some byte :=
    ⟨_, List.getElem?_eq_getElem (by omega)⟩
  simp only [index_of_getElem? hbyte, bind, Except.bind, pure, Except.pure]
  by_cases hzero : byte = 0
  · subst hzero
    refine ⟨_, if_pos rfl, ?_⟩
    have hend : (st.endPos.or (some (st.pos + 1))).getD (st.pos + 1)
        = st.endPos.getD (st.pos + 1) := by
      cases st.endPos <;> rfl
    rw [hend]
    exact .root hbyte
  rw [if_neg hzero]
  by_cases hpointer : byte &&& 0xC0 = 0xC0
  · rw [if_pos hpointer]
    by_cases hcut : data.length ≤ st.pos + 1
    · exact ⟨_, if_pos hcut, .pointerCut hbyte hpointer (List.getElem?_eq_none hcut)⟩
    · obtain ⟨lo, hlo⟩ : ∃ lo, data[st.pos + 1]? = some lo :=
        ⟨_, List.getElem?_eq_getElem (by omega)⟩
      rw [if_neg hcut, index_of_getElem? hlo]
      exact ⟨_, rfl, .pointer hvisited hbyte hpointer hlo⟩
  · rw [if_neg hpointer]
    by_cases hcut : data.length < st.pos + 1 + byte.toNat
    · exact ⟨_, if_pos hcut, .labelCut hbyte hzero hpointer hcut⟩
    · rw [if_neg hcut, slice_of_le data (by omega) (by omega), Nat.add_sub_cancel_left]
      exact ⟨_, rfl, .label hvisited hbyte hzero hpointer (by omega)⟩

/-! ## Termination -/

/-- The positions visited so far are distinct, and none is the last byte: a
round that goes on has read something after its first byte. -/
structure Visiting (data : List UInt8) (st : LabelState) : Prop where
  nodup : st.visited.Nodup
  inside : ∀ v ∈ st.visited, v + 1 < data.length

theorem visiting_init : Visiting data (.init pos) := ⟨List.nodup_nil, fun _ h => nomatch h⟩

/-- No position is visited twice, so there are as many at most as bytes. -/
theorem Visiting.length_le {st : LabelState} (h : Visiting data st) :
    st.visited.length ≤ data.length - 1 := by
  have hsub : st.visited ⊆ List.range (data.length - 1) := by
    intro v hv
    rw [List.mem_range]
    have := h.inside v hv
    omega
  have hle := (List.subperm_of_subset h.nodup hsub).length_le
  rwa [List.length_range] at hle

/-- A round that goes on visits one more position. -/
theorem Round.visiting {st t : LabelState} (h : Round data st (.again t))
    (hst : Visiting data st) : Visiting data t ∧ t.visited.length = st.visited.length + 1 := by
  have hcons : st.pos ∉ st.visited → st.pos + 1 < data.length →
      (st.pos :: st.visited).Nodup ∧ ∀ v ∈ st.pos :: st.visited, v + 1 < data.length := by
    intro hnew hin
    refine ⟨List.nodup_cons.mpr ⟨hnew, hst.nodup⟩, fun v hv => ?_⟩
    rcases List.mem_cons.mp hv with rfl | hv
    · exact hin
    · exact hst.inside v hv
  cases h with
  | pointer hnew _ _ hlo =>
    obtain ⟨hnodup, hinside⟩ := hcons hnew (List.getElem?_eq_some_iff.mp hlo).1
    exact ⟨⟨hnodup, hinside⟩, rfl⟩
  | label hnew _ hpos _ hfits =>
    have hlen := UInt8.toNat_inj.not.mpr hpos
    rw [UInt8.toNat_zero] at hlen
    obtain ⟨hnodup, hinside⟩ := hcons hnew (by omega)
    exact ⟨⟨hnodup, hinside⟩, rfl⟩

/-- The loop halts, after fewer complete rounds than there are bytes. -/
theorem decodeRound_halts (data : List UInt8) (pos : Nat) :
    ∃ n r, Halts (decodeRound data) (.init pos) n r ∧ n ≤ data.length - 1 := by
  refine exists_halts (Visiting data) (fun st => st.visited.length) ?_
    (fun st hst => hst.length_le) visiting_init
  intro st hst
  obtain ⟨ctrl, hctrl, hround⟩ := decodeRound_spec data st
  cases ctrl with
  | stop r => exact .inl ⟨r, hctrl⟩
  | again t => exact .inr ⟨t, hctrl, hround.visiting hst⟩

/-! ## Meaning -/

/-- The result `r` is right for the name at the state's position, given what was
collected before. -/
def LabelState.Meaning (data : List UInt8) (st : LabelState) :
    Option (String × Nat) → Prop
  | some (text, after) => ∃ labels next, Name data st.pos labels next ∧
      text = ".".intercalate (st.parts ++ labels.map fromUtf8Lossy) ∧ after = st.endPos.getD next
  | none => ∀ labels next, ¬ Name data st.pos labels next

/-- Giving up is right: the position holds no name. -/
theorem Round.stop_meaning {st : LabelState} {r : Option (String × Nat)}
    (h : Round data st (.stop r)) (hvisited : ∀ v ∈ st.visited, TransGen (Follows data) v st.pos) :
    st.Meaning data r := by
  cases h with
  | outside hbyte =>
    intro labels next hname
    cases hname with
    | root hbyte' => exact nomatch hbyte.symm.trans hbyte'
    | label hbyte' _ _ _ _ => exact nomatch hbyte.symm.trans hbyte'
    | pointer hbyte' _ _ _ => exact nomatch hbyte.symm.trans hbyte'
  | visited hmem =>
    -- back at a visited position: a cycle, so no name
    exact fun _ _ hname => hname.acyclic (hvisited _ hmem)
  | root hbyte =>
    exact ⟨[], _, .root hbyte, by rw [List.map_nil, List.append_nil], rfl⟩
  | pointerCut hbyte hpointer hlo =>
    intro labels next hname
    cases hname with
    | root hbyte' =>
      exact pointer_ne_zero hpointer (Option.some.inj (hbyte.symm.trans hbyte'))
    | label hbyte' _ hlabel _ _ =>
      exact hlabel (Option.some.inj (hbyte.symm.trans hbyte') ▸ hpointer)
    | pointer _ _ hlo' _ => exact nomatch hlo.symm.trans hlo'
  | labelCut hbyte hpos hlabel hcut =>
    intro labels next hname
    cases hname with
    | root hbyte' => exact hpos (Option.some.inj (hbyte.symm.trans hbyte'))
    | label hbyte' _ _ hfits _ =>
      obtain rfl := Option.some.inj (hbyte.symm.trans hbyte')
      omega
    | pointer hbyte' hpointer _ _ =>
      exact hlabel (Option.some.inj (hbyte.symm.trans hbyte') ▸ hpointer)

/-- A round that goes on moves to the rest of the name. -/
theorem Round.follows {st t : LabelState} (h : Round data st (.again t)) :
    Follows data st.pos t.pos ∧ t.visited = st.pos :: st.visited := by
  cases h with
  | pointer _ hbyte hpointer hlo => exact ⟨.pointer hbyte hpointer hlo, rfl⟩
  | label _ hbyte hpos hlabel hfits => exact ⟨.label hbyte hpos hlabel hfits, rfl⟩

/-- What is right after a round that goes on is right before it. -/
theorem Round.again_meaning {st t : LabelState} {r : Option (String × Nat)}
    (h : Round data st (.again t)) (hr : t.Meaning data r) : st.Meaning data r := by
  cases r with
  | none =>
    intro labels next hname
    obtain ⟨labels', next', hrest⟩ := hname.rest h.follows.1
    exact hr labels' next' hrest
  | some pair =>
    obtain ⟨labels, next, hname, htext, hafter⟩ := hr
    cases h with
    | pointer _ hbyte hpointer hlo =>
      refine ⟨labels, _, .pointer hbyte hpointer hlo hname, htext, ?_⟩
      -- the first pointer fixes where the encoding ends
      rw [hafter]
      cases st.endPos <;> rfl
    | label _ hbyte hpos hlabel hfits =>
      refine ⟨_, next, .label hbyte hpos hlabel hfits hname, ?_, hafter⟩
      rw [htext, List.map_cons, List.append_assoc, List.singleton_append]

/-- Whatever the loop returns is right. The visited positions lead to the
current one, so coming back to one of them is a cycle. -/
theorem halts_meaning {st : LabelState} {n : Nat} {r : Option (String × Nat)}
    (h : Halts (decodeRound data) st n r)
    (hvisited : ∀ v ∈ st.visited, TransGen (Follows data) v st.pos) : st.Meaning data r := by
  induction h with
  | @stop st r hstop =>
    obtain ⟨ctrl, hctrl, hround⟩ := decodeRound_spec data st
    obtain rfl := Except.ok.inj (hctrl.symm.trans hstop)
    exact hround.stop_meaning hvisited
  | @again st t n r hagain _ ih =>
    obtain ⟨ctrl, hctrl, hround⟩ := decodeRound_spec data st
    obtain rfl := Except.ok.inj (hctrl.symm.trans hagain)
    obtain ⟨hfollows, hcons⟩ := hround.follows
    refine hround.again_meaning (ih fun v hv => ?_)
    rw [hcons] at hv
    rcases List.mem_cons.mp hv with rfl | hv
    · exact .single hfollows
    · exact (hvisited v hv).tail hfollows

/-! ## The decoder is exact -/

/-- The decoder halts in time, and its result is right. -/
theorem decodeLabel_spec (data : List UInt8) (pos : Nat) :
    ∃ n r, Halts (decodeRound data) (.init pos) n r ∧ n ≤ data.length - 1 ∧
      decodeLabel data pos = .ok r ∧ (LabelState.init pos).Meaning data r := by
  obtain ⟨n, r, hhalts, hn⟩ := decodeRound_halts data pos
  have hrun : decodeLabel data pos = .ok r := by
    rw [decodeLabel, hhalts.run_eq (by omega)]
    rfl
  exact ⟨n, r, hhalts, hn, hrun, halts_meaning hhalts fun _ h => nomatch h⟩

/-- The decoder returns, whatever the bytes. -/
theorem decodeLabel_ok (data : List UInt8) (pos : Nat) : ∃ r, decodeLabel data pos = .ok r := by
  obtain ⟨_, r, -, -, hrun, -⟩ := decodeLabel_spec data pos
  exact ⟨r, hrun⟩

/-- The decoder finds the name at a position. -/
theorem decodeLabel_of_name (h : Name data pos labels next) :
    decodeLabel data pos = .ok (some (".".intercalate (labels.map fromUtf8Lossy), next)) := by
  obtain ⟨_, r, -, -, hrun, hmeaning⟩ := decodeLabel_spec data pos
  cases r with
  | none => exact absurd h (hmeaning labels next)
  | some pair =>
    obtain ⟨labels', next', hname, htext, hafter⟩ := hmeaning
    obtain ⟨rfl, rfl⟩ := h.unique hname
    rw [hrun]
    exact congrArg Except.ok (congrArg some (Prod.ext htext hafter))

/-- What the decoder returns is the name at the position. -/
theorem decodeLabel_some {text : String} (h : decodeLabel data pos = .ok (some (text, next))) :
    ∃ labels, Name data pos labels next ∧ text = ".".intercalate (labels.map fromUtf8Lossy) := by
  obtain ⟨_, r, -, -, hrun, hmeaning⟩ := decodeLabel_spec data pos
  obtain rfl := Except.ok.inj (hrun.symm.trans h)
  obtain ⟨labels, next', hname, htext, hafter⟩ := hmeaning
  obtain rfl : next = next' := hafter
  exact ⟨labels, hname, htext⟩

/-- Where it reads a name it goes on behind it, within the message. -/
theorem decodeLabel_next {text : String} (h : decodeLabel data pos = .ok (some (text, next))) :
    pos < next ∧ next ≤ data.length := by
  obtain ⟨labels, hname, -⟩ := decodeLabel_some h
  exact ⟨hname.lt_next, hname.next_le⟩

/-- **Decompression is exact**: on every byte string and position both decoders
halt with the same result, after fewer complete rounds than there are bytes (in
round `data.length` at the latest, unless there are none) and without reading
outside the data; the result is the name at the position, if there is one, and
then the position after it lies in the data. -/
theorem decodeLabel_exact (data : List UInt8) (pos : Nat) :
    ∃ n r, Halts (decodeRound data) (.init pos) n r ∧
      n ≤ data.length ∧ (data ≠ [] → n + 1 ≤ data.length) ∧
      Mdns.decodeLabel data pos = .ok r ∧ Passive.decodeLabel data pos = .ok r ∧
      (∀ text next, r = some (text, next) ↔
        ∃ labels, Name data pos labels next ∧
          text = ".".intercalate (labels.map fromUtf8Lossy)) ∧
      ∀ text next, r = some (text, next) → pos < next ∧ next ≤ data.length := by
  obtain ⟨n, r, hhalts, hn, hrun, -⟩ := decodeLabel_spec data pos
  refine ⟨n, r, hhalts, by omega, fun hne => ?_, hrun, hrun, fun text next => ⟨?_, ?_⟩, ?_⟩
  · have := List.length_pos_iff.mpr hne
    omega
  · rintro rfl
    exact decodeLabel_some hrun
  · rintro ⟨labels, hname, rfl⟩
    exact Except.ok.inj (hrun.symm.trans (decodeLabel_of_name hname))
  · rintro text next rfl
    exact decodeLabel_next hrun

/-! ## Reads -/

section Reads

variable {st : LabelState} {i : Nat}

/-- The positions a round reads: what stands at its own, and then the second byte of a
pointer, or the bytes of a label. -/
def roundReads (data : List UInt8) (st : LabelState) : List Nat :=
  match data[st.pos]? with
  | none => []
  | some byte =>
    if st.pos ∈ st.visited then []
    else if byte = 0x00 then [st.pos]
    else if byte &&& 0xC0 = 0xC0 then
      if data.length ≤ st.pos + 1 then [st.pos] else [st.pos, st.pos + 1]
    else if data.length < st.pos + 1 + byte.toNat then [st.pos]
    else List.range' st.pos (1 + byte.toNat)

/-- A round that comes to a byte for the first time. -/
theorem decodeRound_of_new {byte : UInt8} (hbyte : data[st.pos]? = some byte)
    (hnew : st.pos ∉ st.visited) : decodeRound data st =
      if byte = 0x00 then
        .ok (.stop (some (".".intercalate st.parts,
          (st.endPos.or (some (st.pos + 1))).getD (st.pos + 1))))
      else if byte &&& 0xC0 = 0xC0 then
        if data.length ≤ st.pos + 1 then .ok (.stop none)
        else (index data (st.pos + 1)).map fun lo =>
          .again ⟨be16 (byte &&& 0x3F) lo, st.parts, st.pos :: st.visited,
            st.endPos.or (some (st.pos + 2))⟩
      else if data.length < st.pos + 1 + byte.toNat then .ok (.stop none)
      else (slice data (st.pos + 1) (st.pos + 1 + byte.toNat)).map fun label =>
        .again ⟨st.pos + 1 + byte.toNat, st.parts ++ [fromUtf8Lossy label],
          st.pos :: st.visited, st.endPos⟩ := by
  have hin : ¬ data.length ≤ st.pos := Nat.not_le.mpr (List.getElem?_eq_some_iff.mp hbyte).1
  rw [decodeRound, if_neg hin, if_neg hnew, index_of_getElem? hbyte]
  rfl

/-- What a round from a new position reads, by its first byte. -/
theorem roundReads_of_new {byte : UInt8} (hbyte : data[st.pos]? = some byte)
    (hnew : st.pos ∉ st.visited) : roundReads data st =
      if byte = 0x00 then [st.pos]
      else if byte &&& 0xC0 = 0xC0 then
        if data.length ≤ st.pos + 1 then [st.pos] else [st.pos, st.pos + 1]
      else if data.length < st.pos + 1 + byte.toNat then [st.pos]
      else List.range' st.pos (1 + byte.toNat) := by
  simp only [roundReads, hbyte, if_neg hnew]

/-- A round depends on nothing else in the data than their length and what it reads. -/
theorem roundReads_congr {data' : List UInt8} (hlength : data'.length = data.length)
    (hreads : ∀ i ∈ roundReads data st, data'[i]? = data[i]?) :
    decodeRound data' st = decodeRound data st := by
  cases hbyte : data[st.pos]? with
  | none =>
    have hout := List.getElem?_eq_none_iff.mp hbyte
    rw [decodeRound, decodeRound, if_pos hout, if_pos (hlength ▸ hout)]
  | some byte =>
    by_cases hnew : st.pos ∈ st.visited
    · have hin : ¬ data.length ≤ st.pos := Nat.not_le.mpr (List.getElem?_eq_some_iff.mp hbyte).1
      rw [decodeRound, decodeRound, if_neg hin, if_neg (hlength ▸ hin), if_pos hnew, if_pos hnew]
    rw [roundReads_of_new hbyte hnew] at hreads
    have hbyte' : data'[st.pos]? = some byte := by
      rw [← hbyte]
      apply hreads
      split_ifs <;> simp [Nat.add_comm 1]
    rw [decodeRound_of_new hbyte hnew, decodeRound_of_new hbyte' hnew, hlength]
    by_cases hzero : byte = 0
    · rw [if_pos hzero, if_pos hzero]
    rw [if_neg hzero] at hreads ⊢
    rw [if_neg hzero]
    by_cases hpointer : byte &&& 0xC0 = 0xC0
    · rw [if_pos hpointer] at hreads ⊢
      rw [if_pos hpointer]
      by_cases hcut : data.length ≤ st.pos + 1
      · rw [if_pos hcut, if_pos hcut]
      · rw [if_neg hcut] at hreads ⊢
        rw [if_neg hcut, index, index, hreads (st.pos + 1) (by simp)]
    · rw [if_neg hpointer] at hreads ⊢
      rw [if_neg hpointer]
      by_cases hcut : data.length < st.pos + 1 + byte.toNat
      · rw [if_pos hcut, if_pos hcut]
      · rw [if_neg hcut] at hreads ⊢
        have hlabel : (data'.drop (st.pos + 1)).take byte.toNat
            = (data.drop (st.pos + 1)).take byte.toNat := by
          apply List.ext_getElem?
          intro k
          rw [List.getElem?_take, List.getElem?_take, List.getElem?_drop, List.getElem?_drop]
          by_cases hk : k < byte.toNat
          · rw [if_pos hk, if_pos hk]
            exact hreads _ (List.mem_range'_1.mpr (by omega))
          · rw [if_neg hk, if_neg hk]
        rw [if_neg hcut, slice_of_le data (by omega) (by omega),
          slice_of_le data' (by omega) (by omega), Nat.add_sub_cancel_left, hlabel]

/-- The bytes in place of the name that is looked for at `pos` go up to `next`: its
labels, with the zero byte or the pointer that ends them, or as far as there are any. -/
inductive InPlace (data : List UInt8) : Nat → Nat → Prop where
  | outside {pos : Nat} (hbyte : data[pos]? = none) : InPlace data pos pos
  | root {pos : Nat} (hbyte : data[pos]? = some 0) : InPlace data pos (pos + 1)
  | pointer {pos : Nat} {hi lo : UInt8} (hbyte : data[pos]? = some hi)
      (hpointer : hi &&& 0xC0 = 0xC0) (hlo : data[pos + 1]? = some lo) : InPlace data pos (pos + 2)
  | pointerCut {pos : Nat} {hi : UInt8} (hbyte : data[pos]? = some hi)
      (hpointer : hi &&& 0xC0 = 0xC0) (hlo : data[pos + 1]? = none) : InPlace data pos (pos + 1)
  | label {pos next : Nat} {len : UInt8} (hbyte : data[pos]? = some len) (hpos : len ≠ 0)
      (hlabel : len &&& 0xC0 ≠ 0xC0) (hfits : pos + 1 + len.toNat ≤ data.length)
      (hrest : InPlace data (pos + 1 + len.toNat) next) : InPlace data pos next
  | labelCut {pos : Nat} {len : UInt8} (hbyte : data[pos]? = some len) (hpos : len ≠ 0)
      (hlabel : len &&& 0xC0 ≠ 0xC0) (hcut : data.length < pos + 1 + len.toNat) :
      InPlace data pos (pos + 1)

/-- Whatever stands there, its bytes end somewhere. -/
theorem exists_inPlace (data : List UInt8) (pos : Nat) : ∃ next, InPlace data pos next := by
  induction hrest : data.length - pos using Nat.strongRecOn generalizing pos with
  | ind rest ih =>
    cases hbyte : data[pos]? with
    | none => exact ⟨pos, .outside hbyte⟩
    | some byte =>
      have hin := (List.getElem?_eq_some_iff.mp hbyte).1
      by_cases hzero : byte = 0
      · exact ⟨_, .root (hzero ▸ hbyte)⟩
      by_cases hpointer : byte &&& 0xC0 = 0xC0
      · cases hlo : data[pos + 1]? with
        | none => exact ⟨_, .pointerCut hbyte hpointer hlo⟩
        | some lo => exact ⟨_, .pointer hbyte hpointer hlo⟩
      by_cases hcut : data.length < pos + 1 + byte.toNat
      · exact ⟨_, .labelCut hbyte hzero hpointer hcut⟩
      · obtain ⟨next, hnext⟩ := ih (data.length - (pos + 1 + byte.toNat)) (by omega) _ rfl
        exact ⟨next, .label hbyte hzero hpointer (by omega) hnext⟩

/-- The bytes of a name end where its encoding does. -/
theorem Name.inPlace {labels : List (List UInt8)} (h : Name data pos labels next) :
    InPlace data pos next := by
  induction h with
  | root hbyte => exact .root hbyte
  | label hbyte hpos hlabel hfits _ ih => exact .label hbyte hpos hlabel hfits ih
  | pointer hbyte hpointer hlo _ _ => exact .pointer hbyte hpointer hlo

/-- An encoding in place goes forward. -/
theorem InPlace.le (h : InPlace data pos next) : pos ≤ next := by
  induction h <;> omega

/-- From the state on, the byte at `i` is read in place: in a round before the first
pointer. -/
def LabelState.ReadsInPlace (data : List UInt8) (st : LabelState) (i : Nat) : Prop :=
  ∃ st', ReflTransGen (fun s t => decodeRound data s = .ok (.again t)) st st' ∧
    st'.endPos = none ∧ i ∈ roundReads data st'

/-- A byte is read in place in this round, or in a later one. -/
theorem LabelState.readsInPlace_iff : st.ReadsInPlace data i ↔
    st.endPos = none ∧ i ∈ roundReads data st ∨
      ∃ t, decodeRound data st = .ok (.again t) ∧ t.ReadsInPlace data i := by
  unfold ReadsInPlace
  constructor
  · rintro ⟨st', hreach, hread⟩
    rcases hreach.cases_head with rfl | ⟨t, hround, hreach⟩
    · exact .inl hread
    · exact .inr ⟨t, hround, st', hreach, hread⟩
  · rintro (hread | ⟨t, hround, st', hreach, hread⟩)
    · exact ⟨st, .refl, hread⟩
    · exact ⟨st', .head hround hreach, hread⟩

/-- After a pointer nothing is read in place. -/
theorem LabelState.not_readsInPlace (hend : st.endPos ≠ none) : ¬ st.ReadsInPlace data i := by
  rintro ⟨st', hreach, hnone, -⟩
  refine absurd hnone ?_
  clear hnone
  induction hreach with
  | refl => exact hend
  | @tail s t _ hround ih =>
    obtain ⟨ctrl, hctrl, hspec⟩ := decodeRound_spec data s
    obtain rfl := Except.ok.inj (hctrl.symm.trans hround)
    cases hspec with
    | pointer _ _ _ _ =>
      cases hs : s.endPos with
      | none => exact absurd hs ih
      | some e => exact Option.some_ne_none e
    | label _ _ _ _ _ => exact ih

theorem LabelState.readsInPlace_of_stop {r : Option (String × Nat)} (hend : st.endPos = none)
    (hround : decodeRound data st = .ok (.stop r)) :
    st.ReadsInPlace data i ↔ i ∈ roundReads data st := by
  rw [readsInPlace_iff, hround, and_iff_right hend, or_iff_left]
  rintro ⟨t, hagain, -⟩
  cases hagain

theorem LabelState.readsInPlace_of_again {t : LabelState} (hend : st.endPos = none)
    (hround : decodeRound data st = .ok (.again t)) :
    st.ReadsInPlace data i ↔ i ∈ roundReads data st ∨ t.ReadsInPlace data i := by
  rw [readsInPlace_iff, hround, and_iff_right hend]
  refine or_congr_right ⟨?_, fun hread => ⟨t, rfl, hread⟩⟩
  rintro ⟨t', hagain, hread⟩
  cases hagain
  exact hread

/-- **Reads in place**: before the first pointer of a name its bytes in place are read,
and no others. -/
theorem InPlace.reads_iff (h : InPlace data pos next) (hpos : st.pos = pos)
    (hend : st.endPos = none) (hvisited : ∀ v ∈ st.visited, v < st.pos) :
    st.ReadsInPlace data i ↔ pos ≤ i ∧ i < next := by
  have hnew : st.pos ∉ st.visited := fun hmem => absurd (hvisited _ hmem) (Nat.lt_irrefl _)
  induction h generalizing st with
  | outside hbyte =>
    subst hpos
    have hround : decodeRound data st = .ok (.stop none) :=
      if_pos (List.getElem?_eq_none_iff.mp hbyte)
    rw [LabelState.readsInPlace_of_stop hend hround, roundReads, hbyte]
    exact iff_of_false List.not_mem_nil fun hread => Nat.not_lt.mpr hread.1 hread.2
  | root hbyte =>
    subst hpos
    have hround := decodeRound_of_new hbyte hnew
    rw [if_pos rfl] at hround
    rw [LabelState.readsInPlace_of_stop hend hround, roundReads_of_new hbyte hnew, if_pos rfl,
      List.mem_singleton]
    omega
  | pointer hbyte hpointer hlo =>
    subst hpos
    have hround := decodeRound_of_new hbyte hnew
    have hin : ¬ data.length ≤ st.pos + 1 := Nat.not_le.mpr (List.getElem?_eq_some_iff.mp hlo).1
    rw [if_neg (pointer_ne_zero hpointer), if_pos hpointer, if_neg hin, index_of_getElem? hlo]
      at hround
    -- what follows is read where the pointer leads to
    have hafter : ∀ t : LabelState, t.endPos = st.endPos.or (some (st.pos + 2)) →
        ¬ t.ReadsInPlace data i := by
      intro t ht
      refine LabelState.not_readsInPlace ?_
      rw [ht, hend]
      exact Option.some_ne_none _
    rw [LabelState.readsInPlace_of_again hend hround, or_iff_left (hafter _ rfl),
      roundReads_of_new hbyte hnew, if_neg (pointer_ne_zero hpointer), if_pos hpointer, if_neg hin,
      List.mem_pair]
    omega
  | pointerCut hbyte hpointer hlo =>
    subst hpos
    have hround := decodeRound_of_new hbyte hnew
    rw [if_neg (pointer_ne_zero hpointer), if_pos hpointer,
      if_pos (List.getElem?_eq_none_iff.mp hlo)] at hround
    rw [LabelState.readsInPlace_of_stop hend hround, roundReads_of_new hbyte hnew,
      if_neg (pointer_ne_zero hpointer), if_pos hpointer,
      if_pos (List.getElem?_eq_none_iff.mp hlo), List.mem_singleton]
    omega
  | @label _ next len hbyte hzero hlabel hfits hrest ih =>
    subst hpos
    obtain ⟨t, hround, hpos, hendPos, hcons⟩ : ∃ t, decodeRound data st = .ok (.again t) ∧
        t.pos = st.pos + 1 + len.toNat ∧ t.endPos = st.endPos ∧
        t.visited = st.pos :: st.visited := by
      rw [decodeRound_of_new hbyte hnew, if_neg hzero, if_neg hlabel,
        if_neg (Nat.not_lt.mpr hfits), slice_of_le data (Nat.le_add_right _ _) hfits]
      exact ⟨_, rfl, rfl, rfl, rfl⟩
    -- the positions visited lie before the rest
    have hafter : t.ReadsInPlace data i ↔ st.pos + 1 + len.toNat ≤ i ∧ i < next := by
      have hbefore : ∀ v ∈ t.visited, v < t.pos := by
        rw [hcons, List.forall_mem_cons]
        refine ⟨by omega, fun v hv => ?_⟩
        have := hvisited v hv
        omega
      exact ih hpos (hendPos.trans hend) hbefore fun hmem => Nat.lt_irrefl _ (hbefore _ hmem)
    rw [LabelState.readsInPlace_of_again hend hround, hafter, roundReads_of_new hbyte hnew,
      if_neg hzero, if_neg hlabel, if_neg (Nat.not_lt.mpr hfits), List.mem_range'_1]
    have := hrest.le
    omega
  | labelCut hbyte hzero hlabel hcut =>
    subst hpos
    have hround := decodeRound_of_new hbyte hnew
    rw [if_neg hzero, if_neg hlabel, if_pos hcut] at hround
    rw [LabelState.readsInPlace_of_stop hend hround, roundReads_of_new hbyte hnew, if_neg hzero,
      if_neg hlabel, if_pos hcut, List.mem_singleton]
    omega

/-- What a decode that starts there reads in place. -/
theorem InPlace.reads_init (h : InPlace data pos next) :
    (LabelState.init pos).ReadsInPlace data i ↔ pos ≤ i ∧ i < next :=
  h.reads_iff rfl rfl fun _ hmem => absurd hmem List.not_mem_nil

end Reads

end Gannet
