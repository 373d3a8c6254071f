import Gannet.Discovery.MdnsRecords
import Gannet.Lib.Machine

/-!
# The mDNS parsers on untrusted bytes

Both parsers once more, now with every sum of positions as a 64-bit `usize`
addition that may overflow, and with the number of top-level rounds they enter.
Counts, lengths and pointers come from the network, and a position may end up
behind the data (`next + 4`, `pos + rdlen`).

`parsers_safe`: on every byte slice, in both builds, both parsers return, after
no more rounds than the header announces; no index, slice or sum goes wrong, and
the results are those of the parsers on natural numbers.
-/

namespace Gannet

open Bytes Loop Machine Utf8

/-! ## Names -/

/-- `if end_pos.is_none() { end_pos = Some(pos + n); }` -/
def LabelState.setEndPos (profile : Profile) (st : LabelState) (n : Nat) :
    Except Panic (Option Nat) :=
  match st.endPos with
  | some endPos => .ok (some endPos)
  | none => (addUsize profile st.pos n).map some

/-- One round of `decode_label`. -/
def decodeRoundUsize (profile : Profile) (data : List UInt8) (st : LabelState) :
    Except Panic (Control LabelState (Option (String × Nat))) :=
  if data.length ≤ st.pos then .ok (.stop none)
  else if st.pos ∈ st.visited then .ok (.stop none)
  else do
    let visited := st.pos :: st.visited
    let byte ← index data st.pos
    if byte = 0x00 then
      let endPos ← st.setEndPos profile 1
      return .stop (some (".".intercalate st.parts, endPos.getD (← addUsize profile st.pos 1)))
    else if byte &&& 0xC0 = 0xC0 then
      if data.length ≤ (← addUsize profile st.pos 1) then return .stop none
      else
        let endPos ← st.setEndPos profile 2
        let lo ← index data (← addUsize profile st.pos 1)
        return .again ⟨be16 (byte &&& 0x3F) lo, st.parts, visited, endPos⟩
    else
      let first ← addUsize profile st.pos 1
      let last ← addUsize profile first byte.toNat
      if data.length < last then return .stop none
      else
        let label ← slice data first last
        return .again ⟨last, st.parts ++ [fromUtf8Lossy label], visited, st.endPos⟩

/-- `decode_label` -/
def decodeLabelUsize (profile : Profile) (data : List UInt8) (pos : Nat) :
    Except Panic (Option (String × Nat)) :=
  (run (decodeRoundUsize profile data) (data.length + 1) (.init pos)).getD (.error .outOfFuel)

variable {profile : Profile}

/-- The end of a name in place does not overflow. -/
theorem LabelState.setEndPos_ok (data : Slice) {st : LabelState}
    (hpos : st.pos ≤ data.bytes.length) {n : Nat} (hn : n < 2 ^ 63) :
    st.setEndPos profile n = .ok (st.endPos.or (some (st.pos + n))) := by
  unfold LabelState.setEndPos
  cases st.endPos with
  | some endPos => rfl
  | none =>
    rw [data.addUsize_ok hpos hn]
    rfl

/-- A round of the decoder does not overflow. -/
theorem decodeRoundUsize_eq (data : Slice) (st : LabelState) :
    decodeRoundUsize profile data.bytes st = decodeRound data.bytes st := by
  unfold decodeRoundUsize decodeRound
  by_cases hout : data.bytes.length ≤ st.pos
  · rw [if_pos hout, if_pos hout]
  rw [if_neg hout, if_neg hout]
  have hpos : st.pos ≤ data.bytes.length := by omega
  have hsum : ∀ byte : UInt8, addUsize profile (st.pos + 1) byte.toNat
      = .ok (st.pos + 1 + byte.toNat) := fun byte => by
    have hbyte : byte.toNat < 256 := byte.toNat_lt
    have := data.length_lt
    exact addUsize_of_lt (by omega)
  simp only [data.addUsize_ok hpos (show 1 < 2 ^ 63 by decide),
    LabelState.setEndPos_ok data hpos (show 1 < 2 ^ 63 by decide),
    LabelState.setEndPos_ok data hpos (show 2 < 2 ^ 63 by decide), hsum, bind, Except.bind]

/-- Nor does the decoder. -/
theorem decodeLabelUsize_eq (data : Slice) (pos : Nat) :
    decodeLabelUsize profile data.bytes pos = decodeLabel data.bytes pos := by
  rw [decodeLabelUsize, decodeLabel, funext (decodeRoundUsize_eq data)]

/-- Where the fields of a record are, up to its data. -/
theorem fieldOffsets_ok (profile : Profile) (data : Slice) {next : Nat} (hnext : next ≤ data.bytes.length) :
    addUsize profile next 1 = .ok (next + 1) ∧ addUsize profile next 8 = .ok (next + 8) ∧
      addUsize profile next 9 = .ok (next + 9) ∧ addUsize profile next 10 = .ok (next + 10) :=
  ⟨data.addUsize_ok hnext (by decide), data.addUsize_ok hnext (by decide),
    data.addUsize_ok hnext (by decide), data.addUsize_ok hnext (by decide)⟩

/-! ## Strings of a TXT record -/

namespace Mdns

/-- One round of the loop over the strings of a TXT record. -/
def txtRoundUsize (profile : Profile) (data : List UInt8) (last : Nat) (st : Nat × List String) :
    Except Panic (Control (Nat × List String) (List String)) :=
  if last ≤ st.1 then .ok (.stop st.2)
  else do
    let len := (← index data st.1).toNat
    let p ← addUsize profile st.1 1
    if last < (← addUsize profile p len) then return .stop st.2
    else
      let txt ← slice data p (← addUsize profile p len)
      return .again (← addUsize profile p len, st.2 ++ txtName txt)

/-- `txtNames` in `usize` arithmetic. -/
def txtNamesUsize (profile : Profile) (data : List UInt8) (pos rdlen : Nat) :
    Except Panic (List String) := do
  let last := min (← addUsize profile pos rdlen) data.length
  (run (txtRoundUsize profile data last) (rdlen + 1) (pos, [])).getD (.error .outOfFuel)

/-- Nor a round over the strings of a TXT record. -/
theorem txtRoundUsize_eq (data : Slice) {last : Nat} (hlast : last ≤ data.bytes.length)
    (st : Nat × List String) :
    txtRoundUsize profile data.bytes last st = txtRound data.bytes last st := by
  unfold txtRoundUsize txtRound
  by_cases hend : last ≤ st.1
  · rw [if_pos hend, if_pos hend]
  rw [if_neg hend, if_neg hend]
  have hsum : ∀ byte : UInt8, addUsize profile (st.1 + 1) byte.toNat
      = .ok (st.1 + 1 + byte.toNat) := fun byte => by
    have hbyte : byte.toNat < 256 := byte.toNat_lt
    exact data.addUsize_ok (by omega) (by omega)
  simp only [data.addUsize_ok (show st.1 ≤ data.bytes.length by omega)
    (show 1 < 2 ^ 63 by decide), hsum, bind, Except.bind]

/-- Nor all of them. -/
theorem txtNamesUsize_eq (data : Slice) {pos rdlen : Nat} (hpos : pos ≤ data.bytes.length)
    (hrdlen : rdlen < 2 ^ 16) :
    txtNamesUsize profile data.bytes pos rdlen = txtNames data.bytes pos rdlen := by
  have hround : txtRoundUsize profile data.bytes (min (pos + rdlen) data.bytes.length)
      = txtRound data.bytes (min (pos + rdlen) data.bytes.length) :=
    funext (txtRoundUsize_eq data (Nat.min_le_right _ _))
  unfold txtNamesUsize txtNames
  rw [data.addUsize_ok hpos (by omega), ← hround]
  rfl

/-! ## Records -/

/-- `recordData` in `usize` arithmetic. -/
def recordDataUsize (profile : Profile) (data : List UInt8) (name : String)
    (rtype pos rdlen : Nat) : Except Panic ParseResult :=
  if rtype = 0x000C then do
    match ← decodeLabelUsize profile data pos with
    | some (rdata, _) => return ⟨instanceName rdata, (extractServiceType rdata).toList⟩
    | none => return ⟨[], []⟩
  else if rtype = 0x0021 then do
    if (← addUsize profile pos 6) ≤ data.length then
      match ← decodeLabelUsize profile data (← addUsize profile pos 6) with
      | some (host, _) => return ⟨localName host, []⟩
      | none => return ⟨[], []⟩
    else return ⟨[], []⟩
  else if rtype = 0x0001 then .ok ⟨localName name, []⟩
  else if rtype = 0x0010 then do
    return ⟨← txtNamesUsize profile data pos rdlen, []⟩
  else .ok ⟨[], []⟩

/-- Nor does the data of a record. -/
theorem recordDataUsize_eq (data : Slice) (name : String) (rtype : Nat) {pos rdlen : Nat}
    (hpos : pos ≤ data.bytes.length) (hrdlen : rdlen < 2 ^ 16) :
    recordDataUsize profile data.bytes name rtype pos rdlen
      = recordData data.bytes name rtype pos rdlen := by
  unfold recordDataUsize recordData
  simp only [decodeLabelUsize_eq, txtNamesUsize_eq data hpos hrdlen,
    data.addUsize_ok hpos (show 6 < 2 ^ 63 by decide), bind, Except.bind]
  rfl

/-- One round of the loop over the questions of `parse_mdns_records`. -/
def questionRoundUsize (profile : Profile) (data : List UInt8) (st : Nat × List String) :
    Except Panic (Control (Nat × List String) (Nat × List String)) := do
  match ← decodeLabelUsize profile data st.1 with
  | some (name, next) =>
    return .again (← addUsize profile next 4, st.2 ++ (extractServiceType name).toList)
  | none => return .stop st

/-- One round of the loop over the records of `parse_mdns_records`. -/
def recordRoundUsize (profile : Profile) (data : List UInt8) (st : Nat × ParseResult) :
    Except Panic (Control (Nat × ParseResult) ParseResult) :=
  if data.length ≤ st.1 then .ok (.stop st.2)
  else do
    match ← decodeLabelUsize profile data st.1 with
    | none => return .stop st.2
    | some (name, pos) =>
      let services := st.2.services ++ (extractServiceType name).toList
      if data.length < (← addUsize profile pos 10) then return .stop ⟨st.2.names, services⟩
      else
        let rtype := be16 (← index data pos) (← index data (← addUsize profile pos 1))
        let rdlen := be16 (← index data (← addUsize profile pos 8))
          (← index data (← addUsize profile pos 9))
        let pos ← addUsize profile pos 10
        let found ← recordDataUsize profile data name rtype pos rdlen
        return .again (← addUsize profile pos rdlen,
          ⟨st.2.names ++ found.names, services ++ found.services⟩)

/-- The loop over the questions is the recursion without overflow. -/
theorem questionRoundUsize_unrolls (profile : Profile) (data : Slice) :
    Unrolls (questionRoundUsize profile data.bytes) id
      fun n st => questionsLoop data.bytes n st.1 st.2 where
  zero := fun _ => rfl
  succ := fun st => by
    obtain ⟨r, hr⟩ := decodeLabel_ok data.bytes st.1
    unfold questionRoundUsize
    simp only [questionsLoop, decodeLabelUsize_eq, decodeLabel, hr, bind, Except.bind]
    cases r with
    | none => exact .inl ⟨_, rfl, fun n => rfl⟩
    | some pair =>
      have hnext := (decodeLabel_next hr).2
      simp only [data.addUsize_ok hnext (show 4 < 2 ^ 63 by decide)]
      exact .inr ⟨_, rfl, fun n => rfl⟩

/-- So is the loop over the records. -/
theorem recordRoundUsize_unrolls (profile : Profile) (data : Slice) :
    Unrolls (recordRoundUsize profile data.bytes) Prod.snd
      fun n st => recordsLoop data.bytes n st.1 st.2.names st.2.services where
  zero := fun _ => rfl
  succ := fun st => by
    simp only [recordRoundUsize, recordsLoop, decodeLabelUsize_eq, decodeLabel]
    cases recordHead data.bytes st.1 with
    | outside hout => exact .inl ⟨_, if_pos hout, fun n => if_pos hout⟩
    | undecoded hin hname =>
      simp only [if_neg hin, hname, bind, Except.bind]
      exact .inl ⟨_, rfl, fun n => rfl⟩
    | cut hin hname hcut =>
      have hnext := (decodeLabel_next hname).2
      simp only [if_neg hin, hname, bind, Except.bind, if_pos hcut,
        data.addUsize_ok hnext (show 10 < 2 ^ 63 by decide)]
      exact .inl ⟨_, rfl, fun n => rfl⟩
    | @whole name next t₀ t₁ l₀ l₁ hin hname hwhole ht₀ ht₁ hl₀ hl₁ =>
      have hnext := (decodeLabel_next hname).2
      have hpos : next + 10 ≤ data.bytes.length := by omega
      have hrdlen := be16_lt l₀ l₁
      obtain ⟨names, services, hfound, -, -⟩ :=
        recordData_spec data.bytes name (be16 t₀ t₁) (next + 10) (be16 l₀ l₁)
      obtain ⟨htype, hhigh, hlow, hdata⟩ := fieldOffsets_ok profile data hnext
      simp only [if_neg hin, hname, bind, Except.bind, if_neg hwhole, ht₀, ht₁, hl₀, hl₁,
        htype, hhigh, hlow, hdata, recordDataUsize_eq data name (be16 t₀ t₁) hpos hrdlen, hfound,
        data.addUsize_ok hpos (show be16 l₀ l₁ < 2 ^ 63 by omega)]
      exact .inr ⟨_, rfl, fun n => rfl⟩

/-- `parse_mdns_records`, with the rounds of its two loops counted. -/
def parseMdnsRecordsUsize (profile : Profile) (data : List UInt8) :
    Except Panic (ParseResult × Nat) :=
  if data.length < 12 then .ok (⟨[], []⟩, 0)
  else do
    let questions := be16 (← index data 4) (← index data 5)
    let answerRrs := be16 (← index data 6) (← index data 7)
    let authorityRrs := be16 (← index data 8) (← index data 9)
    let additionalRrs := be16 (← index data 10) (← index data 11)
    let totalRrs ← addUsize profile (← addUsize profile answerRrs authorityRrs) additionalRrs
    if totalRrs = 0 then return (⟨[], []⟩, 0)
    else
      let ((pos, services), asked) ←
        forRange (questionRoundUsize profile data) id questions (12, [])
      let (result, walked) ←
        forRange (recordRoundUsize profile data) Prod.snd totalRrs (pos, ⟨[], services⟩)
      return (⟨result.names, result.services.eraseDups⟩, asked + walked)

end Mdns

namespace Passive

/-- One round of the loop over the questions of `parse_mdns_for_services`. -/
def questionRoundUsize (profile : Profile) (data : List UInt8) (st : Nat × List String) :
    Except Panic (Control (Nat × List String) (List String ⊕ Nat × List String)) := do
  match ← decodeLabelUsize profile data st.1 with
  | some (name, next) =>
    return .again (← addUsize profile next 4, st.2 ++ (extractServiceType name).toList)
  | none => return .stop (.inl st.2)

/-- One round of the loop over the records of `parse_mdns_for_services`. -/
def recordRoundUsize (profile : Profile) (data : List UInt8) (st : Nat × List String) :
    Except Panic (Control (Nat × List String) (List String)) :=
  if data.length ≤ st.1 then .ok (.stop st.2)
  else do
    match ← decodeLabelUsize profile data st.1 with
    | none => return .stop st.2
    | some (name, pos) =>
      let services := st.2 ++ (extractServiceType name).toList
      if data.length < (← addUsize profile pos 10) then return .stop services
      else
        let rtype := be16 (← index data pos) (← index data (← addUsize profile pos 1))
        let rdlen := be16 (← index data (← addUsize profile pos 8))
          (← index data (← addUsize profile pos 9))
        let pos ← addUsize profile pos 10
        let target ← if rtype = 0x000C then decodeLabelUsize profile data pos else pure none
        let found := target.bind fun (rdata, _) => extractServiceType rdata
        return .again (← addUsize profile pos rdlen, services ++ found.toList)

/-- The listener's loop over the questions is the recursion without overflow. -/
theorem questionRoundUsize_unrolls (profile : Profile) (data : Slice) :
    Unrolls (questionRoundUsize profile data.bytes) Sum.inr
      fun n st => questionsLoop data.bytes n st.1 st.2 where
  zero := fun _ => rfl
  succ := fun st => by
    obtain ⟨r, hr⟩ := decodeLabel_ok data.bytes st.1
    unfold questionRoundUsize
    simp only [questionsLoop, decodeLabelUsize_eq, decodeLabel, hr, bind, Except.bind]
    cases r with
    | none => exact .inl ⟨_, rfl, fun n => rfl⟩
    | some pair =>
      have hnext := (decodeLabel_next hr).2
      simp only [data.addUsize_ok hnext (show 4 < 2 ^ 63 by decide)]
      exact .inr ⟨_, rfl, fun n => rfl⟩

/-- So is its loop over the records. -/
theorem recordRoundUsize_unrolls (profile : Profile) (data : Slice) :
    Unrolls (recordRoundUsize profile data.bytes) Prod.snd
      fun n st => recordsLoop data.bytes n st.1 st.2 where
  zero := fun _ => rfl
  succ := fun st => by
    simp only [recordRoundUsize, recordsLoop, decodeLabelUsize_eq, decodeLabel]
    cases recordHead data.bytes st.1 with
    | outside hout => exact .inl ⟨_, if_pos hout, fun n => if_pos hout⟩
    | undecoded hin hname =>
      simp only [if_neg hin, hname, bind, Except.bind]
      exact .inl ⟨_, rfl, fun n => rfl⟩
    | cut hin hname hcut =>
      have hnext := (decodeLabel_next hname).2
      simp only [if_neg hin, hname, bind, Except.bind, if_pos hcut,
        data.addUsize_ok hnext (show 10 < 2 ^ 63 by decide)]
      exact .inl ⟨_, rfl, fun n => rfl⟩
    | @whole name next t₀ t₁ l₀ l₁ hin hname hwhole ht₀ ht₁ hl₀ hl₁ =>
      have hnext := (decodeLabel_next hname).2
      have hpos : next + 10 ≤ data.bytes.length := by omega
      have hrdlen := be16_lt l₀ l₁
      obtain ⟨target, htarget⟩ := decodeLabel_ok data.bytes (next + 10)
      obtain ⟨htype, hhigh, hlow, hdata⟩ := fieldOffsets_ok profile data hnext
      simp only [if_neg hin, hname, bind, Except.bind, if_neg hwhole, ht₀, ht₁, hl₀, hl₁, htarget,
        htype, hhigh, hlow, hdata,
        data.addUsize_ok hpos (show be16 l₀ l₁ < 2 ^ 63 by omega)]
      by_cases hptr : be16 t₀ t₁ = 0x000C
      · simp only [if_pos hptr]
        exact .inr ⟨_, rfl, fun n => rfl⟩
      · simp only [if_neg hptr]
        exact .inr ⟨_, rfl, fun n => rfl⟩

/-- `parse_mdns_for_services`, with the rounds of its two loops counted. -/
def parseMdnsForServicesUsize (profile : Profile) (data : List UInt8) :
    Except Panic (List String × Nat) :=
  if data.length < 12 then .ok ([], 0)
  else do
    let questions := be16 (← index data 4) (← index data 5)
    let answerRrs := be16 (← index data 6) (← index data 7)
    let authorityRrs := be16 (← index data 8) (← index data 9)
    let additionalRrs := be16 (← index data 10) (← index data 11)
    let totalRrs ← addUsize profile (← addUsize profile answerRrs authorityRrs) additionalRrs
    let (answered, asked) ←
      forRange (questionRoundUsize profile data) Sum.inr questions (12, [])
    match answered with
    | .inl services => return (services, asked)
    | .inr st =>
      let (services, walked) ← forRange (recordRoundUsize profile data) Prod.snd totalRrs st
      return (services.eraseDups, asked + walked)

end Passive

/-! ## Safety -/

/-- How many top-level rounds the header of a message announces. -/
def announcedRounds (data : List UInt8) : Nat :=
  match View.new 12 data with
  | some message => questionCount message + recordCount message
  | none => 0

/-- The sum of the counts. -/
theorem addUsize_counts (profile : Profile) (message : View 12) :
    addUsize profile (be16 (message.byte 6) (message.byte 7))
        (be16 (message.byte 8) (message.byte 9))
      = .ok (be16 (message.byte 6) (message.byte 7) + be16 (message.byte 8) (message.byte 9)) ∧
    addUsize profile
        (be16 (message.byte 6) (message.byte 7) + be16 (message.byte 8) (message.byte 9))
        (be16 (message.byte 10) (message.byte 11))
      = .ok (recordCount message) := by
  have hanswer := be16_lt (message.byte 6) (message.byte 7)
  have hauthority := be16_lt (message.byte 8) (message.byte 9)
  have hadditional := be16_lt (message.byte 10) (message.byte 11)
  exact ⟨addUsize_of_lt (by omega), addUsize_of_lt (by omega)⟩

/-- The active parser on a whole header. -/
theorem Mdns.parseMdnsRecordsUsize_safe (profile : Profile) (message : View 12)
    (hmax : message.bytes.length < 2 ^ 63) :
    ∃ result rounds, Mdns.parseMdnsRecordsUsize profile message.bytes = .ok (result, rounds) ∧
      rounds ≤ questionCount message + recordCount message ∧
      Mdns.parseMdnsRecords message.bytes = .ok result := by
  rw [Mdns.parseMdnsRecords_eq]
  unfold Mdns.parseMdnsRecordsUsize
  rw [if_neg (Nat.not_lt.mpr message.size_le)]
  obtain ⟨h4, h5, h6, h7, h8, h9, h10, h11⟩ := index_counts message
  obtain ⟨hsum, htotal⟩ := addUsize_counts profile message
  simp only [h4, h5, h6, h7, h8, h9, h10, h11, hsum, htotal, bind, Except.bind]
  by_cases hcount : recordCount message = 0
  · simp only [if_pos hcount]
    exact ⟨_, 0, rfl, Nat.zero_le _, rfl⟩
  simp only [if_neg hcount]
  obtain ⟨⟨pos, services⟩, asked, hasked, haskedLe, hquestions⟩ :=
    (questionRoundUsize_unrolls profile ⟨message.bytes, hmax⟩).forRange
      (questionCount message) (12, [])
  obtain ⟨result, walked, hwalked, hwalkedLe, hrecords⟩ :=
    (recordRoundUsize_unrolls profile ⟨message.bytes, hmax⟩).forRange
      (recordCount message) (pos, ⟨[], services⟩)
  simp only [questionCount] at hasked hquestions ⊢
  simp only [hasked, hwalked, hquestions, hrecords]
  exact ⟨_, asked + walked, rfl, Nat.add_le_add haskedLe hwalkedLe, rfl⟩

/-- The passive parser on a whole header. -/
theorem Passive.parseMdnsForServicesUsize_safe (profile : Profile) (message : View 12)
    (hmax : message.bytes.length < 2 ^ 63) :
    ∃ services rounds,
      Passive.parseMdnsForServicesUsize profile message.bytes = .ok (services, rounds) ∧
      rounds ≤ questionCount message + recordCount message ∧
      Passive.parseMdnsForServices message.bytes = .ok services := by
  rw [Passive.parseMdnsForServices_eq]
  unfold Passive.parseMdnsForServicesUsize
  rw [if_neg (Nat.not_lt.mpr message.size_le)]
  obtain ⟨h4, h5, h6, h7, h8, h9, h10, h11⟩ := index_counts message
  obtain ⟨hsum, htotal⟩ := addUsize_counts profile message
  simp only [h4, h5, h6, h7, h8, h9, h10, h11, hsum, htotal, bind, Except.bind]
  obtain ⟨answered, asked, hasked, haskedLe, hquestions⟩ :=
    (questionRoundUsize_unrolls profile ⟨message.bytes, hmax⟩).forRange
      (questionCount message) (12, [])
  simp only [questionCount] at haskedLe hasked hquestions ⊢
  simp only [hasked, hquestions]
  cases answered with
  | inl services => exact ⟨_, asked, rfl, Nat.le_trans haskedLe (Nat.le_add_right _ _), rfl⟩
  | inr st =>
    obtain ⟨services, walked, hwalked, hwalkedLe, hrecords⟩ :=
      (recordRoundUsize_unrolls profile ⟨message.bytes, hmax⟩).forRange (recordCount message) st
    simp only [hwalked, hrecords]
    exact ⟨_, asked + walked, rfl, Nat.add_le_add haskedLe hwalkedLe, rfl⟩

/-- **Safety**: on every slice, in both builds, both parsers return, after at
most as many top-level rounds as the header announces. No index or slice is out
of bounds and no sum overflows; the results are those without overflow. -/
theorem parsers_safe (profile : Profile) (data : Slice) :
    (∃ result rounds, Mdns.parseMdnsRecordsUsize profile data.bytes = .ok (result, rounds) ∧
      rounds ≤ announcedRounds data.bytes ∧
      Mdns.parseMdnsRecords data.bytes = .ok result) ∧
    ∃ services rounds,
      Passive.parseMdnsForServicesUsize profile data.bytes = .ok (services, rounds) ∧
      rounds ≤ announcedRounds data.bytes ∧
      Passive.parseMdnsForServices data.bytes = .ok services := by
  by_cases hlen : 12 ≤ data.bytes.length
  · rw [announcedRounds, View.new_of_le hlen]
    exact ⟨Mdns.parseMdnsRecordsUsize_safe profile ⟨data.bytes, hlen⟩ data.length_lt,
      Passive.parseMdnsForServicesUsize_safe profile ⟨data.bytes, hlen⟩ data.length_lt⟩
  · have hshort : data.bytes.length < 12 := Nat.lt_of_not_le hlen
    exact ⟨⟨_, 0, if_pos hshort, Nat.zero_le _, if_pos hshort⟩,
      ⟨_, 0, if_pos hshort, Nat.zero_le _, if_pos hshort⟩⟩

end Gannet
