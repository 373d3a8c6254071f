import Mathlib.Data.List.TakeWhile
import Gannet.Discovery.Hostnames

/-!
# The target of a PTR or SRV record (mdns.rs)

The data of these records leads to a name, and `parse_mdns_records` works on the
text of it. Two things get lost on the way. The text is the labels joined with
dots, and the first label is cut out of it again at the first dot, which may be
its own. And the name is decoded from where the data starts, whatever the length
of the data is, while the strings of a TXT record are read up to its end.

- `instance_names_iff`: an instance name is added whole iff it has no dot.
- `targets_inside_iff`: no record has something from a name that runs beyond its
  data, and nothing beyond them is read for it in place, iff all data have all of
  their name in them.
-/

namespace Gannet.Mdns

open Bytes Text Utf8

variable {data : List UInt8}

/-! ## Instance names -/

/-- The instance in a service instance name: any text that fits a label and is not
taken for a service, which would start with an underscore or be in the list. -/
structure InstanceLabel where
  text : List Char
  ne_nil : text ≠ []
  length_le : (encode text).length ≤ 63
  not_service : isServiceLabel text = false

/-- An instance label does not start with an underscore. -/
theorem InstanceLabel.head?_ne (label : InstanceLabel) : label.text.head? ≠ some '_' := by
  intro hhead
  have hservice := label.not_service
  rw [isServiceLabel, decide_eq_true hhead] at hservice
  cases hservice

/-- The instance is what stands before the first dot. -/
theorem instanceName_eq (rdata : String) : instanceName rdata
    = hostName ((rdata.toList.takeWhile (· != '.')).dropWhile (· = '_')) := by
  have hhead := head?_splitOn '.' rdata.toList
  unfold instanceName
  cases hparts : rdata.toList.splitOn '.' with
  | nil => exact absurd hparts (List.splitOn_ne_nil '.' rdata.toList)
  | cons first rest =>
    rw [hparts] at hhead
    obtain rfl := Option.some.inj hhead
    rfl

/-- A name: its labels, decoded and joined with dots. -/
def nameText (labels : List (List UInt8)) : String := ".".intercalate (labels.map fromUtf8Lossy)

/-- Before the first dot of a name there is its first label up to its first dot. -/
theorem takeWhile_nameText (text : List Char) (labels : List (List UInt8)) :
    (nameText (encode text :: labels)).toList.takeWhile (· != '.') = text.takeWhile (· != '.') := by
  have hfirst : (String.toList ∘ fromUtf8Lossy) (encode text) = text := by
    rw [Function.comp_apply, fromUtf8Lossy_encode, String.toList_ofList]
  -- what follows the first label starts with a dot
  obtain ⟨rest, htext, hrest⟩ : ∃ rest, (nameText (encode text :: labels)).toList = text ++ rest ∧
      rest.takeWhile (· != '.') = [] := by
    rw [nameText, String.toList_intercalate, List.map_map, List.map_cons, hfirst]
    cases labels with
    | nil => exact ⟨[], by simp, rfl⟩
    | cons label labels => exact ⟨_, rfl, rfl⟩
  rw [htext, List.takeWhile_append, hrest, List.append_nil]
  by_cases hlength : (text.takeWhile (· != '.')).length = text.length
  · rw [if_pos hlength]
    exact ((List.takeWhile_prefix _).eq_of_length hlength).symm
  · exact if_neg hlength

theorem takeWhile_ne_eq_self {sep : Char} {cs : List Char} :
    cs.takeWhile (· != sep) = cs ↔ sep ∉ cs := by
  rw [List.takeWhile_eq_self_iff]
  exact ⟨fun h hmem => absurd (h sep hmem) (by simp), fun h c hc => by
    rw [bne_iff_ne]
    exact fun heq => h (heq ▸ hc)⟩

/-- The name in a pointer to an instance is the instance iff it has no dot. -/
theorem instanceName_nameText (label : InstanceLabel) (labels : List (List UInt8)) :
    instanceName (nameText (encode label.text :: labels)) = [.ofList label.text] ↔
      '.' ∉ label.text := by
  -- there is no underscore to strip
  have hhead : ∀ {cs : List Char}, cs <+: label.text → cs.dropWhile (· = '_') = cs := by
    rintro (_ | ⟨c, cs⟩) ⟨rest, hrest⟩
    · rfl
    · have hc : c ≠ '_' := by
        rintro rfl
        exact label.head?_ne (hrest ▸ rfl)
      exact List.dropWhile_cons_of_neg (by simpa using hc)
  rw [instanceName_eq, takeWhile_nameText, hhead (List.takeWhile_prefix _),
    ← takeWhile_ne_eq_self]
  constructor
  · intro h
    unfold hostName at h
    by_cases hname : label.text.takeWhile (· != '.') ≠ [] ∧
        isServiceLabel (label.text.takeWhile (· != '.')) = false
    · rw [if_pos hname] at h
      exact String.ofList_injective (List.cons.inj h).1
    · rw [if_neg hname] at h
      cases h
  · intro h
    rw [h, hostName, if_pos ⟨label.ne_nil, label.not_service⟩]

/-- **Instance names**: from a pointer to an instance, whatever labels follow the
instance's (a service starting with an underscore, the protocol and the domain),
the parser adds exactly the instance to the names iff it has no dot. -/
theorem instance_names_iff {before after : List VisitedRecord} {rec : VisitedRecord}
    {label : InstanceLabel} {labels : List (List UInt8)} {next : Nat}
    (hvisited : visited data = before ++ rec :: after) (hptr : rec.rtype = 0x000C)
    (htarget : Name data rec.pos (encode label.text :: labels) next) :
    ∃ result, parseMdnsRecords data = .ok result ∧
      (result.names = before.flatMap (·.names data) ++ String.ofList label.text ::
          after.flatMap (·.names data) ↔ '.' ∉ label.text) := by
  obtain ⟨hparse, hnames⟩ := parseMdnsRecords_eq_parsed data
  have hrec : rec.names data = instanceName (nameText (encode label.text :: labels)) := by
    rw [VisitedRecord.names, recordData, if_pos hptr, decodeLabel, decodeLabel_of_name htarget]
    rfl
  refine ⟨parsed data, hparse, ?_⟩
  rw [hnames, hvisited, List.flatMap_append, List.flatMap_cons, List.append_cancel_left_eq,
    ← List.singleton_append, List.append_cancel_right_eq, hrec]
  exact instanceName_nameText label labels

/-- An answer with two pointers: to Küche._ipp._tcp.local, and to Dr. Smith with the
same service. -/
def kitchenAnswer : List UInt8 :=
  [0, 0, 0x84, 0, 0, 0, 0, 2, 0, 0, 0, 0] ++
    [0, 0, 12, 0, 1, 0, 0, 0, 120, 0, 24] ++
    6 :: encode "Küche".toList ++ 4 :: encode "_ipp".toList ++ 4 :: encode "_tcp".toList ++
    5 :: encode "local".toList ++ [0] ++
    [0, 0, 12, 0, 1, 0, 0, 0, 120, 0, 12] ++ 9 :: encode "Dr. Smith".toList ++ [0xC0, 30]

/-- The parser visits both records. -/
theorem kitchenAnswer_visited :
    visited kitchenAnswer = [⟨"", 0x000C, 23, 24⟩, ⟨"", 0x000C, 58, 12⟩] := by decide +kernel

/-- The name of the service, to which the second pointer is compressed. -/
theorem kitchenAnswer_service : ∃ next, Name kitchenAnswer 30
    [encode "_ipp".toList, encode "_tcp".toList, encode "local".toList] next := by
  have hbytes : kitchenAnswer[30]? = some 4 ∧ kitchenAnswer[35]? = some 4 ∧
      kitchenAnswer[40]? = some 5 ∧ kitchenAnswer[46]? = some 0 := by decide +kernel
  obtain ⟨hipp, htcp, hlocal, hroot⟩ := hbytes
  exact ⟨_, .label hipp (by decide) (by decide) (by decide)
    (.label htcp (by decide) (by decide) (by decide)
      (.label hlocal (by decide) (by decide) (by decide) (.root hroot)))⟩

/-- An instance label with a dot in it. -/
def drSmith : InstanceLabel := ⟨"Dr. Smith".toList, by decide, by decide, by decide⟩

/-- Of Dr. Smith only the title is added. -/
theorem instance_cut_at_dot :
    ∃ rec ∈ visited kitchenAnswer, rec.rtype = 0x000C ∧
      (∃ next, Name kitchenAnswer rec.pos [encode drSmith.text, encode "_ipp".toList,
        encode "_tcp".toList, encode "local".toList] next) ∧
      rec.names kitchenAnswer = ["Dr"] ∧ (parsed kitchenAnswer).names = ["Küche", "Dr"] := by
  obtain ⟨next, hservice⟩ := kitchenAnswer_service
  have hbytes : kitchenAnswer[58]? = some 9 ∧ kitchenAnswer[68]? = some 0xC0 ∧
      kitchenAnswer[69]? = some 30 := by decide +kernel
  obtain ⟨hlabel, hpointer, hlow⟩ := hbytes
  have hname : Name kitchenAnswer 58 [encode drSmith.text, encode "_ipp".toList,
      encode "_tcp".toList, encode "local".toList] 70 :=
    .label hlabel (by decide) (by decide) (by decide)
      (.pointer hpointer (by decide) hlow hservice)
  exact ⟨⟨"", 0x000C, 58, 12⟩, by rw [kitchenAnswer_visited]; decide, rfl, ⟨70, hname⟩,
    by decide +kernel, by decide +kernel⟩

/-- An instance label with an umlaut. -/
def kuecheLabel : InstanceLabel := ⟨"Küche".toList, by decide, by decide, by decide⟩

/-- Küche is added whole, before what the other pointer adds. -/
theorem instance_names_of_kitchen :
    ∃ result, parseMdnsRecords kitchenAnswer = .ok result ∧
      (result.names = "Küche" ::
          [⟨"", 0x000C, 58, 12⟩].flatMap (VisitedRecord.names kitchenAnswer) ↔
        '.' ∉ kuecheLabel.text) := by
  obtain ⟨next, hservice⟩ := kitchenAnswer_service
  have hlabel : kitchenAnswer[23]? = some 6 := by decide +kernel
  have hname : Name kitchenAnswer 23 (encode kuecheLabel.text ::
      [encode "_ipp".toList, encode "_tcp".toList, encode "local".toList]) next :=
    .label hlabel (by decide) (by decide) (by decide) hservice
  have hvisited : visited kitchenAnswer
      = [] ++ ⟨"", 0x000C, 23, 24⟩ :: [⟨"", 0x000C, 58, 12⟩] := kitchenAnswer_visited
  exact instance_names_iff hvisited rfl hname

/-! ## Names that run beyond the data -/

namespace VisitedRecord

/-- Where the name in the data starts: after priority, weight and port in an SRV
record. -/
def target (rec : VisitedRecord) : Option Nat :=
  if rec.rtype = 0x000C then some rec.pos
  else if rec.rtype = 0x0021 then some (rec.pos + 6)
  else none

/-- The data of the record has all of the name in it: the bytes in place of the name, if
there are any, end before the data does. -/
def CoversTarget (data : List UInt8) (rec : VisitedRecord) : Prop :=
  ∀ start next, rec.target = some start → InPlace data start next → start < next →
    next ≤ rec.pos + rec.rdlen

variable {rec : VisitedRecord} {start : Nat}

/-- What is found depends on what is decoded from the start of the name. -/
theorem found_eq {r : Option (String × Nat)} (htarget : rec.target = some start)
    (hr : Gannet.decodeLabel data start = .ok r) :
    rec.found data = match r with
      | some (text, _) =>
        if rec.rtype = 0x000C then ⟨instanceName text, (extractServiceType text).toList⟩
        else ⟨localName text, []⟩
      | none => ⟨[], []⟩ := by
  unfold target at htarget
  unfold found recordData
  by_cases hptr : rec.rtype = 0x000C
  · rw [if_pos hptr] at htarget
    obtain rfl := Option.some.inj htarget
    simp only [if_pos hptr, decodeLabel, hr, bind, Except.bind]
    cases r <;> rfl
  rw [if_neg hptr] at htarget
  by_cases hsrv : rec.rtype = 0x0021
  · rw [if_pos hsrv] at htarget
    obtain rfl := Option.some.inj htarget
    simp only [if_neg hptr, if_pos hsrv]
    by_cases hfits : rec.pos + 6 ≤ data.length
    · simp only [if_pos hfits, decodeLabel, hr, bind, Except.bind]
      cases r <;> rfl
    · rw [if_neg hfits]
      cases r with
      | none => rfl
      | some pair => exact absurd (decodeLabel_next hr) (by omega)
  · rw [if_neg hsrv] at htarget
    cases htarget

/-- Something is found only where there is a name. -/
theorem exists_name (htarget : rec.target = some start) (hfound : rec.found data ≠ ⟨[], []⟩) :
    ∃ labels next, Name data start labels next := by
  obtain ⟨r, hr⟩ := decodeLabel_ok data start
  cases r with
  | none => exact absurd (found_eq htarget hr) hfound
  | some pair =>
    obtain ⟨labels, hname, -⟩ := decodeLabel_some hr
    exact ⟨labels, pair.2, hname⟩

end VisitedRecord

/-- **Targets**: the parser returns the names found in the data of the records it
visits, with the services found there among its own. From no PTR or SRV record
something is found unless the encoding of the name there ends within the declared
length, and no byte after it is read for the name but through a pointer, iff the data
of every such record has all of the name in it. -/
theorem targets_inside_iff (data : List UInt8) :
    ∃ result, parseMdnsRecords data = .ok result ∧
      result.names = (visited data).flatMap (fun rec => (rec.found data).names) ∧
      (∀ rec ∈ visited data, (rec.found data).services ⊆ result.services) ∧
      ((∀ rec ∈ visited data, ∀ start, rec.target = some start →
          (rec.found data ≠ ⟨[], []⟩ →
            ∃ labels next, Name data start labels next ∧ next ≤ rec.pos + rec.rdlen) ∧
          ∀ i, (LabelState.init start).ReadsInPlace data i → i < rec.pos + rec.rdlen) ↔
        ∀ rec ∈ visited data, rec.CoversTarget data) := by
  obtain ⟨records, services, hvisited, hparse, hservices⟩ := parseMdnsRecords_visited data
  have hrecords : visited data = records := by rw [visited, hvisited]
  rw [← hrecords] at hparse hservices
  refine ⟨_, hparse, ?_, hservices, ?_⟩
  · simp only [VisitedRecord.names_eq_found]
  constructor
  · intro hinside rec hrec start next htarget hplace hlt
    -- the last byte of the encoding is read
    have hlast := (hinside rec hrec start htarget).2 (next - 1) (hplace.reads_init.mpr (by omega))
    omega
  · intro hcovers rec hrec start htarget
    constructor
    · intro hfound
      obtain ⟨labels, next, hname⟩ := VisitedRecord.exists_name htarget hfound
      exact ⟨labels, next, hname, hcovers rec hrec start next htarget hname.inPlace hname.lt_next⟩
    · intro i hread
      obtain ⟨next, hplace⟩ := exists_inPlace data start
      obtain ⟨hge, hlt⟩ := hplace.reads_init.mp hread
      exact hlt.trans_le (hcovers rec hrec start next htarget hplace (hge.trans_lt hlt))

/-- A pointer without data, and an address of nas. -/
def emptyPointer : List UInt8 :=
  [0, 0, 0x84, 0, 0, 0, 0, 2, 0, 0, 0, 0] ++ [0, 0, 12, 0, 1, 0, 0, 0, 120, 0, 0] ++
    3 :: encode "nas".toList ++ [0, 0, 1, 0, 1, 0, 0, 0, 120, 0, 4, 192, 168, 1, 10]

/-- The pointer adds the name of the next record, whose first byte is read for it. -/
theorem target_of_next_record :
    ∃ rec ∈ visited emptyPointer, rec.target = some rec.pos ∧
      rec.found emptyPointer = ⟨["nas"], []⟩ ∧
      (¬ ∃ labels next, Name emptyPointer rec.pos labels next ∧ next ≤ rec.pos + rec.rdlen) ∧
      (LabelState.init rec.pos).ReadsInPlace emptyPointer (rec.pos + rec.rdlen) := by
  have hvisited : visited emptyPointer = [⟨"", 0x000C, 23, 0⟩, ⟨"nas", 0x0001, 38, 4⟩] := by
    decide +kernel
  refine ⟨⟨"", 0x000C, 23, 0⟩, hvisited ▸ List.mem_cons_self, rfl, by decide +kernel, ?_, ?_⟩
  -- a name takes at least a byte
  · rintro ⟨labels, next, hname, hle⟩
    exact absurd hname.lt_next (Nat.not_lt.mpr hle)
  · exact ⟨.init 23, .refl, rfl, by decide +kernel⟩

end Gannet.Mdns
