import Gannet.Discovery.MdnsRoundTrip

/-!
# Queries (mdns.rs, passive.rs)

`build_ptr_query`, `build_a_query` and `build_mdns_query` write a header with one
question and the question's name, label by label. Empty labels are skipped, and
the length of a label is narrowed to a byte. `decode_label`, written apart from
them, reads the name back.

- `queries_decode`: where every label fits its length byte with the pointer bits
  clear, the decoders find the labels in the packet, and its last four bytes after
  them.
-/

namespace Gannet

open Bytes Utf8 Dns

/-! ## The packets -/

/-- `name.split('.')` without the empty labels. -/
def queryLabels (name : String) : List (List Char) :=
  (name.toList.splitOn '.').filter (· ≠ [])

/-- One label: `label.len() as u8` and its bytes. -/
def pushLabel (label : List Char) : List UInt8 :=
  .ofNat (encode label).length :: encode label

/-- A query for one name; the last four bytes are the type and the class. -/
def buildQuery (qtype : UInt8) (name : String) (transactionId : UInt16) : List UInt8 :=
  u16Bytes transactionId.toNat ++ [0x00, 0x00] ++ [0x00, 0x01] ++ [0x00, 0x00] ++ [0x00, 0x00]
    ++ [0x00, 0x00] ++ (queryLabels name).flatMap pushLabel ++ [0x00] ++ [0x00, qtype]
    ++ [0x00, 0x01]

/-- `build_ptr_query` -/
def Mdns.buildPtrQuery (name : String) (transactionId : UInt16) : List UInt8 :=
  buildQuery 0x0C name transactionId

/-- `build_a_query` -/
def Mdns.buildAQuery (name : String) (transactionId : UInt16) : List UInt8 :=
  buildQuery 0x01 name transactionId

/-- `build_mdns_query` of passive.rs, the same code as `build_ptr_query`. -/
def Passive.buildMdnsQuery (service : String) (transactionId : UInt16) : List UInt8 :=
  buildQuery 0x0C service transactionId

example : Mdns.buildPtrQuery "a..local" 0x0102
    = [1, 2, 0, 0, 0, 1, 0, 0, 0, 0, 0, 0, 1, 97, 5, 108, 111, 99, 97, 108, 0, 0, 12, 0, 1] := by
  decide

/-! ## Their names -/

variable {name : String}

/-- The labels of a query, if they are short enough. -/
def queryName (name : String) (hle : ∀ label ∈ queryLabels name, (encode label).length ≤ 63) :
    List Label :=
  (queryLabels name).attach.map fun ⟨label, hmem⟩ =>
    ⟨label, of_decide_eq_true (List.mem_filter.mp hmem).2, hle label hmem,
      Text.notMem_of_mem_splitOn (List.mem_filter.mp hmem).1⟩

/-- The labels of the query are those of the name. -/
theorem queryName_text (hle : ∀ label ∈ queryLabels name, (encode label).length ≤ 63) :
    (queryName name hle).map Label.text = queryLabels name := by
  rw [queryName, List.map_map]
  exact List.attach_map_subtype_val _

/-- What is pushed is their encoding. -/
theorem flatMap_pushLabel (hle : ∀ label ∈ queryLabels name, (encode label).length ≤ 63) :
    (queryLabels name).flatMap pushLabel = (queryName name hle).flatMap Label.encode := by
  conv_lhs => rw [← queryName_text hle, List.flatMap_map]
  rfl

/-- A query is a header and a question. -/
theorem buildQuery_eq (qtype : UInt8) (transactionId : UInt16)
    (hle : ∀ label ∈ queryLabels name, (encode label).length ≤ 63) :
    buildQuery qtype name transactionId
      = (u16Bytes transactionId.toNat ++ [0, 0, 0, 1, 0, 0, 0, 0, 0, 0])
        ++ (EncodedName.bytes ⟨queryName name hle, none⟩ ++ [0, qtype, 0, 1]) := by
  rw [buildQuery, flatMap_pushLabel hle, EncodedName.bytes, endBytes]
  simp only [List.append_assoc, List.cons_append, List.nil_append]

/-- The packet has one question and nothing else, and both decoders read the text
where the question starts, up to its type and class. -/
structure Asks (packet : List UInt8) (text : String) : Prop where
  counts : (packet.drop 4).take 8 = u16Bytes 1 ++ u16Bytes 0 ++ u16Bytes 0 ++ u16Bytes 0
  decoded : ∃ next, next + 4 = packet.length ∧
    Mdns.decodeLabel packet 12 = .ok (some (text, next)) ∧
    Passive.decodeLabel packet 12 = .ok (some (text, next))

/-- **A query asks for its name**, whatever the builder. -/
theorem buildQuery_asks (qtype : UInt8) (transactionId : UInt16)
    (hle : ∀ label ∈ queryLabels name, (encode label).length ≤ 63) :
    Asks (buildQuery qtype name transactionId)
      (".".intercalate ((queryLabels name).map String.ofList)) := by
  rw [buildQuery_eq qtype transactionId hle]
  refine ⟨rfl, 12 + (EncodedName.bytes ⟨queryName name hle, none⟩).length, ?_, ?_⟩
  · rw [← List.append_assoc, List.length_append, List.length_append]
    rfl
  · have hat := standsAt_after (u16Bytes transactionId.toNat ++ [0, 0, 0, 1, 0, 0, 0, 0, 0, 0])
      (EncodedName.bytes ⟨queryName name hle, none⟩) [0, qtype, 0, 1]
    have htext : dotted (queryName name hle ++ [])
        = ".".intercalate ((queryLabels name).map String.ofList) := by
      rw [List.append_nil, dotted, ← queryName_text hle, List.map_map]
      rfl
    have hdecode := (decodeLabel_resolved hat known_nil rfl).1
    rw [htext] at hdecode
    exact ⟨hdecode, hdecode⟩

/-- **Query encoding**: for every transaction id and every name of short labels, the
name decoder undoes the query builders, and the two pointer queries are the same
packet. -/
theorem queries_decode (name : String) (transactionId : UInt16)
    (hle : ∀ label ∈ name.toList.splitOn '.', label ≠ [] → (encode label).length ≤ 63) :
    (∀ packet ∈ [Mdns.buildPtrQuery name transactionId, Mdns.buildAQuery name transactionId,
        Passive.buildMdnsQuery name transactionId],
      Asks packet (".".intercalate
        (((name.toList.splitOn '.').filter (· ≠ [])).map String.ofList))) ∧
    Passive.buildMdnsQuery name transactionId = Mdns.buildPtrQuery name transactionId := by
  have hlabels : ∀ label ∈ queryLabels name, (encode label).length ≤ 63 := by
    intro label hmem
    obtain ⟨hpart, hne⟩ := List.mem_filter.mp hmem
    exact hle label hpart (of_decide_eq_true hne)
  refine ⟨fun packet hmem => ?_, rfl⟩
  simp only [List.mem_cons, List.not_mem_nil, or_false] at hmem
  obtain rfl | rfl | rfl := hmem
  · exact buildQuery_asks 0x0C transactionId hlabels
  · exact buildQuery_asks 0x01 transactionId hlabels
  · exact buildQuery_asks 0x0C transactionId hlabels

/-- Empty labels are left out. -/
theorem queries_decode_local :
    Asks (Mdns.buildPtrQuery "nas..local" 0x1234) (".".intercalate ["nas", "local"]) :=
  (queries_decode "nas..local" 0x1234 (by decide +kernel)).1 _ List.mem_cons_self

end Gannet
