import Gannet.Identity.StoreText

/-!
# serde_json on the registry (identity/store.rs)

`Record`, `Store` and `Category` derive `Serialize` and `Deserialize`. Written, a
structure is an object with its fields in the order of their declaration; `serdeJson`
is what `Store::save` and `Store::load` call.

- `serdeJson_roundTrips`: every registry whose times are 64-bit is read back as it was
  written, whatever text its records hold.
- `serdeJson_rejectsPrefixes`: what was not written to its end is not read.
- `record_fields_any_order`: a record is found by the names of its fields, in any
  order, and other members are skipped.

These are the assumptions that loads and saves were studied under.
-/

namespace Gannet

open Parsing JsonReader KeyMap
open Json (Reads Printed Member)

namespace Json

/-! ## What is derived -/

/-- The category of this name. -/
def variantOf (name : String) : Option Category :=
  if name = "Phone" then some .phone
  else if name = "Laptop" then some .laptop
  else if name = "Desktop" then some .desktop
  else if name = "Router" then some .router
  else if name = "IoT" then some .ioT
  else if name = "Printer" then some .printer
  else if name = "TvStreaming" then some .tvStreaming
  else if name = "Unknown" then some .unknown
  else none

/-- The fields of a record. -/
inductive RecordField where
  | key
  | mac
  | lastIp
  | ips
  | tag
  | vendor
  | hostname
  | osHint
  | services
  | category
  | firstSeen
  | lastSeen
  | seenCount
deriving DecidableEq, Repr

namespace RecordField

/-- What a field is read into. -/
abbrev Value : RecordField → Type
  | key | lastIp => String
  | mac | tag | vendor | hostname | osHint => Option String
  | ips | services => List String
  | category => Option Category
  | firstSeen | lastSeen => Nat
  | seenCount => UInt32

/-- The name of a field in the file. -/
def name : RecordField → String
  | key => "key"
  | mac => "mac"
  | lastIp => "last_ip"
  | ips => "ips"
  | tag => "tag"
  | vendor => "vendor"
  | hostname => "hostname"
  | osHint => "os_hint"
  | services => "services"
  | category => "category"
  | firstSeen => "first_seen"
  | lastSeen => "last_seen"
  | seenCount => "seen_count"

/-- How a field is read. -/
def read : ∀ f : RecordField, Parser f.Value
  | key | lastIp => deserializeString
  | mac | tag | vendor | hostname | osHint => deserializeOption deserializeString
  | ips | services => deserializeSeq deserializeString
  | category => deserializeOption (deserializeEnum variantOf)
  | firstSeen | lastSeen => deserializeUnsigned (2 ^ 64)
  | seenCount => UInt32.ofNat <$> deserializeUnsigned (2 ^ 32)

/-- Only an `Option` may be missing. -/
def missing : ∀ f : RecordField, Option f.Value
  | mac | tag | vendor | hostname | osHint => some none
  | category => some none
  | key | lastIp | ips | services | firstSeen | lastSeen | seenCount => none

/-- In the order of their declaration. -/
def all : List RecordField :=
  [key, mac, lastIp, ips, tag, vendor, hostname, osHint, services, category, firstSeen, lastSeen,
    seenCount]

end RecordField

/-- A record, as the derived reader reads it. -/
def recordSchema : Schema RecordField where
  Value := RecordField.Value
  name := RecordField.name
  read := RecordField.read
  missing := RecordField.missing
  fields := RecordField.all

/-- The record of its fields. -/
def buildRecord (found : recordSchema.Found) : Option Record := do
  let key ← found .key
  let mac ← found .mac
  let lastIp ← found .lastIp
  let ips ← found .ips
  let tag ← found .tag
  let vendor ← found .vendor
  let hostname ← found .hostname
  let osHint ← found .osHint
  let services ← found .services
  let category ← found .category
  let firstSeen ← found .firstSeen
  let lastSeen ← found .lastSeen
  let seenCount ← found .seenCount
  pure {
    key := key, mac := mac, lastIp := lastIp, ips := ips, tag := tag, vendor := vendor
    hostname := hostname, osHint := osHint, services := services, category := category
    firstSeen := firstSeen, lastSeen := lastSeen, seenCount := seenCount }

/-- `Deserialize` of a record. -/
def deserializeRecord : Parser Record := deserializeStruct recordSchema buildRecord

/-- The one field of the registry. -/
inductive StoreField where
  | records
deriving DecidableEq, Repr

/-- The entries put into a hash map one after the other; of two with one key the second
one stays. -/
def mapOf (entries : List (String × Record)) : Map String Record :=
  entries.foldl (fun m entry => m.insert entry.1 entry.2) ∅

/-- The registry, as the derived reader reads it. -/
def storeSchema : Schema StoreField where
  Value | .records => Map String Record
  name | .records => "records"
  read | .records => mapOf <$> deserializeMap deserializeRecord
  missing | .records => none
  fields := [.records]

/-- The registry of its field. -/
def buildStore (found : storeSchema.Found) : Option Store := (found .records).map Store.mk

/-- `Deserialize` of the registry. -/
def deserializeStore : Parser Store := deserializeStruct storeSchema buildStore

end Json

/-- `to_string_pretty` and `from_str`. -/
def serdeJson : Codec where
  toStringPretty := Json.store
  fromStr := JsonReader.fromStr Json.deserializeStore

example : (serdeJson.fromStr " \x7b\"records\": \x7b\x7d\x7d\n".toList).isSome := by
  decide +kernel

example : (serdeJson.fromStr "\x7b\"records\": \x7b\x7d,\x7d".toList).isNone := by decide +kernel

/-! ## Reading what was written -/

namespace Json

variable {α β : Type} {p : Parser α} {x : α} {text rest : List Char} {r : Record}

theorem Reads.map {f : α → β} (h : Reads p text x) : Reads (f <$> p) text (f x) :=
  fun ws rest hws hrest => run_map_of_some (h ws rest hws hrest)

theorem settled_read (f : RecordField) : Settled (recordSchema.read f) := by
  have hoption : Settled (deserializeOption deserializeString) :=
    (firm_deserializeOption firm_deserializeString).settled
  have hseq : Settled (deserializeSeq deserializeString) :=
    (firm_deserializeSeq firm_deserializeString.settled eats_deserializeString).settled
  have htime : Settled (deserializeUnsigned (2 ^ 64)) := settled_deserializeUnsigned _
  cases f with
  | key | lastIp => exact firm_deserializeString.settled
  | mac | tag | vendor | hostname | osHint => exact hoption
  | ips | services => exact hseq
  | category => exact (firm_deserializeOption (firm_deserializeEnum variantOf)).settled
  | firstSeen | lastSeen => exact htime
  | seenCount => exact (settled_deserializeUnsigned _).map

theorem fieldOf_name (f : RecordField) : recordSchema.fieldOf (recordSchema.name f) = some f := by
  cases f <;> rfl

/-- The name a variant is written as. -/
def variantName : Category → String
  | .phone => "Phone"
  | .laptop => "Laptop"
  | .desktop => "Desktop"
  | .router => "Router"
  | .ioT => "IoT"
  | .printer => "Printer"
  | .tvStreaming => "TvStreaming"
  | .unknown => "Unknown"

theorem category_eq (c : Category) : category c = string (variantName c) := by cases c <;> rfl

theorem variantOf_name (c : Category) : variantOf (variantName c) = some c := by cases c <;> rfl

/-- The fields of a record, as they are printed. -/
def fieldText (r : Record) : RecordField → List Char
  | .key => string r.key
  | .mac => option string r.mac
  | .lastIp => string r.lastIp
  | .ips => strings 6 r.ips
  | .tag => option string r.tag
  | .vendor => option string r.vendor
  | .hostname => option string r.hostname
  | .osHint => option string r.osHint
  | .services => strings 6 r.services
  | .category => option category r.category
  | .firstSeen => number r.firstSeen
  | .lastSeen => number r.lastSeen
  | .seenCount => number r.seenCount.toNat

/-- The field of a record that is read back. -/
def fieldValue (r : Record) : ∀ f : RecordField, f.Value
  | .key => r.key
  | .mac => r.mac
  | .lastIp => r.lastIp
  | .ips => r.ips
  | .tag => r.tag
  | .vendor => r.vendor
  | .hostname => r.hostname
  | .osHint => r.osHint
  | .services => r.services
  | .category => r.category
  | .firstSeen => r.firstSeen
  | .lastSeen => r.lastSeen
  | .seenCount => r.seenCount

theorem reads_optionString (o : Option String) :
    Reads (deserializeOption deserializeString) (option string o) o :=
  reads_option fun s _ => ⟨reads_string s, startsValue_string s⟩

theorem reads_field (hfirst : r.firstSeen < 2 ^ 64) (hlast : r.lastSeen < 2 ^ 64)
    (f : RecordField) : Reads (recordSchema.read f) (fieldText r f) (fieldValue r f) := by
  cases f with
  | key | lastIp => exact reads_string _
  | mac | tag | vendor | hostname | osHint => exact reads_optionString _
  | ips | services => exact reads_strings 6 _
  | category =>
    refine reads_option fun c _ => ?_
    rw [category_eq]
    exact ⟨reads_enum (variantOf_name c), startsValue_string _⟩
  | firstSeen => exact reads_number hfirst
  | lastSeen => exact reads_number hlast
  | seenCount =>
    have hcount := (reads_number r.seenCount.toNat_lt).map (f := UInt32.ofNat)
    rw [UInt32.ofNat_toNat] at hcount
    exact hcount

end Json

/-- The times of a record are 64-bit, as `u64` is. -/
structure Record.Timed (r : Record) : Prop where
  first : r.firstSeen < 2 ^ 64
  last : r.lastSeen < 2 ^ 64

/-- The times of all records of the registry are. -/
def Store.Timed (s : Store) : Prop := ∀ k r, s.contents k = some r → r.Timed

namespace Json

variable {r : Record}

/-- The fields of a record, as they are printed and read. -/
def printedRecord (r : Record) (h : r.Timed) : Printed recordSchema where
  value := fieldValue r
  text := fieldText r
  reads := reads_field h.first h.last

/-- **Fields by name**: whatever the order of a record's fields in its object, and
whatever other members stand between them, the record is read. -/
theorem record_fields_any_order (h : r.Timed) {members : List (Member RecordField)}
    (hskipped : ∀ m ∈ members, m.Skipped recordSchema)
    (hperm : (members.filterMap Member.field?).Perm RecordField.all) (indent : Nat) :
    Reads deserializeRecord
      (block openBrace closeBrace indent (members.map (printedRecord r h).member)) r := by
  have hall : ∀ f, f ∈ RecordField.all := by
    intro f
    cases f <;> decide
  have hbuild : buildRecord (fun f => some ((printedRecord r h).value f)) = some r := rfl
  exact reads_struct (printedRecord r h) settled_read fieldOf_name hskipped
    (hperm.nodup_iff.mpr (by decide)) (fun f => hperm.mem_iff.mpr (hall f)) hbuild indent

theorem reads_record (h : r.Timed) : Reads deserializeRecord (record r) r := by
  have hknown : (RecordField.all.map Member.field).filterMap Member.field? = RecordField.all := rfl
  have hskipped : ∀ m ∈ RecordField.all.map Member.field, m.Skipped recordSchema := by
    simp [Member.Skipped]
  exact record_fields_any_order h hskipped (by rw [hknown]) 4

theorem settled_deserializeRecord : Settled deserializeRecord :=
  (firm_deserializeStruct settled_read buildRecord).settled

/-- The entries of a registry in iteration order. -/
def entriesOf (s : Store) : List (String × Record) :=
  s.records.entries.map fun entry => (entry.1, entry.2)

theorem contents_mapOf_aux {entries : List (String × Record)} (m : Map String Record)
    (hnodup : (entries.map Prod.fst).Nodup) (k : String) :
    contents (entries.foldl (fun m entry => m.insert entry.1 entry.2) m) k
      = (entries.lookup k).or (contents m k) := by
  induction entries generalizing m with
  | nil => rfl
  | cons entry entries ih =>
    obtain ⟨k', r⟩ := entry
    rw [List.map_cons, List.nodup_cons] at hnodup
    rw [List.foldl_cons, ih _ hnodup.2, contents_insert, List.lookup_cons]
    by_cases hk : k = k'
    · subst hk
      have hnone : entries.lookup k = none := by
        refine List.lookup_eq_none_iff.mpr fun e he => ?_
        exact bne_iff_ne.mpr fun heq => hnodup.1 (List.mem_map.mpr ⟨e, he, heq.symm⟩)
      rw [hnone, Function.update_self, beq_self_eq_true]
      rfl
    · rw [Function.update_of_ne hk, beq_false_of_ne hk]

theorem lookup_pairs (entries : List (Sigma fun _ : String => Record)) (k : String) :
    (entries.map fun entry => (entry.1, entry.2)).lookup k = entries.dlookup k := by
  induction entries with
  | nil => rfl
  | cons entry entries ih =>
    obtain ⟨k', r⟩ := entry
    rw [List.map_cons, List.lookup_cons]
    by_cases hk : k = k'
    · subst hk
      rw [List.dlookup_cons_eq, beq_self_eq_true]
    · rw [List.dlookup_cons_ne _ _ hk, beq_false_of_ne hk]
      exact ih

/-- The map that is read has the entries that were printed. -/
theorem contents_mapOf (s : Store) : contents (mapOf (entriesOf s)) = s.contents := by
  have hnodup : ((entriesOf s).map Prod.fst).Nodup := by
    rw [entriesOf, List.map_map]
    exact s.records.nodupKeys
  funext k
  rw [mapOf, contents_mapOf_aux ∅ hnodup, contents_empty, Option.or_none]
  exact lookup_pairs s.records.entries k

theorem settled_storeRead (f : StoreField) : Settled (storeSchema.read f) :=
  (firm_deserializeMap settled_deserializeRecord).settled.map

theorem firm_deserializeStore : Firm deserializeStore :=
  firm_deserializeStruct settled_storeRead buildStore

variable {s : Store}

/-- The registry's field, as it is printed and read. -/
def printedStore (s : Store) (h : s.Timed) : Printed storeSchema where
  value := fun .records => mapOf (entriesOf s)
  text _ := block openBrace closeBrace 2
    (s.records.entries.map fun entry => field entry.1 (record entry.2))
  reads f := by
    cases f
    have hentry : ∀ entry ∈ s.records.entries, Reads deserializeRecord (record entry.2) entry.2 :=
      fun entry hentry => reads_record (h entry.1 entry.2 (AList.mem_lookup_iff.mpr hentry))
    exact (reads_map settled_deserializeRecord hentry 2).map

theorem store_eq (h : s.Timed) : store s = block openBrace closeBrace 0
    ([Member.field StoreField.records].map (printedStore s h).member) := rfl

theorem reads_store (h : s.Timed) :
    Reads deserializeStore (store s) ⟨mapOf (entriesOf s)⟩ := by
  have hnames : ∀ f, storeSchema.fieldOf (storeSchema.name f) = some f := by
    intro f
    cases f
    rfl
  have hskipped : ∀ m ∈ [Member.field StoreField.records], m.Skipped storeSchema := by
    simp [Member.Skipped]
  have hbuild : buildStore (fun f => some ((printedStore s h).value f))
      = some ⟨mapOf (entriesOf s)⟩ := rfl
  have hall : ∀ f, f ∈ [Member.field StoreField.records].filterMap Member.field? := by
    intro f
    cases f
    decide
  rw [store_eq h]
  exact reads_struct (printedStore s h) settled_storeRead hnames hskipped (by decide) hall hbuild 0

/-- A registry is read from its text, and nothing of the text is left. -/
theorem run_store (h : s.Timed) :
    deserializeStore.run (store s) = some (⟨mapOf (entriesOf s)⟩, []) := by
  have hread := reads_store h [] [] white_nil fun _ hc => nomatch hc
  rw [List.nil_append, List.append_nil] at hread
  exact hread

end Json

variable {s : Store}

theorem serdeJson_toStringPretty (s : Store) : serdeJson.toStringPretty s = Json.store s := rfl

theorem serdeJson_fromStr (text : List Char) :
    serdeJson.fromStr text = JsonReader.fromStr Json.deserializeStore text := rfl

/-- **Round trip**: a registry is read back as it was written. -/
theorem serdeJson_roundTrips (h : s.Timed) : serdeJson.RoundTrips s := by
  refine ⟨⟨Json.mapOf (Json.entriesOf s)⟩, ?_, Json.contents_mapOf s⟩
  rw [serdeJson_fromStr, serdeJson_toStringPretty, JsonReader.fromStr, Json.run_store h]
  rfl

/-- **Cut texts**: what was not written to its end is not read. -/
theorem serdeJson_rejectsPrefixes (h : s.Timed) : serdeJson.RejectsPrefixes s := by
  intro text hcut hproper
  rw [serdeJson_toStringPretty] at hcut hproper
  rw [serdeJson_fromStr]
  exact fromStr_cut Json.firm_deserializeStore.toClosed (Json.run_store h) hcut hproper

end Gannet
