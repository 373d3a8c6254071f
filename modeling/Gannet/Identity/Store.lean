import Gannet.Lib.KeyMap
import Gannet.Lib.Run
import Gannet.Identity.Device

/-!
# The device registry (identity/store.rs)

`Store` is the in-memory registry: records under a text key, the MAC in hex
(`macKey`) for devices with a MAC and the dotted address (`ipKey`) for the
others. `upsert` merges one sighting into it, `setTag` labels a record, `get`
looks one up.

The records live in a hash map. `upsert` searches its values for a record last
seen at the device's address, so its result may depend on the iteration order;
the model keeps that order in the state, and `Store.Step` lets it change
between calls, as a randomly seeded hash map may.

`seenCount` wraps at 2³², as `+= 1` on a `u32` does in a release build (a debug
build stops there instead).
-/

namespace Gannet

open KeyMap

/-- `Record`: a device as it is saved. MAC and addresses are texts, the times seconds. -/
structure Record where
  key : String
  mac : Option String
  lastIp : String
  ips : List String
  tag : Option String
  vendor : Option String
  hostname : Option String
  osHint : Option String
  services : List String
  category : Option Category
  firstSeen : Nat
  lastSeen : Nat
  seenCount : UInt32
deriving DecidableEq, Repr

/-- `Store`: the records by their keys. -/
structure Store where
  records : Map String Record

/-- No record. -/
def Store.empty : Store := ⟨∅⟩

/-! ## Keys -/

/-- The MAC in lower-case hex, no separators. -/
def macKey (mac : MacAddr6) : String := String.ofList (mac.asBytes.flatMap Text.hex2)

/-- The key of a record without a MAC: its address. -/
def ipKey (ip : Ipv4Addr) : String := ip.toText

/-! ## Merging -/

/-- `existing`, with the items of `incoming` it does not contain yet pushed one
by one. -/
def mergeStringVec (existing incoming : List String) : List String :=
  incoming.foldl (fun existing item =>
    if item ∈ existing then existing else existing ++ [item]) existing

/-- `merge_category`: a known category is kept, an unknown one gives way. -/
def mergeCategory : Option Category → Option Category → Option Category
  | some e, some i => if e = .unknown ∧ i ≠ .unknown then some i else some e
  | none, some i => some i
  | some e, none => some e
  | none, none => none

/-- The record `or_insert_with` creates; the sighting itself is counted by
`Record.sight`. -/
def freshRecord (key : String) (mac : Option String) (device : Device)
    (tagGen : String → String) (now : Nat) : Record where
  key := key
  mac := mac
  lastIp := device.ip.toText
  ips := [device.ip.toText]
  tag := some (tagGen key)
  vendor := device.vendor
  hostname := device.hostname
  osHint := device.osHint
  services := device.services
  category := device.category
  firstSeen := now
  lastSeen := now
  seenCount := 0

namespace Record

/-- The updates every path of `upsert` makes to the record it settles on. -/
def sight (r : Record) (device : Device) (now : Nat) : Record :=
  { r with
    lastIp := device.ip.toText
    lastSeen := now
    seenCount := r.seenCount + 1
    ips := if device.ip.toText ∈ r.ips then r.ips else r.ips ++ [device.ip.toText]
    vendor := device.vendor.or r.vendor
    hostname := device.hostname.or r.hostname
    osHint := device.osHint.or r.osHint
    services := mergeStringVec r.services device.services
    category := mergeCategory r.category device.category }

/-- The `if old.mac.is_none()` block: a record without MAC takes the device's
MAC and key. The vendor, hostname and OS hint it takes there too are those
`Record.sight` takes in any case. -/
def promote (r : Record) (mac : MacAddr6) : Record :=
  if r.mac.isNone then { r with mac := some mac.toText, key := macKey mac } else r

end Record

namespace Store

/-! ## Operations -/

/-- The key of the record `upsert` merges a device with a MAC into, if there is
one: a record last seen at the address under another key, else the record
under the address itself. -/
def existingByIp (s : Store) (ipStr mkey : String) : Option String :=
  ((findValue s.records fun r => r.lastIp = ipStr ∧ r.key ≠ mkey).map Record.key).or
    (if ipStr ∈ s.records then some ipStr else none)

/-- `insert_record`: the store with the record under its own key, and the
record. -/
def insertRecord (s : Store) (record : Record) : Store × Record :=
  (⟨s.records.insert record.key record⟩, record)

/-- `entry(key).or_insert_with(..)` followed by the updates of the sighting. -/
def upsertEntry (s : Store) (key : String) (mac : Option String) (device : Device)
    (tagGen : String → String) (now : Nat) : Store × Record :=
  let record := (s.records.lookup key).getD (freshRecord key mac device tagGen now)
  let record := record.sight device now
  (⟨s.records.insert key record⟩, record)

/-- One sighting of `device` at clock reading `now`: the new store and the
record the sighting went into. -/
def upsert (s : Store) (device : Device) (tagGen : String → String) (now : Nat) :
    Store × Record :=
  match device.mac with
  | some mac =>
    let mkey := macKey mac
    match s.existingByIp device.ip.toText mkey with
    | some oldKey =>
      -- taken out, updated and filed again, under a new key if it was promoted
      match s.records.lookup oldKey with
      | some old =>
        let old := (old.promote mac).sight device now
        (Store.mk (s.records.erase oldKey)).insertRecord old
      -- the record found is filed under another key than its own
      | none => s.upsertEntry mkey (some mac.toText) device tagGen now
    | none => s.upsertEntry mkey (some mac.toText) device tagGen now
  | none => s.upsertEntry (ipKey device.ip) none device tagGen now

/-- `get`: by the MAC, and else by the address. -/
def get (s : Store) (mac : Option MacAddr6) (ip : Ipv4Addr) : Option Record :=
  match mac.bind fun m => s.records.lookup (macKey m) with
  | some r => some r
  | none => s.records.lookup ip.toText

/-- The record under `key` with its tag replaced. -/
def retag (s : Store) (key : String) (r : Record) (tag : String) : Store :=
  ⟨s.records.insert key { r with tag := some tag }⟩

/-- `set_tag`, with the `bool` it returns. -/
def setTag (s : Store) (mac : Option MacAddr6) (ip : Ipv4Addr) (tag : String) :
    Store × Bool :=
  match mac.bind fun m => (s.records.lookup (macKey m)).map fun r => (macKey m, r) with
  | some (key, r) => (s.retag key r tag, true)
  | none =>
    -- the address's own key only, not `last_ip`
    match s.records.lookup ip.toText with
    | some r => (s.retag ip.toText r tag, true)
    | none => (s, false)

/-! ## Runs -/

/-- A call that changes the store. -/
inductive Op where
  | upsert (device : Device) (tagGen : String → String) (now : Nat)
  | setTag (mac : Option MacAddr6) (ip : Ipv4Addr) (tag : String)

/-- The store after a call. -/
def apply (s : Store) : Op → Store
  | .upsert device tagGen now => (s.upsert device tagGen now).1
  | .setTag mac ip tag => (s.setTag mac ip tag).1

/-- One call on the store in some iteration order. -/
def Step (s : Store) (op : Op) (t : Store) : Prop :=
  ∃ s' : Store, SameEntries s.records s'.records ∧
    SameEntries t.records (s'.apply op).records

/-- The stores a sequence of calls on the empty store can lead to. -/
def Reaches (ops : List Op) (s : Store) : Prop := Lts.Run Step empty ops s

/-- What the store holds, iteration order aside. -/
def contents (s : Store) : String → Option Record := KeyMap.contents s.records

end Store

end Gannet
