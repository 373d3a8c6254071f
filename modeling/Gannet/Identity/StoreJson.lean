import Mathlib.Data.List.Nodup
import Gannet.Lib.JsonReader
import Gannet.Identity.StoreFile

/-!
# The registry as JSON (identity/store.rs)

`Json.store` is the text serde_json's pretty printer makes of a registry. `Json.codec` prints
every registry and reads back the texts of some known ones: the least a codec has to do for a
save that is cut off between two registries.
-/

namespace Gannet

open KeyMap

namespace Json

open JsonReader (openBrace closeBrace quotationMark backslash)

/-- A character inside a JSON string. -/
def escape (c : Char) : List Char :=
  if c = quotationMark ∨ c = backslash then [backslash, c]
  else if c.toNat = 0x08 then [backslash, 'b']
  else if c.toNat = 0x09 then [backslash, 't']
  else if c.toNat = 0x0A then [backslash, 'n']
  else if c.toNat = 0x0C then [backslash, 'f']
  else if c.toNat = 0x0D then [backslash, 'r']
  else if c.toNat < 0x20 then backslash :: "u00".toList ++ Text.hex2 c.toNat.toUInt8
  else [c]

/-- A string in quotation marks. -/
def string (s : String) : List Char :=
  quotationMark :: s.toList.flatMap escape ++ [quotationMark]

/-- A number, in decimal. -/
def number (n : Nat) : List Char := Nat.toDigits 10 n

/-- A value, or `null`. -/
def option {α : Type} (print : α → List Char) : Option α → List Char
  | some x => print x
  | none => "null".toList

/-- An array or an object; `indent` is that of the line it starts on. -/
def block (opening closing : Char) (indent : Nat) (items : List (List Char)) : List Char :=
  if items = [] then [opening, closing]
  else
    opening :: '\n' ::
      ",\n".toList.intercalate (items.map fun item => List.replicate (indent + 2) ' ' ++ item) ++
      '\n' :: List.replicate indent ' ' ++ [closing]

/-- A member of an object. -/
def field (name : String) (value : List Char) : List Char := string name ++ ": ".toList ++ value

/-- An array of strings. -/
def strings (indent : Nat) (xs : List String) : List Char :=
  block '[' ']' indent (xs.map string)

/-- The name of the variant. -/
def category : Category → List Char
  | .phone => string "Phone"
  | .laptop => string "Laptop"
  | .desktop => string "Desktop"
  | .router => string "Router"
  | .ioT => string "IoT"
  | .printer => string "Printer"
  | .tvStreaming => string "TvStreaming"
  | .unknown => string "Unknown"

/-- A record as an object. -/
def record (r : Record) : List Char :=
  block openBrace closeBrace 4
    [field "key" (string r.key), field "mac" (option string r.mac),
      field "last_ip" (string r.lastIp), field "ips" (strings 6 r.ips),
      field "tag" (option string r.tag), field "vendor" (option string r.vendor),
      field "hostname" (option string r.hostname), field "os_hint" (option string r.osHint),
      field "services" (strings 6 r.services), field "category" (option category r.category),
      field "first_seen" (number r.firstSeen), field "last_seen" (number r.lastSeen),
      field "seen_count" (number r.seenCount.toNat)]

/-- The text of a registry, its records in iteration order. -/
def store (s : Store) : List Char :=
  block openBrace closeBrace 0
    [field "records" (block openBrace closeBrace 2
      (s.records.entries.map fun entry => field entry.1 (record entry.2)))]

/-- Prints every registry and reads the known ones back. -/
def codec (known : List Store) : Codec where
  toStringPretty := store
  fromStr := fun text => known.find? fun s => store s = text

variable {known : List Store} {s : Store}

theorem codec_fromStr (hmem : s ∈ known) (hdistinct : (known.map store).Nodup) :
    (codec known).fromStr (store s) = some s := by
  show known.find? (fun t => store t = store s) = some s
  cases hfind : known.find? fun t => store t = store s with
  | none => exact absurd (decide_eq_true rfl) (List.find?_eq_none.mp hfind s hmem)
  | some t =>
    have htext := List.find?_some hfind
    simp only [decide_eq_true_eq] at htext
    obtain rfl := List.inj_on_of_nodup_map hdistinct (List.mem_of_find?_eq_some hfind) hmem htext
    rfl

theorem codec_roundTrips (hmem : s ∈ known) (hdistinct : (known.map store).Nodup) :
    (codec known).RoundTrips s :=
  ⟨s, codec_fromStr hmem hdistinct, rfl⟩

/-- A known registry is read back as it was saved, iteration order included. -/
theorem codec_load_save (hmem : s ∈ known) (hdistinct : (known.map store).Nodup) :
    Store.load (codec known) (s.save (codec known)) = s :=
  Store.load_of_fromStr (codec_fromStr hmem hdistinct)

theorem codec_rejectsPrefixes
    (hcut : ∀ t ∈ known, store t <+: store s → store t = store s) :
    (codec known).RejectsPrefixes s := by
  intro text htext hproper
  refine List.find?_eq_none.mpr fun t ht heq => hproper ?_
  have heq := of_decide_eq_true heq
  subst heq
  exact hcut t ht htext

end Json

/-! ## A save that is cut off -/

namespace Store

/-- A host the sweep found. -/
def deskStore : Store := ofOps [.sweep desk 0]

/-- The phone is added. -/
def deskAndPhoneStore : Store := ofOps [.sweep desk 0, .arp sofa phone 1]

/-- It knows the registries before and after the phone. -/
def phoneCodec : Codec := Json.codec [deskStore, deskAndPhoneStore]

theorem phoneCodec_texts : ([deskStore, deskAndPhoneStore].map Json.store).Nodup := by
  decide +kernel

theorem phoneCodec_desk : phoneCodec.RoundTrips deskStore :=
  Json.codec_roundTrips (by simp) phoneCodec_texts

theorem phoneCodec_deskAndPhone : phoneCodec.RoundTrips deskAndPhoneStore :=
  Json.codec_roundTrips (by simp) phoneCodec_texts

theorem phoneCodec_rejectsPrefixes : phoneCodec.RejectsPrefixes deskAndPhoneStore :=
  Json.codec_rejectsPrefixes (by decide +kernel)

/-- The file has just been truncated: the next load finds no record, not even
the host that is in both registries. -/
theorem interrupted_save_loses_host :
    phoneCodec.RoundTrips deskStore ∧ phoneCodec.RoundTrips deskAndPhoneStore ∧
      phoneCodec.RejectsPrefixes deskAndPhoneStore ∧
      deskStore.contents (ipKey desk) ≠ none ∧ deskAndPhoneStore.contents (ipKey desk) ≠ none ∧
      (load phoneCodec (crash phoneCodec (deskStore.save phoneCodec) deskAndPhoneStore
        (.afterBytes 0))).contents (ipKey desk) = none ∧
      ¬ SaveSafe phoneCodec deskStore deskAndPhoneStore := by
  have hdesk : deskStore.contents (ipKey desk) ≠ none := by decide
  have hboth : deskAndPhoneStore.contents (ipKey desk) ≠ none := by decide
  have hempty : load phoneCodec (crash phoneCodec (deskStore.save phoneCodec) deskAndPhoneStore
      (.afterBytes 0)) = empty := load_take phoneCodec_rejectsPrefixes (by decide +kernel)
  have hnone : empty.contents (ipKey desk) = none := rfl
  refine ⟨phoneCodec_desk, phoneCodec_deskAndPhone, phoneCodec_rejectsPrefixes, hdesk, hboth,
    by rw [hempty, hnone], fun hsafe => ?_⟩
  rcases hsafe (.afterBytes 0) with h | h
  · rw [hempty] at h
    exact hdesk ((congrFun h _).symm.trans hnone)
  · rw [hempty] at h
    exact hboth ((congrFun h _).symm.trans hnone)

theorem interrupted_save_of_phone :
    load phoneCodec (crash phoneCodec (deskStore.save phoneCodec) deskAndPhoneStore
      (.afterBytes 1)) = empty :=
  (interrupted_save phoneCodec_desk phoneCodec_deskAndPhone phoneCodec_rejectsPrefixes).2.1 1
    (by decide +kernel)

end Store

end Gannet
