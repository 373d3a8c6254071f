import Gannet.Identity.StoreSteps
import Gannet.Lib.Utf8

/-!
# The registry on disk (identity/store.rs)

`Store::save` overwrites the whole file with the registry's JSON text, and
`Store::load` reads it back; a file that is missing, unreadable or no JSON of a
registry loads as the empty registry. serde_json is a parameter (`Codec`): what
is assumed of it is said of the registries that are saved.

`interrupted_save`: a save cut off at any point leaves the old registry (before
the file is truncated), the new one (after the last byte) or, in between, a file
that loads as the empty one.
-/

namespace Gannet

open KeyMap Utf8

/-- serde_json on registries: `to_string_pretty` and `from_str`. -/
structure Codec where
  toStringPretty : Store → List Char
  fromStr : List Char → Option Store

namespace Codec

/-- What is read back has the same records. -/
def RoundTrips (codec : Codec) (s : Store) : Prop :=
  ∃ t, codec.fromStr (codec.toStringPretty s) = some t ∧ t.contents = s.contents

/-- A text that breaks off is no JSON. -/
def RejectsPrefixes (codec : Codec) (s : Store) : Prop :=
  ∀ text, text <+: codec.toStringPretty s → text ≠ codec.toStringPretty s →
    codec.fromStr text = none

end Codec

/-- The store file, if there is one. -/
abbrev File := Option (List UInt8)

namespace Store

/-- The bytes `std::fs::write` is given. -/
def bytes (codec : Codec) (s : Store) : List UInt8 := encode (codec.toStringPretty s)

/-- The file after `save`. -/
def save (codec : Codec) (s : Store) : File := some (s.bytes codec)

/-- `load` -/
def load (codec : Codec) (file : File) : Store :=
  ((file.bind fromUtf8).bind codec.fromStr).getD empty

/-! ## Interrupted saves -/

/-- Where a save is cut off: before the file is truncated, or after some bytes
are written. -/
inductive CrashPoint where
  | beforeTruncation
  | afterBytes (n : Nat)

/-- The file a save of `s` leaves when it is cut off. -/
def crash (codec : Codec) (file : File) (s : Store) : CrashPoint → File
  | .beforeTruncation => file
  | .afterBytes n => some ((s.bytes codec).take n)

variable {codec : Codec} {s s' : Store}

/-- The next load parses what was printed. -/
theorem load_of_fromStr {t : Store} (h : codec.fromStr (codec.toStringPretty s) = some t) :
    load codec (s.save codec) = t := by
  rw [load, save, bytes, Option.bind_some, fromUtf8_encode, Option.bind_some, h, Option.getD_some]

theorem load_save (h : codec.RoundTrips s) : (load codec (s.save codec)).contents = s.contents := by
  obtain ⟨t, ht, hc⟩ := h
  rw [load_of_fromStr ht, hc]

/-- A file that was not written to its end. -/
theorem load_take (h : codec.RejectsPrefixes s) {n : Nat} (hn : n < (s.bytes codec).length) :
    load codec (some ((s.bytes codec).take n)) = empty := by
  unfold load
  rw [Option.bind_some]
  cases htext : fromUtf8 ((s.bytes codec).take n) with
  | none => rfl
  | some text =>
    obtain ⟨hcut, hbytes⟩ := prefix_of_fromUtf8_take htext
    -- a shorter text, since it has fewer bytes
    have hproper : text ≠ codec.toStringPretty s := by
      rintro rfl
      have hlength := congrArg List.length hbytes
      rw [List.length_take] at hlength
      change (s.bytes codec).length = min n (s.bytes codec).length at hlength
      omega
    rw [Option.bind_some, h text hcut hproper, Option.getD_none]

/-- **Interrupted saves**: while `s'` is saved over `s`, a cut before the
truncation leaves a file that loads as `s`, a cut after the last byte one that
loads as `s'`, and any other cut one that loads as the empty registry. -/
theorem interrupted_save (hs : codec.RoundTrips s) (hs' : codec.RoundTrips s')
    (hrejects : codec.RejectsPrefixes s') :
    (load codec (crash codec (s.save codec) s' .beforeTruncation)).contents = s.contents ∧
      (∀ n, n < (s'.bytes codec).length →
        load codec (crash codec (s.save codec) s' (.afterBytes n)) = empty) ∧
      ∀ n, (s'.bytes codec).length ≤ n →
        (load codec (crash codec (s.save codec) s' (.afterBytes n))).contents = s'.contents := by
  refine ⟨load_save hs, fun n hn => load_take hrejects hn, fun n hn => ?_⟩
  rw [crash, List.take_of_length_le hn]
  exact load_save hs'

/-- Whatever the crash point, the next load returns one of the two. -/
def SaveSafe (codec : Codec) (s s' : Store) : Prop :=
  ∀ p, (load codec (crash codec (s.save codec) s' p)).contents = s.contents ∨
    (load codec (crash codec (s.save codec) s' p)).contents = s'.contents

end Store

end Gannet
