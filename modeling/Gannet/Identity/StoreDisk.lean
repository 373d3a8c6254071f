import Gannet.Identity.StoreCodec
import Gannet.Identity.StoreSkipped
import Gannet.Identity.StoreInvariant

/-!
# The registry file under serde_json (identity/store.rs)

`save` truncates the file and then writes its text from the start of it. What the next
`load` finds:

- `Store.saves_load`: after a save that ran to its end, the records that were saved; after
  one that was cut off, however late, none; after one into a file that another one has
  written to since it was truncated, those or none.
- `Store.load_edited`: the records do not depend on the order in which a file has their
  fields, nor on other members beside them.

The times of the records must be 64-bit, and in every registry that calls lead to they
are (`Store.Reaches.timed`).
-/

namespace Gannet

open KeyMap Utf8 JsonReader

/-! ## What calls keep of single records -/

/-- A property of records that allowed calls keep, whichever record they go into. -/
structure Kept (Allowed : Store.Op → Prop) (P : Record → Prop) : Prop where
  fresh : ∀ key mac d tagGen now, Allowed (.upsert d tagGen now) →
    P (freshRecord key mac d tagGen now)
  sight : ∀ r key mac d tagGen now, Allowed (.upsert d tagGen now) → P r →
    P ({ r with key := key, mac := mac }.sight d now)
  retag : ∀ r tag, P r → P { r with tag := some tag }

namespace Kept

variable {Allowed : Store.Op → Prop} {P : Record → Prop} {c c' : Contents} {op : Store.Op}
  {ops : List Store.Op} {s : Store}

theorem transition (hP : Kept Allowed P) (hop : Allowed op) (hc : ∀ k r, c k = some r → P r)
    (h : Transition c op c') : ∀ k r, c' k = some r → P r := by
  intro k r hk
  cases h with
  | sighting h =>
    rcases h.entry hk with rfl | hk
    · rcases h.sightedFrom with ⟨k₀, r₀, hk₀, key, mac, rfl⟩ | ⟨key₀, mac₀, key, mac, rfl⟩
      · exact hP.sight r₀ key mac _ _ _ hop (hc k₀ r₀ hk₀)
      · exact hP.sight _ key mac _ _ _ hop (hP.fresh key₀ mac₀ _ _ _ hop)
    · exact hc k r hk
  | retag htarget =>
    rcases update_some_cases hk with ⟨-, rfl⟩ | ⟨-, hk⟩
    · exact hP.retag _ _ (hc _ _ (tagTarget_spec htarget))
    · exact hc k r hk
  | untagged _ => exact hc k r hk

/-- Every record of a registry that allowed calls lead to has the property. -/
theorem reaches (hP : Kept Allowed P) (h : Store.Reaches ops s) (hops : ∀ op ∈ ops, Allowed op) :
    ∀ k r, s.contents k = some r → P r := by
  refine h.invariant_labels
    (fun ops s => (∀ op ∈ ops, Allowed op) → ∀ k r, s.contents k = some r → P r)
    ?_ ?_ hops
  · intro _ k r hk
    exact nomatch hk
  intro ops op t u hrun ih hstep hops
  rw [List.forall_mem_append, List.forall_mem_singleton] at hops
  exact hP.transition hops.2 (ih hops.1) (hstep.transition (Store.Reaches.wellFormed hrun))

end Kept

namespace Store

/-- The call reads the clock as a `u64`, if it reads it. -/
def Op.Clocked : Op → Prop
  | .upsert _ _ now => now < 2 ^ 64
  | .setTag _ _ _ => True

theorem kept_timed : Kept Op.Clocked Record.Timed where
  fresh _ _ _ _ _ hnow := ⟨hnow, hnow⟩
  sight _ _ _ _ _ _ hnow hr := ⟨hr.first, hnow⟩
  retag _ _ hr := ⟨hr.first, hr.last⟩

/-- Every record has a tag: it is created with one. -/
theorem kept_tagged : Kept (fun _ => True) fun r => r.tag ≠ none where
  fresh _ _ _ _ _ _ := Option.some_ne_none _
  sight _ _ _ _ _ _ _ hr := hr
  retag _ _ _ := Option.some_ne_none _

variable {s t : Store} {ops : List Op}

theorem Reaches.timed (h : Reaches ops s) (hops : ∀ op ∈ ops, op.Clocked) : s.Timed :=
  kept_timed.reaches h hops

theorem Reaches.tagged (h : Reaches ops s) {k : String} {r : Record}
    (hk : s.contents k = some r) : r.tag ≠ none :=
  kept_tagged.reaches h (fun _ _ => trivial) k r hk

theorem timed_congr (hs : s.Timed) (h : s.contents = t.contents) : t.Timed :=
  fun k r hk => hs k r (h ▸ hk)

/-! ## Files -/

/-- A text written from the start of a file that has not been truncated since. -/
def overwrite (bytes old : List UInt8) : List UInt8 := bytes ++ old.drop bytes.length

theorem overwrite_nil (bytes : List UInt8) : overwrite bytes [] = bytes := by
  rw [overwrite, List.drop_nil, List.append_nil]

/-- A file that was just truncated is like none. -/
theorem load_truncated : load serdeJson (some []) = empty := by
  have hempty : serdeJson.fromStr [] = none := by
    rw [serdeJson_fromStr, fromStr, Json.firm_deserializeStore.needs]
  show (serdeJson.fromStr []).getD empty = empty
  rw [hempty, Option.getD_none]

/-- **Whole saves**: the next load has the records that were saved. -/
theorem load_saved (h : s.Timed) :
    (load serdeJson (s.save serdeJson)).contents = s.contents :=
  load_save (serdeJson_roundTrips h)

/-- **Torn saves**: the next load finds no registry. -/
theorem load_torn (h : s.Timed) {n : Nat} (hn : n < (s.bytes serdeJson).length) :
    load serdeJson (some ((s.bytes serdeJson).take n)) = empty :=
  load_take (serdeJson_rejectsPrefixes h) hn

/-- **Saves that run into each other**: what was left of a longer text does not add to the
registry. -/
theorem load_overwritten (h : s.Timed) (old : List UInt8) :
    (load serdeJson (some (overwrite (s.bytes serdeJson) old))).contents = s.contents ∨
      load serdeJson (some (overwrite (s.bytes serdeJson) old)) = empty := by
  have htext : lossyChars (overwrite (s.bytes serdeJson) old)
      = Json.store s ++ lossyChars (old.drop (s.bytes serdeJson).length) :=
    lossyChars_encode_append _ _
  have hrun := Json.firm_deserializeStore.extend (Json.run_store h)
    (lossyChars (old.drop (s.bytes serdeJson).length))
  unfold load
  rw [Option.bind_some, fromUtf8]
  split_ifs with hvalid
  · rw [Option.bind_some, serdeJson_fromStr, htext, fromStr, hrun]
    dsimp only
    split_ifs with hspace
    · exact .inl (Json.contents_mapOf s)
    · exact .inr rfl
  · exact .inr rfl

/-- **Saves**: after a whole save the next load has the records that were saved. After one
that was cut off it finds none; after one into a file that held something, those or none. -/
theorem saves_load (h : s.Timed) :
    (load serdeJson (s.save serdeJson)).contents = s.contents ∧
      (∀ n < (s.bytes serdeJson).length,
        load serdeJson (some ((s.bytes serdeJson).take n)) = empty) ∧
      ∀ old, (load serdeJson (some (overwrite (s.bytes serdeJson) old))).contents = s.contents ∨
        load serdeJson (some (overwrite (s.bytes serdeJson) old)) = empty :=
  ⟨load_saved h, fun _ hn => load_torn h hn, load_overwritten h⟩

theorem deskAndLaptop_clocked : ∀ op ∈ [Op.sweep desk 0, .arp sofa laptop 1], op.Clocked := by
  intro op hop
  rcases List.mem_pair.mp hop with rfl | rfl
  · exact show 0 < 2 ^ 64 by decide
  · exact show 1 < 2 ^ 64 by decide

/-- Two records, saved as a whole and cut off within the second. -/
theorem saves_load_desk :
    (load serdeJson ((ofOps [.sweep desk 0, .arp sofa laptop 1]).save serdeJson)).contents
        = (ofOps [.sweep desk 0, .arp sofa laptop 1]).contents ∧
      load serdeJson (some (((ofOps [.sweep desk 0, .arp sofa laptop 1]).bytes serdeJson).take 500))
        = empty := by
  have hsaves := saves_load
    ((reaches_ofOps [.sweep desk 0, .arp sofa laptop 1]).timed deskAndLaptop_clocked)
  exact ⟨hsaves.1, hsaves.2.1 500 (by decide +kernel)⟩

/-! ## Files that were edited -/

section Edited

open Json (Member Reads Printed)

/-- The members of an object that stands for a structure: every field once, in any order,
and others between them. -/
structure Layout {F : Type} [DecidableEq F] (schema : Schema F) (members : List (Member F)) :
    Prop where
  skipped : ∀ m ∈ members, m.Skipped schema
  fields : (members.filterMap Member.field?).Perm schema.fields

/-- A record with its members laid out like this. -/
def editedRecord (r : Record) (members : List (Member Json.RecordField)) : List Char :=
  Json.block openBrace closeBrace 4 (members.map fun
    | .field f => Json.field f.name (Json.fieldText r f)
    | .other name text => Json.field name text)

/-- The records, each with the layout for its key. -/
def editedRecords (s : Store) (layout : String → List (Member Json.RecordField)) : List Char :=
  Json.block openBrace closeBrace 2
    (s.records.entries.map fun entry =>
      Json.field entry.1 (editedRecord entry.2 (layout entry.1)))

/-- The whole file, with its members laid out like this. -/
def editedText (s : Store) (layout : String → List (Member Json.RecordField))
    (members : List (Member Json.StoreField)) : List Char :=
  Json.block openBrace closeBrace 0 (members.map fun
    | .field _ => Json.field "records" (editedRecords s layout)
    | .other name text => Json.field name text)

variable {layout : String → List (Member Json.RecordField)}
  {members : List (Member Json.StoreField)}

theorem reads_editedRecord {r : Record} (h : r.Timed) {members : List (Member Json.RecordField)}
    (hlayout : Layout Json.recordSchema members) :
    Reads Json.deserializeRecord (editedRecord r members) r := by
  have hread := Json.record_fields_any_order h hlayout.skipped hlayout.fields 4
  have hmember : (Json.printedRecord r h).member = fun
      | .field f => Json.field f.name (Json.fieldText r f)
      | .other name text => Json.field name text := by
    funext m
    cases m <;> rfl
  rw [hmember] at hread
  exact hread

/-- The records of an edited file, as they are printed and read. -/
def printedEdited (s : Store) (h : s.Timed)
    (hlayout : ∀ k, Layout Json.recordSchema (layout k)) : Printed Json.storeSchema where
  value := fun .records => Json.mapOf (Json.entriesOf s)
  text _ := editedRecords s layout
  reads f := by
    cases f
    have hentry : ∀ entry ∈ s.records.entries, Reads Json.deserializeRecord
        (editedRecord entry.2 (layout entry.1)) entry.2 := fun entry hentry =>
      reads_editedRecord (h entry.1 entry.2 (AList.mem_lookup_iff.mpr hentry)) (hlayout entry.1)
    exact (Json.reads_map Json.settled_deserializeRecord hentry 2).map

/-- **Edited files**: a file whose objects have their members in another order, and others
among them that are no fields, loads as the registry it was made of. -/
theorem load_edited (h : s.Timed) (hlayout : ∀ k, Layout Json.recordSchema (layout k))
    (htop : Layout Json.storeSchema members) :
    (load serdeJson (some (encode (editedText s layout members)))).contents = s.contents := by
  have hbuild : Json.buildStore (fun f => some ((printedEdited s h hlayout).value f))
      = some ⟨Json.mapOf (Json.entriesOf s)⟩ := rfl
  have hnames : ∀ f, Json.storeSchema.fieldOf (Json.storeSchema.name f) = some f := by
    intro f
    cases f
    rfl
  have hall : ∀ f, f ∈ members.filterMap Member.field? := by
    intro f
    refine htop.fields.mem_iff.mpr ?_
    cases f
    exact List.mem_singleton_self _
  have hread : Reads Json.deserializeStore _ _ :=
    Json.reads_struct (printedEdited s h hlayout) Json.settled_storeRead hnames htop.skipped
      (htop.fields.nodup_iff.mpr (List.nodup_singleton _)) hall hbuild 0
  have hmember : (printedEdited s h hlayout).member = fun
      | .field _ => Json.field "records" (editedRecords s layout)
      | .other name text => Json.field name text := by
    funext m
    cases m <;> rfl
  have hrun := hread [] [] Json.white_nil fun _ hc => nomatch hc
  rw [hmember, List.nil_append, List.append_nil] at hrun
  rw [load, Option.bind_some, fromUtf8_encode, Option.bind_some, serdeJson_fromStr, fromStr,
    editedText, hrun]
  exact Json.contents_mapOf s

/-- The fields of a record backwards, after a comment. -/
def backwards : List (Member Json.RecordField) :=
  .other "comment" (Json.string "by hand") :: Json.RecordField.all.reverse.map .field

theorem layout_backwards : Layout Json.recordSchema backwards where
  skipped := by
    refine List.forall_mem_cons.mpr ⟨⟨rfl, (Json.skips_string _).reads⟩, fun m hm => ?_⟩
    obtain ⟨f, -, rfl⟩ := List.mem_map.mp hm
    trivial
  fields := List.reverse_perm Json.RecordField.all

/-- Members of numbers, booleans and `null`. -/
def editions : List (String × List Char) :=
  [("version", Json.number 2), ("checked", "true".toList), ("by", "null".toList)]

theorem skips_editions (indent : Nat) :
    Json.Skips (Json.block openBrace closeBrace indent
      (editions.map fun m => Json.field m.1 m.2)) := by
  refine Json.skips_object ?_ indent
  simp only [editions, List.forall_mem_cons]
  exact ⟨Json.skips_number 2, Json.skips_bool true, Json.skips_null, List.forall_mem_nil _⟩

/-- An array of two objects before the records. -/
def history : Member Json.StoreField :=
  .other "history" (Json.block '[' ']' 2 (List.replicate 2 (Json.block openBrace closeBrace 4
    (editions.map fun m => Json.field m.1 m.2))))

theorem layout_history : Layout Json.storeSchema [history, .field .records] where
  skipped := by
    have hitems : ∀ item ∈ List.replicate 2 (Json.block openBrace closeBrace 4
        (editions.map fun m => Json.field m.1 m.2)), Json.Skips item ∧ Json.StartsElement item := by
      intro item hitem
      rw [List.eq_of_mem_replicate hitem]
      exact ⟨skips_editions 4, _, _, rfl, rfl, by decide⟩
    have hskips := Json.skips_array hitems 2
    exact List.forall_mem_cons.mpr ⟨⟨rfl, hskips.reads⟩, List.forall_mem_singleton.mpr trivial⟩
  fields := .refl _

theorem load_edited_desk :
    (load serdeJson (some (encode (editedText (ofOps [.sweep desk 0, .arp sofa laptop 1])
      (fun _ => backwards) [history, .field .records])))).contents
        = (ofOps [.sweep desk 0, .arp sofa laptop 1]).contents :=
  load_edited ((reaches_ofOps [.sweep desk 0, .arp sofa laptop 1]).timed deskAndLaptop_clocked)
    (fun _ => layout_backwards) layout_history

end Edited

end Store

end Gannet
