import Mathlib.Data.Fintype.Prod
import Gannet.Cli.Report

/-!
# Where tags come from (namer.rs, store.rs, commands.rs)

A record gets its tag when it is created, from its key at that time, and keeps it when a MAC
gives it another key, unless the user tags it.

`list_tags`: after any session, the tag of every record `list` shows was generated for the
record's key, or for an address that the record has been seen at, or the user gave it; and
however many records there are, no more than 4752 generated tags are among theirs.
-/

namespace Gannet

open KeyMap Function

/-! ## Words -/

/-- Values of a function, each counted once, are no more than its arguments. -/
theorem length_le_card_of_range {ι α : Type} [Fintype ι] [DecidableEq α] {f : ι → α} {l : List α}
    (hnodup : l.Nodup) (hl : ∀ a ∈ l, ∃ i, f i = a) : l.length ≤ Fintype.card ι := by
  have hsub : l.toFinset ⊆ Finset.univ.image f := by
    intro a ha
    obtain ⟨i, rfl⟩ := hl a (List.mem_toFinset.mp ha)
    exact Finset.mem_image_of_mem f (Finset.mem_univ i)
  rw [← List.toFinset_card_of_nodup hnodup]
  exact (Finset.card_le_card hsub).trans Finset.card_image_le

namespace Namer

/-- The tag of two words. -/
def tagAt (words : Fin adjectives.length × Fin nouns.length) : String :=
  adjectives.get words.1 ++ "-" ++ nouns.get words.2

theorem adjective_lt (key : String) :
    (hashKey key).toNat % adjectives.length < adjectives.length :=
  Nat.mod_lt _ (by decide)

theorem noun_lt (key : String) : (hashKey key >>> 32).toNat % nouns.length < nouns.length :=
  Nat.mod_lt _ (by decide)

/-- The words that a key's hash chooses. -/
def wordsOf (key : String) : Fin adjectives.length × Fin nouns.length :=
  (⟨_, adjective_lt key⟩, ⟨_, noun_lt key⟩)

/-- A tag is the two words that the key's hash chooses. -/
theorem generate_eq (key : String) : generate key = tagAt (wordsOf key) := rfl

/-- There are 54 times 88 pairs. -/
theorem card_words : Fintype.card (Fin adjectives.length × Fin nouns.length) = 4752 := by
  rw [Fintype.card_prod, Fintype.card_fin, Fintype.card_fin]
  rfl

/-- Tags of two words, each counted once, are no more than the pairs of words. -/
theorem length_tags_le {tags : List String} (hnodup : tags.Nodup)
    (htags : ∀ tag ∈ tags, ∃ words, tagAt words = tag) : tags.length ≤ 4752 := by
  rw [← card_words]
  exact length_le_card_of_range hnodup htags

end Namer

/-! ## The origin of a tag -/

/-- The tag was generated for the record's key, or for an address the record has been seen
at, or it is one of the texts. -/
inductive TagFrom (texts : List String) (r : Record) : Prop where
  | key (h : r.tag = some (Namer.generate r.key))
  | address {ip : Ipv4Addr} (hseen : ip.toText ∈ r.ips)
      (h : r.tag = some (Namer.generate (ipKey ip)))
  | user {text : String} (hgiven : text ∈ texts) (h : r.tag = some text)

/-- The call creates records with generated tags. -/
def Store.Op.Generates : Store.Op → Prop
  | .upsert _ tagGen _ => tagGen = Namer.generate
  | .setTag _ _ _ => True

/-- The text of a call of `set_tag`. -/
def Store.Op.givenTag : Store.Op → Option String
  | .upsert _ _ _ => none
  | .setTag _ _ tag => some tag

variable {texts texts' : List String} {r : Record} {d : Device} {now : Nat} {c c' : Contents}
  {op : Store.Op}

/-- More texts allow more tags. -/
theorem TagFrom.mono (h : TagFrom texts r) (hsub : texts ⊆ texts') : TagFrom texts' r := by
  cases h with
  | key htag => exact .key htag
  | address hseen htag => exact .address hseen htag
  | user hgiven htag => exact .user (hsub hgiven) htag

/-- A sighting leaves key and tag alone, and takes no address away. -/
theorem TagFrom.sight (h : TagFrom texts r) (d : Device) (now : Nat) :
    TagFrom texts (r.sight d now) := by
  cases h with
  | key htag => exact .key htag
  | address hseen htag => exact .address (Record.ips_subset_sight hseen) htag
  | user hgiven htag => exact .user hgiven htag

/-- A sighting keeps where the tag of its record comes from. -/
theorem tagFrom_touch (hc : ∀ k r, c k = some r → TagFrom texts r) (id : Identity) (d : Device)
    (now : Nat) : TagFrom texts (touch c id d Namer.generate now) := by
  cases hk : c id.key with
  | some r =>
    rw [touch_of_some hk]
    exact (hc _ r hk).sight d now
  | none =>
    rw [touch_of_none hk]
    exact TagFrom.sight (.key rfl) d now

/-- A promoted record was filed under the address it is seen at now. -/
theorem tagFrom_promote (hw : WellFormed c) (hc : ∀ k r, c k = some r → TagFrom texts r)
    (hk : c (ipKey d.ip) = some r) (m : MacAddr6) (now : Nat) :
    TagFrom texts ((r.promote m).sight d now) := by
  rw [Record.promote_of_none (hw.mac_of_ipKey hk)]
  cases hc _ r hk with
  | key htag =>
    rw [hw.key_eq hk] at htag
    exact .address Record.ip_mem_sight_ips htag
  | address hseen htag => exact .address (Record.ips_subset_sight hseen) htag
  | user hgiven htag => exact .user hgiven htag

/-- One call: the text it gives is the only new one. -/
theorem tagFrom_transition (hw : WellFormed c) (hop : op.Generates)
    (hc : ∀ k r, c k = some r → TagFrom texts r) (h : Transition c op c') :
    ∀ k r, c' k = some r → TagFrom (texts ++ op.givenTag.toList) r := by
  have hold : ∀ k r, c k = some r → TagFrom (texts ++ op.givenTag.toList) r :=
    fun k r hk => (hc k r hk).mono (List.subset_append_left _ _)
  intro k r hk
  cases h with
  | sighting h =>
    obtain rfl := hop
    rcases h.entry hk with rfl | hk
    · cases h with
      | absorb _ hread _ _ _ => exact (hold _ _ hread).sight _ _
      | promote _ hread => exact tagFrom_promote hw hold hread _ _
      | own _ _ => exact tagFrom_touch hold _ _ _
      | anonymous _ => exact tagFrom_touch hold _ _ _
    · exact hold k r hk
  | retag htarget =>
    rcases update_some_cases hk with ⟨-, rfl⟩ | ⟨-, hk⟩
    · exact .user (List.mem_append_right _ (List.mem_singleton_self _)) rfl
    · exact hold k r hk
  | untagged _ => exact hold k r hk

/-- The tags of a registry that calls lead to. -/
theorem Store.Reaches.tagFrom {ops : List Store.Op} {s : Store} (h : Store.Reaches ops s)
    (hops : ∀ op ∈ ops, op.Generates) :
    ∀ k r, s.contents k = some r → TagFrom (ops.filterMap Store.Op.givenTag) r := by
  refine h.invariant_labels (fun ops s => (∀ op ∈ ops, op.Generates) →
    ∀ k r, s.contents k = some r → TagFrom (ops.filterMap Store.Op.givenTag) r) ?_ ?_ hops
  · intro _ k r hk
    cases hk
  · intro ops op t u hrun ih hstep hops
    rw [List.forall_mem_append, List.forall_mem_singleton] at hops
    have hw := Store.Reaches.wellFormed hrun
    have hnext := tagFrom_transition hw hops.2 (ih hops.1) (hstep.transition hw)
    have htexts : (ops ++ [op]).filterMap Store.Op.givenTag
        = ops.filterMap Store.Op.givenTag ++ op.givenTag.toList := by
      rw [List.filterMap_append]
      cases op <;> rfl
    rw [htexts]
    exact hnext

/-- A tag that the user did not give has two words of the lists. -/
theorem TagFrom.generated (h : TagFrom texts r) {tag : String} (htag : r.tag = some tag)
    (hgiven : tag ∉ texts) : ∃ words, Namer.tagAt words = tag := by
  cases h with
  | key hr =>
    exact ⟨Namer.wordsOf r.key, (Namer.generate_eq _).symm.trans
      (Option.some.inj (hr.symm.trans htag))⟩
  | @address ip _ hr =>
    exact ⟨Namer.wordsOf (ipKey ip), (Namer.generate_eq _).symm.trans
      (Option.some.inj (hr.symm.trans htag))⟩
  | user hmem hr =>
    rw [Option.some.inj (htag.symm.trans hr)] at hgiven
    exact absurd hmem hgiven

/-! ## The tags of `list` -/

namespace Commands

open Store

variable {ouiTable : UInt32 → Option String} {file : File}

/-- The upserts of a command have the generator as an argument. -/
theorem generates_upserts (clock : Nat → Nat) (ds : List Device) (n : Nat) :
    ∀ op ∈ upserts clock ds n, op.Generates := by
  induction ds generalizing n with
  | nil => exact List.forall_mem_nil _
  | cons d ds ih => exact List.forall_mem_cons.mpr ⟨rfl, ih (n + 1)⟩

/-- No tag is given by an `upsert`. -/
theorem givenTag_upserts (clock : Nat → Nat) (ds : List Device) (n : Nat) :
    (upserts clock ds n).filterMap Op.givenTag = [] := by
  induction ds generalizing n with
  | nil => rfl
  | cons d ds ih => exact (List.filterMap_cons_none rfl).trans (ih (n + 1))

/-- Every command hands the same generator to `upsert`. -/
theorem generates_calls (cmd : Command) : ∀ op ∈ cmd.calls ouiTable, op.Generates := by
  intro op hop
  cases cmd with
  | scan results hashing clock => exact generates_upserts _ _ _ op hop
  | survey subnets clock => exact generates_upserts _ _ _ op hop
  | listen cfg events =>
    obtain ⟨event, -, hcall⟩ := List.mem_filterMap.mp hop
    cases event <;> cases hcall
    rfl
  | tag ip text =>
    obtain ⟨addr, -, rfl⟩ := Option.map_eq_some_iff.mp (Option.mem_toList.mp hop)
    trivial
  | list => cases hop

/-- **The tags of a session**: every record listed has a tag that was generated for its key or
for an address it was seen at, or that the user gave; however many records there are, the tags
among them that the user did not give are 4752 at most. -/
theorem list_tags {cmds : List Command} (h : Lts.Run (Runs ouiTable) none cmds file)
    (hclock : ∀ op ∈ cmds.flatMap (Command.calls ouiTable), op.Clocked) (hashing : Hashing) :
    (∀ r ∈ list hashing file,
      TagFrom ((cmds.flatMap (Command.calls ouiTable)).filterMap Store.Op.givenTag) r) ∧
    ∀ tags : List String, tags.Nodup →
      (∀ tag ∈ tags, (∃ r ∈ list hashing file, r.tag = some tag) ∧
        tag ∉ (cmds.flatMap (Command.calls ouiTable)).filterMap Store.Op.givenTag) →
      tags.length ≤ 4752 := by
  obtain ⟨s, hreach, hs⟩ := Run.holds h hclock
  have hcalls : ∀ op ∈ cmds.flatMap (Command.calls ouiTable), op.Generates := by
    intro op hop
    obtain ⟨cmd, -, hcmd⟩ := List.mem_flatMap.mp hop
    exact generates_calls cmd op hcmd
  have htags : ∀ r ∈ list hashing file,
      TagFrom ((cmds.flatMap (Command.calls ouiTable)).filterMap Store.Op.givenTag) r := by
    intro r hr
    obtain ⟨k, hk⟩ := mem_list.mp hr
    exact hreach.tagFrom hcalls k r (hs ▸ hk)
  refine ⟨htags, fun tags hnodup hmem => Namer.length_tags_le hnodup fun tag htag => ?_⟩
  obtain ⟨⟨r, hr, hrtag⟩, hgiven⟩ := hmem tag htag
  exact (htags r hr).generated hrtag hgiven

/-- The tags listed after the session of the desk. -/
theorem list_tags_desk :
    ∃ file, Lts.Run (Runs fun _ => none) none [deskScan, .tag "192.168.1.10" "printer"] file ∧
      ∀ r ∈ list .stable file, TagFrom ["printer"] r := by
  have hscan : Runs (fun _ => none) none deskScan _ := .scan _ _ _
  have hrun := (Lts.Run.single hscan).snoc (.tag "192.168.1.10" "printer")
  have htexts : ([deskScan, .tag "192.168.1.10" "printer"].flatMap
      (Command.calls fun _ => none)).filterMap Store.Op.givenTag = ["printer"] := by
    rw [List.flatMap_cons, List.filterMap_append, deskScan, Command.calls, givenTag_upserts]
    decide +kernel
  obtain ⟨htags, -⟩ := list_tags hrun deskSession_clocked .stable
  exact ⟨_, hrun, htexts ▸ htags⟩

end Commands

end Gannet
