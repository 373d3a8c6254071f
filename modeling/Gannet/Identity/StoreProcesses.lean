import Gannet.Identity.History
import Gannet.Identity.StoreJson
import Gannet.Identity.Tagging

/-!
# Two processes and one store file

`gannet listen` loads the registry once and saves it after every event;
`gannet scan` loads it, upserts what it found and saves it once; `gannet tag`
loads it, tags one address and saves it. Each of them reads and overwrites the
whole file: no lock, no version and no merge keeps two of them apart.

- `committed_tag_kept`: a tag that was saved is still on a record of its address
  at the end, as long as the other process loads the file after that or does not
  save it any more, and no promotion files another record over the tagged one.
- `committed_tag_lost`: the listener loads the file before the tag is saved and
  saves it afterwards, without the tag.
-/

namespace Gannet.Processes

open KeyMap Store

/-! ## The processes -/

/-- The command that upserts. -/
inductive Mode where
  | listen
  | scan
deriving DecidableEq, Repr

/-- The arguments of the two commands. -/
structure Config where
  mode : Mode
  codec : Codec
  ip : Ipv4Addr
  tag : String

/-- The process that upserts; `unsaved` after an upsert that was not saved. -/
inductive Collector where
  | start
  | running (store : Store) (unsaved : Bool)
  | done

/-- `gannet tag` -/
inductive Tagger where
  | start
  | loaded (store : Store)
  | tagged (store : Store)
  | done

/-- The file, and how far the two processes are. -/
structure State where
  file : File
  collector : Collector
  tagger : Tagger

/-- Neither process has read the file. -/
def State.init (file : File) : State := ⟨file, .start, .start⟩

/-- What one of the processes does next. -/
inductive Action where
  | collectorLoad
  | upsert (device : Device) (now : Nat)
  | collectorSave
  | collectorStop
  | taggerLoad
  | setTag
  | taggerSave

/-- A step of one of the processes. Loads and saves are steps of their own, so that the other
process can come in between; a save is one step. -/
inductive Step (cfg : Config) (s : State) : Action → State → Prop where
  | collectorLoad {store : Store} (h : s.collector = .start)
      (hload : load cfg.codec s.file = store) :
      Step cfg s .collectorLoad { s with collector := .running store false }
  /-- The listener saves before it takes the next event. -/
  | upsert {store store' : Store} {unsaved : Bool} {device : Device} {now : Nat}
      (h : s.collector = .running store unsaved) (hsaved : cfg.mode = .listen → unsaved = false)
      (hupsert : Store.Step store (.upsert device Namer.generate now) store') :
      Step cfg s (.upsert device now) { s with collector := .running store' true }
  | listenSave {store : Store} (hmode : cfg.mode = .listen)
      (h : s.collector = .running store true) :
      Step cfg s .collectorSave
        { s with file := store.save cfg.codec, collector := .running store false }
  | scanSave {store : Store} (hmode : cfg.mode = .scan) (h : s.collector = .running store true) :
      Step cfg s .collectorSave { s with file := store.save cfg.codec, collector := .done }
  /-- Ctrl-C -/
  | listenStop {store : Store} (hmode : cfg.mode = .listen)
      (h : s.collector = .running store false) :
      Step cfg s .collectorStop { s with collector := .done }
  | taggerLoad {store : Store} (h : s.tagger = .start) (hload : load cfg.codec s.file = store) :
      Step cfg s .taggerLoad { s with tagger := .loaded store }
  | tagFound {store store' : Store} (h : s.tagger = .loaded store)
      (htag : store.setTag none cfg.ip cfg.tag = (store', true)) :
      Step cfg s .setTag { s with tagger := .tagged store' }
  /-- "No record found": nothing is saved. -/
  | tagMissing {store store' : Store} (h : s.tagger = .loaded store)
      (htag : store.setTag none cfg.ip cfg.tag = (store', false)) :
      Step cfg s .setTag { s with tagger := .done }
  | taggerSave {store : Store} (h : s.tagger = .tagged store) :
      Step cfg s .taggerSave { s with file := store.save cfg.codec, tagger := .done }

/-- The registry an action saves. -/
def State.saved (s : State) : Action → Option Store
  | .collectorSave =>
    match s.collector with
    | .running store _ => some store
    | _ => none
  | .taggerSave =>
    match s.tagger with
    | .tagged store => some store
    | _ => none
  | _ => none

/-- What is saved is read back. -/
def SavesRoundTrip (cfg : Config) (s : State) (a : Action) : Prop :=
  ∀ store, s.saved a = some store → cfg.codec.RoundTrips store

/-! ## The tagged record -/

/-- The record carries the tag of the `tag` command and its address. -/
structure Carries (cfg : Config) (r : Record) : Prop where
  tag : r.tag = some cfg.tag
  ip : cfg.ip.toText ∈ r.ips

/-- Some record does. -/
def Carried (cfg : Config) (c : Contents) : Prop := ∃ k r, c k = some r ∧ Carries cfg r

/-- An upsert overwrites no record that carries the tag. -/
def KeepsTagged (cfg : Config) (s : State) (a : Action) : Prop :=
  ∀ device now store unsaved, a = .upsert device now → s.collector = .running store unsaved →
    ∀ k r, store.contents k = some r → Carries cfg r → ¬ Overwrites store.contents device k

variable {cfg : Config} {s t mid last : State} {a : Action} {as bs : List Action}
  {store store' : Store} {r r' : Record}

theorem Carries.extends (h : Carries cfg r) (hext : r.Extends r') : Carries cfg r' where
  tag := hext.tag.trans h.tag
  ip := hext.ips h.ip

/-- `set_tag` puts the tag on a record of the address. -/
theorem carried_setTag (hw : WellFormed store.contents)
    (htag : store.setTag none cfg.ip cfg.tag = (store', true)) :
    WellFormed store'.contents ∧ Carried cfg store'.contents := by
  have hstep : Store.Step store (.setTag none cfg.ip cfg.tag) store' := by
    have h := step_apply store (.setTag none cfg.ip cfg.tag)
    rwa [Store.apply, htag] at h
  refine ⟨hw.step hstep, ?_⟩
  have hspec := setTag_none_spec store cfg.ip cfg.tag
  rw [htag] at hspec
  cases hk : store.contents (ipKey cfg.ip) with
  | none =>
    rw [hk] at hspec
    exact absurd (congrArg Prod.snd hspec) (by simp)
  | some r =>
    rw [hk] at hspec
    refine ⟨ipKey cfg.ip, { r with tag := some cfg.tag }, ?_, rfl, ?_⟩
    · rw [hspec.1, Function.update_self]
    · show cfg.ip.toText ∈ r.ips
      rw [((hw.describes (.addr cfg.ip) hk).addr cfg.ip rfl).2]
      exact List.mem_singleton_self _

/-- An upsert that overwrites no record with the tag keeps the tag. -/
theorem Carried.upsert {device : Device} {now : Nat} (hw : WellFormed store.contents)
    (hc : Carried cfg store.contents)
    (hkeep : ∀ k r, store.contents k = some r → Carries cfg r →
      ¬ Overwrites store.contents device k)
    (hupsert : Store.Step store (.upsert device Namer.generate now) store') :
    Carried cfg store'.contents := by
  obtain ⟨k, r, hk, hr⟩ := hc
  cases hupsert.transition hw with
  | @sighting _ _ _ _ r' hsighting =>
    rcases hsighting.kept hk (hkeep k r hk hr) with hk' | ⟨hfrom, -⟩
    · exact ⟨k, r, hk', hr⟩
    · exact ⟨r'.key, r', hsighting.filed hw, hr.extends hfrom.extends⟩

/-! ## Invariants -/

/-- Every registry in play is well formed, and the one about to be saved by
`gannet tag` has the tag. -/
structure Sound (cfg : Config) (s : State) : Prop where
  file : WellFormed (load cfg.codec s.file).contents
  collector : ∀ store unsaved, s.collector = .running store unsaved → WellFormed store.contents
  loaded : ∀ store, s.tagger = .loaded store → WellFormed store.contents
  tagged : ∀ store, s.tagger = .tagged store →
    WellFormed store.contents ∧ Carried cfg store.contents

theorem sound_init {file : File} (hw : WellFormed (load cfg.codec file).contents) :
    Sound cfg (.init file) where
  file := hw
  collector := fun _ _ h => nomatch h
  loaded := fun _ h => nomatch h
  tagged := fun _ h => nomatch h

theorem Sound.step (hs : Sound cfg s) (hround : SavesRoundTrip cfg s a) (h : Step cfg s a t) :
    Sound cfg t := by
  -- a registry that is saved is what the next load finds
  have hfile : ∀ {store : Store}, s.saved a = some store → WellFormed store.contents →
      WellFormed (load cfg.codec (store.save cfg.codec)).contents := by
    intro store hsaved hw
    rwa [load_save (hround store hsaved)]
  cases h with
  | collectorLoad h hload =>
    refine { hs with collector := ?_ }
    rintro store unsaved ⟨⟩
    exact hload ▸ hs.file
  | upsert h hsaved hupsert =>
    refine { hs with collector := ?_ }
    rintro store unsaved ⟨⟩
    exact (hs.collector _ _ h).step hupsert
  | listenSave hmode h =>
    have hw := hs.collector _ _ h
    refine { hs with file := hfile (by rw [State.saved, h]) hw, collector := ?_ }
    rintro store unsaved ⟨⟩
    exact hw
  | scanSave hmode h =>
    have hw := hs.collector _ _ h
    refine { hs with file := hfile (by rw [State.saved, h]) hw, collector := ?_ }
    rintro store unsaved ⟨⟩
  | listenStop hmode h =>
    refine { hs with collector := ?_ }
    rintro store unsaved ⟨⟩
  | taggerLoad h hload =>
    refine { hs with loaded := ?_, tagged := ?_ }
    · rintro store ⟨⟩
      exact hload ▸ hs.file
    · rintro store ⟨⟩
  | tagFound h htag =>
    refine { hs with loaded := ?_, tagged := ?_ }
    · rintro store ⟨⟩
    · rintro store ⟨⟩
      exact carried_setTag (hs.loaded _ h) htag
  | tagMissing h htag =>
    refine { hs with loaded := ?_, tagged := ?_ }
    · rintro store ⟨⟩
    · rintro store ⟨⟩
  | taggerSave h =>
    have hw := (hs.tagged _ h).1
    refine { hs with file := hfile (by rw [State.saved, h]) hw, loaded := ?_, tagged := ?_ }
    · rintro store ⟨⟩
    · rintro store ⟨⟩

/-- The tag is saved, and the other process does not have a registry without it. -/
structure Committed (cfg : Config) (s : State) : Prop where
  file : Carried cfg (load cfg.codec s.file).contents
  collector : ∀ store unsaved, s.collector = .running store unsaved →
    Carried cfg store.contents
  tagger : s.tagger = .done

theorem Committed.step (hs : Sound cfg s) (hc : Committed cfg s)
    (hround : SavesRoundTrip cfg s a) (hkeep : KeepsTagged cfg s a) (h : Step cfg s a t) :
    Committed cfg t := by
  have htagger : ∀ {tagger : Tagger}, s.tagger = tagger → tagger = .done :=
    fun h => h.symm.trans hc.tagger
  cases h with
  | collectorLoad h hload =>
    refine { hc with collector := ?_ }
    rintro store unsaved ⟨⟩
    exact hload ▸ hc.file
  | upsert h hsaved hupsert =>
    refine { hc with collector := ?_ }
    rintro store unsaved ⟨⟩
    exact (hc.collector _ _ h).upsert (hs.collector _ _ h) (hkeep _ _ _ _ rfl h) hupsert
  | @listenSave saved hmode h =>
    have hcarried := hc.collector _ _ h
    refine { hc with file := ?_, collector := ?_ }
    · rwa [load_save (hround saved (by rw [State.saved, h]))]
    · rintro store unsaved ⟨⟩
      exact hcarried
  | @scanSave saved hmode h =>
    refine { hc with file := ?_, collector := ?_ }
    · rw [load_save (hround saved (by rw [State.saved, h]))]
      exact hc.collector _ _ h
    · rintro store unsaved ⟨⟩
  | listenStop hmode h =>
    refine { hc with collector := ?_ }
    rintro store unsaved ⟨⟩
  | taggerLoad h hload => exact nomatch htagger h
  | tagFound h htag => exact nomatch htagger h
  | tagMissing h htag => exact nomatch htagger h
  | taggerSave h => exact nomatch htagger h

/-- A process loads the file first, and only once. -/
theorem start_of_collectorLoad (hrun : Lts.Run (Step cfg) s as t)
    (hload : Action.collectorLoad ∈ as) : s.collector = .start := by
  by_contra hstart
  have hinv : t.collector ≠ .start ∧ Action.collectorLoad ∉ as := by
    refine hrun.invariant_labels (fun as t => t.collector ≠ .start ∧ Action.collectorLoad ∉ as)
      ⟨hstart, List.not_mem_nil⟩ ?_
    rintro as a t u - ⟨hne, hnot⟩ hstep
    rw [List.mem_append, List.mem_singleton, not_or]
    cases hstep with
    | collectorLoad h _ => exact absurd h hne
    | upsert _ _ _ => exact ⟨nofun, hnot, nofun⟩
    | listenSave _ _ => exact ⟨nofun, hnot, nofun⟩
    | scanSave _ _ => exact ⟨nofun, hnot, nofun⟩
    | listenStop _ _ => exact ⟨nofun, hnot, nofun⟩
    | taggerLoad _ _ => exact ⟨hne, hnot, nofun⟩
    | tagFound _ _ => exact ⟨hne, hnot, nofun⟩
    | tagMissing _ _ => exact ⟨hne, hnot, nofun⟩
    | taggerSave _ => exact ⟨hne, hnot, nofun⟩
  exact hinv.2 hload

/-- Once `gannet tag` has ended, only the other process's saves change the file. -/
theorem file_unchanged (hrun : Lts.Run (Step cfg) s as t) (htagger : s.tagger = .done)
    (hsave : Action.collectorSave ∉ as) : t.file = s.file := by
  have hinv : Action.collectorSave ∉ as → t.tagger = .done ∧ t.file = s.file := by
    refine hrun.invariant_labels
      (fun as t => Action.collectorSave ∉ as → t.tagger = .done ∧ t.file = s.file)
      (fun _ => ⟨htagger, rfl⟩) ?_
    intro as a t u _ ih hstep hnot
    rw [List.mem_append, List.mem_singleton, not_or] at hnot
    obtain ⟨hdone, hfile⟩ := ih hnot.1
    have htagger : ∀ {tagger : Tagger}, t.tagger = tagger → tagger = .done :=
      fun h => h.symm.trans hdone
    cases hstep with
    | collectorLoad _ _ => exact ⟨hdone, hfile⟩
    | upsert _ _ _ => exact ⟨hdone, hfile⟩
    | listenSave _ _ => exact absurd rfl hnot.2
    | scanSave _ _ => exact absurd rfl hnot.2
    | listenStop _ _ => exact ⟨hdone, hfile⟩
    | taggerLoad h _ => exact nomatch htagger h
    | tagFound h _ => exact nomatch htagger h
    | tagMissing h _ => exact nomatch htagger h
    | taggerSave h => exact nomatch htagger h
  exact (hinv hsave).2

/-- **Committed tags**: from a well-formed registry on disk, after any steps of
the two processes up to the save of `gannet tag`, and any further steps in which
no promotion overwrites a record with the tag: if the other process loads the
file only now, or does not save it any more, the file has a record of the address
with the tag. -/
theorem committed_tag_kept {file : File} (hw : WellFormed (load cfg.codec file).contents)
    (hbefore : Lts.Run (Lts.Guarded (Step cfg) (SavesRoundTrip cfg)) (.init file)
      (as ++ [.taggerSave]) mid)
    (hafter : Lts.Run (Lts.Guarded (Step cfg) fun s a =>
      SavesRoundTrip cfg s a ∧ KeepsTagged cfg s a) mid bs last)
    (hfresh : Action.collectorLoad ∈ bs ∨ Action.collectorSave ∉ bs) :
    Carried cfg (load cfg.codec last.file).contents := by
  obtain ⟨u, hearlier, hround, hsave⟩ := Lts.Run.snoc_iff.mp hbefore
  have hsound : Sound cfg u :=
    hearlier.invariant (Sound cfg) (sound_init hw) fun hs h => hs.step h.1 h.2
  have hsound' : Sound cfg mid := hsound.step hround hsave
  -- the tag is in the file now
  have hfile : Carried cfg (load cfg.codec mid.file).contents ∧ mid.tagger = .done := by
    cases hsave with
    | @taggerSave saved h =>
      refine ⟨?_, rfl⟩
      rw [load_save (hround saved (by rw [State.saved, h]))]
      exact (hsound.tagged _ h).2
  rcases hfresh with hload | hnosave
  · have hstart := start_of_collectorLoad hafter.of_guarded hload
    have hcommitted : Committed cfg mid :=
      ⟨hfile.1, fun _ _ h => (nomatch hstart.symm.trans h), hfile.2⟩
    have hinv : Sound cfg last ∧ Committed cfg last := by
      refine hafter.invariant (fun s => Sound cfg s ∧ Committed cfg s) ⟨hsound', hcommitted⟩ ?_
      rintro s t a ⟨hs, hc⟩ ⟨⟨hround, hkeep⟩, hstep⟩
      exact ⟨hs.step hround hstep, hc.step hs hround hkeep hstep⟩
    exact hinv.2.file
  · rw [file_unchanged hafter.of_guarded hfile.2 hnosave]
    exact hfile.1

/-! ## The desk is tagged while the listener runs -/

instance (cfg : Config) (r : Record) : Decidable (Carries cfg r) :=
  decidable_of_iff (r.tag = some cfg.tag ∧ cfg.ip.toText ∈ r.ips)
    ⟨fun h => ⟨h.1, h.2⟩, fun h => ⟨h.tag, h.ip⟩⟩

theorem carried_iff_values :
    Carried cfg store.contents ↔ ∃ r ∈ values store.records, Carries cfg r := by
  constructor
  · rintro ⟨k, r, hk, hr⟩
    exact ⟨r, mem_values.mpr ⟨k, hk⟩, hr⟩
  · rintro ⟨r, hmem, hr⟩
    obtain ⟨k, hk⟩ := mem_values.mp hmem
    exact ⟨k, r, hk, hr⟩

/-- The desk is tagged. -/
def taggedStore : Store := (deskStore.setTag none desk "printer").1

/-- The desk is tagged and the phone is added. -/
def taggedAndPhoneStore : Store := taggedStore.apply (.arp sofa phone 1)

/-- It knows the four registries of the run. -/
def printerCodec : Codec :=
  Json.codec [deskStore, deskAndPhoneStore, taggedStore, taggedAndPhoneStore]

/-- The listener beside `tag` of the desk. -/
def printerConfig : Config := ⟨.listen, printerCodec, desk, "printer"⟩

theorem printerCodec_texts :
    ([deskStore, deskAndPhoneStore, taggedStore, taggedAndPhoneStore].map Json.store).Nodup := by
  decide +kernel

theorem load_printerCodec (store : Store)
    (h : store ∈ [deskStore, deskAndPhoneStore, taggedStore, taggedAndPhoneStore]) :
    load printerCodec (store.save printerCodec) = store :=
  Json.codec_load_save h printerCodec_texts

theorem saves_printerCodec (h : s.saved a = some store)
    (hmem : store ∈ [deskStore, deskAndPhoneStore, taggedStore, taggedAndPhoneStore]) :
    SavesRoundTrip printerConfig s a := by
  intro saved hsaved
  obtain rfl := Option.some.inj (h.symm.trans hsaved)
  exact Json.codec_roundTrips hmem printerCodec_texts

theorem keepsTagged_of_ne (h : ∀ device now, a ≠ .upsert device now) : KeepsTagged cfg s a :=
  fun device now _ _ ha => absurd ha (h device now)

theorem setTag_desk : deskStore.setTag none desk "printer" = (taggedStore, true) := by
  have hfound : (deskStore.setTag none desk "printer").2 = true := by decide
  rw [← hfound]
  rfl

/-- The listener has loaded the file when the tag is saved; its next event saves
the registry it has, and the tag is gone. -/
theorem committed_tag_lost :
    ∃ as bs last, Lts.Run (Lts.Guarded (Step printerConfig) (SavesRoundTrip printerConfig))
        (.init (deskStore.save printerCodec)) (as ++ Action.taggerSave :: bs) last ∧
      Reaches [.sweep desk 0] deskStore ∧ last.collector = .done ∧ last.tagger = .done ∧
      ¬ Carried printerConfig (load printerCodec last.file).contents := by
  refine ⟨[.collectorLoad, .taggerLoad, .setTag],
    [.upsert (.ofArpEntry ⟨sofa, phone⟩) 1, .collectorSave, .collectorStop],
    ⟨deskAndPhoneStore.save printerCodec, .done, .done⟩, ?_, reaches_ofOps _, rfl, rfl, ?_⟩
  · have hdesk := load_printerCodec deskStore (by simp)
    have hphone : Store.Step deskStore (.arp sofa phone 1) deskAndPhoneStore := step_apply _ _
    refine .cons ⟨fun _ h => (nomatch h), .collectorLoad rfl hdesk⟩ ?_
    refine .cons ⟨fun _ h => (nomatch h), .taggerLoad rfl hdesk⟩ ?_
    refine .cons ⟨fun _ h => (nomatch h), .tagFound rfl setTag_desk⟩ ?_
    refine .cons ⟨saves_printerCodec rfl (by simp), .taggerSave rfl⟩ ?_
    refine .cons ⟨fun _ h => (nomatch h), .upsert rfl (fun _ => rfl) hphone⟩ ?_
    refine .cons ⟨saves_printerCodec rfl (by simp), .listenSave rfl rfl⟩ ?_
    exact .single ⟨fun _ h => (nomatch h), .listenStop rfl rfl⟩
  · show ¬ Carried printerConfig
      (load printerCodec (deskAndPhoneStore.save printerCodec)).contents
    rw [load_printerCodec _ (by simp), carried_iff_values]
    decide

/-- The listener starts after the tag was saved. -/
theorem committed_tag_kept_from_listener :
    Carried printerConfig
      (load printerConfig.codec (taggedAndPhoneStore.save printerCodec)).contents := by
  have hdesk := load_printerCodec deskStore (by simp)
  have htagged := load_printerCodec taggedStore (by simp)
  have hphone : Store.Step taggedStore (.arp sofa phone 1) taggedAndPhoneStore := step_apply _ _
  have hsofa : taggedStore.contents (ipKey sofa) = none := by decide
  have hw : WellFormed (load printerConfig.codec (deskStore.save printerCodec)).contents := by
    show WellFormed (load printerCodec (deskStore.save printerCodec)).contents
    rw [hdesk]
    exact (reaches_ofOps [.sweep desk 0]).wellFormed
  have hbefore : Lts.Run
      (Lts.Guarded (Step printerConfig) (SavesRoundTrip printerConfig))
      (.init (deskStore.save printerCodec)) ([Action.taggerLoad, .setTag] ++ [.taggerSave])
      ⟨taggedStore.save printerCodec, .start, .done⟩ := by
    refine .cons ⟨fun _ h => (nomatch h), .taggerLoad rfl hdesk⟩ ?_
    refine .cons ⟨fun _ h => (nomatch h), .tagFound rfl setTag_desk⟩ ?_
    exact .single ⟨saves_printerCodec rfl (by simp), .taggerSave rfl⟩
  have hafter : Lts.Run (Lts.Guarded (Step printerConfig) fun s a =>
        SavesRoundTrip printerConfig s a ∧ KeepsTagged printerConfig s a)
      ⟨taggedStore.save printerCodec, .start, .done⟩
      [.collectorLoad, .upsert (.ofArpEntry ⟨sofa, phone⟩) 1, .collectorSave]
      ⟨taggedAndPhoneStore.save printerCodec, .running taggedAndPhoneStore false, .done⟩ := by
    refine .cons ⟨⟨fun _ h => (nomatch h), keepsTagged_of_ne (by simp)⟩, .collectorLoad rfl htagged⟩ ?_
    refine .cons ⟨⟨fun _ h => (nomatch h), ?_⟩, .upsert rfl (fun _ => rfl) hphone⟩ ?_
    · rintro _ _ _ _ ⟨⟩ ⟨⟩ k r hk hr ⟨hip, -⟩
      exact hip hsofa
    exact .single ⟨⟨saves_printerCodec rfl (by simp), keepsTagged_of_ne (by simp)⟩, .listenSave rfl rfl⟩
  have hkept := committed_tag_kept hw hbefore hafter (.inl (by simp))
  exact hkept

end Gannet.Processes
