import Gannet.Discovery.DnsMessage

/-!
# Parsing what was written

`parseMdnsRecords_bytes`: on the serialisation of a message the parser of
mdns.rs finds the names and services of its meaning. Offsets chain through the
names, the questions and the records; what is carried along is that every name
of the dictionary is a `Name` of the data (`Known`).
-/

namespace Gannet.Dns

open Bytes Loop Text Utf8 Mdns

/-! ## Numbers -/

/-- The length byte of a label is neither the root nor a pointer. -/
theorem lengthByte_spec : ∀ n < 64, 0 < n →
    UInt8.ofNat n ≠ 0 ∧ UInt8.ofNat n &&& 0xC0 ≠ 0xC0 := by decide

/-- The two bytes of a pointer give back its offset. -/
theorem be16_pointer {target : Nat} (htarget : target < 2 ^ 14) :
    be16 (UInt8.ofNat (0xC0 + target / 256) &&& 0x3F) (.ofNat target) = target := by
  rw [be16, (pointerByte_spec (target / 256) (by omega)).2, UInt8.toNat_ofNat']
  omega

/-! ## Names -/

variable {data : List UInt8}

/-- The names of the dictionary are names of the data. -/
def Known (data : List UInt8) (known : Places) : Prop :=
  ∀ offset labels, (offset, labels) ∈ known →
    ∃ next, Name data offset (labels.map Label.bytes) next

theorem known_nil : Known data [] := fun _ _ hmem => nomatch hmem

/-- Names found in two places are all known. -/
theorem Known.append {known known' : Places} (h : Known data known) (h' : Known data known') :
    Known data (known ++ known') := by
  intro offset labels hmem
  rcases List.mem_append.mp hmem with hmem | hmem
  · exact h offset labels hmem
  · exact h' offset labels hmem

/-- A label is not empty. -/
theorem Label.length_pos (l : Label) : 0 < l.bytes.length := by
  rw [List.length_pos_iff]
  intro hnil
  cases htext : l.text with
  | nil => exact l.ne_nil htext
  | cons c cs =>
    rw [Label.bytes, htext] at hnil
    exact String.utf8EncodeChar_ne_nil (List.append_eq_nil_iff.mp hnil).1

/-- A label standing before a name makes a longer name. -/
theorem name_cons {l : Label} {offset next : Nat} {labels : List (List UInt8)}
    (hat : StandsAt data l.encode offset)
    (hrest : Name data (offset + l.encode.length) labels next) :
    Name data offset (l.bytes :: labels) next := by
  obtain ⟨hbyte, hbytes⟩ := standsAt_cons.mp hat
  have hlen : l.bytes.length ≤ 63 := l.length_le
  obtain ⟨hpos, hlabel⟩ := lengthByte_spec l.bytes.length (by omega) l.length_pos
  have htoNat := toNat_lengthByte (show l.bytes.length < 256 by omega)
  have hnext : offset + 1 + (UInt8.ofNat l.bytes.length).toNat = offset + l.encode.length := by
    rw [htoNat, Label.encode, List.length_cons]
    omega
  have hfits : offset + 1 + (UInt8.ofNat l.bytes.length).toNat ≤ data.length := by
    rw [hnext]
    exact Nat.le_of_lt (Nat.lt_of_lt_of_le hrest.lt_next hrest.next_le)
  have hname := Name.label hbyte hpos hlabel hfits (hnext ▸ hrest)
  rwa [htoNat, hbytes.take_drop] at hname

/-- Labels before a name make a longer name, and every rest of it is known. -/
theorem names_from {tail : List Label} {next : Nat} (ls : List Label) (offset : Nat)
    (hat : StandsAt data (ls.flatMap Label.encode) offset)
    (htail : Name data (offset + (ls.flatMap Label.encode).length) (tail.map Label.bytes) next) :
    Name data offset ((ls ++ tail).map Label.bytes) next ∧
      Known data (placesFrom tail offset ls) := by
  induction ls generalizing offset with
  | nil =>
    refine ⟨htail, fun offset' labels hmem => ?_⟩
    obtain ⟨rfl, rfl⟩ := Prod.mk.inj (List.mem_singleton.mp hmem)
    exact ⟨next, htail⟩
  | cons l ls ih =>
    rw [List.flatMap_cons] at hat htail
    obtain ⟨hlabel, hlabels⟩ := standsAt_append.mp hat
    rw [List.length_append, ← Nat.add_assoc] at htail
    obtain ⟨hname, hknown⟩ := ih (offset + l.encode.length) hlabels htail
    have hcons : Name data offset ((l :: ls ++ tail).map Label.bytes) next :=
      name_cons hlabel hname
    refine ⟨hcons, fun offset' labels hmem => ?_⟩
    rcases List.mem_cons.mp hmem with heq | hmem
    · obtain ⟨rfl, rfl⟩ := Prod.mk.inj heq
      exact ⟨next, hcons⟩
    · exact hknown offset' labels hmem

/-- A resolved name stands in the data as a `Name`, and what it adds to the
dictionary is known. -/
theorem EncodedName.resolve_spec {n : EncodedName} {known known' : Places} {offset : Nat}
    {labels : List Label} (hat : StandsAt data n.bytes offset) (hknown : Known data known)
    (h : n.resolve known offset = some (labels, known')) :
    Name data offset (labels.map Label.bytes) (offset + n.bytes.length) ∧ Known data known' := by
  obtain ⟨ls, pointer⟩ := n
  obtain ⟨hlabels, hend⟩ := standsAt_append.mp hat
  rw [EncodedName.bytes, List.length_append, ← Nat.add_assoc]
  cases pointer with
  | none =>
    obtain ⟨rfl, rfl⟩ := Prod.mk.inj (Option.some.inj h)
    have hroot : Name data (offset + (ls.flatMap Label.encode).length)
        (([] : List Label).map Label.bytes) (offset + (ls.flatMap Label.encode).length + 1) :=
      .root (standsAt_cons.mp hend).1
    obtain ⟨hname, hplaces⟩ := names_from ls offset hlabels hroot
    exact ⟨hname, hplaces.append hknown⟩
  | some target =>
    obtain ⟨tail, htail, h⟩ := Option.bind_eq_some_iff.mp h
    obtain ⟨rfl, rfl⟩ := Prod.mk.inj (Option.some.inj h)
    obtain ⟨hhi, hlo⟩ := standsAt_cons.mp hend
    obtain ⟨next, hrest⟩ := hknown target.val tail (by
      obtain ⟨l₁, l₂, heq, -⟩ := List.lookup_eq_some_iff.mp htail
      rw [heq]
      exact List.mem_append_right _ List.mem_cons_self)
    have hpointer := (pointerByte_spec (target.val / 256) (by omega)).1
    have hend := Name.pointer hhi hpointer (standsAt_cons.mp hlo).1
      (be16_pointer target.isLt ▸ hrest)
    obtain ⟨hname, hplaces⟩ := names_from ls offset hlabels hend
    exact ⟨hname, hplaces.append hknown⟩

/-- The parser reads a resolved name as its text. -/
theorem decodeLabel_resolved {n : EncodedName} {known known' : Places} {offset : Nat}
    {labels : List Label} (hat : StandsAt data n.bytes offset) (hknown : Known data known)
    (h : n.resolve known offset = some (labels, known')) :
    Mdns.decodeLabel data offset = .ok (some (dotted labels, offset + n.bytes.length)) ∧
      Known data known' := by
  obtain ⟨hname, hknown'⟩ := n.resolve_spec hat hknown h
  refine ⟨(decodeLabel_of_name hname).trans ?_, hknown'⟩
  rw [List.map_map, dotted, List.map_congr_left fun l _ => fromUtf8Lossy_encode l.text]

/-! ## Strings of a TXT record -/

theorem TxtString.length_bytes (s : TxtString) : s.bytes.length = s.val.length + 1 := rfl

/-- The loop reads a string that stands at its position. -/
theorem txtRound_string {s : TxtString} {pos last : Nat} (names : List String)
    (hat : StandsAt data s.bytes pos) (hlast : pos + s.bytes.length ≤ last)
    (hle : last ≤ data.length) :
    txtRound data last (pos, names)
      = .ok (.again (pos + s.bytes.length, names ++ txtName s.val)) := by
  obtain ⟨hbyte, hbytes⟩ := standsAt_cons.mp hat
  rw [s.length_bytes] at hlast ⊢
  unfold txtRound
  rw [if_neg (show ¬ last ≤ pos by omega)]
  simp only [index_of_getElem? hbyte, toNat_lengthByte s.property, bind, Except.bind]
  rw [if_neg (show ¬ last < pos + 1 + s.val.length by omega),
    slice_of_le data (Nat.le_add_right _ _) (by omega), Nat.add_sub_cancel_left,
    hbytes.take_drop, Nat.add_assoc, Nat.add_comm 1]
  rfl

/-- The loop over the strings of a TXT record takes them one by one. -/
theorem txtRound_halts {last : Nat} (hle : last ≤ data.length) (strings : List TxtString)
    (pos : Nat) (names : List String)
    (hat : StandsAt data (strings.flatMap TxtString.bytes) pos)
    (hlast : pos + (strings.flatMap TxtString.bytes).length = last) :
    Halts (txtRound data last) (pos, names) strings.length
      (names ++ strings.flatMap fun s => txtName s.val) := by
  induction strings generalizing pos names with
  | nil =>
    rw [List.flatMap_nil, List.append_nil]
    exact .stop (if_pos (Nat.le_of_eq hlast.symm))
  | cons s strings ih =>
    rw [List.flatMap_cons] at hat hlast
    rw [List.length_append, ← Nat.add_assoc] at hlast
    obtain ⟨hstring, hstrings⟩ := standsAt_append.mp hat
    rw [List.flatMap_cons, ← List.append_assoc]
    exact .again (txtRound_string names hstring (by omega) hle) (ih _ _ hstrings hlast)

theorem length_le_strings (strings : List TxtString) :
    strings.length ≤ (strings.flatMap TxtString.bytes).length := by
  induction strings with
  | nil => exact Nat.le_refl 0
  | cons s strings ih =>
    rw [List.flatMap_cons, List.length_append, s.length_bytes, List.length_cons]
    omega

/-- So the names of a TXT record are those of its strings. -/
theorem txtNames_strings (strings : List TxtString) {pos : Nat}
    (hat : StandsAt data (strings.flatMap TxtString.bytes) pos) (hpos : pos ≤ data.length) :
    txtNames data pos (strings.flatMap TxtString.bytes).length
      = .ok (strings.flatMap fun s => txtName s.val) := by
  have hle := hat.le_length hpos
  unfold txtNames
  rw [Nat.min_eq_left hle, (txtRound_halts hle strings pos [] hat rfl).run_eq
    (Nat.lt_succ_of_le (length_le_strings strings))]
  rfl

/-! ## Records -/

/-- The first part of a dotted name is its first label. -/
theorem instanceName_dotted (target : List Label) :
    instanceName (dotted target)
      = hostName (((target.head?.map Label.text).getD []).dropWhile (· = '_')) := by
  have htexts : target.map (String.toList ∘ fun l => String.ofList l.text)
      = target.map Label.text := List.map_congr_left fun l _ => String.toList_ofList
  unfold instanceName
  rw [dotted, String.toList_intercalate, List.map_map, htexts]
  cases target with
  | nil => rfl
  | cons l ls =>
    have hdots : ∀ text ∈ (l :: ls).map Label.text, '.' ∉ text := by
      intro text hmem
      obtain ⟨l', -, rfl⟩ := List.mem_map.mp hmem
      exact l'.no_dot
    have hsplit : (['.'].intercalate ((l :: ls).map Label.text)).splitOn '.'
        = (l :: ls).map Label.text :=
      List.splitOn_intercalate '.' hdots (List.cons_ne_nil _ _)
    rw [show ".".toList = ['.'] from rfl, hsplit]
    rfl

theorem filterMap_cons_toList {α β : Type} (f : α → Option β) (x : α) (xs : List α) :
    (x :: xs).filterMap f = (f x).toList ++ xs.filterMap f := by
  rw [List.filterMap_cons]
  cases f x <;> rfl

/-- What a record's data adds to names and services. -/
theorem recordData_resolved {d : RData EncodedName} {d' : RData (List Label)}
    {known known' : Places} {pos : Nat} (owner : List Label) (rclass : UInt16) (ttl : UInt32)
    (hat : StandsAt data d.bytes pos) (hpos : pos ≤ data.length) (hknown : Known data known)
    (h : d.resolve known pos = some (d', known')) :
    (∃ services, recordData data (dotted owner) d.rtype pos d.bytes.length
        = .ok ⟨Resource.names ⟨owner, rclass, ttl, d'⟩, services⟩ ∧
      (Resource.serviceNames ⟨owner, rclass, ttl, d'⟩).filterMap
          (fun name => extractServiceType (dotted name))
        = (extractServiceType (dotted owner)).toList ++ services) ∧
      Known data known' := by
  cases d with
  | ptr target =>
    obtain ⟨⟨labels, known''⟩, htarget, h⟩ := Option.bind_eq_some_iff.mp h
    obtain ⟨rfl, rfl⟩ := Prod.mk.inj (Option.some.inj h)
    obtain ⟨hdecode, hknown''⟩ := decodeLabel_resolved hat hknown htarget
    refine ⟨⟨(extractServiceType (dotted labels)).toList, ?_, ?_⟩, hknown''⟩
    · show recordData data (dotted owner) 0x000C pos _ = _
      unfold recordData
      rw [if_pos rfl, hdecode]
      exact congrArg Except.ok (congrArg (ParseResult.mk · _) (instanceName_dotted labels))
    · show [owner, labels].filterMap _ = _
      rw [filterMap_cons_toList, filterMap_cons_toList, List.filterMap_nil, List.append_nil]
  | srv priority weight port target =>
    obtain ⟨⟨labels, known''⟩, htarget, h⟩ := Option.bind_eq_some_iff.mp h
    obtain ⟨rfl, rfl⟩ := Prod.mk.inj (Option.some.inj h)
    -- the target stands after priority, weight and port
    have htail : StandsAt data target.bytes (pos + 6) := (standsAt_append.mp hat).2
    obtain ⟨hdecode, hknown''⟩ := decodeLabel_resolved htail hknown htarget
    obtain ⟨hname, -⟩ := target.resolve_spec htail hknown htarget
    have hfits : pos + 6 ≤ data.length :=
      Nat.le_of_lt (Nat.lt_of_lt_of_le hname.lt_next hname.next_le)
    refine ⟨⟨[], ?_, ?_⟩, hknown''⟩
    · show recordData data (dotted owner) 0x0021 pos _ = _
      unfold recordData
      rw [if_neg (by decide), if_pos rfl, if_pos hfits, hdecode]
      rfl
    · exact filterMap_cons_toList _ _ _
  | txt strings =>
    obtain ⟨rfl, rfl⟩ := Prod.mk.inj (Option.some.inj h)
    refine ⟨⟨[], ?_, ?_⟩, hknown⟩
    · show recordData data (dotted owner) 0x0010 pos (strings.flatMap TxtString.bytes).length = _
      unfold recordData
      rw [if_neg (by decide), if_neg (by decide), if_neg (by decide), if_pos rfl,
        txtNames_strings strings hat hpos]
      rfl
    · exact filterMap_cons_toList _ _ _
  | other rtype hother raw =>
    obtain ⟨rfl, rfl⟩ := Prod.mk.inj (Option.some.inj h)
    simp only [List.mem_cons, List.not_mem_nil, or_false, not_or] at hother
    obtain ⟨hptr, hsrv, htxt⟩ := hother
    refine ⟨⟨[], ?_, ?_⟩, hknown⟩
    · show recordData data (dotted owner) rtype.toNat pos _ = _
      unfold recordData
      rw [if_neg hptr, if_neg hsrv]
      show _ = Except.ok (ParseResult.mk
        (if rtype = 0x0001 then localName (dotted owner) else []) [])
      by_cases ha : rtype = 0x0001
      · have ha' : rtype.toNat = 0x0001 := congrArg UInt16.toNat ha
        rw [if_pos ha, if_pos ha']
      · have ha' : rtype.toNat ≠ 0x0001 := fun heq => ha (UInt16.toNat_inj.mp heq)
        rw [if_neg ha, if_neg ha', if_neg htxt]
    · exact filterMap_cons_toList _ _ _

theorem RData.rtype_lt {ν : Type} (d : RData ν) : d.rtype < 2 ^ 16 := by
  cases d with
  | ptr target => show 0x000C < 2 ^ 16; decide
  | srv priority weight port target => show 0x0021 < 2 ^ 16; decide
  | txt strings => show 0x0010 < 2 ^ 16; decide
  | other rtype hother raw => exact rtype.toNat_lt

/-- What the parser reads between a record's owner and its data. -/
theorem Resource.index_fixed {r : Resource EncodedName} {pos : Nat}
    (hat : StandsAt data r.fixed pos) :
    index data pos = .ok (.ofNat (r.data.rtype / 256)) ∧
      index data (pos + 1) = .ok (.ofNat r.data.rtype) ∧
      index data (pos + 8) = .ok (.ofNat (r.data.bytes.length / 256)) ∧
      index data (pos + 9) = .ok (.ofNat r.data.bytes.length) :=
  ⟨hat.index (i := 0) rfl, hat.index (i := 1) rfl, hat.index (i := 8) rfl,
    hat.index (i := 9) rfl⟩

/-- The loop over the records finds each record at its offset. -/
theorem recordsLoop_resolved (rs : List (Resource EncodedName))
    {rs' : List (Resource (List Label))} {known known' : Places} (pos : Nat)
    (names services : List String) (hdata : ∀ r ∈ rs, r.data.bytes.length < 2 ^ 16)
    (hat : StandsAt data (rs.flatMap Resource.bytes) pos) (hknown : Known data known)
    (h : resolveAll Resource.resolve Resource.bytes known pos rs = some (rs', known')) :
    recordsLoop data rs.length pos names services
      = .ok ⟨names ++ rs'.flatMap Resource.names,
          services ++ (rs'.flatMap Resource.serviceNames).filterMap fun name =>
            extractServiceType (dotted name)⟩ := by
  induction rs generalizing pos names services known rs' with
  | nil =>
    obtain ⟨rfl, rfl⟩ := Prod.mk.inj (Option.some.inj h)
    simp [recordsLoop]
  | cons r rs ih =>
    obtain ⟨⟨r', known₂⟩, hr, h⟩ := Option.bind_eq_some_iff.mp h
    obtain ⟨⟨rest', known₃⟩, hrest, h⟩ := Option.bind_eq_some_iff.mp h
    obtain ⟨rfl, rfl⟩ := Prod.mk.inj (Option.some.inj h)
    obtain ⟨⟨owner, known₁⟩, howner, hr⟩ := Option.bind_eq_some_iff.mp hr
    obtain ⟨⟨d', known₂'⟩, hd, hr⟩ := Option.bind_eq_some_iff.mp hr
    obtain ⟨rfl, rfl⟩ := Prod.mk.inj (Option.some.inj hr)
    rw [List.flatMap_cons] at hat
    obtain ⟨hrecord, hrecords⟩ := standsAt_append.mp hat
    obtain ⟨hname, hrecord⟩ := standsAt_append.mp hrecord
    obtain ⟨hfixed, hrdata⟩ := standsAt_append.mp hrecord
    obtain ⟨hdecode, hknown₁⟩ := decodeLabel_resolved hname hknown howner
    have hnext := (decodeLabel_next hdecode).2
    obtain ⟨ht₀, ht₁, hl₀, hl₁⟩ := r.index_fixed hfixed
    have hfits := hfixed.le_length hnext
    have hlen := hdata r List.mem_cons_self
    obtain ⟨⟨found, hfound, hservices⟩, hknown₂⟩ :=
      recordData_resolved owner r.rclass r.ttl hrdata hfits hknown₁ hd
    have hlength : r.fixed.length = 10 := rfl
    rw [hlength] at hfits hfound hrdata
    have hpos : ¬ data.length ≤ pos := by
      have := (decodeLabel_next hdecode).1
      omega
    show recordsLoop data (rs.length + 1) pos names services = _
    unfold recordsLoop
    rw [if_neg hpos]
    simp only [hdecode, bind, Except.bind]
    rw [if_neg (show ¬ data.length < pos + r.owner.bytes.length + 10 by omega)]
    simp only [ht₀, ht₁, hl₀, hl₁, be16_ofNat r.data.rtype_lt, be16_ofNat hlen, hfound]
    -- the next record starts where this one ends
    have hend : pos + r.owner.bytes.length + 10 + r.data.bytes.length = pos + r.bytes.length := by
      rw [Resource.bytes, List.length_append, List.length_append, hlength]
      omega
    rw [hend, ih (pos + r.bytes.length) _ _ (fun r' hr' => hdata r' (List.mem_cons_of_mem _ hr'))
      hrecords hknown₂ hrest]
    simp only [List.flatMap_cons, List.filterMap_append, hservices, List.append_assoc]

/-! ## Questions -/

/-- The loop over the questions ends where they end. -/
theorem questionsLoop_resolved (qs : List (Question EncodedName))
    {qs' : List (Question (List Label))} {known known' : Places} (pos : Nat)
    (services : List String)
    (hat : StandsAt data (qs.flatMap Question.bytes) pos) (hknown : Known data known)
    (h : resolveAll Question.resolve Question.bytes known pos qs = some (qs', known')) :
    questionsLoop data qs.length pos services
      = .ok (pos + (qs.flatMap Question.bytes).length,
          services ++ (qs'.map Question.name).filterMap fun name =>
            extractServiceType (dotted name)) ∧ Known data known' := by
  induction qs generalizing pos services known qs' with
  | nil =>
    obtain ⟨rfl, rfl⟩ := Prod.mk.inj (Option.some.inj h)
    exact ⟨by simp [questionsLoop], hknown⟩
  | cons q qs ih =>
    obtain ⟨⟨q', known₂⟩, hq, h⟩ := Option.bind_eq_some_iff.mp h
    obtain ⟨⟨rest', known₃⟩, hrest, h⟩ := Option.bind_eq_some_iff.mp h
    obtain ⟨rfl, rfl⟩ := Prod.mk.inj (Option.some.inj h)
    obtain ⟨⟨name, known₁⟩, hname, hq⟩ := Option.bind_eq_some_iff.mp hq
    obtain ⟨rfl, rfl⟩ := Prod.mk.inj (Option.some.inj hq)
    rw [List.flatMap_cons] at hat
    obtain ⟨hquestion, hquestions⟩ := standsAt_append.mp hat
    obtain ⟨hdecode, hknown₁⟩ :=
      decodeLabel_resolved (standsAt_append.mp hquestion).1 hknown hname
    have hend : pos + q.name.bytes.length + 4 = pos + q.bytes.length := by
      rw [Question.bytes, List.length_append, Nat.add_assoc]
      rfl
    obtain ⟨hloop, hknown'⟩ := ih (pos + q.bytes.length)
      (services ++ (extractServiceType (dotted name)).toList) hquestions hknown₁ hrest
    refine ⟨?_, hknown'⟩
    show questionsLoop data (qs.length + 1) pos services = _
    unfold questionsLoop
    simp only [hdecode, bind, Except.bind]
    rw [hend, hloop, List.flatMap_cons, List.length_append, List.map_cons,
      filterMap_cons_toList, Nat.add_assoc, List.append_assoc]

/-! ## The message -/

namespace Message

variable (m : Message)

/-- The header is at the start. -/
theorem standsAt_header : StandsAt m.bytes m.header 0 :=
  standsAt_after [] m.header _

/-- The questions follow it. -/
theorem standsAt_questions : StandsAt m.bytes (m.questions.flatMap Question.bytes) 12 :=
  standsAt_after m.header _ _

/-- And the records follow them. -/
theorem standsAt_records : StandsAt m.bytes (m.records.flatMap Resource.bytes)
    (12 + (m.questions.flatMap Question.bytes).length) := by
  have hat := standsAt_after m.header
    (m.questions.flatMap Question.bytes ++ m.records.flatMap Resource.bytes) []
  rw [List.append_nil] at hat
  exact (standsAt_append.mp hat).2

/-- The message with its header read. -/
def view : View 12 where
  bytes := m.bytes
  size_le := m.standsAt_header.le_length (Nat.zero_le _)

theorem byte_view (i : Fin 12) {x : UInt8} (hx : m.header[i.val]? = some x) :
    m.view.byte i = x := by
  have hat := m.standsAt_header i.val x hx
  rw [Nat.zero_add] at hat
  exact Option.some.inj ((m.view.getElem?_byte i).symm.trans hat)

/-- The number of questions is read back. -/
theorem questionCount_view : questionCount m.view = m.questions.length := by
  rw [questionCount, m.byte_view 4 rfl, m.byte_view 5 rfl, be16_ofNat m.questions_lt]

/-- And that of the records. -/
theorem recordCount_view : recordCount m.view = m.records.length := by
  rw [recordCount, m.byte_view 6 rfl, m.byte_view 7 rfl, m.byte_view 8 rfl, m.byte_view 9 rfl,
    m.byte_view 10 rfl, m.byte_view 11 rfl, be16_ofNat m.answers_lt,
    be16_ofNat m.authorities_lt, be16_ofNat m.additionals_lt, records, List.length_append,
    List.length_append]

end Message

/-- **Round trip**: on the serialisation of every message whose pointers lead to
earlier names, the parser of mdns.rs returns the names and the services of its
meaning. -/
theorem parseMdnsRecords_bytes (m : Message) {meaning : Meaning}
    (hmeaning : m.resolve = some meaning) :
    parseMdnsRecords m.bytes = .ok ⟨meaning.names, meaning.services⟩ := by
  obtain ⟨⟨questions, known⟩, hquestions, h⟩ := Option.bind_eq_some_iff.mp hmeaning
  obtain ⟨⟨records, known'⟩, hrecords, h⟩ := Option.bind_eq_some_iff.mp h
  obtain rfl := Option.some.inj h
  obtain ⟨hqloop, hknown⟩ :=
    questionsLoop_resolved m.questions 12 [] m.standsAt_questions known_nil hquestions
  have hrloop := recordsLoop_resolved m.records
    (12 + (m.questions.flatMap Question.bytes).length) []
    ((questions.map Question.name).filterMap fun name => extractServiceType (dotted name))
    m.data_lt m.standsAt_records hknown hrecords
  have hcount : recordCount m.view ≠ 0 := by
    rw [m.recordCount_view]
    exact List.length_pos_iff.mpr m.records_ne_nil |>.ne'
  show parseMdnsRecords m.view.bytes = _
  rw [parseMdnsRecords_eq, if_neg hcount, m.questionCount_view, m.recordCount_view]
  simp only [Message.view, hqloop, hrloop, bind, Except.bind, List.nil_append]
  rw [Meaning.services, List.filterMap_append]
  rfl

/-! ## A message -/

/-- `_ipp` -/
def ippLabel : Label := ⟨"_ipp".toList, by decide, by decide, by decide⟩

/-- `_tcp` -/
def tcpLabel : Label := ⟨"_tcp".toList, by decide, by decide, by decide⟩

/-- `local` -/
def localLabel : Label := ⟨"local".toList, by decide, by decide, by decide⟩

/-- A label with an umlaut. -/
def officeLabel : Label := ⟨"Büro".toList, by decide, by decide, by decide⟩

/-- `nas` -/
def nasLabel : Label := ⟨"nas".toList, by decide, by decide, by decide⟩

/-- A printer's answer: the pointers lead to the question's name at 12, to its
label `local` at 22 and to the pointer's target at 45. -/
def printerMessage : Message where
  id := 0
  flags := 0x8400
  questions := [⟨⟨[ippLabel, tcpLabel, localLabel], none⟩, 12, 1⟩]
  answers := [⟨⟨[], some 12⟩, 1, 120, .ptr ⟨[officeLabel], some 12⟩⟩]
  authorities := []
  additionals :=
    [⟨⟨[], some 45⟩, 0x8001, 120, .srv 0 0 631 ⟨[nasLabel], some 22⟩⟩,
      ⟨⟨[], some 45⟩, 0x8001, 4500, .txt [⟨[0x66, 0x6E, 0x3D, 0x4F], by decide⟩]⟩,
      ⟨⟨[nasLabel, localLabel], none⟩, 0x8001, 120, .other 1 (by decide) [192, 168, 1, 10]⟩]
  questions_lt := by decide
  answers_lt := by decide
  authorities_lt := by decide
  additionals_lt := by decide
  records_ne_nil := by decide
  data_lt := by decide

/-- What the printer's message says. -/
def printerMeaning : Meaning where
  questions := [⟨[ippLabel, tcpLabel, localLabel], 12, 1⟩]
  records :=
    [⟨[ippLabel, tcpLabel, localLabel], 1, 120,
        .ptr [officeLabel, ippLabel, tcpLabel, localLabel]⟩,
      ⟨[officeLabel, ippLabel, tcpLabel, localLabel], 0x8001, 120,
        .srv 0 0 631 [nasLabel, localLabel]⟩,
      ⟨[officeLabel, ippLabel, tcpLabel, localLabel], 0x8001, 4500,
        .txt [⟨[0x66, 0x6E, 0x3D, 0x4F], by decide⟩]⟩,
      ⟨[nasLabel, localLabel], 0x8001, 120, .other 1 (by decide) [192, 168, 1, 10]⟩]

example : printerMeaning.names = ["Büro", "nas", "O", "nas"] := by decide

example : printerMeaning.services = ["ipp"] := by decide

/-- Two names share their end, the pointer to it is followed. -/
theorem parseMdnsRecords_printer :
    parseMdnsRecords printerMessage.bytes
      = .ok ⟨printerMeaning.names, printerMeaning.services⟩ :=
  parseMdnsRecords_bytes printerMessage rfl

end Gannet.Dns
