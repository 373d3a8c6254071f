import Mathlib.Data.List.Infix
import Gannet.Discovery.MdnsServices
import Gannet.Lib.Text

/-!
# Names and services in an mDNS message (mdns.rs)

`parse_mdns_records` walks a message as `parse_mdns_for_services` does and
collects the names of hosts as well. The two are separate copies of the walk,
and they differ where a question does not decode: the passive parser returns,
the active one goes on to the records from the position of that question.

`services_agree`: in spite of that they report the same services.
-/

namespace Gannet

open Bytes Loop Text Utf8

namespace Mdns

/-! ## Labels -/

/-- `KNOWN_SERVICES` -/
def knownServices : List String :=
  ["local", "in-addr", "arpa",
    "androidtvremote2", "googlecast",
    "rc", "raop", "airplay", "privet",
    "spotify-connect", "companion-link",
    "sleep-proxy"]

/-- `is_service_label` -/
def isServiceLabel (s : List Char) : Bool :=
  s.head? = some '_' || "._tcp".toList <:+: s || "._udp".toList <:+: s ||
    knownServices.any fun known => known.toList = s.map lowerAscii

/-- `extract_service_type` of mdns.rs, the same code as in passive.rs. -/
def extractServiceType (name : String) : Option String := Passive.extractServiceType name

/-- The text is pushed as a name if it is not empty and no service label. -/
def hostName (s : List Char) : List String :=
  if s ≠ [] ∧ isServiceLabel s = false then [.ofList s] else []

/-- The name in a pointer's target: its first label without the leading
underscores. -/
def instanceName (rdata : String) : List String :=
  match rdata.toList.splitOn '.' with
  | label :: _ => hostName (label.dropWhile (· = '_'))
  | [] => []

/-- The name in the target of an SRV record or in the owner of an A record. -/
def localName (host : String) : List String :=
  hostName (trimEndMatches ['.'] (trimEndMatches ".local".toList host.toList))

/-- The name in a string of a TXT record: the value of `fn` or `n`. -/
def txtName (bytes : List UInt8) : List String :=
  match fromUtf8 bytes with
  | some txt =>
    (((txt.dropPrefix? "fn=".toList).or (txt.dropPrefix? "n=".toList)).map String.ofList).toList
  | none => []

example : isServiceLabel "RAOP".toList = true := by decide

example : instanceName "_Office Printer._ipp._tcp.local" = ["Office Printer"] := by decide

example : localName "nas.local" = ["nas"] := by decide

/-! ## The parser -/

/-- What a message contributes: names, and service types. -/
structure ParseResult where
  names : List String
  services : List String
deriving DecidableEq, Repr

/-- One round of the loop over the strings of a TXT record. -/
def txtRound (data : List UInt8) (last : Nat) (st : Nat × List String) :
    Except Panic (Control (Nat × List String) (List String)) :=
  if last ≤ st.1 then .ok (.stop st.2)
  else do
    let len := (← index data st.1).toNat
    let p := st.1 + 1
    if last < p + len then return .stop st.2
    else
      let txt ← slice data p (p + len)
      return .again (p + len, st.2 ++ txtName txt)

/-- The names in the strings at `pos`; the fuel is enough (`txtNames_ok`). -/
def txtNames (data : List UInt8) (pos rdlen : Nat) : Except Panic (List String) :=
  (run (txtRound data (min (pos + rdlen) data.length)) (rdlen + 1) (pos, [])).getD
    (.error .outOfFuel)

/-- What is found in the data of a record, which starts at `pos`. -/
def recordData (data : List UInt8) (name : String) (rtype pos rdlen : Nat) :
    Except Panic ParseResult :=
  if rtype = 0x000C then do
    match ← decodeLabel data pos with
    | some (rdata, _) => return ⟨instanceName rdata, (extractServiceType rdata).toList⟩
    | none => return ⟨[], []⟩
  else if rtype = 0x0021 then
    if pos + 6 ≤ data.length then do
      match ← decodeLabel data (pos + 6) with
      | some (host, _) => return ⟨localName host, []⟩
      | none => return ⟨[], []⟩
    else .ok ⟨[], []⟩
  else if rtype = 0x0001 then .ok ⟨localName name, []⟩
  else if rtype = 0x0010 then do
    return ⟨← txtNames data pos rdlen, []⟩
  else .ok ⟨[], []⟩

/-- The loop over the questions: the position after them, or of the first one
that does not decode, and the services. -/
def questionsLoop (data : List UInt8) :
    Nat → Nat → List String → Except Panic (Nat × List String)
  | 0, pos, services => .ok (pos, services)
  | n + 1, pos, services => do
    match ← decodeLabel data pos with
    | some (name, next) =>
      questionsLoop data n (next + 4) (services ++ (extractServiceType name).toList)
    | none => return (pos, services)

/-- The loop over the records. -/
def recordsLoop (data : List UInt8) :
    Nat → Nat → List String → List String → Except Panic ParseResult
  | 0, _, names, services => .ok ⟨names, services⟩
  | n + 1, pos, names, services =>
    if data.length ≤ pos then .ok ⟨names, services⟩
    else do
      match ← decodeLabel data pos with
      | none => return ⟨names, services⟩
      | some (name, pos) =>
        let services := services ++ (extractServiceType name).toList
        if data.length < pos + 10 then return ⟨names, services⟩
        else
          let rtype := be16 (← index data pos) (← index data (pos + 1))
          let rdlen := be16 (← index data (pos + 8)) (← index data (pos + 9))
          let pos := pos + 10
          let found ← recordData data name rtype pos rdlen
          recordsLoop data n (pos + rdlen) (names ++ found.names) (services ++ found.services)

/-- `parse_mdns_records` -/
def parseMdnsRecords (data : List UInt8) : Except Panic ParseResult :=
  if data.length < 12 then .ok ⟨[], []⟩
  else do
    let questions := be16 (← index data 4) (← index data 5)
    let answerRrs := be16 (← index data 6) (← index data 7)
    let authorityRrs := be16 (← index data 8) (← index data 9)
    let additionalRrs := be16 (← index data 10) (← index data 11)
    let totalRrs := answerRrs + authorityRrs + additionalRrs
    if totalRrs = 0 then return ⟨[], []⟩
    else
      let (pos, services) ← questionsLoop data questions 12 []
      let result ← recordsLoop data totalRrs pos [] services
      return ⟨result.names, result.services.eraseDups⟩

/-! ## Nothing is read outside the data -/

variable {data : List UInt8}

/-- A round of the TXT loop stops or moves on, not beyond the end. -/
theorem txtRound_spec {last : Nat} (hlast : last ≤ data.length) (st : Nat × List String) :
    (∃ names, txtRound data last st = .ok (.stop names)) ∨
      ∃ t, txtRound data last st = .ok (.again t) ∧ st.1 < t.1 ∧ t.1 ≤ last := by
  unfold txtRound
  by_cases hend : last ≤ st.1
  · exact .inl ⟨_, if_pos hend⟩
  rw [if_neg hend]
  obtain ⟨byte, hbyte⟩ : ∃ byte, data[st.1]? = some byte :=
    ⟨_, List.getElem?_eq_getElem (by omega)⟩
  simp only [index_of_getElem? hbyte, bind, Except.bind, pure, Except.pure]
  by_cases hcut : last < st.1 + 1 + byte.toNat
  · exact .inl ⟨_, if_pos hcut⟩
  · rw [if_neg hcut, slice_of_le data (by omega) (by omega)]
    exact .inr ⟨_, rfl, by show st.1 < st.1 + 1 + byte.toNat; omega, by
      show st.1 + 1 + byte.toNat ≤ last; omega⟩

/-- The strings of a TXT record never lead out of the message. -/
theorem txtNames_ok (data : List UInt8) (pos rdlen : Nat) :
    ∃ names, txtNames data pos rdlen = .ok names := by
  have hlast : min (pos + rdlen) data.length ≤ data.length := Nat.min_le_right _ _
  -- every string takes at least its length byte
  have hround : ∀ st, True →
      (∃ names, txtRound data (min (pos + rdlen) data.length) st = .ok (.stop names)) ∨
      ∃ t, txtRound data (min (pos + rdlen) data.length) st = .ok (.again t) ∧ True ∧
        min (pos + rdlen) data.length - t.1 < min (pos + rdlen) data.length - st.1 := by
    intro st _
    rcases txtRound_spec hlast st with hstop | ⟨t, hagain, hlt, hle⟩
    · exact .inl hstop
    · exact .inr ⟨t, hagain, trivial, by omega⟩
  obtain ⟨n, names, hhalts, hn⟩ := exists_halts_of_decreasing _
    (fun st => min (pos + rdlen) data.length - st.1) hround (s := (pos, [])) trivial
  refine ⟨names, ?_⟩
  have hn' : n ≤ min (pos + rdlen) data.length - pos := hn
  rw [txtNames, hhalts.run_eq (by omega)]
  rfl

/-- Only a pointer's target adds services. -/
theorem recordData_spec (data : List UInt8) (name : String) (rtype pos rdlen : Nat) :
    ∃ names services, recordData data name rtype pos rdlen = .ok ⟨names, services⟩ ∧
      (rtype = 0x000C → ∃ target, Gannet.decodeLabel data pos = .ok target ∧
        services = (target.bind fun (rdata, _) => Passive.extractServiceType rdata).toList) ∧
      (rtype ≠ 0x000C → services = []) := by
  unfold recordData
  by_cases hptr : rtype = 0x000C
  · obtain ⟨target, htarget⟩ := decodeLabel_ok data pos
    rw [if_pos hptr]
    simp only [decodeLabel, htarget, bind, Except.bind]
    cases target with
    | none => exact ⟨_, _, rfl, fun _ => ⟨none, rfl, rfl⟩, fun h => absurd hptr h⟩
    | some pair => exact ⟨_, _, rfl, fun _ => ⟨some pair, rfl, rfl⟩, fun h => absurd hptr h⟩
  rw [if_neg hptr]
  -- the others push no service
  suffices h : ∃ names, _ = Except.ok (ParseResult.mk names []) by
    obtain ⟨names, hnames⟩ := h
    exact ⟨names, [], hnames, fun h => absurd h hptr, fun _ => rfl⟩
  by_cases hsrv : rtype = 0x0021
  · rw [if_pos hsrv]
    by_cases hfits : pos + 6 ≤ data.length
    · obtain ⟨r, hr⟩ := decodeLabel_ok data (pos + 6)
      rw [if_pos hfits]
      simp only [decodeLabel, hr, bind, Except.bind]
      cases r with
      | none => exact ⟨_, rfl⟩
      | some pair => exact ⟨_, rfl⟩
    · exact ⟨_, if_neg hfits⟩
  rw [if_neg hsrv]
  by_cases ha : rtype = 0x0001
  · exact ⟨_, if_pos ha⟩
  rw [if_neg ha]
  by_cases htxt : rtype = 0x0010
  · obtain ⟨names, hnames⟩ := txtNames_ok data pos rdlen
    refine ⟨names, ?_⟩
    rw [if_pos htxt, hnames]
    rfl
  · exact ⟨_, if_neg htxt⟩

end Mdns

/-! ## The two walks -/

variable {data : List UInt8}

/-- How a loop over the records finds the one at `pos`. -/
inductive RecordHead (data : List UInt8) (pos : Nat) : Prop where
  | outside (hout : data.length ≤ pos)
  | undecoded (hin : ¬ data.length ≤ pos) (hname : decodeLabel data pos = .ok none)
  | cut {name : String} {next : Nat} (hin : ¬ data.length ≤ pos)
      (hname : decodeLabel data pos = .ok (some (name, next))) (hcut : data.length < next + 10)
  | whole {name : String} {next : Nat} {t₀ t₁ l₀ l₁ : UInt8} (hin : ¬ data.length ≤ pos)
      (hname : decodeLabel data pos = .ok (some (name, next)))
      (hwhole : ¬ data.length < next + 10)
      (ht₀ : index data next = .ok t₀) (ht₁ : index data (next + 1) = .ok t₁)
      (hl₀ : index data (next + 8) = .ok l₀) (hl₁ : index data (next + 9) = .ok l₁)

/-- The head of a record is there, or the loop ends. -/
theorem recordHead (data : List UInt8) (pos : Nat) : RecordHead data pos := by
  by_cases hin : data.length ≤ pos
  · exact .outside hin
  obtain ⟨r, hr⟩ := decodeLabel_ok data pos
  cases r with
  | none => exact .undecoded hin hr
  | some pair =>
    obtain ⟨name, next⟩ := pair
    by_cases hcut : data.length < next + 10
    · exact .cut hin hr hcut
    obtain ⟨t₀, ht₀⟩ : ∃ t, index data next = .ok t := index_ok (by omega)
    obtain ⟨t₁, ht₁⟩ : ∃ t, index data (next + 1) = .ok t := index_ok (by omega)
    obtain ⟨l₀, hl₀⟩ : ∃ l, index data (next + 8) = .ok l := index_ok (by omega)
    obtain ⟨l₁, hl₁⟩ : ∃ l, index data (next + 9) = .ok l := index_ok (by omega)
    exact .whole hin hr hcut ht₀ ht₁ hl₀ hl₁

/-- From the same position both loops over the records find the same services. -/
theorem recordsLoop_agree (data : List UInt8) (n pos : Nat) (names services : List String) :
    ∃ names' services',
      Mdns.recordsLoop data n pos names services = .ok ⟨names', services'⟩ ∧
      Passive.recordsLoop data n pos services = .ok services' := by
  induction n generalizing pos names services with
  | zero => exact ⟨_, _, rfl, rfl⟩
  | succ n ih =>
    simp only [Mdns.recordsLoop, Passive.recordsLoop, Mdns.decodeLabel, Passive.decodeLabel]
    cases recordHead data pos with
    | outside hout => exact ⟨_, _, if_pos hout, if_pos hout⟩
    | undecoded hin hname =>
      simp only [if_neg hin, hname, bind, Except.bind]
      exact ⟨_, _, rfl, rfl⟩
    | cut hin hname hcut =>
      simp only [if_neg hin, hname, bind, Except.bind, if_pos hcut]
      exact ⟨_, _, rfl, rfl⟩
    | @whole name next t₀ t₁ l₀ l₁ hin hname hwhole ht₀ ht₁ hl₀ hl₁ =>
      obtain ⟨found, foundServices, hfound, hptr, hother⟩ :=
        Mdns.recordData_spec data name (be16 t₀ t₁) (next + 10) (be16 l₀ l₁)
      simp only [if_neg hin, hname, bind, Except.bind, if_neg hwhole, ht₀, ht₁, hl₀, hl₁, hfound]
      by_cases htype : be16 t₀ t₁ = 0x000C
      · obtain ⟨target, htarget, rfl⟩ := hptr htype
        rw [if_pos htype, htarget]
        exact ih _ _ _
      · rw [if_neg htype, hother htype]
        exact ih _ _ _

/-- Both loops over the questions decode the same questions; where one does not
decode, the active parser stays at its position. -/
theorem questionsLoop_agree (data : List UInt8) (n pos : Nat) (services : List String) :
    ∃ pos' services',
      Mdns.questionsLoop data n pos services = .ok (pos', services') ∧
      (Passive.questionsLoop data n pos services = .ok (.inr (pos', services')) ∨
        Passive.questionsLoop data n pos services = .ok (.inl services') ∧
          decodeLabel data pos' = .ok none) := by
  induction n generalizing pos services with
  | zero => exact ⟨_, _, rfl, .inl rfl⟩
  | succ n ih =>
    unfold Mdns.questionsLoop Passive.questionsLoop
    obtain ⟨r, hr⟩ := decodeLabel_ok data pos
    simp only [Mdns.decodeLabel, Passive.decodeLabel, hr, bind, Except.bind]
    cases r with
    | none => exact ⟨_, _, rfl, .inr ⟨rfl, hr⟩⟩
    | some pair => exact ih _ _

/-- At a position that does not decode there are no records. -/
theorem Mdns.recordsLoop_of_none {pos : Nat} (h : Gannet.decodeLabel data pos = .ok none)
    (n : Nat) (names services : List String) :
    Mdns.recordsLoop data n pos names services = .ok ⟨names, services⟩ := by
  cases n with
  | zero => rfl
  | succ n =>
    unfold Mdns.recordsLoop
    by_cases hout : data.length ≤ pos
    · exact if_pos hout
    · rw [if_neg hout]
      simp only [Mdns.decodeLabel, h, bind, Except.bind]
      rfl

/-! ## The header -/

/-- The question count of a message with a whole header. -/
def questionCount (message : View 12) : Nat := be16 (message.byte 4) (message.byte 5)

/-- The answer, authority and additional counts together. -/
def recordCount (message : View 12) : Nat :=
  be16 (message.byte 6) (message.byte 7) + be16 (message.byte 8) (message.byte 9)
    + be16 (message.byte 10) (message.byte 11)

/-- The reads of the counts. -/
theorem index_counts (message : View 12) :
    index message.bytes 4 = .ok (message.byte 4) ∧ index message.bytes 5 = .ok (message.byte 5) ∧
    index message.bytes 6 = .ok (message.byte 6) ∧ index message.bytes 7 = .ok (message.byte 7) ∧
    index message.bytes 8 = .ok (message.byte 8) ∧ index message.bytes 9 = .ok (message.byte 9) ∧
    index message.bytes 10 = .ok (message.byte 10) ∧
    index message.bytes 11 = .ok (message.byte 11) := by
  have hindex : ∀ i : Fin 12, index message.bytes i.val = .ok (message.byte i) := fun i =>
    index_of_getElem? (message.getElem?_byte i)
  exact ⟨hindex 4, hindex 5, hindex 6, hindex 7, hindex 8, hindex 9, hindex 10, hindex 11⟩

/-- The parser by the counts of the header. -/
theorem Mdns.parseMdnsRecords_eq (message : View 12) :
    Mdns.parseMdnsRecords message.bytes = if recordCount message = 0 then .ok ⟨[], []⟩ else do
      let (pos, services) ← Mdns.questionsLoop message.bytes (questionCount message) 12 []
      let result ← Mdns.recordsLoop message.bytes (recordCount message) pos [] services
      return ⟨result.names, result.services.eraseDups⟩ := by
  unfold Mdns.parseMdnsRecords
  rw [if_neg (Nat.not_lt.mpr message.size_le)]
  obtain ⟨h4, h5, h6, h7, h8, h9, h10, h11⟩ := index_counts message
  simp only [h4, h5, h6, h7, h8, h9, h10, h11, bind, Except.bind]
  rfl

/-- The listener's parser by the counts of the header. -/
theorem Passive.parseMdnsForServices_eq (message : View 12) :
    Passive.parseMdnsForServices message.bytes = do
      match ← Passive.questionsLoop message.bytes (questionCount message) 12 [] with
      | .inl services => return services
      | .inr (pos, services) =>
        let services ← Passive.recordsLoop message.bytes (recordCount message) pos services
        return services.eraseDups := by
  unfold Passive.parseMdnsForServices
  rw [if_neg (Nat.not_lt.mpr message.size_le)]
  obtain ⟨h4, h5, h6, h7, h8, h9, h10, h11⟩ := index_counts message
  simp only [h4, h5, h6, h7, h8, h9, h10, h11, bind, Except.bind]
  rfl

/-- **Agreement**: on every message with a whole header and a record count that
is not 0, both parsers return, and report the same services. -/
theorem services_agree (message : View 12) (hcount : recordCount message ≠ 0) :
    ∃ result services, Mdns.parseMdnsRecords message.bytes = .ok result ∧
      Passive.parseMdnsForServices message.bytes = .ok services ∧
      ∀ s, s ∈ services ↔ s ∈ result.services := by
  rw [Mdns.parseMdnsRecords_eq, if_neg hcount, Passive.parseMdnsForServices_eq]
  obtain ⟨pos, services, hactive, hpassive⟩ :=
    questionsLoop_agree message.bytes (questionCount message) 12 []
  simp only [hactive, bind, Except.bind]
  rcases hpassive with hpassive | ⟨hpassive, hnone⟩
  · obtain ⟨names, found, hrecords, hrecords'⟩ :=
      recordsLoop_agree message.bytes (recordCount message) pos [] services
    simp only [hpassive, hrecords, hrecords']
    exact ⟨_, _, rfl, rfl, fun s => Iff.rfl⟩
  · -- the active parser fails once more at the same position
    simp only [hpassive, Mdns.recordsLoop_of_none hnone]
    exact ⟨_, _, rfl, rfl, fun s => List.mem_eraseDups.symm⟩

/-- A message cut short in its second question. -/
def cutMessage : View 12 where
  bytes := [0, 0, 0, 0, 0, 2, 0, 1, 0, 0, 0, 0,
    2, 0x5F, 0x61, 4, 0x5F, 0x74, 0x63, 0x70, 0, 0, 12, 0, 1, 63]
  size_le := by decide

example : Passive.parseMdnsForServices cutMessage.bytes = .ok ["a"] := by decide

/-- The second record of the message is cut off. -/
theorem services_agree_on_cut_message :
    ∃ result services, Mdns.parseMdnsRecords cutMessage.bytes = .ok result ∧
      Passive.parseMdnsForServices cutMessage.bytes = .ok services ∧
      ∀ s, s ∈ services ↔ s ∈ result.services :=
  services_agree cutMessage (by decide)

end Gannet
