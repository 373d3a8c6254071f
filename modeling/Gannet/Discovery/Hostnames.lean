import Gannet.Discovery.MdnsRecords
import Gannet.Net.Addr

/-!
# The hostname of a host (discovery/mdns.rs)

The names found in the messages of a host are candidates, and `best_hostname`
picks one. The target of a pointer is a candidate too, and in the answers to a
service query the targets are service types; `is_service_label` is there to keep
them out. But it is asked after the underscore has been stripped, and then only
knows a service type that is in its list.

- `parseMdnsRecords_visited`: the names are those of the records the parser
  visits, record by record.
- `service_types_unnamed_iff`: no service type becomes a candidate, or the
  hostname, iff every service type a visited pointer leads to is in the list.
-/

namespace Gannet

open Bytes Text

namespace Mdns

/-! ## The records that are visited -/

/-- A record the loop comes to, with the position and the length of its data. -/
structure VisitedRecord where
  owner : String
  rtype : Nat
  pos : Nat
  rdlen : Nat
deriving DecidableEq, Repr

/-- The records `recordsLoop` comes to. -/
def visitedFrom (data : List UInt8) : Nat → Nat → Except Panic (List VisitedRecord)
  | 0, _ => .ok []
  | n + 1, pos =>
    if data.length ≤ pos then .ok []
    else do
      match ← decodeLabel data pos with
      | none => return []
      | some (name, pos) =>
        if data.length < pos + 10 then return []
        else
          let rtype := be16 (← index data pos) (← index data (pos + 1))
          let rdlen := be16 (← index data (pos + 8)) (← index data (pos + 9))
          let rest ← visitedFrom data n (pos + 10 + rdlen)
          return ⟨name, rtype, pos + 10, rdlen⟩ :: rest

/-- The records `parse_mdns_records` visits in a message. -/
def visitedRecords (data : List UInt8) : Except Panic (List VisitedRecord) :=
  if data.length < 12 then .ok []
  else do
    let questions := be16 (← index data 4) (← index data 5)
    let answerRrs := be16 (← index data 6) (← index data 7)
    let authorityRrs := be16 (← index data 8) (← index data 9)
    let additionalRrs := be16 (← index data 10) (← index data 11)
    let totalRrs := answerRrs + authorityRrs + additionalRrs
    if totalRrs = 0 then return []
    else
      let (pos, _) ← questionsLoop data questions 12 []
      visitedFrom data totalRrs pos

namespace VisitedRecord

/-- What the record adds to the names. -/
def names (data : List UInt8) (rec : VisitedRecord) : List String :=
  match recordData data rec.owner rec.rtype rec.pos rec.rdlen with
  | .ok found => found.names
  | .error _ => []

/-- What is found in the data of the record. -/
def found (data : List UInt8) (rec : VisitedRecord) : ParseResult :=
  match recordData data rec.owner rec.rtype rec.pos rec.rdlen with
  | .ok found => found
  | .error _ => ⟨[], []⟩

/-- The service type a pointer leads to, if its target is one. -/
def serviceType (data : List UInt8) (rec : VisitedRecord) : Option String :=
  if rec.rtype = 0x000C then
    match decodeLabel data rec.pos with
    | .ok (some (rdata, _)) => extractServiceType rdata
    | _ => none
  else none

/-- What the parser reads of a record that it visits. -/
theorem recordData_eq_found (data : List UInt8) (rec : VisitedRecord) :
    recordData data rec.owner rec.rtype rec.pos rec.rdlen = .ok (rec.found data) := by
  obtain ⟨names, services, hdata, -⟩ :=
    recordData_spec data rec.owner rec.rtype rec.pos rec.rdlen
  rw [found, hdata]

theorem names_eq_found (data : List UInt8) (rec : VisitedRecord) :
    rec.names data = (rec.found data).names := by
  rw [names, rec.recordData_eq_found]

end VisitedRecord

variable {data : List UInt8}

/-- The loop adds the names of the records it visits, and among the services those
found in their data. -/
theorem recordsLoop_visited (data : List UInt8) (n pos : Nat) (names services : List String) :
    ∃ records added, visitedFrom data n pos = .ok records ∧
      recordsLoop data n pos names services
        = .ok ⟨names ++ records.flatMap (·.names data), services ++ added⟩ ∧
      ∀ rec ∈ records, (rec.found data).services ⊆ added := by
  have hnone : ∀ names, names = names ++ List.flatMap (VisitedRecord.names data) [] := by
    intro names
    rw [List.flatMap_nil, List.append_nil]
  have hnothing : ∀ rec ∈ ([] : List VisitedRecord), (rec.found data).services ⊆ [] :=
    fun _ hmem => nomatch hmem
  induction n generalizing pos names services with
  | zero => exact ⟨[], [], rfl, by rw [← hnone, List.append_nil]; rfl, hnothing⟩
  | succ n ih =>
    simp only [visitedFrom, recordsLoop, decodeLabel]
    cases recordHead data pos with
    | outside hout =>
      rw [if_pos hout, if_pos hout]
      exact ⟨[], [], rfl, by rw [← hnone, List.append_nil], hnothing⟩
    | undecoded hin hname =>
      simp only [if_neg hin, hname, bind, Except.bind]
      exact ⟨[], [], rfl, by rw [← hnone, List.append_nil]; rfl, hnothing⟩
    | @cut name next hin hname hcut =>
      simp only [if_neg hin, hname, bind, Except.bind, if_pos hcut]
      exact ⟨[], (extractServiceType name).toList, rfl, by rw [← hnone]; rfl,
        fun _ hmem => nomatch hmem⟩
    | @whole name next t₀ t₁ l₀ l₁ hin hname hwhole ht₀ ht₁ hl₀ hl₁ =>
      let record : VisitedRecord := ⟨name, be16 t₀ t₁, next + 10, be16 l₀ l₁⟩
      have hfound : recordData data name (be16 t₀ t₁) (next + 10) (be16 l₀ l₁)
          = .ok (record.found data) := record.recordData_eq_found data
      obtain ⟨records, added, hvisited, hloop, hadded⟩ := ih (next + 10 + be16 l₀ l₁)
        (names ++ (record.found data).names)
        (services ++ (extractServiceType name).toList ++ (record.found data).services)
      simp only [if_neg hin, hname, bind, Except.bind, if_neg hwhole, ht₀, ht₁, hl₀, hl₁, hfound]
      refine ⟨record :: records,
        (extractServiceType name).toList ++ (record.found data).services ++ added, ?_, ?_, ?_⟩
      · rw [hvisited]
        rfl
      · rw [hloop, List.flatMap_cons, record.names_eq_found]
        simp only [List.append_assoc]
      · intro rec hmem
        rcases List.mem_cons.mp hmem with rfl | hmem
        · exact fun svc hsvc => List.mem_append_left _ (List.mem_append_right _ hsvc)
        · exact fun svc hsvc => List.mem_append_right _ (hadded rec hmem hsvc)

/-- The visited records by the counts of the header. -/
theorem visitedRecords_eq (message : View 12) :
    visitedRecords message.bytes = (if recordCount message = 0 then .ok [] else do
      let (pos, _) ← questionsLoop message.bytes (questionCount message) 12 []
      visitedFrom message.bytes (recordCount message) pos) := by
  unfold visitedRecords
  rw [if_neg (Nat.not_lt.mpr message.size_le)]
  obtain ⟨h4, h5, h6, h7, h8, h9, h10, h11⟩ := index_counts message
  simp only [h4, h5, h6, h7, h8, h9, h10, h11, bind, Except.bind]
  rfl

/-- The names of a message are those of the records that are visited, and what is
found in their data is among its services. -/
theorem parseMdnsRecords_visited (data : List UInt8) :
    ∃ records services, visitedRecords data = .ok records ∧
      parseMdnsRecords data = .ok ⟨records.flatMap (·.names data), services⟩ ∧
      ∀ rec ∈ records, (rec.found data).services ⊆ services := by
  by_cases hshort : data.length < 12
  · exact ⟨[], [], if_pos hshort, if_pos hshort, fun _ hmem => nomatch hmem⟩
  have hvisits := visitedRecords_eq ⟨data, Nat.not_lt.mp hshort⟩
  have hparses := parseMdnsRecords_eq ⟨data, Nat.not_lt.mp hshort⟩
  dsimp only at hvisits hparses
  rw [hvisits, hparses]
  by_cases htotal : recordCount ⟨data, Nat.not_lt.mp hshort⟩ = 0
  · exact ⟨[], [], if_pos htotal, if_pos htotal, fun _ hmem => nomatch hmem⟩
  rw [if_neg htotal, if_neg htotal]
  obtain ⟨pos, services, hquestions, -⟩ :=
    questionsLoop_agree data (questionCount ⟨data, Nat.not_lt.mp hshort⟩) 12 []
  obtain ⟨records, added, hvisited, hloop, hadded⟩ :=
    recordsLoop_visited data (recordCount ⟨data, Nat.not_lt.mp hshort⟩) pos [] services
  simp only [hquestions, hvisited, hloop, bind, Except.bind]
  refine ⟨records, (services ++ added).eraseDups, rfl, rfl, fun rec hrec svc hsvc => ?_⟩
  exact List.mem_eraseDups.mpr (List.mem_append_right _ (hadded rec hrec hsvc))

/-! ## Service types among the names -/

/-- A service type that `is_service_label` has in its list, in any case. -/
def isKnownService (svc : String) : Bool :=
  knownServices.any fun known => known.toList = svc.toList.map lowerAscii

/-- The first label of a service type is all that is left of its name. -/
theorem extractServiceType_some {rdata svc : String} (h : extractServiceType rdata = some svc) :
    instanceName rdata = hostName svc.toList ∧ svc.toList ≠ [] ∧ '.' ∉ svc.toList ∧
      svc.toList.head? ≠ some '_' := by
  unfold extractServiceType Passive.extractServiceType at h
  unfold instanceName
  by_cases hstart : rdata.toList.head? = some '_'
  · rw [if_pos hstart] at h
    cases hparts : rdata.toList.splitOn '.' with
    | nil => exact absurd hparts (List.splitOn_ne_nil '.' rdata.toList)
    | cons label rest =>
      have hdot : '.' ∉ label := notMem_of_mem_splitOn (hparts ▸ List.mem_cons_self)
      rw [hparts] at h
      cases rest with
      | nil => exact nomatch h
      | cons proto rest =>
        dsimp only at h
        by_cases hproto : (proto = "_tcp".toList ∨ proto = "_udp".toList) ∧
            1 < (String.ofList label).utf8ByteSize
        · rw [if_pos hproto] at h
          by_cases hclean : label.dropWhile (· = '_') = []
          · rw [if_pos hclean] at h
            exact nomatch h
          rw [if_neg hclean] at h
          obtain rfl := Option.some.inj h
          rw [String.toList_ofList]
          refine ⟨rfl, hclean, fun hmem => hdot ((List.dropWhile_sublist _).mem hmem), ?_⟩
          intro hhead
          have := List.head?_dropWhile_not (· = '_') label
          simp [hhead] at this
        · rw [if_neg hproto] at h
          exact nomatch h
  · rw [if_neg hstart] at h
    exact nomatch h

/-- Of a service type `is_service_label` only knows whether it is in the list. -/
theorem isServiceLabel_of_type {svc : String} (hdot : '.' ∉ svc.toList)
    (hhead : svc.toList.head? ≠ some '_') : isServiceLabel svc.toList = isKnownService svc := by
  have hnot : ∀ text : String, '.' ∈ text.toList → ¬ text.toList <:+: svc.toList :=
    fun text hmem hpart => hdot (hpart.subset hmem)
  rw [isServiceLabel, decide_eq_false hhead, decide_eq_false (hnot "._tcp" (by decide)),
    decide_eq_false (hnot "._udp" (by decide))]
  rfl

/-- A service type is pushed as a name unless it is in the list. -/
theorem instanceName_of_type {rdata svc : String} (h : extractServiceType rdata = some svc) :
    instanceName rdata = [] ↔ isKnownService svc = true := by
  obtain ⟨hname, hne, hdot, hhead⟩ := extractServiceType_some h
  rw [hname, hostName, isServiceLabel_of_type hdot hhead]
  cases isKnownService svc <;> simp [hne]

/-- A pointer to a service type adds no name iff the type is on the code's list. -/
theorem VisitedRecord.names_of_type {rec : VisitedRecord} {svc : String}
    (h : rec.serviceType data = some svc) : rec.names data = [] ↔ isKnownService svc = true := by
  unfold serviceType at h
  by_cases hptr : rec.rtype = 0x000C
  · rw [if_pos hptr] at h
    unfold names recordData
    rw [if_pos hptr]
    obtain ⟨target, htarget⟩ := decodeLabel_ok data rec.pos
    simp only [decodeLabel, htarget, bind, Except.bind] at h ⊢
    cases target with
    | none => cases h
    | some pair => exact instanceName_of_type h
  · rw [if_neg hptr] at h
    cases h

/-! ## Choosing the hostname -/

/-- `max_by_key`: the last of the elements with the largest key. -/
def maxByKey {α : Type} (key : α → Nat) (xs : List α) : Option α :=
  xs.foldl (fun best x =>
    match best with
    | none => some x
    | some b => if key x < key b then some b else some x) none

/-- The score of a name. Upper case is Unicode's, and a parameter here. -/
def hostnameScore (isUppercase : Char → Bool) (n : String) : Nat :=
  if (n.toList.head?.map isUppercase).getD false then 3
  else if '-' ∈ n.toList then 2
  else 1

/-- `best_hostname` -/
def bestHostname (isUppercase : Char → Bool) (names : List String) : Option String :=
  maxByKey (hostnameScore isUppercase) (names.filter fun n =>
    n ≠ "" && 1 < n.utf8ByteSize && !isServiceLabel n.toList).eraseDups

example : bestHostname Char.isUpper ["raop", "nas-2", "tv", "Living Room", "Kitchen"]
    = some "Kitchen" := by decide +kernel

/-- The maximum is one of the elements. -/
theorem maxByKey_mem {α : Type} {key : α → Nat} {xs : List α} {x : α}
    (h : maxByKey key xs = some x) : x ∈ xs := by
  -- the best so far is one of the elements
  suffices hfold : ∀ (best : Option α), xs.foldl (fun best x =>
      match best with
      | none => some x
      | some b => if key x < key b then some b else some x) best = some x →
      x ∈ xs ∨ best = some x by
    exact (hfold none h).resolve_right nofun
  clear h
  induction xs with
  | nil => exact fun best h => .inr h
  | cons y ys ih =>
    intro best h
    rcases ih _ h with hmem | hbest
    · exact .inl (List.mem_cons_of_mem y hmem)
    cases best with
    | none =>
      obtain rfl := Option.some.inj hbest
      exact .inl List.mem_cons_self
    | some b =>
      dsimp only at hbest
      by_cases hless : key y < key b
      · rw [if_pos hless] at hbest
        exact .inr hbest
      · rw [if_neg hless] at hbest
        obtain rfl := Option.some.inj hbest
        exact .inl List.mem_cons_self

/-- There is one unless the list is empty. -/
theorem maxByKey_isSome {α : Type} {key : α → Nat} {xs : List α} :
    (maxByKey key xs).isSome ↔ xs ≠ [] := by
  -- once there is a best, there is one
  suffices hfold : ∀ (xs : List α) (b : α), (xs.foldl (fun best x =>
      match best with
      | none => some x
      | some b => if key x < key b then some b else some x) (some b)).isSome by
    cases xs with
    | nil => exact ⟨nofun, fun h => absurd rfl h⟩
    | cons x xs => exact ⟨fun _ => nofun, fun _ => hfold xs x⟩
  intro xs
  induction xs with
  | nil => exact fun b => rfl
  | cons x xs ih =>
    intro b
    rw [List.foldl_cons]
    dsimp only
    by_cases hless : key x < key b
    · rw [if_pos hless]
      exact ih b
    · rw [if_neg hless]
      exact ih x

/-- The hostname is one of the candidates. -/
theorem bestHostname_mem {isUppercase : Char → Bool} {names : List String} {h : String}
    (hbest : bestHostname isUppercase names = some h) : h ∈ names :=
  (List.mem_filter.mp (List.mem_eraseDups.mp (maxByKey_mem hbest))).1

/-! ## The candidates of a host -/

/-- What is found in a message, and the records visited on the way. -/
def parsed (data : List UInt8) : ParseResult :=
  match parseMdnsRecords data with
  | .ok found => found
  | .error _ => ⟨[], []⟩

/-- The records the parser visits, as the loop comes to them. -/
def visited (data : List UInt8) : List VisitedRecord :=
  match visitedRecords data with
  | .ok records => records
  | .error _ => []

/-- The parser never fails, and its names are those of the records it visits. -/
theorem parseMdnsRecords_eq_parsed (data : List UInt8) :
    parseMdnsRecords data = .ok (parsed data) ∧
      (parsed data).names = (visited data).flatMap (·.names data) := by
  obtain ⟨records, services, hvisited, hparsed, -⟩ := parseMdnsRecords_visited data
  rw [parsed, visited, hparsed, hvisited]
  exact ⟨rfl, rfl⟩

/-- The names of all messages of a host. -/
def candidates (messages : List (List UInt8)) : List String :=
  messages.flatMap fun data => (parsed data).names

/-- A candidate comes from a record of one of the messages. -/
theorem mem_candidates {messages : List (List UInt8)} {n : String} :
    n ∈ candidates messages ↔ ∃ data ∈ messages, ∃ rec ∈ visited data, n ∈ rec.names data := by
  simp only [candidates, List.mem_flatMap, (parseMdnsRecords_eq_parsed _).2]

/-- **Service types**: of all messages of a host, no pointer to a service type adds
a name, and the hostname comes from another record, iff every service type that a
visited pointer leads to is in the list of `is_service_label`. -/
theorem service_types_unnamed_iff (isUppercase : Char → Bool) (messages : List (List UInt8)) :
    ((∀ data ∈ messages, ∀ rec ∈ visited data, ∀ svc, rec.serviceType data = some svc →
          rec.names data = []) ∧
        ∀ h, bestHostname isUppercase (candidates messages) = some h →
          ∃ data ∈ messages, ∃ rec ∈ visited data,
            rec.serviceType data = none ∧ h ∈ rec.names data) ↔
      ∀ data ∈ messages, ∀ rec ∈ visited data, ∀ svc, rec.serviceType data = some svc →
        isKnownService svc = true := by
  constructor
  · rintro ⟨hunnamed, -⟩ data hdata rec hrec svc hsvc
    exact (VisitedRecord.names_of_type hsvc).mp (hunnamed data hdata rec hrec svc hsvc)
  · intro hknown
    have hunnamed : ∀ data ∈ messages, ∀ rec ∈ visited data, ∀ svc,
        rec.serviceType data = some svc → rec.names data = [] :=
      fun data hdata rec hrec svc hsvc =>
        (VisitedRecord.names_of_type hsvc).mpr (hknown data hdata rec hrec svc hsvc)
    refine ⟨hunnamed, fun h hbest => ?_⟩
    obtain ⟨data, hdata, rec, hrec, hname⟩ := mem_candidates.mp (bestHostname_mem hbest)
    refine ⟨data, hdata, rec, hrec, ?_, hname⟩
    cases htype : rec.serviceType data with
    | none => rfl
    | some svc =>
      rw [hunnamed data hdata rec hrec svc htype] at hname
      exact absurd hname List.not_mem_nil

/-- The answer of a printer that is asked for its services: a pointer from
_services._dns-sd._udp.local to _ipp._tcp.local. -/
def printerAnswer : List UInt8 :=
  [0, 0, 0x84, 0, 0, 0, 0, 1, 0, 0, 0, 0] ++
    9 :: "_services".toUTF8.toList ++ 7 :: "_dns-sd".toUTF8.toList ++
    4 :: "_udp".toUTF8.toList ++ 5 :: "local".toUTF8.toList ++
    [0, 0, 12, 0, 1, 0, 0, 0, 120, 0, 17] ++
    4 :: "_ipp".toUTF8.toList ++ 4 :: "_tcp".toUTF8.toList ++ 5 :: "local".toUTF8.toList ++ [0]

/-- The printer is called ipp, which occurs as a service type only. -/
theorem service_type_as_hostname :
    (∃ rec ∈ visited printerAnswer, rec.serviceType printerAnswer = some "ipp" ∧
        rec.names printerAnswer = ["ipp"]) ∧
      bestHostname Char.isUpper (candidates [printerAnswer]) = some "ipp" ∧
      ∀ rec ∈ visited printerAnswer, rec.serviceType printerAnswer = none →
        "ipp" ∉ rec.names printerAnswer := by
  decide +kernel

end Mdns

end Gannet
