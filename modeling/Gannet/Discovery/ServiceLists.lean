import Gannet.Discovery.ScanServices

/-!
# Which services are passed on (passive.rs, mdns.rs)

Both parsers remove duplicates where they return at the end. The passive one has
another return: at a question that does not decode it hands over what it has.
The services of a host then go through `query_ip`, which keeps the answer of one
of its three threads, and a thread has an answer only if it has a hostname.

- `services_nodup_iff`: the services of a message are free of duplicates in both
  parsers iff those of the questions before such a return are.
- `queryIp_first_named`: the services that are kept are those of all messages of
  the first source that has a name for the host.
-/

namespace Gannet

open Bytes

/-! ## The services of a message -/

/-- The names of the questions from `pos` on, up to the first that does not
decode. -/
def questionNames (data : List UInt8) : Nat → Nat → List String
  | 0, _ => []
  | n + 1, pos =>
    match decodeLabel data pos with
    | .ok (some (name, next)) => name :: questionNames data n (next + 4)
    | _ => []

/-- The names a message asks for. -/
def askedNames (message : View 12) : List String :=
  questionNames message.bytes (questionCount message) 12

/-- The service types among them. -/
def askedTypes (message : View 12) : List String :=
  (askedNames message).filterMap Passive.extractServiceType

/-- All questions of the message decode. -/
def QuestionsDecode (message : View 12) : Prop :=
  (askedNames message).length = questionCount message

/-- The passive loop collects the service types of the questions, and returns from
the function iff it did not get through all of them. -/
theorem Passive.questionsLoop_names (data : List UInt8) (n pos : Nat) (services : List String) :
    let types := (questionNames data n pos).filterMap Passive.extractServiceType
    ((questionNames data n pos).length = n ∧
        ∃ pos', Passive.questionsLoop data n pos services = .ok (.inr (pos', services ++ types))) ∨
      ((questionNames data n pos).length < n ∧
        Passive.questionsLoop data n pos services = .ok (.inl (services ++ types))) := by
  induction n generalizing pos services with
  | zero => exact .inl ⟨rfl, pos, by rw [questionNames, List.filterMap_nil, List.append_nil]; rfl⟩
  | succ n ih =>
    unfold questionNames Passive.questionsLoop
    obtain ⟨r, hr⟩ := decodeLabel_ok data pos
    simp only [Passive.decodeLabel, hr, bind, Except.bind]
    cases r with
    | none => exact .inr ⟨Nat.succ_pos n, by rw [List.filterMap_nil, List.append_nil]; rfl⟩
    | some pair =>
      obtain ⟨name, next⟩ := pair
      have hcons : services ++ (name :: questionNames data n (next + 4)).filterMap
          Passive.extractServiceType = services ++ (Passive.extractServiceType name).toList ++
            (questionNames data n (next + 4)).filterMap Passive.extractServiceType := by
        rw [List.filterMap_cons, List.append_assoc]
        cases Passive.extractServiceType name <;> rfl
      dsimp only
      rw [hcons, List.length_cons]
      rcases ih (next + 4) (services ++ (Passive.extractServiceType name).toList) with
        ⟨hall, pos', hloop⟩ | ⟨hcut, hloop⟩
      · exact .inl ⟨congrArg Nat.succ hall, pos', hloop⟩
      · exact .inr ⟨Nat.succ_lt_succ hcut, hloop⟩

/-- The passive parser returns a set, or what the questions ask for. -/
theorem Passive.parseMdnsForServices_nodup_iff (message : View 12) :
    ∃ services, Passive.parseMdnsForServices message.bytes = .ok services ∧
      (services.Nodup ↔ QuestionsDecode message ∨ (askedTypes message).Nodup) := by
  rw [Passive.parseMdnsForServices_eq]
  rcases Passive.questionsLoop_names message.bytes (questionCount message) 12 [] with
    ⟨hall, pos, hloop⟩ | ⟨hcut, hloop⟩
  · obtain ⟨names, services, -, hrecords⟩ := recordsLoop_agree message.bytes
      (recordCount message) pos [] ([] ++ askedTypes message)
    simp only [hloop, bind, Except.bind]
    refine ⟨services.eraseDups, ?_, iff_of_true (nodup_eraseDups services) (.inl hall)⟩
    exact congrArg (Except.map List.eraseDups) hrecords
  · rw [List.nil_append] at hloop
    simp only [hloop, bind, Except.bind]
    exact ⟨askedTypes message, rfl, (or_iff_right (Nat.ne_of_lt hcut)).symm⟩

/-- **Service lists**: on every byte string both parsers return, and both lists are
free of duplicates iff the message, if it has a header, has only questions that
decode, or no service type twice among the questions before the one that does
not. -/
theorem services_nodup_iff (data : List UInt8) :
    ∃ result services, Mdns.parseMdnsRecords data = .ok result ∧
      Passive.parseMdnsForServices data = .ok services ∧
      (result.services.Nodup ∧ services.Nodup ↔ ∀ message : View 12, message.bytes = data →
        QuestionsDecode message ∨ (askedTypes message).Nodup) := by
  have hactive := (Mdns.parseMdnsRecords_eq_parsed data).1
  have hset := Mdns.parsed_services_nodup data
  by_cases hshort : data.length < 12
  · refine ⟨_, [], hactive, if_pos hshort, iff_of_true ⟨hset, List.nodup_nil⟩ ?_⟩
    rintro message rfl
    exact absurd message.size_le (Nat.not_le.mpr hshort)
  · obtain ⟨services, hpassive, hiff⟩ :=
      Passive.parseMdnsForServices_nodup_iff ⟨data, Nat.not_lt.mp hshort⟩
    refine ⟨_, services, hactive, hpassive, ?_⟩
    rw [and_iff_right hset, hiff]
    exact ⟨fun h message hmessage => by subst hmessage; exact h, fun h => h _ rfl⟩

/-- Two questions for the same service, and one that is cut. -/
def repeatedQuestion : List UInt8 :=
  [0, 0, 0, 0, 0, 3, 0, 0, 0, 0, 0, 0] ++
    [2, 0x5F, 0x61, 4, 0x5F, 0x74, 0x63, 0x70, 0, 0, 12, 0, 1] ++
    [0xC0, 12, 0, 12, 0, 1] ++ [63]

/-- Without records the services are returned as they were pushed. -/
theorem repeated_question_twice :
    Passive.parseMdnsForServices repeatedQuestion = .ok ["a", "a"] ∧ ¬ ["a", "a"].Nodup := by
  decide +kernel

/-! ## The services of a host -/

namespace Mdns

/-- **Passed on**: whatever the three threads accept, `query_ip` has a result iff one
of them accepts a message with a name that may be a hostname, and the services in it
are those of all messages of the first that does. -/
theorem queryIp_first_named (isUppercase : Char → Bool) (ip : Ipv4Addr) (answers : Answers) :
    ((queryIp isUppercase ip answers).isSome ↔ ∃ messages ∈ answers.sources ip, Named messages) ∧
      (queryIp isUppercase ip answers).map (·.services)
        = ((answers.sources ip).find? fun messages => Named messages).map fun messages =>
            messages.flatMap fun data => (parsed data).services := by
  have hservices := findSome?_describe isUppercase (answers.sources ip)
  rw [← queryIp_eq] at hservices
  refine ⟨?_, hservices⟩
  rw [← Option.isSome_map, hservices, Option.isSome_map, List.find?_isSome]
  simp only [decide_eq_true_eq]

/-- An answer that has AirPlay and no name. -/
def airplayAnswer : List UInt8 :=
  [0, 0, 0x84, 0, 0, 0, 0, 1, 0, 0, 0, 0] ++
    8 :: "_airplay".toUTF8.toList ++ 4 :: "_tcp".toUTF8.toList ++ 5 :: "local".toUTF8.toList ++
    [0, 0, 16, 0, 1, 0, 0, 0, 120, 0, 0]

/-- The host's AirPlay is dropped, if it is all there is, and if the host names
itself to another thread. -/
theorem airplay_dropped :
    (parsed airplayAnswer).services = ["airplay"] ∧
      queryIp Char.isUpper desk ⟨[some (some desk, airplayAnswer)], [], none⟩ = none ∧
      queryIp Char.isUpper desk ⟨[some (some desk, serverAnswer)],
        [some (some desk, airplayAnswer)], none⟩ = some ⟨"nas-1", ["ssh"]⟩ := by
  decide +kernel

end Mdns

end Gannet
