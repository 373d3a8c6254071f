import Gannet.Lib.CaseMapping
import Gannet.Discovery.Upnp

/-!
# Looking for UPnP locations (survey.rs)

Gateways answer an SSDP search with datagrams whose lines are header fields, in upper
or lower case. `discover_upnp_services` looks for `location:` in the lower case of a
line, and cuts the line itself after nine bytes. Anyone can send it a line in which
lower case changes the number of bytes.

- `location_line`: where the test succeeds the nine bytes are nine ASCII characters.
- `ssdp_never_panics`: so the line can be cut, and the function returns for all
  datagrams.
-/

namespace Gannet

open Bytes CaseMapping Loop Text Utf8

namespace Survey

/-! ## The code -/

/-- What `recv_from` brings: the sender, if it has an IPv4 address, and a datagram. -/
structure Datagram where
  source : Option Ipv4Addr
  bytes : List UInt8

/-- The location in a line. -/
def locationIn (table : LowerTable) (line : List Char) : Except Panic (List (List Char)) :=
  if "location:".toList <+: table.toLowercase line then do
    let url ← sliceFrom line 9
    return [trim url]
  else .ok []

/-- The locations in a datagram, as much of it as fits the buffer. -/
def locationsOf (table : LowerTable) (gateway : Ipv4Addr) (datagram : Datagram) :
    Except Panic (List (List Char)) :=
  if datagram.source = some gateway then
    appendAll (locationIn table) (lines (lossyChars (datagram.bytes.take 2048)))
  else .ok []

/-- `common_ports` -/
def commonPorts : List UInt16 := [5000, 49152, 49153, 49154, 49155, 1780, 8080]

/-- `test_url` -/
def testUrl (gateway : Ipv4Addr) (port : UInt16) : List Char :=
  "http://".toList ++ gateway.chars ++ ':' :: Nat.toDigits 10 port.toNat
    ++ "/rootDesc.xml".toList

/-- Whether the description of a gateway is at a URL. -/
def describesGateway (respond : UpnpRequest → Option (List Char)) (url : List Char) : Bool :=
  match (respond ⟨String.ofList url, ""⟩).bind (splitAtFirst "\r\n\r\n".toList) with
  | some (_, body) =>
    "InternetGatewayDevice".toList <:+: body || "WANDevice".toList <:+: body
  | none => false

/-- The base URL of the first port that has a description. -/
def guessLocation (gateway : Ipv4Addr) (respond : UpnpRequest → Option (List Char)) :
    List (List Char) :=
  match commonPorts.find? fun port => describesGateway respond (testUrl gateway port) with
  | some port => [trimEndMatches "rootDesc.xml".toList (testUrl gateway port)]
  | none => []

/-- `discover_upnp_services`, on what is received before the deadline, if there is a
socket; the locations with what is answered there. -/
def discoverUpnpServices (table : LowerTable) (gateway : Ipv4Addr)
    (received : Option (List Datagram)) (respond : UpnpRequest → Option (List Char)) :
    Except Panic (List Location) :=
  match received with
  | none => .ok []
  | some datagrams => do
    let locations ← appendAll (locationsOf table gateway) datagrams
    let urls := if locations.isEmpty then guessLocation gateway respond else locations
    return urls.map fun url => { url := url, respond := respond }

example : locationIn asciiTable "LOCATION: http://10.0.0.1:5000/\r".toList
    = .ok ["http://10.0.0.1:5000/".toList] := by decide

/-! ## The nine bytes -/

variable {table : LowerTable} {gateway : Ipv4Addr}

/-- Nine ASCII characters, and then the rest. -/
theorem location_line {line : List Char} (h : "location:".toList <+: table.toLowercase line) :
    ∃ start url, line = start ++ url ∧ start.map Char.toLower = "location:".toList ∧
      (encode start).length = 9 := by
  obtain ⟨start, url, rfl, hlower, hascii⟩ :=
    ascii_of_prefix (by simp [IsAscii]) (by decide) (by decide) h
  have hlength : start.length = 9 := by
    have hlen := congrArg List.length hlower
    rwa [List.length_map] at hlen
  exact ⟨start, url, rfl, hlower, (length_encode_ascii hascii).trans hlength⟩

/-- A line that starts with the header's name can be cut behind it. -/
theorem location_boundary {line : List Char}
    (h : "location:".toList <+: table.toLowercase line) :
    9 ≤ (encode line).length ∧ isCharBoundary (encode line) 9 = true := by
  obtain ⟨start, url, rfl, -, hnine⟩ := location_line h
  refine ⟨?_, hnine ▸ isCharBoundary_encode start url⟩
  rw [encode_append, List.length_append, hnine]
  exact Nat.le_add_right 9 _

/-! ## All datagrams -/

/-- The URL is the rest of a line from the gateway that starts with `location:`, in
upper or lower case. -/
def Announced (gateway : Ipv4Addr) (datagrams : List Datagram) (url : List Char) : Prop :=
  ∃ datagram ∈ datagrams, datagram.source = some gateway ∧
    ∃ start rest, start ++ rest ∈ lines (lossyChars (datagram.bytes.take 2048)) ∧
      start.map Char.toLower = "location:".toList ∧ url = trim rest

/-- No line makes the loop panic, and what is found stood behind the header's name. -/
theorem locationIn_ok (table : LowerTable) (line : List Char) :
    AllOk (fun url => ∃ start rest, line = start ++ rest ∧
      start.map Char.toLower = "location:".toList ∧ url = trim rest) (locationIn table line) := by
  rw [locationIn]
  split
  · obtain ⟨start, rest, rfl, hlower, hnine⟩ := location_line ‹_›
    have hcut : sliceFrom (start ++ rest) 9 = .ok rest := hnine ▸ sliceFrom_encode start rest
    rw [hcut]
    refine allOk_ok.mpr ?_
    intro url hurl
    exact ⟨start, rest, rfl, hlower, List.mem_singleton.mp hurl⟩
  · exact allOk_ok.mpr (List.forall_mem_nil _)

/-- So all locations were announced by the gateway. -/
theorem locationsOf_ok (table : LowerTable) (gateway : Ipv4Addr) (datagrams : List Datagram) :
    AllOk (Announced gateway datagrams) (appendAll (locationsOf table gateway) datagrams) := by
  refine allOk_appendAll.mpr ?_
  intro datagram hdatagram
  rw [locationsOf]
  split
  · refine allOk_appendAll.mpr ?_
    intro line hline
    refine (locationIn_ok table line).mono ?_
    rintro url ⟨start, rest, rfl, hlower, hurl⟩
    exact ⟨datagram, hdatagram, ‹_›, start, rest, hline, hlower, hurl⟩
  · exact allOk_ok.mpr (List.forall_mem_nil _)

/-- It returns, and what it returns was announced or found at a common port. -/
theorem discoverUpnpServices_ok (table : LowerTable) (gateway : Ipv4Addr)
    (datagrams : List Datagram) (respond : UpnpRequest → Option (List Char)) :
    AllOk (fun location => Announced gateway datagrams location.url ∨
        location.url ∈ guessLocation gateway respond)
      (discoverUpnpServices table gateway (some datagrams) respond) := by
  obtain ⟨locations, hlocations, hannounced⟩ := locationsOf_ok table gateway datagrams
  rw [discoverUpnpServices, hlocations]
  refine allOk_ok.mpr (List.forall_mem_map.mpr ?_)
  intro url hurl
  by_cases hnone : locations.isEmpty = true
  · rw [if_pos hnone] at hurl
    exact .inr hurl
  · rw [if_neg hnone] at hurl
    exact .inl (hannounced url hurl)

/-- **SSDP replies**: a line whose lower case starts with `location:` has a character
boundary after nine bytes, so the function returns for all datagrams. -/
theorem ssdp_never_panics (table : LowerTable) :
    (∀ datagram : List UInt8, ∀ line ∈ lines (lossyChars datagram),
      "location:".toList <+: table.toLowercase line →
        9 ≤ (encode line).length ∧ isCharBoundary (encode line) 9 = true) ∧
    ∀ gateway received respond, ∃ locations,
      discoverUpnpServices table gateway received respond = .ok locations := by
  constructor
  · intro datagram line hline h
    exact location_boundary h
  · intro gateway received respond
    cases received with
    | none => exact ⟨[], rfl⟩
    | some datagrams =>
      obtain ⟨locations, hlocations, -⟩ :=
        discoverUpnpServices_ok table gateway datagrams respond
      exact ⟨locations, hlocations⟩

/-- A Kelvin sign after the word does no harm. -/
theorem ssdp_of_kelvin : 9 ≤ (encode ("LOCATION:".toList ++ [kelvin])).length ∧
    isCharBoundary (encode ("LOCATION:".toList ++ [kelvin])) 9 = true :=
  (ssdp_never_panics asciiTable).1 (encode ("LOCATION:".toList ++ [kelvin]))
    ("LOCATION:".toList ++ [kelvin]) (by decide) (by decide)

end Survey

end Gannet
