import Gannet.Discovery.Label

/-!
# Services announced in an mDNS message (passive.rs)

`parse_mdns_for_services` walks the questions and the records of a message and
collects the service types it finds in their names and pointer targets. A
question that does not decode ends the walk with what was found so far, as it
is; a record that does not decode ends it too, but then duplicates are removed.
-/

namespace Gannet.Passive

open Bytes

/-- `extract_service_type`: the first label of `_service._tcp…` or
`_service._udp…`, without its leading underscores. -/
def extractServiceType (name : String) : Option String :=
  if name.toList.head? = some '_' then
    match name.toList.splitOn '.' with
    | service :: proto :: _ =>
      if (proto = "_tcp".toList ∨ proto = "_udp".toList)
          ∧ 1 < (String.ofList service).utf8ByteSize then
        let clean := service.dropWhile (· = '_')
        if clean = [] then none else some (String.ofList clean)
      else none
    | _ => none
  else none

/-- The loop over the questions: `.inl` where the function returns from it,
else the position after them and the services. -/
def questionsLoop (data : List UInt8) :
    Nat → Nat → List String → Except Panic (List String ⊕ Nat × List String)
  | 0, pos, services => .ok (.inr (pos, services))
  | n + 1, pos, services => do
    match ← decodeLabel data pos with
    | some (name, next) =>
      questionsLoop data n (next + 4) (services ++ (extractServiceType name).toList)
    | none => return .inl services

/-- The loop over the records. -/
def recordsLoop (data : List UInt8) : Nat → Nat → List String → Except Panic (List String)
  | 0, _, services => .ok services
  | n + 1, pos, services =>
    if data.length ≤ pos then .ok services
    else do
      match ← decodeLabel data pos with
      | none => return services
      | some (name, pos) =>
        let services := services ++ (extractServiceType name).toList
        if data.length < pos + 10 then return services
        else
          let rtype := be16 (← index data pos) (← index data (pos + 1))
          let rdlen := be16 (← index data (pos + 8)) (← index data (pos + 9))
          let pos := pos + 10
          let target ← if rtype = 0x000C then decodeLabel data pos else pure none
          let found := target.bind fun (rdata, _) => extractServiceType rdata
          recordsLoop data n (pos + rdlen) (services ++ found.toList)

/-- `parse_mdns_for_services` -/
def parseMdnsForServices (data : List UInt8) : Except Panic (List String) :=
  if data.length < 12 then .ok []
  else do
    let questions := be16 (← index data 4) (← index data 5)
    let answerRrs := be16 (← index data 6) (← index data 7)
    let authorityRrs := be16 (← index data 8) (← index data 9)
    let additionalRrs := be16 (← index data 10) (← index data 11)
    match ← questionsLoop data questions 12 [] with
    | .inl services => return services
    | .inr (pos, services) =>
      let services ← recordsLoop data (answerRrs + authorityRrs + additionalRrs) pos services
      return services.eraseDups

example : extractServiceType "_ssh._tcp.local" = some "ssh" := by decide

end Gannet.Passive
