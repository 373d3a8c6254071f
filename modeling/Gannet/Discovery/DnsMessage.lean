import Gannet.Discovery.MdnsRecords

/-!
# DNS messages

What a sender writes: labels, names that may end in a compression pointer,
questions and resource records, and their serialisation (RFC 1035, sections 3
and 4). `Message.resolve` follows the pointers to the names that were written
before and gives the meaning of a message, from which `Meaning.names` and
`Meaning.services` say what there is to be found in it. The text rules (which
labels are service types, which texts are host names) are those of mdns.rs.

The types are generic in the names: `EncodedName` as written, `List Label` as
meant.
-/

namespace Gannet.Dns

open Bytes Utf8 Mdns

/-! ## Serialisation -/

/-- Two bytes, high byte first. -/
def u16Bytes (n : Nat) : List UInt8 := [.ofNat (n / 256), .ofNat n]

/-- Four bytes, high byte first. -/
def u32Bytes (n : Nat) : List UInt8 := u16Bytes (n / 65536) ++ u16Bytes n

/-- A label that can be written: 1 to 63 bytes of UTF-8 and no dot. -/
structure Label where
  text : List Char
  ne_nil : text ≠ []
  length_le : (encode text).length ≤ 63
  no_dot : '.' ∉ text
deriving DecidableEq

/-- Its text in UTF-8. -/
def Label.bytes (l : Label) : List UInt8 := encode l.text

/-- The length byte and the text. -/
def Label.encode (l : Label) : List UInt8 := .ofNat l.bytes.length :: l.bytes

/-- The end of a name: the root, or a pointer to an offset below 2¹⁴. -/
def endBytes : Option (Fin (2 ^ 14)) → List UInt8
  | none => [0]
  | some target => [.ofNat (0xC0 + target.val / 256), .ofNat target.val]

/-- A name as it is written: some labels, and then the root or a pointer. -/
structure EncodedName where
  labels : List Label
  pointer : Option (Fin (2 ^ 14))
deriving DecidableEq

/-- The labels and the end. -/
def EncodedName.bytes (n : EncodedName) : List UInt8 :=
  n.labels.flatMap Label.encode ++ endBytes n.pointer

/-- A string of a TXT record. -/
abbrev TxtString := { s : List UInt8 // s.length < 256 }

/-- The length byte and the bytes. -/
def TxtString.bytes (s : TxtString) : List UInt8 := .ofNat s.val.length :: s.val

/-- A question, over names that are written or resolved. -/
structure Question (ν : Type) where
  name : ν
  qtype : UInt16
  qclass : UInt16

/-- Name, type and class. -/
def Question.bytes (q : Question EncodedName) : List UInt8 :=
  q.name.bytes ++ (u16Bytes q.qtype.toNat ++ u16Bytes q.qclass.toNat)

/-- The data of a record: of the types whose data the parsers read, or raw. -/
inductive RData (ν : Type) where
  | ptr (target : ν)
  | srv (priority weight port : UInt16) (target : ν)
  | txt (strings : List TxtString)
  | other (rtype : UInt16) (hother : rtype.toNat ∉ [0x000C, 0x0021, 0x0010]) (raw : List UInt8)

/-- The type field of a record with this data. -/
def RData.rtype {ν : Type} : RData ν → Nat
  | .ptr _ => 0x000C
  | .srv _ _ _ _ => 0x0021
  | .txt _ => 0x0010
  | .other rtype _ _ => rtype.toNat

/-- The data field. -/
def RData.bytes : RData EncodedName → List UInt8
  | .ptr target => target.bytes
  | .srv priority weight port target =>
    u16Bytes priority.toNat ++ u16Bytes weight.toNat ++ u16Bytes port.toNat ++ target.bytes
  | .txt strings => strings.flatMap TxtString.bytes
  | .other _ _ raw => raw

/-- A resource record, over names that are written or resolved. -/
structure Resource (ν : Type) where
  owner : ν
  rclass : UInt16
  ttl : UInt32
  data : RData ν

/-- Type, class, TTL and length of the data. -/
def Resource.fixed (r : Resource EncodedName) : List UInt8 :=
  u16Bytes r.data.rtype ++ u16Bytes r.rclass.toNat ++ u32Bytes r.ttl.toNat ++
    u16Bytes r.data.bytes.length

/-- Owner, fixed fields and data. -/
def Resource.bytes (r : Resource EncodedName) : List UInt8 :=
  r.owner.bytes ++ (r.fixed ++ r.data.bytes)

/-- A message with at least one record; counts and lengths fit their fields. -/
structure Message where
  id : UInt16
  flags : UInt16
  questions : List (Question EncodedName)
  answers : List (Resource EncodedName)
  authorities : List (Resource EncodedName)
  additionals : List (Resource EncodedName)
  questions_lt : questions.length < 2 ^ 16
  answers_lt : answers.length < 2 ^ 16
  authorities_lt : authorities.length < 2 ^ 16
  additionals_lt : additionals.length < 2 ^ 16
  records_ne_nil : answers ++ authorities ++ additionals ≠ []
  data_lt : ∀ r ∈ answers ++ authorities ++ additionals, r.data.bytes.length < 2 ^ 16

namespace Message

variable (m : Message)

/-- The records of the three sections, in the order they are written. -/
def records : List (Resource EncodedName) := m.answers ++ m.authorities ++ m.additionals

/-- The twelve bytes before the first question. -/
def header : List UInt8 :=
  u16Bytes m.id.toNat ++ u16Bytes m.flags.toNat ++ u16Bytes m.questions.length ++
    u16Bytes m.answers.length ++ u16Bytes m.authorities.length ++ u16Bytes m.additionals.length

/-- The message as it is sent. -/
def bytes : List UInt8 :=
  m.header ++ (m.questions.flatMap Question.bytes ++ m.records.flatMap Resource.bytes)

end Message

/-! ## Meaning -/

/-- The names written so far, by their offsets. -/
abbrev Places := List (Nat × List Label)

/-- Every rest of a name is a name too: at each of its labels, and at its end. -/
def placesFrom (tail : List Label) : Nat → List Label → Places
  | offset, [] => [(offset, tail)]
  | offset, l :: ls =>
    (offset, l :: ls ++ tail) :: placesFrom tail (offset + l.encode.length) ls

/-- The labels of a name, and the names known after it; a pointer has to lead to
a name known before. -/
def EncodedName.resolve (known : Places) (offset : Nat) (n : EncodedName) :
    Option (List Label × Places) := do
  let tail ← match n.pointer with
    | none => some []
    | some target => known.lookup target.val
  return (n.labels ++ tail, placesFrom tail offset n.labels ++ known)

/-- A question with its name resolved. -/
def Question.resolve (known : Places) (offset : Nat) (q : Question EncodedName) :
    Option (Question (List Label) × Places) := do
  let (name, known) ← q.name.resolve known offset
  return (⟨name, q.qtype, q.qclass⟩, known)

/-- The data with its target resolved, at the offset where it is written. -/
def RData.resolve (known : Places) (offset : Nat) :
    RData EncodedName → Option (RData (List Label) × Places)
  | .ptr target => do
    let (target, known) ← target.resolve known offset
    return (.ptr target, known)
  | .srv priority weight port target => do
    let (target, known) ← target.resolve known (offset + 6)
    return (.srv priority weight port target, known)
  | .txt strings => some (.txt strings, known)
  | .other rtype hother raw => some (.other rtype hother raw, known)

/-- A record with owner and target resolved. -/
def Resource.resolve (known : Places) (offset : Nat) (r : Resource EncodedName) :
    Option (Resource (List Label) × Places) := do
  let (owner, known) ← r.owner.resolve known offset
  let (data, known) ← r.data.resolve known (offset + r.owner.bytes.length + 10)
  return (⟨owner, r.rclass, r.ttl, data⟩, known)

/-- Resolve the items of a section one after the other. -/
def resolveAll {α β : Type} (resolve : Places → Nat → α → Option (β × Places))
    (bytes : α → List UInt8) : Places → Nat → List α → Option (List β × Places)
  | known, _, [] => some ([], known)
  | known, offset, x :: xs => do
    let (y, known) ← resolve known offset x
    let (ys, known) ← resolveAll resolve bytes known (offset + (bytes x).length) xs
    return (y :: ys, known)

/-- What a message says once its names are resolved. -/
structure Meaning where
  questions : List (Question (List Label))
  records : List (Resource (List Label))

/-- What a message means, if all its pointers lead to earlier names. -/
def Message.resolve (m : Message) : Option Meaning := do
  let (questions, known) ← resolveAll Question.resolve Question.bytes [] 12 m.questions
  let (records, _) ← resolveAll Resource.resolve Resource.bytes known
    (12 + (m.questions.flatMap Question.bytes).length) m.records
  return ⟨questions, records⟩

/-! ## What there is to be found -/

/-- A name as text. -/
def dotted (labels : List Label) : String :=
  ".".intercalate (labels.map fun l => String.ofList l.text)

/-- The names whose service types count: the owner and a pointer's target. -/
def Resource.serviceNames (r : Resource (List Label)) : List (List Label) :=
  match r.data with
  | .ptr target => [r.owner, target]
  | _ => [r.owner]

/-- What a record contributes to the names. -/
def Resource.names (r : Resource (List Label)) : List String :=
  match r.data with
  | .ptr target => hostName (((target.head?.map Label.text).getD []).dropWhile (· = '_'))
  | .srv _ _ _ target => localName (dotted target)
  | .txt strings => strings.flatMap fun s => txtName s.val
  | .other rtype _ _ => if rtype = 0x0001 then localName (dotted r.owner) else []

/-- The names all records contribute, in their order. -/
def Meaning.names (meaning : Meaning) : List String := meaning.records.flatMap Resource.names

/-- The service types in the questions and records, each once. -/
def Meaning.services (meaning : Meaning) : List String :=
  ((meaning.questions.map Question.name ++
    meaning.records.flatMap Resource.serviceNames).filterMap fun name =>
      extractServiceType (dotted name)).eraseDups

end Gannet.Dns
