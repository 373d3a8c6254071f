import Gannet.Lib.Utf8
import Gannet.Net.Subnet

/-!
# Local interfaces (net/interface.rs)

`local_interfaces` asks pnet for the interfaces, and where that brings no IPv4
address it reads sysfs and runs `ip` or, without `ip`, `ifconfig`. The second way
reads texts, and where it does not understand one it goes on with a default: an
interface is no loopback, a prefix is 24.

- `SysfsView`: what the kernel and the tools print for an interface.
- `sysfs_agrees_iff`: both ways give the same loopback flag and addresses iff the
  interface is no loopback and every prefix that `ifconfig` prints as a dotted mask is
  24.
-/

namespace Gannet

open Text Utf8

/-! ## The code -/

/-- `LocalInterface` -/
structure LocalInterface where
  name : String
  ips : List (Ipv4Addr × UInt8)
  mac : Option MacAddr6
  up : Bool
  loopback : Bool
deriving DecidableEq, Repr

/-- pnet's interface, with the flags of the kernel. -/
structure PnetInterface extends NetworkInterface where
  name : String
  mac : Option MacAddr6
  flags : UInt32

/-- `is_up`: `IFF_UP` -/
def PnetInterface.isUp (iface : PnetInterface) : Bool := iface.flags &&& 0x1 ≠ 0

/-- `is_loopback`: `IFF_LOOPBACK` -/
def PnetInterface.isLoopback (iface : PnetInterface) : Bool := iface.flags &&& 0x8 ≠ 0

/-- The IPv4 addresses of an interface with their prefixes. -/
def PnetInterface.ipv4s (iface : PnetInterface) : List (Ipv4Addr × UInt8) :=
  iface.ips.filterMap fun
    | .v4 ip prefixLen => some (ip, prefixLen)
    | .v6 => none

/-- `pnet_interfaces_from` -/
def pnetInterfacesFrom (interfaces : List PnetInterface) : List LocalInterface :=
  interfaces.map fun iface =>
    ⟨iface.name, iface.ipv4s, iface.mac, iface.isUp, iface.isLoopback⟩

/-- An interface's directory under /sys/class/net: its name, and the texts of three
files as far as they can be read. -/
structure SysfsEntry where
  name : String
  operstate : Option (List Char)
  flags : Option (List Char)
  address : Option (List Char)

/-- What the address tools print for an interface; nothing if they are not there or
fail. -/
structure AddrTools where
  ip : String → Option (List UInt8)
  ifconfig : String → Option (List UInt8)

/-- `parse_mac_str` -/
def parseMacStr (cs : List Char) : Option MacAddr6 :=
  let parts := cs.splitOn ':'
  if parts.length ≠ 6 then none
  else
    match parts.filterMap (fromStrRadix16 256) with
    | [b0, b1, b2, b3, b4, b5] =>
      some ⟨.ofNat b0, .ofNat b1, .ofNat b2, .ofNat b3, .ofNat b4, .ofNat b5⟩
    | _ => none

/-- `mask.count_ones() as u8` -/
def countOnes (mask : Nat) : UInt8 :=
  .ofNat ((List.range 32).filter mask.testBit).length

/-- The address in a line of `ip -4 -o addr show`, by the position of its word. -/
def ipLineAddr (line : List Char) : Option (Ipv4Addr × UInt8) := do
  let inets ← (splitWhitespace line)[3]?
  let (ipStr, prefixStr) ← splitOnce '/' inets
  let ip ← Ipv4Addr.parse ipStr
  let prefixLen ← parseU8 prefixStr
  return (ip, prefixLen)

/-- The mask in the third word after `inet`, if it is hexadecimal. -/
def maskPrefix (word : Option (List Char)) : UInt8 :=
  ((word.bind (stripStart "0x".toList)).bind (fromStrRadix16 (2 ^ 32))).elim 24 countOnes

/-- The address in a line of `ifconfig`: that after the first word `inet`. -/
def ifconfigLineAddr (line : List Char) : Option (Ipv4Addr × UInt8) :=
  let line := trim line
  if "inet ".toList <+: line then
    let parts := splitWhitespace line
    let i := parts.idxOf "inet".toList
    (parts[i + 1]?.bind Ipv4Addr.parse).map fun ip => (ip, maskPrefix parts[i + 3]?)
  else none

/-- `read_ifconfig_addrs` -/
def readIfconfigAddrs (tools : AddrTools) (name : String) : List (Ipv4Addr × UInt8) :=
  match tools.ifconfig name with
  | some stdout => (lines (lossyChars stdout)).filterMap ifconfigLineAddr
  | none => []

/-- `read_ipv4_addrs` -/
def readIpv4Addrs (tools : AddrTools) (name : String) : List (Ipv4Addr × UInt8) :=
  match tools.ip name with
  | some stdout => (lines (lossyChars stdout)).filterMap ipLineAddr
  | none => readIfconfigAddrs tools name

/-- The loopback bit of the flags file, if `u32::from_str_radix` reads it. -/
def sysfsLoopback (flags : Option (List Char)) : Bool :=
  (flags.bind fun s => fromStrRadix16 (2 ^ 32) (trim s)).elim false
    fun flags => UInt32.ofNat flags &&& 0x8 ≠ 0

/-- `sysfs_interfaces`, over the entries of the directory. -/
def sysfsInterfaces (tools : AddrTools) (entries : List SysfsEntry) : List LocalInterface :=
  entries.map fun entry =>
    { name := entry.name
      ips := readIpv4Addrs tools entry.name
      mac := entry.address.bind fun s => parseMacStr (trim s)
      up := entry.operstate.elim false fun s => trim s == "up".toList
      loopback := sysfsLoopback entry.flags }

example : parseMacStr "aa:bb:cc:00:1:f".toList = some ⟨0xAA, 0xBB, 0xCC, 0, 1, 0xF⟩ := by decide

/-! ## What Linux prints -/

/-- A text of one line. -/
structure Line where
  text : List Char
  newline_notMem : '\n' ∉ text
  return_notMem : '\r' ∉ text

/-- Lines as a program prints them. -/
def stdoutOf (ls : List Line) : List UInt8 := encode ((ls.map Line.text).flatMap (· ++ ['\n']))

theorem lines_stdoutOf (ls : List Line) : lines (lossyChars (stdoutOf ls)) = ls.map Line.text := by
  rw [stdoutOf, lossyChars_encode]
  refine lines_flatMap (fun l hl => ?_) (fun l hl => ?_)
  all_goals obtain ⟨line, -, rfl⟩ := List.mem_map.mp hl
  · exact line.newline_notMem
  · exact line.return_notMem

/-- A line of `ip -4 -o addr show`: `2: eth0    inet 192.168.1.5/24 brd …` -/
structure IpLine extends Line where
  ip : Ipv4Addr
  prefixLen : UInt8
  layout : ∃ index name, [index, name, "inet".toList, ip.chars ++ '/' :: dec prefixLen] <+:
    splitWhitespace text

/-- The mask of a prefix, as a number. -/
def maskOf (prefixLen : UInt8) : Nat := 2 ^ 32 - 2 ^ (32 - prefixLen.toNat)

/-- How a mask is written: dotted, or in hexadecimal with leading zeros. -/
inductive MaskStyle where
  | dotted
  | hex (zeros : Nat)
deriving DecidableEq

/-- The text of a mask in this style. -/
def MaskStyle.chars (prefixLen : UInt8) : MaskStyle → List Char
  | .dotted => (Ipv4Addr.ofU32 (.ofNat (maskOf prefixLen))).chars
  | .hex zeros => "0x".toList ++ (List.replicate zeros '0' ++ Nat.toDigits 16 (maskOf prefixLen))

/-- What `ifconfig` prints about one address. -/
structure InetEntry where
  ip : Ipv4Addr
  prefixLen : UInt8
  prefix_le : prefixLen ≤ 32
  style : MaskStyle

/-- `inet A netmask M` -/
def InetEntry.words (entry : InetEntry) : List (List Char) :=
  ["inet".toList, entry.ip.chars, "netmask".toList, entry.style.chars entry.prefixLen]

/-- The address and the prefix that are parsed. -/
def InetEntry.addr (entry : InetEntry) : Ipv4Addr × UInt8 := (entry.ip, entry.prefixLen)

/-- A line of `ifconfig`, about an address or about something else. -/
structure IfconfigLine extends Line where
  entry : Option InetEntry
  other : entry = none → ¬ "inet ".toList <+: trim text
  layout : ∀ e ∈ entry, "inet ".toList <+: trim text ∧ e.words <+: splitWhitespace text

/-- What the tool that is there prints for an interface. -/
inductive Listing (tools : AddrTools) (name : String) where
  | ip (ls : List IpLine) (prints : tools.ip name = some (stdoutOf (ls.map IpLine.toLine)))
  | ifconfig (absent : tools.ip name = none) (ls : List IfconfigLine)
      (prints : tools.ifconfig name = some (stdoutOf (ls.map IfconfigLine.toLine)))

section

variable {tools : AddrTools} {name : String}

/-- The entries for the addresses, where `ifconfig` is the tool. -/
def Listing.entries : Listing tools name → List InetEntry
  | .ip _ _ => []
  | .ifconfig _ ls _ => ls.filterMap IfconfigLine.entry

/-- The addresses that are printed. -/
def Listing.addrs : Listing tools name → List (Ipv4Addr × UInt8)
  | .ip ls _ => ls.map fun l => (l.ip, l.prefixLen)
  | .ifconfig _ ls _ => (ls.filterMap IfconfigLine.entry).map InetEntry.addr

end

/-- An interface as pnet has it and as sysfs and the tools show it. -/
structure SysfsView (tools : AddrTools) extends PnetInterface where
  operstate : Option (List Char)
  address : Option (List Char)
  listing : Listing tools name
  addrs_eq : listing.addrs = toPnetInterface.ipv4s

/-- The flags file is written with `0x%x` and a newline. -/
def flagsFile (flags : UInt32) : List Char := "0x".toList ++ Nat.toDigits 16 flags.toNat ++ ['\n']

variable {tools : AddrTools}

/-- The entry of the interface that the tools describe. -/
def SysfsView.entry (view : SysfsView tools) : SysfsEntry :=
  ⟨view.name, view.operstate, some (flagsFile view.flags), view.address⟩

/-! ## Reading it -/

theorem digitChar_not_whitespace : ∀ d < 16, isWhitespace (Nat.digitChar d) = false := by decide

/-- `from_str_radix` takes no `0x`. -/
theorem sysfsLoopback_flagsFile (flags : UInt32) :
    sysfsLoopback (some (flagsFile flags)) = false := by
  have htrim : trim (flagsFile flags) = "0x".toList ++ Nat.toDigits 16 flags.toNat := by
    refine trim_concat (by decide) (fun x hx => ?_) (fun x hx => ?_)
    · obtain rfl := Option.some.inj hx
      decide
    · rw [List.getLast?_append, getLast?_toDigits, Option.some_or] at hx
      obtain rfl := Option.some.inj hx
      exact digitChar_not_whitespace _ (Nat.mod_lt _ (by decide))
  have hdigits : fromStrRadix16 (2 ^ 32) ("0x".toList ++ Nat.toDigits 16 flags.toNat) = none := rfl
  rw [sysfsLoopback, Option.bind_some, htrim, hdigits]
  rfl

theorem ipLineAddr_layout (l : IpLine) : ipLineAddr l.text = some (l.ip, l.prefixLen) := by
  obtain ⟨index, name, rest, hwords⟩ := l.layout
  have hslash : '/' ∉ l.ip.chars := fun h => by
    obtain h | h := Ipv4Addr.isDigit_of_mem_chars h <;> cases h
  rw [ipLineAddr, ← hwords]
  simp only [List.cons_append, List.getElem?_cons_succ, List.getElem?_cons_zero]
  simp [splitOnce_append hslash, Ipv4Addr.parse_chars, parseU8_dec]

theorem countOnes_maskOf : ∀ p < 33, countOnes (2 ^ 32 - 2 ^ (32 - p)) = .ofNat p := by
  decide +kernel

/-- What the code takes for the prefix. -/
theorem maskPrefix_chars (entry : InetEntry) :
    maskPrefix (some (entry.style.chars entry.prefixLen))
      = if entry.style = .dotted then 24 else entry.prefixLen := by
  cases entry.style with
  | dotted =>
    have hx : ¬ "0x".toList <+: MaskStyle.dotted.chars entry.prefixLen := by
      intro hstart
      have hmem : 'x' ∈ MaskStyle.dotted.chars entry.prefixLen := hstart.subset (by decide)
      obtain h | h := Ipv4Addr.isDigit_of_mem_chars hmem <;> cases h
    rw [maskPrefix, Option.bind_some, stripStart, if_neg hx]
    rfl
  | hex zeros =>
    have hp : entry.prefixLen.toNat < 33 :=
      Nat.lt_succ_of_le (UInt8.le_iff_toNat_le.mp entry.prefix_le)
    have hdigits : hexDigits 0
        (List.replicate zeros '0' ++ Nat.toDigits 16 (maskOf entry.prefixLen))
        = some (maskOf entry.prefixLen) := by
      rw [hexDigits_replicate_zero, hexDigits_toDigits]
    have hread : fromStrRadix16 (2 ^ 32)
        (List.replicate zeros '0' ++ Nat.toDigits 16 (maskOf entry.prefixLen))
        = some (maskOf entry.prefixLen) :=
      fromStrRadix16_of_hexDigits (by simp [Nat.toDigits_ne_nil]) hdigits
        (Nat.sub_lt (by decide) (Nat.two_pow_pos _))
    rw [maskPrefix, Option.bind_some, MaskStyle.chars, stripStart_append, Option.bind_some, hread]
    show countOnes (2 ^ 32 - 2 ^ (32 - entry.prefixLen.toNat)) = _
    rw [countOnes_maskOf _ hp, UInt8.ofNat_toNat]
    rfl

/-- The address that the code reads from a line. -/
def InetEntry.read (entry : InetEntry) : Ipv4Addr × UInt8 :=
  (entry.ip, if entry.style = .dotted then 24 else entry.prefixLen)

theorem ifconfigLineAddr_layout (l : IfconfigLine) :
    ifconfigLineAddr l.text = l.entry.map InetEntry.read := by
  cases hentry : l.entry with
  | none => exact if_neg (l.other hentry)
  | some entry =>
    obtain ⟨hinet, rest, hwords⟩ := l.layout entry hentry
    rw [ifconfigLineAddr]
    simp only
    rw [if_pos hinet, splitWhitespace_trim, ← hwords]
    simp only [InetEntry.words, List.cons_append, List.idxOf_cons_self, List.getElem?_cons_succ,
      List.getElem?_cons_zero, Option.bind_some, Ipv4Addr.parse_chars, Option.map_some,
      maskPrefix_chars]
    rfl

/-- What the code reads of a listing. -/
def Listing.read {name : String} : Listing tools name → List (Ipv4Addr × UInt8)
  | .ip ls _ => ls.map fun l => (l.ip, l.prefixLen)
  | .ifconfig _ ls _ => (ls.filterMap IfconfigLine.entry).map InetEntry.read

theorem readIpv4Addrs_listing {name : String} (listing : Listing tools name) :
    readIpv4Addrs tools name = listing.read := by
  cases listing with
  | ip ls prints =>
    have hread : ∀ l ∈ ls, ipLineAddr l.text = some (l.ip, l.prefixLen) :=
      fun l _ => ipLineAddr_layout l
    rw [readIpv4Addrs, prints]
    simp only [lines_stdoutOf, List.map_map, List.filterMap_map]
    exact List.filterMap_eq_map_iff_forall_eq_some.mpr hread
  | ifconfig absent ls prints =>
    rw [readIpv4Addrs, absent]
    simp only [readIfconfigAddrs, prints, lines_stdoutOf, List.map_map, List.filterMap_map]
    calc ls.filterMap (ifconfigLineAddr ∘ Line.text ∘ IfconfigLine.toLine)
        = ls.filterMap fun l => l.entry.map InetEntry.read :=
          List.filterMap_congr fun l _ => ifconfigLineAddr_layout l
      _ = (ls.filterMap IfconfigLine.entry).map InetEntry.read := List.map_filterMap.symm

theorem Listing.read_eq_addrs_iff {name : String} (listing : Listing tools name) :
    listing.read = listing.addrs ↔
      ∀ entry ∈ listing.entries, entry.style = .dotted → entry.prefixLen = 24 := by
  cases listing with
  | ip ls prints => exact iff_of_true rfl (List.forall_mem_nil _)
  | ifconfig absent ls prints =>
    refine List.map_inj_left.trans (forall₂_congr fun entry _ => ?_)
    rw [InetEntry.read, InetEntry.addr, Prod.mk.injEq, and_iff_right rfl]
    split
    · exact ⟨fun h _ => h.symm, fun h => (h ‹_›).symm⟩
    · exact iff_of_true rfl fun h => absurd h ‹_›

/-! ## Both ways -/

/-- Whether an interface is a loopback, and its addresses. -/
def LocalInterface.facts (iface : LocalInterface) : Bool × List (Ipv4Addr × UInt8) :=
  (iface.loopback, iface.ips)

/-- Sysfs and the tools give what pnet gives iff the interfaces are no loopback and every
prefix that is printed as a dotted mask is 24. -/
theorem sysfs_agrees_iff (views : List (SysfsView tools)) :
    (sysfsInterfaces tools (views.map SysfsView.entry)).map LocalInterface.facts
        = (pnetInterfacesFrom (views.map SysfsView.toPnetInterface)).map LocalInterface.facts ↔
      ∀ view ∈ views, view.flags &&& 0x8 = 0 ∧
        ∀ entry ∈ view.listing.entries, entry.style = .dotted → entry.prefixLen = 24 := by
  rw [sysfsInterfaces, pnetInterfacesFrom]
  simp only [List.map_map]
  refine List.map_inj_left.trans (forall₂_congr fun view _ => ?_)
  have hsysfs : sysfsLoopback view.entry.flags = false := sysfsLoopback_flagsFile view.flags
  have hips : readIpv4Addrs tools view.name = view.listing.read :=
    readIpv4Addrs_listing view.listing
  show (sysfsLoopback view.entry.flags, readIpv4Addrs tools view.name)
    = (view.isLoopback, view.ipv4s) ↔ _
  rw [hsysfs, hips, ← view.addrs_eq, Prod.mk.injEq, Listing.read_eq_addrs_iff]
  refine and_congr_left' ?_
  rw [PnetInterface.isLoopback, eq_comm, decide_eq_false_iff_not, ne_eq, not_not]

/-- `ifconfig` about the interface `lo`, and no `ip`. -/
def loTools : AddrTools where
  ip _ := none
  ifconfig _ := some (encode "    inet 127.0.0.1  netmask 255.0.0.0\n".toList)

/-- The line of the loopback interface. -/
def loLine : IfconfigLine where
  text := "    inet 127.0.0.1  netmask 255.0.0.0".toList
  newline_notMem := by decide
  return_notMem := by decide
  entry := some ⟨⟨127, 0, 0, 1⟩, 8, by decide, .dotted⟩
  other h := by cases h
  layout e he := by
    obtain rfl := Option.some.inj he
    exact ⟨by decide, by decide⟩

/-- `lo`, up and a loopback. -/
def loView : SysfsView loTools where
  ips := [.v4 ⟨127, 0, 0, 1⟩ 8]
  prefix_le ip prefixLen h := by
    obtain h | h := List.mem_cons.mp h <;> cases h
    decide
  name := "lo"
  mac := some MacAddr6.nil
  flags := 0x9
  operstate := some "unknown\n".toList
  address := some "00:00:00:00:00:00\n".toList
  listing := .ifconfig rfl [loLine] (by decide)
  addrs_eq := rfl

/-- It is neither a loopback nor a /8 there. -/
theorem sysfs_facts_of_lo :
    (sysfsInterfaces loTools [loView.entry]).map LocalInterface.facts
        = [(false, [(⟨127, 0, 0, 1⟩, 24)])] ∧
      (pnetInterfacesFrom [loView.toPnetInterface]).map LocalInterface.facts
        = [(true, [(⟨127, 0, 0, 1⟩, 8)])] := by
  decide

end Gannet
