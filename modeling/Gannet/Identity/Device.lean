import Gannet.Net.Addr

/-!
# Devices

What discovery hands to the identity store: one sighting of a host, with
whatever enrichment the scan attached to it.
-/

namespace Gannet

/-- Device categories (identity/classify.rs). -/
inductive Category where
  | phone
  | laptop
  | desktop
  | router
  | ioT
  | printer
  | tvStreaming
  | unknown
deriving DecidableEq, Repr

/-- How a device was found. -/
inductive Via where
  | arp
  | sweep
deriving DecidableEq, Repr

/-- An address pair seen on the wire or in the kernel's ARP table
(discovery/arp.rs). -/
structure ArpEntry where
  ip : Ipv4Addr
  mac : MacAddr6
deriving DecidableEq, Repr

/-- `Device`: what one sighting says of a host. -/
structure Device where
  ip : Ipv4Addr
  mac : Option MacAddr6
  vendor : Option String
  hostname : Option String
  osHint : Option String
  services : List String
  via : Via
  category : Option Category
  tag : Option String
deriving DecidableEq, Repr

namespace Device

/-- `Device::from(&entry)`. -/
def ofArpEntry (entry : ArpEntry) : Device where
  ip := entry.ip
  mac := some entry.mac
  vendor := none
  hostname := none
  osHint := none
  services := []
  via := .arp
  category := none
  tag := none

/-- `Device::from_sweep(ip)`. -/
def fromSweep (ip : Ipv4Addr) : Device where
  ip := ip
  mac := none
  vendor := none
  hostname := none
  osHint := none
  services := []
  via := .sweep
  category := none
  tag := none

end Device

/-- `oui::lookup`: the vendor of the first three bytes in the embedded table. -/
def ouiLookup (table : UInt32 → Option String) (mac : MacAddr6) : Option String :=
  table (mac.b0.toUInt32 <<< 16 ||| mac.b1.toUInt32 <<< 8 ||| mac.b2.toUInt32)

end Gannet
