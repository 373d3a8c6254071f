import Mathlib.Data.List.Infix
import Gannet.Identity.Device
import Gannet.Lib.Text

/-!
# Device categories (identity/classify.rs)

`classify` looks for keywords in the lower-cased texts of a device: first in its
services, then in the vendor, the hostname and the OS hint. The keyword lists of
a source are tried in a fixed order of categories, and `keywordCategory` is that
search. The services differ: there all lists are tried on one service before
the next one is looked at.

`classify_order_iff`: so the category depends on the order of the services iff
two of them belong to different families.
-/

namespace Gannet

open Text

/-! ## Keywords -/

/-- `text.contains(..)` for one of the keywords. -/
def containsAny (keywords : List String) (text : List Char) : Bool :=
  keywords.any fun keyword => keyword.toList <:+: text

/-- The categories tried one after the other: the first of them with a keyword in
the text decides. -/
def keywordCategory (table : List (List String × Option Category)) (text : List Char) :
    Option Category :=
  (table.find? fun row => containsAny row.1 text).bind Prod.snd

/-- `vendor_category` -/
def vendorCategory (vendor : List Char) : Option Category :=
  keywordCategory
    [(["cisco", "mikrotik", "ubiquiti", "zyxel", "d-link", "dlink", "netgear", "tp-link",
        "tplink", "linksys", "asus", "fritz", "avm"], some .router),
      (["brother", "epson", "canon", "xerox", "printer"], some .printer),
      (["sony", "samsung", "lg electronics", "roku", "nvidia", "philips", "tcl"],
        some .tvStreaming),
      (["raspberry", "arduino", "espressif", "sonoff", "shelly", "tuya"], some .ioT),
      (["xiaomi", "huawei", "oneplus", "motorola", "google", "pixel"], some .phone),
      (["apple"], some .laptop)]
    (lowercase vendor)

/-- `os_category`; Linux and macOS decide nothing, and nothing after them is
tried. -/
def osCategory (osHint : List Char) : Option Category :=
  keywordCategory
    [(["windows"], some .desktop),
      (["android", "ios"], some .phone),
      (["linux", "macos"], none),
      (["bsd", "solaris", "network device"], some .router),
      (["embedded", "iot"], some .ioT)]
    (lowercase osHint)

/-- `hostname_category` -/
def hostnameCategory (hostname : List Char) : Option Category :=
  keywordCategory
    [(["phone", "iphone", "android", "pixel", "galaxy", "oneplus"], some .phone),
      (["laptop", "macbook", "thinkpad", "xps", "precision", "latitude"], some .laptop),
      (["desktop", "gaming", "workstation"], some .desktop),
      (["router", "gateway", "fritz", "ap-", "mesh"], some .router),
      (["tv", "shield", "roku", "chromecast", "firetv"], some .tvStreaming),
      (["printer", "inkjet", "laser"], some .printer),
      (["sensor", "light", "plug", "bulb", "switch", "esp", "shelly", "sonoff"], some .ioT)]
    (lowercase hostname)

/-! ## Services -/

/-- What a service decides inside the loop of `service_category`: the first of
the four families it has a keyword of. -/
def serviceFamily (svc : List Char) : Option Category :=
  keywordCategory
    [(["_googlecast", "googlecast", "androidtvremote2", "_androidtvremote2",
        "_raop", "raop", "_airplay", "airplay",
        "_spotify-connect", "spotify-connect", "spotifyconnect",
        "privet", "_privet"], some .tvStreaming),
      (["_companion-link", "companion-link", "companionlink"], some .phone),
      (["_printer", "printer", "_scanner", "scanner", "_ipp", "ipp", "_ipps", "ipps"],
        some .printer),
      (["_workstation", "workstation", "_ssh", "ssh", "_smb", "smb", "_nfs", "nfs"],
        some .laptop)]
    (lowercase svc)

/-- `service_category` -/
def serviceCategory (services : List (List Char)) : Option Category :=
  if services = [] then none
  else
    match services.findSome? serviceFamily with
    | some cat => some cat
    | none =>
      if services.any (containsAny ["_apple-mobdev2", "apple-mobdev2"]) then some .phone
      else none

/-! ## Devices -/

/-- The end of `classify`, where no source has decided: keywords of the vendor,
some of which also ask for the services. -/
def vendorFallback (vendor : List Char) (services : List (List Char)) : Category :=
  if containsAny ["router", "gateway", "network", "switch", "access point"] vendor then .router
  else if containsAny ["printer", "brother", "epson"] vendor then .printer
  else if containsAny ["samsung", "xiaomi", "huawei", "oneplus", "google", "motorola"] vendor
      ∧ services = [] then .phone
  else if containsAny ["apple"] vendor then
    if "_companion-link".toList ∈ services ∨ "_apple-mobdev2".toList ∈ services then .phone
    else .laptop
  else if containsAny ["intel", "dell", "lenovo", "hp", "asus", "acer", "msi", "gigabyte",
      "framework"] vendor then .laptop
  else if containsAny ["raspberry", "arduino", "espressif", "nodemcu", "sonoff", "shelly",
      "tasmota", "tuya", "esp"] vendor then .ioT
  else if containsAny ["lg", "sony", "tcl", "roku", "philips", "nvidia"] vendor then .tvStreaming
  else .unknown

/-- `classify` -/
def classify (device : Device) : Category :=
  let vendorLower := lowercase (device.vendor.getD "").toList
  let osLower := lowercase (device.osHint.getD "").toList
  let hostnameLower := lowercase (device.hostname.getD "").toList
  let services := device.services.map fun s => lowercase s.toList
  let serviceHints := serviceCategory services
  match serviceHints with
  | some cat => cat
  | none =>
    match vendorCategory vendorLower with
    | some cat => serviceHints.getD cat
    | none =>
      match hostnameCategory hostnameLower with
      | some cat => cat
      | none =>
        match osCategory osLower with
        | some cat => cat
        | none => vendorFallback vendorLower services

/-- `Device::classify` -/
def Device.classify (device : Device) : Device :=
  { device with category := some (Gannet.classify device) }

/-! ## The order of the services -/

/-- The first decision in a list does not depend on the order, if all agree. -/
theorem findSome?_perm {α β : Type} {f : α → Option β} {xs ys : List α} (hperm : xs.Perm ys)
    (hagree : ∀ x ∈ xs, ∀ y ∈ xs, ∀ a b, f x = some a → f y = some b → a = b) :
    ys.findSome? f = xs.findSome? f := by
  cases hx : xs.findSome? f with
  | none =>
    rw [List.findSome?_eq_none_iff] at hx ⊢
    exact fun y hy => hx y (hperm.mem_iff.mpr hy)
  | some a =>
    obtain ⟨x, hmem, hfx⟩ := List.exists_of_findSome?_eq_some hx
    cases hy : ys.findSome? f with
    | none =>
      have hnone := List.findSome?_eq_none_iff.mp hy x (hperm.mem_iff.mp hmem)
      exact nomatch hfx.symm.trans hnone
    | some b =>
      obtain ⟨y, hmem', hfy⟩ := List.exists_of_findSome?_eq_some hy
      rw [hagree x hmem y (hperm.mem_iff.mpr hmem') a b hfx hfy]

/-- The family of a service of a device; `classify` lower-cases it first. -/
def familyOf (s : String) : Option Category := serviceFamily (lowercase s.toList)

variable {d : Device} {services : List String}

/-- Where the services decide alike, their order decides nothing. -/
theorem serviceCategory_perm {xs ys : List (List Char)} (hperm : xs.Perm ys)
    (hagree : ∀ x ∈ xs, ∀ y ∈ xs, ∀ a b,
      serviceFamily x = some a → serviceFamily y = some b → a = b) :
    serviceCategory ys = serviceCategory xs := by
  unfold serviceCategory
  have hempty : ys = [] ↔ xs = [] := by
    rw [← List.length_eq_zero_iff, ← List.length_eq_zero_iff, hperm.length_eq]
  simp only [hempty, findSome?_perm hperm hagree, hperm.any_eq]

theorem vendorFallback_perm (vendor : List Char) {xs ys : List (List Char)}
    (hperm : xs.Perm ys) : vendorFallback vendor ys = vendorFallback vendor xs := by
  unfold vendorFallback
  have hempty : ys = [] ↔ xs = [] := by
    rw [← List.length_eq_zero_iff, ← List.length_eq_zero_iff, hperm.length_eq]
  simp only [hempty, ← hperm.mem_iff]

/-- The first service decides, if it belongs to a family. -/
theorem classify_first {s : String} {cat : Category} (h : familyOf s = some cat) :
    classify { d with services := s :: services } = cat := by
  have hfamily : serviceFamily (lowercase s.toList) = some cat := h
  have hservices : serviceCategory ((s :: services).map fun s => lowercase s.toList)
      = some cat := by
    rw [List.map_cons, serviceCategory, if_neg (List.cons_ne_nil _ _),
      List.findSome?_cons_of_isSome (by rw [hfamily]; rfl), hfamily]
  simp only [classify, hservices]

/-- **Order of the services**: a device is classified alike for every order of its
services iff no two of them belong to families of different categories. -/
theorem classify_order_iff (d : Device) :
    (∀ services, d.services.Perm services →
        classify { d with services := services } = classify d) ↔
      ∀ s ∈ d.services, ∀ t ∈ d.services, ∀ a b,
        familyOf s = some a → familyOf t = some b → a = b := by
  constructor
  · intro h s hs t ht a b ha hb
    -- each of the two can be made the first
    have hfirst := h _ (List.perm_cons_erase hs)
    have hsecond := h _ (List.perm_cons_erase ht)
    rw [classify_first ha] at hfirst
    rw [classify_first hb] at hsecond
    exact hfirst.trans hsecond.symm
  · intro hagree services hperm
    have hlower := hperm.map fun s => lowercase s.toList
    have hcategory := serviceCategory_perm hlower (by
      intro x hx y hy
      obtain ⟨s, hs, rfl⟩ := List.mem_map.mp hx
      obtain ⟨t, ht, rfl⟩ := List.mem_map.mp hy
      exact hagree s hs t ht)
    unfold classify
    simp only [hcategory, vendorFallback_perm _ hlower]

example : familyOf "_AirPlay._tcp" = some .tvStreaming := by decide +kernel

/-- A machine that serves SSH and AirPlay is a laptop or a TV, as its
announcements come in. -/
theorem classify_depends_on_order :
    ["ssh", "airplay"].Perm ["airplay", "ssh"] ∧
      classify { Device.fromSweep ⟨192, 168, 1, 10⟩ with services := ["ssh", "airplay"] }
        ≠ classify { Device.fromSweep ⟨192, 168, 1, 10⟩ with services := ["airplay", "ssh"] } := by
  have hssh : familyOf "ssh" = some .laptop := by decide +kernel
  have hairplay : familyOf "airplay" = some .tvStreaming := by decide +kernel
  refine ⟨.swap _ _ _, ?_⟩
  rw [classify_first hssh, classify_first hairplay]
  decide

end Gannet
