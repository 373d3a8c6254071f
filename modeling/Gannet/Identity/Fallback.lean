import Mathlib.Data.List.Infix
import Gannet.Identity.Classify

/-!
# The vendor fallback (identity/classify.rs)

When neither services nor vendor, hostname or OS hint have decided, `classify` looks
for keywords in the vendor once more. The second list of keywords has grown apart
from the first, `vendor_category`: many of its keywords have become keywords of the
first list too, and then a vendor that has them never comes this far.

- `vendorFallback_eq`: the chain is an ordered list of rules, of which the first that
  fires decides.
- `fallback_rule_live_iff`: a rule decides for some device iff `vendor_category` has
  no keyword in the rule's.
-/

namespace Gannet

open Text

/-! ## The rules of the chain -/

/-- What a rule asks of the services. -/
inductive ServiceTest where
  | any
  | absent
  | appleMobile
deriving DecidableEq, Repr

/-- The test, over services in lower case. -/
def ServiceTest.holds (services : List (List Char)) : ServiceTest → Bool
  | any => true
  | absent => services.isEmpty
  | appleMobile =>
    services.contains "_companion-link".toList || services.contains "_apple-mobdev2".toList

/-- A keyword of the chain, with the test that goes with it and its category. -/
structure FallbackRule where
  keyword : String
  services : ServiceTest
  category : Category
deriving DecidableEq, Repr

/-- The vendor contains the keyword, and the services are as they should be. -/
def FallbackRule.fires (vendor : List Char) (services : List (List Char)) (rule : FallbackRule) :
    Bool :=
  rule.keyword.toList <:+: vendor && rule.services.holds services

/-- The keywords of one `if`. -/
def fallbackGroup (test : ServiceTest) (category : Category) (keywords : List String) :
    List FallbackRule :=
  keywords.map fun keyword => ⟨keyword, test, category⟩

/-- The tests of the chain in their order. -/
def fallbackRules : List FallbackRule :=
  fallbackGroup .any .router ["router", "gateway", "network", "switch", "access point"] ++
  (fallbackGroup .any .printer ["printer", "brother", "epson"] ++
  (fallbackGroup .absent .phone
    ["samsung", "xiaomi", "huawei", "oneplus", "google", "motorola"] ++
  (fallbackGroup .appleMobile .phone ["apple"] ++
  (fallbackGroup .any .laptop ["apple"] ++
  (fallbackGroup .any .laptop ["intel", "dell", "lenovo", "hp", "asus", "acer", "msi", "gigabyte",
    "framework"] ++
  (fallbackGroup .any .ioT ["raspberry", "arduino", "espressif", "nodemcu", "sonoff", "shelly",
    "tasmota", "tuya", "esp"] ++
  fallbackGroup .any .tvStreaming ["lg", "sony", "tcl", "roku", "philips", "nvidia"]))))))

variable {vendor text text' : List Char} {services : List (List Char)} {rule : FallbackRule}

theorem find?_fallbackGroup (test : ServiceTest) (category : Category) (keywords : List String) :
    ((fallbackGroup test category keywords).find? (·.fires vendor services)).map
        FallbackRule.category
      = if containsAny keywords vendor ∧ test.holds services then some category else none := by
  induction keywords with
  | nil => rfl
  | cons keyword keywords ih =>
    show (List.find? _ (⟨keyword, test, category⟩ :: fallbackGroup test category keywords)).map _
      = _
    rw [List.find?_cons]
    by_cases hfires : (FallbackRule.mk keyword test category).fires vendor services = true
    · have hparts := Bool.and_eq_true_iff.mp hfires
      rw [hfires, if_pos ⟨by rw [containsAny, List.any_cons, hparts.1, Bool.true_or], hparts.2⟩]
      rfl
    · rw [Bool.eq_false_iff.mpr hfires]
      dsimp only
      rw [ih]
      refine if_congr (and_congr_left fun htest => ?_) rfl rfl
      have hkeyword : decide (keyword.toList <:+: vendor) = false := by
        rw [FallbackRule.fires, htest, Bool.and_true] at hfires
        exact Bool.eq_false_iff.mpr hfires
      rw [containsAny, containsAny, List.any_cons, hkeyword, Bool.false_or]

@[simp] theorem holds_any : ServiceTest.any.holds services = true := rfl

@[simp] theorem holds_absent : ServiceTest.absent.holds services = true ↔ services = [] :=
  List.isEmpty_iff

@[simp] theorem holds_appleMobile : ServiceTest.appleMobile.holds services = true ↔
    "_companion-link".toList ∈ services ∨ "_apple-mobdev2".toList ∈ services := by
  rw [ServiceTest.holds, Bool.or_eq_true, List.contains_iff_mem, List.contains_iff_mem]

theorem getD_ite_some (p : Prop) [Decidable p] (category : Category) (rest : Option Category) :
    ((if p then some category else none).or rest).getD .unknown
      = if p then category else rest.getD .unknown := by
  by_cases hp : p
  · rw [if_pos hp, if_pos hp]
    rfl
  · rw [if_neg hp, if_neg hp]
    rfl

theorem getD_ite_none (p : Prop) [Decidable p] (category : Category) :
    (if p then some category else none).getD .unknown = if p then category else .unknown :=
  apply_ite (Option.getD · Category.unknown) p _ _

/-- Two rules for one keyword are one test with another in it. -/
theorem ite_and_else {α : Type} (p q : Prop) [Decidable p] [Decidable q] (x y z : α) :
    (if p ∧ q then x else if p then y else z) = if p then if q then x else y else z := by
  by_cases hp : p
  · simp only [hp, true_and, if_true]
  · simp only [hp, false_and, if_false]

/-- The first rule that fires decides. -/
theorem vendorFallback_eq (vendor : List Char) (services : List (List Char)) :
    vendorFallback vendor services
      = ((fallbackRules.find? (·.fires vendor services)).map FallbackRule.category).getD
        .unknown := by
  rw [fallbackRules]
  simp only [List.find?_append, Option.map_or, find?_fallbackGroup, getD_ite_some, getD_ite_none,
    holds_any, holds_absent, holds_appleMobile, and_true, ite_and_else]
  rfl

/-! ## Keywords of both lists -/

/-- A table that decides on every hit has no hit on a text iff it has no keyword in
it. -/
theorem keywordCategory_eq_none {table : List (List String × Option Category)}
    (hall : ∀ row ∈ table, row.2 ≠ none) : keywordCategory table text = none ↔
      ∀ row ∈ table, ∀ keyword ∈ row.1, ¬ keyword.toList <:+: text := by
  have hrows : keywordCategory table text = none ↔
      table.find? (fun row => containsAny row.1 text) = none := by
    rw [keywordCategory]
    cases hrow : table.find? fun row => containsAny row.1 text with
    | none => exact iff_of_true rfl rfl
    | some row =>
      exact iff_of_false (hall row (List.mem_of_find?_eq_some hrow)) (Option.some_ne_none row)
  rw [hrows, List.find?_eq_none]
  simp only [containsAny, List.any_eq_true, decide_eq_true_iff, not_exists, not_and]

/-- Where a vendor is undecided, so is every part of its text. -/
theorem vendorCategory_of_infix (hpart : text <:+: text') (h : vendorCategory text' = none) :
    vendorCategory text = none := by
  unfold vendorCategory at h ⊢
  rw [keywordCategory_eq_none (by decide)] at h ⊢
  intro row hrow keyword hkeyword hwithin
  exact h row hrow keyword hkeyword (hwithin.trans (hpart.flatMap _))

/-! ## Rules that decide -/

/-- The texts of a device as `classify` reads them. -/
def Device.vendorLower (d : Device) : List Char := lowercase (d.vendor.getD "").toList

/-- Its services in lower case. -/
def Device.servicesLower (d : Device) : List (List Char) :=
  d.services.map fun s => lowercase s.toList

/-- No stage before the fallback decides. -/
structure ReachesFallback (d : Device) : Prop where
  services : serviceCategory d.servicesLower = none
  vendor : vendorCategory d.vendorLower = none
  hostname : hostnameCategory (lowercase (d.hostname.getD "").toList) = none
  osHint : osCategory (lowercase (d.osHint.getD "").toList) = none

theorem classify_of_reaches {d : Device} (h : ReachesFallback d) :
    classify d = vendorFallback d.vendorLower d.servicesLower := by
  obtain ⟨hservices, hvendor, hhostname, hos⟩ := h
  unfold classify
  unfold Device.servicesLower at hservices
  unfold Device.vendorLower at hvendor
  simp only [hservices, hvendor, hhostname, hos]
  rfl

/-- The device comes to the rule's test, no test before it having ended the chain, and
its category is the rule's. -/
structure DecidedBy (d : Device) (rule : FallbackRule) : Prop where
  reaches : ReachesFallback d
  contains : rule.keyword.toList <:+: d.vendorLower
  first : fallbackRules.find? (·.fires d.vendorLower d.servicesLower) = some rule
  category : classify d = rule.category

/-- A device of which only the vendor is known. -/
def deviceOf (vendor : String) : Device :=
  { Device.fromSweep Ipv4Addr.unspecified with vendor := some vendor }

/-- A keyword that the vendor stage passes over decides on itself. -/
theorem decidedBy_keyword (hrule : rule ∈ fallbackRules)
    (hnone : vendorCategory rule.keyword.toList = none) :
    DecidedBy (deviceOf rule.keyword) rule := by
  have hself : ∀ rule ∈ fallbackRules, lowercase rule.keyword.toList = rule.keyword.toList := by
    decide +kernel
  -- an earlier rule fires only for keywords that the vendor stage has taken
  have hfirst : ∀ rule ∈ fallbackRules,
      fallbackRules.find? (·.fires rule.keyword.toList []) = some rule ∨
        vendorCategory rule.keyword.toList ≠ none := by
    decide +kernel
  have hhostname : hostnameCategory (lowercase "".toList) = none := by decide +kernel
  have hos : osCategory (lowercase "".toList) = none := by decide +kernel
  have hvendor : (deviceOf rule.keyword).vendorLower = rule.keyword.toList := hself rule hrule
  have hreaches : ReachesFallback (deviceOf rule.keyword) :=
    ⟨rfl, hvendor ▸ hnone, hhostname, hos⟩
  have hrules : fallbackRules.find? (·.fires (deviceOf rule.keyword).vendorLower
      (deviceOf rule.keyword).servicesLower) = some rule := by
    rw [hvendor]
    exact (hfirst rule hrule).resolve_right (not_not_intro hnone)
  refine ⟨hreaches, hvendor ▸ List.infix_rfl, hrules, ?_⟩
  rw [classify_of_reaches hreaches, vendorFallback_eq, hrules]
  rfl

/-- **Rules of the fallback**: a rule decides for some device iff its keyword has no
keyword of the vendor stage in it. -/
theorem fallback_rule_live_iff {rule : FallbackRule} (hrule : rule ∈ fallbackRules) :
    (∃ d, DecidedBy d rule) ↔ vendorCategory rule.keyword.toList = none := by
  constructor
  · rintro ⟨d, hd⟩
    exact vendorCategory_of_infix hd.contains hd.reaches.vendor
  · exact fun hnone => ⟨_, decidedBy_keyword hrule hnone⟩

theorem fallback_rule_live_esp : ∃ d, DecidedBy d ⟨"esp", .any, .ioT⟩ :=
  (fallback_rule_live_iff
    (show (⟨"esp", .any, .ioT⟩ : FallbackRule) ∈ fallbackRules by decide)).mpr (by decide +kernel)

/-- A vendor that names a printer never gets to the rule for printers. -/
theorem printer_rule_dead : (⟨"printer", .any, .printer⟩ : FallbackRule) ∈ fallbackRules ∧
    ¬ ∃ d, DecidedBy d ⟨"printer", .any, .printer⟩ := by
  refine ⟨by decide, ?_⟩
  rintro ⟨d, hd⟩
  have hnone := vendorCategory_of_infix hd.contains hd.reaches.vendor
  revert hnone
  decide +kernel

end Gannet
