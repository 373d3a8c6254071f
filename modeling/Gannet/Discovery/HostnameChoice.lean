import Gannet.Discovery.Hostnames

/-!
# Choosing among the candidates (discovery/mdns.rs)

Messages are sent more than once, so a candidate may be collected many times.
`best_hostname` keeps the first occurrence of each candidate and then takes the
last of those with the best score.

- `hostnameScore_le_iff`: the scores order the candidates, capitalised over hyphenated
  over other.
- `bestHostname_optimal`: it gives up iff no candidate is eligible, what it returns
  is an eligible candidate that is first in this order, and repeating candidates that are
  already there changes nothing.
- `hostname_of_retransmission`: so a repeated message does not change the hostname.
-/

namespace Gannet.Mdns

variable {isUppercase : Char → Bool} {names extra : List String}

/-- More than one byte long and not a service label. -/
def Eligible (n : String) : Prop := 1 < n.utf8ByteSize ∧ isServiceLabel n.toList = false

/-- The candidates that are scored. -/
def eligibleNames (names : List String) : List String :=
  names.filter fun n => n ≠ "" && 1 < n.utf8ByteSize && !isServiceLabel n.toList

/-- Scored are the candidates that are eligible. -/
theorem mem_eligibleNames {n : String} : n ∈ eligibleNames names ↔ n ∈ names ∧ Eligible n := by
  rw [eligibleNames, List.mem_filter]
  refine and_congr_right fun _ => ?_
  simp only [Bool.and_eq_true, decide_eq_true_iff, Bool.not_eq_true', Eligible]
  constructor
  · exact fun h => ⟨h.1.2, h.2⟩
  · intro h
    refine ⟨⟨?_, h.1⟩, h.2⟩
    rintro rfl
    exact absurd h.1 (by decide)

/-! ## Scores -/

/-- Its first character is upper case. -/
def Capitalised (isUppercase : Char → Bool) (n : String) : Prop :=
  ∃ c cs, n.toList = c :: cs ∧ isUppercase c = true

/-- A hyphen is in it. -/
def Hyphenated (n : String) : Prop := '-' ∈ n.toList

theorem capitalised_iff {n : String} :
    Capitalised isUppercase n ↔ (n.toList.head?.map isUppercase).getD false = true := by
  unfold Capitalised
  cases n.toList with
  | nil => simp
  | cons c cs => simp

/-- **The order of the scores**: capitalised over hyphenated over other. -/
theorem hostnameScore_le_iff {n best : String} :
    hostnameScore isUppercase n ≤ hostnameScore isUppercase best ↔
      (Capitalised isUppercase n → Capitalised isUppercase best) ∧
        (Hyphenated n → Capitalised isUppercase best ∨ Hyphenated best) := by
  simp only [capitalised_iff, Hyphenated, hostnameScore]
  split_ifs <;> simp_all

/-! ## The best of a list -/

/-- Of equals the last one is taken. -/
theorem maxByKey_concat {α : Type} (key : α → Nat) (xs : List α) (x : α) :
    maxByKey key (xs ++ [x]) = match maxByKey key xs with
      | none => some x
      | some b => if key x < key b then some b else some x := by
  rw [maxByKey, List.foldl_concat]
  rfl

/-- No element has a larger key. -/
theorem maxByKey_max {α : Type} {key : α → Nat} {xs : List α} {best : α}
    (h : maxByKey key xs = some best) : ∀ x ∈ xs, key x ≤ key best := by
  induction xs using List.reverseRecOn generalizing best with
  | nil => exact fun _ hmem => nomatch hmem
  | append_singleton xs y ih =>
    rw [maxByKey_concat] at h
    intro x hx
    cases hbest : maxByKey key xs with
    | none =>
      -- nothing before `y`
      have hnil : xs = [] := by
        by_contra hne
        have hsome : (maxByKey key xs).isSome := maxByKey_isSome.mpr hne
        rw [hbest] at hsome
        cases hsome
      rw [hbest] at h
      obtain rfl := Option.some.inj h
      rw [hnil, List.nil_append, List.mem_singleton] at hx
      rw [hx]
    | some b =>
      have hle := ih hbest
      rw [hbest] at h
      dsimp only at h
      by_cases hless : key y < key b
      · rw [if_pos hless] at h
        obtain rfl := Option.some.inj h
        rcases List.mem_append.mp hx with hx | hx
        · exact hle x hx
        · rw [List.mem_singleton.mp hx]
          exact Nat.le_of_lt hless
      · rw [if_neg hless] at h
        obtain rfl := Option.some.inj h
        rcases List.mem_append.mp hx with hx | hx
        · exact Nat.le_trans (hle x hx) (Nat.le_of_not_lt hless)
        · rw [List.mem_singleton.mp hx]

/-! ## Repeated candidates -/

/-- Repeating elements adds no first occurrence. -/
theorem eraseDups_append_of_subset {α : Type} [BEq α] [LawfulBEq α] {xs ys : List α}
    (h : ys ⊆ xs) : (xs ++ ys).eraseDups = xs.eraseDups := by
  have hnone : ys.removeAll xs = [] := by
    rw [List.removeAll, List.filter_eq_nil_iff]
    intro y hy
    simp [h hy]
  rw [List.eraseDups_append, hnone, List.eraseDups_nil, List.append_nil]

/-- Candidates that are there already change nothing. -/
theorem bestHostname_append (hextra : extra ⊆ names) :
    bestHostname isUppercase (names ++ extra) = bestHostname isUppercase names := by
  have hsub : eligibleNames extra ⊆ eligibleNames names := by
    intro n hn
    obtain ⟨hmem, helig⟩ := mem_eligibleNames.mp hn
    exact mem_eligibleNames.mpr ⟨hextra hmem, helig⟩
  show maxByKey _ (eligibleNames (names ++ extra)).eraseDups
    = maxByKey _ (eligibleNames names).eraseDups
  rw [eligibleNames, List.filter_append]
  exact congrArg _ (eraseDups_append_of_subset hsub)

/-- Without an eligible candidate there is no hostname. -/
theorem bestHostname_eq_none :
    bestHostname isUppercase names = none ↔ ∀ n ∈ names, ¬ Eligible n := by
  have hsome : (bestHostname isUppercase names).isSome ↔ (eligibleNames names).eraseDups ≠ [] :=
    maxByKey_isSome
  rw [← Option.not_isSome_iff_eq_none, hsome, not_not, List.eq_nil_iff_forall_not_mem]
  simp only [List.mem_eraseDups, mem_eligibleNames, not_and]

/-- The hostname is one of the eligible candidates. -/
theorem bestHostname_eligible {best : String}
    (h : bestHostname isUppercase names = some best) : best ∈ names ∧ Eligible best :=
  mem_eligibleNames.mp (List.mem_eraseDups.mp (maxByKey_mem h))

/-- And none of them has a better score. -/
theorem bestHostname_max {best n : String} (h : bestHostname isUppercase names = some best)
    (hmem : n ∈ names) (helig : Eligible n) :
    hostnameScore isUppercase n ≤ hostnameScore isUppercase best :=
  maxByKey_max h n (List.mem_eraseDups.mpr (mem_eligibleNames.mpr ⟨hmem, helig⟩))

/-- **Hostname choice**: optimal, and insensitive to repetition. No eligible candidate has a
better score than the one returned: none is capitalised if that is not, and none is
hyphenated if that is neither. -/
theorem bestHostname_optimal (isUppercase : Char → Bool) (names : List String) :
    (bestHostname isUppercase names = none ↔ ∀ n ∈ names, ¬ Eligible n) ∧
      (∀ best, bestHostname isUppercase names = some best →
        best ∈ names ∧ Eligible best ∧ ∀ n ∈ names, Eligible n →
          hostnameScore isUppercase n ≤ hostnameScore isUppercase best ∧
            (Capitalised isUppercase n → Capitalised isUppercase best) ∧
            (Hyphenated n → Capitalised isUppercase best ∨ Hyphenated best)) ∧
      ∀ extra, extra ⊆ names →
        bestHostname isUppercase (names ++ extra) = bestHostname isUppercase names := by
  refine ⟨bestHostname_eq_none, fun best hbest => ?_, fun _ => bestHostname_append⟩
  obtain ⟨hmem, helig⟩ := bestHostname_eligible hbest
  refine ⟨hmem, helig, fun n hn hn' => ?_⟩
  have hscore := bestHostname_max hbest hn hn'
  exact ⟨hscore, hostnameScore_le_iff.mp hscore⟩

/-- Without the first occurrences the last candidate would win. -/
theorem bestHostname_of_repeated :
    bestHostname Char.isUpper (["Kitchen", "Bath"] ++ ["Kitchen"])
      = bestHostname Char.isUpper ["Kitchen", "Bath"] :=
  (bestHostname_optimal Char.isUpper ["Kitchen", "Bath"]).2.2 ["Kitchen"] (by simp)

/-- A repeated message does not change the hostname of its host. -/
theorem hostname_of_retransmission {messages : List (List UInt8)} {data : List UInt8}
    (hdata : data ∈ messages) : bestHostname isUppercase (candidates (messages ++ [data]))
      = bestHostname isUppercase (candidates messages) := by
  rw [candidates, List.flatMap_append, List.flatMap_singleton]
  refine bestHostname_append fun n hn => ?_
  exact List.mem_flatMap.mpr ⟨data, hdata, hn⟩

end Gannet.Mdns
