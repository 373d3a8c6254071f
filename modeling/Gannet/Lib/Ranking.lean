import Mathlib.Data.List.Sort

/-!
# Scored rules

A table of rules that are tried on an input in order; those that apply are sorted
by descending score, the order of the table breaking ties, and the first wins.

- `firstMax`: the first element with the largest key; that is the head of the
  stable descending sort (`head?_mergeSort`).
- `winner`: the rule that wins on an input.
- `Shadows`: a rule before another, with at least its score, that applies wherever
  the other does. A shadowed rule never wins (`Shadows.winner_ne`).
-/

namespace Ranking

universe u v

variable {α : Type u} {key : α → Nat} {xs : List α} {x y : α}

/-- The first of the elements with the largest key. -/
def firstMax (key : α → Nat) : List α → Option α
  | [] => none
  | x :: xs =>
    match firstMax key xs with
    | none => some x
    | some y => if key x < key y then some y else some x

theorem head?_mergeSort (key : α → Nat) (xs : List α) :
    (xs.mergeSort fun a b => key b ≤ key a).head? = firstMax key xs := by
  have htrans : ∀ a b c : α, decide (key b ≤ key a) = true → decide (key c ≤ key b) = true →
      decide (key c ≤ key a) = true := by
    simp only [decide_eq_true_iff]
    exact fun a b c hab hbc => Nat.le_trans hbc hab
  have htotal : ∀ a b : α, (decide (key b ≤ key a) || decide (key a ≤ key b)) = true := by
    simp only [Bool.or_eq_true, decide_eq_true_iff]
    exact fun a b => Nat.le_total _ _
  induction xs with
  | nil => rw [List.mergeSort_nil]; rfl
  | cons x xs ih =>
    obtain ⟨front, back, hsort, hrest, hfront⟩ := List.mergeSort_cons htrans htotal x xs
    rw [hrest] at ih
    rw [hsort, firstMax, ← ih]
    cases front with
    | nil =>
      have hsorted := List.pairwise_mergeSort htrans htotal (x :: xs)
      rw [hsort] at hsorted
      cases back with
      | nil => rfl
      | cons y ys =>
        -- the next best is not better
        have hle := of_decide_eq_true (List.rel_of_pairwise_cons hsorted List.mem_cons_self)
        exact (if_neg (Nat.not_lt.mpr hle)).symm
    | cons b front =>
      have hlt : key x < key b := by simpa using hfront b List.mem_cons_self
      exact (if_pos hlt).symm

/-- It is an element whose key is larger than those before it and not smaller than
those after it. -/
theorem firstMax_split (h : firstMax key xs = some x) : ∃ before after,
    xs = before ++ x :: after ∧ (∀ y ∈ before, key y < key x) ∧ ∀ y ∈ after, key y ≤ key x := by
  induction xs generalizing x with
  | nil => exact nomatch h
  | cons a xs ih =>
    rw [firstMax] at h
    cases hrest : firstMax key xs with
    | none =>
      -- nothing comes after it
      have hnil : xs = [] := by
        cases xs with
        | nil => rfl
        | cons b bs =>
          rw [firstMax] at hrest
          cases hbest : firstMax key bs with
          | none => simp [hbest] at hrest
          | some c => by_cases hlt : key b < key c <;> simp [hbest, hlt] at hrest
      rw [hrest] at h
      obtain rfl := Option.some.inj h
      exact ⟨[], [], by rw [hnil]; rfl, List.forall_mem_nil _, List.forall_mem_nil _⟩
    | some y =>
      obtain ⟨before, after, rfl, hbefore, hafter⟩ := ih hrest
      rw [hrest] at h
      dsimp only at h
      by_cases hlt : key a < key y
      · rw [if_pos hlt] at h
        obtain rfl := Option.some.inj h
        refine ⟨a :: before, after, rfl, fun z hz => ?_, hafter⟩
        rcases List.mem_cons.mp hz with rfl | hz
        · exact hlt
        · exact hbefore z hz
      · rw [if_neg hlt] at h
        obtain rfl := Option.some.inj h
        have hle := Nat.le_of_not_lt hlt
        refine ⟨[], before ++ y :: after, rfl, List.forall_mem_nil _, fun z hz => ?_⟩
        rcases List.mem_append.mp hz with hz | hz
        · exact Nat.le_trans (Nat.le_of_lt (hbefore z hz)) hle
        · rcases List.mem_cons.mp hz with rfl | hz
          · exact hle
          · exact Nat.le_trans (hafter z hz) hle

/-- If it is no better than some element of the first part, it is in that part. -/
theorem firstMax_mem_left {xs ys : List α} (h : firstMax key (xs ++ ys) = some x) (hy : y ∈ xs)
    (hle : key x ≤ key y) : x ∈ xs := by
  obtain ⟨before, after, hsplit, hbefore, -⟩ := firstMax_split h
  have hnot : y ∉ before := fun hmem => Nat.not_le.mpr (hbefore y hmem) hle
  rcases List.append_eq_append_iff.mp hsplit with ⟨rest, rfl, -⟩ | ⟨rest, rfl, hrest⟩
  · exact absurd (List.mem_append_left rest hy) hnot
  · cases rest with
    | nil => exact absurd (List.append_nil before ▸ hy) hnot
    | cons z zs =>
      obtain ⟨rfl, -⟩ := List.cons.inj hrest
      exact List.mem_append_right before List.mem_cons_self

/-! ## Rules -/

variable {ρ : Type u} {ι : Type v} {applies : ρ → ι → Bool} {score : ρ → Nat}
  {rules before after : List ρ} {r r' : ρ} {i : ι}

/-- The rule that wins on the input. -/
def winner (applies : ρ → ι → Bool) (score : ρ → Nat) (rules : List ρ) (i : ι) : Option ρ :=
  firstMax score (rules.filter (applies · i))

theorem winner_spec (h : winner applies score rules i = some r) :
    r ∈ rules ∧ applies r i = true := by
  obtain ⟨before, after, hsplit, -⟩ := firstMax_split h
  exact List.mem_filter.mp (hsplit ▸ List.mem_append_right before List.mem_cons_self)

/-- `r'` stands before `r` in the table, scores no less, and applies wherever `r`
does. -/
structure Shadows (applies : ρ → ι → Bool) (score : ρ → Nat) (before : List ρ) (r' r : ρ) :
    Prop where
  earlier : r' ∈ before
  score_le : score r ≤ score r'
  applies : ∀ i, applies r i = true → applies r' i = true

/-- A shadowed rule never wins. -/
theorem Shadows.winner_ne (h : Shadows applies score before r' r)
    (hnodup : (before ++ r :: after).Nodup) :
    winner applies score (before ++ r :: after) i ≠ some r := by
  intro hwin
  have happlies := (winner_spec hwin).2
  have hearlier : r' ∈ before.filter (applies · i) :=
    List.mem_filter.mpr ⟨h.earlier, h.applies i happlies⟩
  rw [winner, List.filter_append] at hwin
  have hmem := (List.mem_filter.mp (firstMax_mem_left hwin hearlier h.score_le)).1
  exact (List.nodup_append.mp hnodup).2.2 r hmem r List.mem_cons_self rfl

end Ranking
