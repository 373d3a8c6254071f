import Gannet.Identity.Store

/-!
# Merging the lists and categories of a record

What `merge_string_vec` and `merge_category` make of a record's services and
category: what was there stays, what is new comes behind it once, and merging
the same again changes nothing. For lists this is an ordered union
(`mergeStringVec_union`), which does not depend on the grouping.
-/

namespace Gannet

/-! ## Lists -/

variable {existing incoming : List String}

/-- One more item of the incoming list. -/
theorem mergeStringVec_cons (existing incoming : List String) (item : String) :
    mergeStringVec existing (item :: incoming) =
      mergeStringVec (if item ∈ existing then existing else existing ++ [item]) incoming :=
  rfl

/-- The incoming items that are not there yet come behind the others, each once. -/
theorem mergeStringVec_eq (existing incoming : List String) :
    mergeStringVec existing incoming
      = existing ++ (incoming.filter fun item => item ∉ existing).eraseDups := by
  induction incoming generalizing existing with
  | nil => exact (List.append_nil existing).symm
  | cons item incoming ih =>
    rw [mergeStringVec_cons, ih]
    by_cases h : item ∈ existing
    · rw [if_pos h, List.filter_cons_of_neg (by simpa using h)]
    · rw [if_neg h, List.filter_cons_of_pos (by simpa using h), List.eraseDups_cons,
        List.append_assoc, List.singleton_append, List.filter_filter]
      congr 3
      refine List.filter_congr fun other _ => ?_
      rw [Bool.eq_iff_iff]
      simp [and_comm]

theorem mem_mergeStringVec {item : String} :
    item ∈ mergeStringVec existing incoming ↔ item ∈ existing ∨ item ∈ incoming := by
  rw [mergeStringVec_eq, List.mem_append, List.mem_eraseDups, List.mem_filter, decide_eq_true_iff]
  by_cases h : item ∈ existing
  · simp [h]
  · simp [h]

theorem subset_mergeStringVec (existing incoming : List String) :
    existing ⊆ mergeStringVec existing incoming := by
  intro item hitem
  exact mem_mergeStringVec.mpr (.inl hitem)

theorem mergeStringVec_subset (existing incoming : List String) :
    incoming ⊆ mergeStringVec existing incoming := by
  intro item hitem
  exact mem_mergeStringVec.mpr (.inr hitem)

/-- Nothing is added where all is there. -/
theorem mergeStringVec_of_subset (h : incoming ⊆ existing) :
    mergeStringVec existing incoming = existing := by
  have hnone : (incoming.filter fun item => item ∉ existing) = [] :=
    List.filter_eq_nil_iff.mpr fun item hitem => by simpa using h hitem
  rw [mergeStringVec_eq, hnone, List.eraseDups_nil, List.append_nil]

theorem mergeStringVec_again (existing incoming : List String) :
    mergeStringVec (mergeStringVec existing incoming) incoming
      = mergeStringVec existing incoming :=
  mergeStringVec_of_subset (mergeStringVec_subset existing incoming)

/-- Merging makes no duplicates. -/
theorem mergeStringVec_nodup (h : existing.Nodup) (incoming : List String) :
    (mergeStringVec existing incoming).Nodup := by
  induction incoming generalizing existing with
  | nil => exact h
  | cons item incoming ih =>
    rw [mergeStringVec_cons]
    by_cases hitem : item ∈ existing
    · rw [if_pos hitem]
      exact ih h
    · rw [if_neg hitem]
      refine ih (List.Nodup.append h (List.nodup_singleton item) fun x hx hx' => hitem ?_)
      exact List.mem_singleton.mp hx' ▸ hx

theorem nodup_eraseDups (items : List String) : items.eraseDups.Nodup := by
  have hmerge := mergeStringVec_eq [] items
  rw [List.nil_append, List.filter_eq_self.mpr (by simp)] at hmerge
  exact hmerge ▸ mergeStringVec_nodup List.nodup_nil items

/-- One more item at the end of the incoming list. -/
theorem mergeStringVec_concat (existing incoming : List String) (item : String) :
    mergeStringVec existing (incoming ++ [item]) =
      if item ∈ mergeStringVec existing incoming then mergeStringVec existing incoming
      else mergeStringVec existing incoming ++ [item] :=
  List.foldl_concat ..

/-- Lists can be merged in any grouping. -/
theorem mergeStringVec_assoc (first second third : List String) :
    mergeStringVec (mergeStringVec first second) third
      = mergeStringVec first (mergeStringVec second third) := by
  induction third generalizing second with
  | nil => rfl
  | cons item third ih =>
    rw [mergeStringVec_cons, mergeStringVec_cons second]
    by_cases h : item ∈ second
    · rw [if_pos h, if_pos (mergeStringVec_subset first second h)]
      exact ih second
    · -- the item goes behind `second`, and there behind the merged list
      rw [if_neg h, ← ih, mergeStringVec_concat]

/-- **An ordered union**: what there was stays in front, behind it come the first
occurrences of the other items, and the laws of a union hold. -/
theorem mergeStringVec_union (a b c : List String) :
    mergeStringVec a b = a ++ (b.filter fun item => item ∉ a).eraseDups ∧
      a <+: mergeStringVec a b ∧
      (∀ item, item ∈ mergeStringVec a b ↔ item ∈ a ∨ item ∈ b) ∧
      (a.Nodup → (mergeStringVec a b).Nodup) ∧
      mergeStringVec (mergeStringVec a b) b = mergeStringVec a b ∧
      mergeStringVec (mergeStringVec a b) c = mergeStringVec a (mergeStringVec b c) := by
  refine ⟨mergeStringVec_eq a b, ?_, ?_, ?_, ?_, ?_⟩
  · rw [mergeStringVec_eq]
    exact List.prefix_append a _
  · intro item
    exact mem_mergeStringVec
  · intro h
    exact mergeStringVec_nodup h b
  · exact mergeStringVec_again a b
  · exact mergeStringVec_assoc a b c

/-! ## Categories -/

/-- A known category is not replaced. -/
theorem mergeCategory_known {cat : Category} (h : cat ≠ .unknown) (incoming : Option Category) :
    mergeCategory (some cat) incoming = some cat := by
  cases incoming with
  | none => rfl
  | some i => exact if_neg fun hunknown => h hunknown.1

theorem mergeCategory_again (existing incoming : Option Category) :
    mergeCategory (mergeCategory existing incoming) incoming = mergeCategory existing incoming := by
  cases existing with
  | none =>
    cases incoming with
    | none => rfl
    | some i => exact if_neg fun h => h.2 h.1
  | some e =>
    cases incoming with
    | none => rfl
    | some i =>
      by_cases h : e = .unknown ∧ i ≠ .unknown
      · simp [mergeCategory, h.1, h.2]
      · simp [mergeCategory, h]

/-- The category, unless it is `Unknown`. -/
def knownCategory (cat : Option Category) : Option Category := cat.filter (· ≠ .unknown)

theorem knownCategory_eq_some_iff {c : Option Category} {cat : Category} :
    knownCategory c = some cat ↔ c = some cat ∧ cat ≠ .unknown := by
  rw [knownCategory, Option.filter_eq_some_iff, decide_eq_true_iff]

/-- The known category there was, else the known one that comes in. -/
theorem mergeCategory_of_known {existing incoming : Option Category} {cat : Category}
    (h : (knownCategory existing).or (knownCategory incoming) = some cat) :
    mergeCategory existing incoming = some cat := by
  rcases Option.or_eq_some_iff.mp h with hthere | ⟨hunknown, hincoming⟩
  · obtain ⟨rfl, hne⟩ := knownCategory_eq_some_iff.mp hthere
    exact mergeCategory_known hne incoming
  · obtain ⟨rfl, hne⟩ := knownCategory_eq_some_iff.mp hincoming
    cases existing with
    | none => rfl
    | some e =>
      have he : e = .unknown := by
        by_contra hknown
        exact nomatch hunknown.symm.trans (knownCategory_eq_some_iff.mpr ⟨rfl, hknown⟩)
      exact if_pos ⟨he, hne⟩

end Gannet
