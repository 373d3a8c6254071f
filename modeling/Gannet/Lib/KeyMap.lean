import Mathlib.Data.List.AList
import Mathlib.Data.List.Dedup
import Mathlib.Logic.Function.Basic

/-!
# Hash maps with an arbitrary iteration order

A hash map is modelled by Mathlib's association lists without duplicate keys:
the list is the order in which the map happens to iterate. Two lists with the
same entries are the same map seen in two iteration orders (`SameEntries`);
what a map *is*, order aside, is its `contents` function.

Lookup, insertion and removal do not depend on the order. A search through the
values does, and the two lemmas `findValue_spec` and `exists_findValue` say
exactly how much: it returns some matching value, and every matching value is
returned in some order.

`fill` puts pairs into a map one after the other, where a key keeps its first
value; `SetOrder` is the iteration order of a hash set.
-/

namespace KeyMap

universe u v

variable {κ : Type u} {ν : Type v} [DecidableEq κ]

/-- A finite map, together with its current iteration order. -/
abbrev Map (κ : Type u) (ν : Type v) := AList fun _ : κ => ν

/-- The same map, possibly iterated in another order. -/
def SameEntries (m m' : Map κ ν) : Prop := m.entries.Perm m'.entries

/-- The map as a function, forgetting the iteration order. -/
def contents (m : Map κ ν) : κ → Option ν := fun k => m.lookup k

/-- The values in iteration order. -/
def values (m : Map κ ν) : List ν := m.entries.map Sigma.snd

/-- The first value, in iteration order, that satisfies `p`. -/
def findValue (m : Map κ ν) (p : ν → Bool) : Option ν := (values m).find? p

/-! ## Contents -/

@[simp] theorem contents_empty : contents (∅ : Map κ ν) = fun _ => none := rfl

@[simp] theorem contents_insert (m : Map κ ν) (k : κ) (v : ν) :
    contents (m.insert k v) = Function.update (contents m) k (some v) := by
  funext k'
  by_cases h : k' = k
  · subst h
    rw [Function.update_self]
    exact AList.lookup_insert m
  · rw [Function.update_of_ne h]
    exact AList.lookup_insert_ne h

@[simp] theorem contents_erase (m : Map κ ν) (k : κ) :
    contents (m.erase k) = Function.update (contents m) k none := by
  funext k'
  by_cases h : k' = k
  · subst h
    rw [Function.update_self]
    exact AList.lookup_erase k' m
  · rw [Function.update_of_ne h]
    exact AList.lookup_erase_ne h

theorem mem_iff_contents {m : Map κ ν} {k : κ} :
    k ∈ m ↔ ∃ v, contents m k = some v := by
  rw [← AList.lookup_isSome, Option.isSome_iff_exists]
  rfl

/-! ## What an update leaves

For contents `f` with the key `k` set or cleared: what is there afterwards. -/

section Update

variable {f : κ → Option ν} {k k' : κ} {v w : ν}

theorem update_some_cases (h : Function.update f k (some v) k' = some w) :
    (k' = k ∧ w = v) ∨ (k' ≠ k ∧ f k' = some w) := by
  by_cases hkey : k' = k
  · subst hkey
    rw [Function.update_self] at h
    exact .inl ⟨rfl, (Option.some.inj h).symm⟩
  · rw [Function.update_of_ne hkey] at h
    exact .inr ⟨hkey, h⟩

theorem update_none_cases (h : Function.update f k none k' = some w) : k' ≠ k ∧ f k' = some w := by
  by_cases hkey : k' = k
  · subst hkey
    rw [Function.update_self] at h
    exact nomatch h
  · rw [Function.update_of_ne hkey] at h
    exact ⟨hkey, h⟩

/-- The keys in use after a key is set. -/
theorem update_some_ne_none_iff :
    Function.update f k (some v) k' ≠ none ↔ k' = k ∨ f k' ≠ none := by
  by_cases hkey : k' = k
  · rw [hkey, Function.update_self]
    exact iff_of_true (Option.some_ne_none v) (.inl rfl)
  · rw [Function.update_of_ne hkey]
    exact ⟨.inr, fun h => h.resolve_left hkey⟩

/-- The keys in use after a key is cleared. -/
theorem update_none_ne_none_iff : Function.update f k none k' ≠ none ↔ k' ≠ k ∧ f k' ≠ none := by
  by_cases hkey : k' = k
  · rw [hkey, Function.update_self]
    exact iff_of_false (fun h => h rfl) (fun h => h.1 rfl)
  · rw [Function.update_of_ne hkey]
    exact ⟨fun h => ⟨hkey, h⟩, fun h => h.2⟩

/-- A key in use stays in use when a key is set. -/
theorem update_some_ne_none (h : f k' ≠ none) : Function.update f k (some v) k' ≠ none :=
  update_some_ne_none_iff.mpr (.inr h)

end Update

/-! ## Iteration orders -/

omit [DecidableEq κ] in
theorem SameEntries.refl (m : Map κ ν) : SameEntries m m := List.Perm.refl _

omit [DecidableEq κ] in
theorem SameEntries.symm {m m' : Map κ ν} (h : SameEntries m m') : SameEntries m' m :=
  List.Perm.symm h

/-- Two iteration orders are of one map iff the contents agree. -/
theorem sameEntries_iff {m m' : Map κ ν} :
    SameEntries m m' ↔ contents m = contents m' := by
  constructor
  · intro h
    funext k
    exact AList.perm_lookup h
  · intro h
    refine List.lookup_ext m.nodupKeys m'.nodupKeys fun k v => ?_
    exact iff_of_eq (congrArg (fun o => v ∈ o) (congrFun h k))

/-- The map iterated backwards. -/
def reverse (m : Map κ ν) : Map κ ν where
  entries := m.entries.reverse
  nodupKeys := (List.perm_nodupKeys (List.reverse_perm m.entries)).mpr m.nodupKeys

omit [DecidableEq κ] in
theorem sameEntries_reverse (m : Map κ ν) : SameEntries m (reverse m) :=
  (List.reverse_perm m.entries).symm

/-! ## Searching the values -/

theorem mem_values {m : Map κ ν} {v : ν} :
    v ∈ values m ↔ ∃ k, contents m k = some v := by
  rw [values, List.mem_map]
  constructor
  · rintro ⟨⟨k, w⟩, hmem, rfl⟩
    exact ⟨k, AList.mem_lookup_iff.mpr hmem⟩
  · rintro ⟨k, hk⟩
    exact ⟨⟨k, v⟩, AList.mem_lookup_iff.mp hk, rfl⟩

/-- A successful search returns a matching value of the map. -/
theorem findValue_spec {m : Map κ ν} {p : ν → Bool} {v : ν}
    (h : findValue m p = some v) : p v = true ∧ ∃ k, contents m k = some v :=
  ⟨List.find?_some h, mem_values.mp (List.mem_of_find?_eq_some h)⟩

/-- A failed search means that no value of the map matches. -/
theorem findValue_none {m : Map κ ν} {p : ν → Bool} (h : findValue m p = none)
    {k : κ} {v : ν} (hk : contents m k = some v) : p v = false := by
  have hno := List.find?_eq_none.mp h v (mem_values.mpr ⟨k, hk⟩)
  exact Bool.eq_false_iff.mpr hno

/-- Every matching value is the one found in some iteration order. -/
theorem exists_findValue {m : Map κ ν} (p : ν → Bool) {k : κ} {v : ν}
    (hk : contents m k = some v) (hp : p v = true) :
    ∃ m', SameEntries m m' ∧ findValue m' p = some v := by
  refine ⟨m.insert k v, ?_, ?_⟩
  · rw [sameEntries_iff, contents_insert, ← hk, Function.update_eq_self]
  · show ((m.insert k v).entries.map Sigma.snd).find? p = some v
    rw [AList.entries_insert, List.map_cons, List.find?_cons, hp]

/-! ## Filling a map -/

/-- `entry(k).or_insert(v)`: a key keeps the value it has. -/
def orInsert (m : Map κ ν) (k : κ) (v : ν) : Map κ ν := if k ∈ m then m else m.insert k v

/-- The pairs put into the map in their order. -/
def fill (m : Map κ ν) (pairs : List (κ × ν)) : Map κ ν :=
  pairs.foldl (fun m pair => orInsert m pair.1 pair.2) m

theorem contents_orInsert_self (m : Map κ ν) (k : κ) (v : ν) :
    contents (orInsert m k v) k = (contents m k).or (some v) := by
  unfold orInsert
  by_cases hk : k ∈ m
  · obtain ⟨w, hw⟩ := mem_iff_contents.mp hk
    rw [if_pos hk, hw]
    rfl
  · have hnone : contents m k = none := AList.lookup_eq_none.mpr hk
    rw [if_neg hk, contents_insert, Function.update_self, hnone]
    rfl

theorem contents_orInsert_of_ne (m : Map κ ν) {k k' : κ} (v : ν) (hne : k' ≠ k) :
    contents (orInsert m k v) k' = contents m k' := by
  unfold orInsert
  by_cases hk : k ∈ m
  · rw [if_pos hk]
  · rw [if_neg hk, contents_insert, Function.update_of_ne hne]

/-- A filled map has what it had, and else the first pair's value. -/
theorem contents_fill (m : Map κ ν) (pairs : List (κ × ν)) (k : κ) :
    contents (fill m pairs) k = (contents m k).or (pairs.lookup k) := by
  induction pairs generalizing m with
  | nil =>
    rw [List.lookup_nil, Option.or_none]
    rfl
  | cons pair pairs ih =>
    obtain ⟨k', v⟩ := pair
    show contents (fill (orInsert m k' v) pairs) k = _
    rw [ih, List.lookup_cons]
    by_cases hkey : k = k'
    · subst hkey
      rw [contents_orInsert_self, beq_self_eq_true]
      cases contents m k <;> rfl
    · rw [contents_orInsert_of_ne m v hkey, beq_false_of_ne hkey]

/-- The keys of a map filled from nothing are those of the pairs. -/
theorem mem_fill_empty {pairs : List (κ × ν)} {k : κ} :
    k ∈ fill (∅ : Map κ ν) pairs ↔ ∃ v, (k, v) ∈ pairs := by
  rw [mem_iff_contents, contents_fill, contents_empty, Option.none_or]
  constructor
  · rintro ⟨v, hv⟩
    obtain ⟨before, after, rfl, -⟩ := List.lookup_eq_some_iff.mp hv
    exact ⟨v, List.mem_append_right before List.mem_cons_self⟩
  · rintro ⟨v, hv⟩
    cases hlookup : pairs.lookup k with
    | some w => exact ⟨w, rfl⟩
    | none => exact absurd rfl (bne_iff_ne.mp (List.lookup_eq_none_iff.mp hlookup _ hv))

/-- What is put in later counts where a key has no value yet. -/
theorem contents_fill_append (pairs pairs' : List (κ × ν)) (k : κ) :
    contents (fill (∅ : Map κ ν) (pairs ++ pairs')) k
      = (contents (fill (∅ : Map κ ν) pairs) k).or (contents (fill (∅ : Map κ ν) pairs') k) := by
  simp only [contents_fill, contents_empty, Option.none_or, List.lookup_append]

theorem contents_fill_none_iff {pairs : List (κ × ν)} {k : κ} :
    contents (fill (∅ : Map κ ν) pairs) k = none ↔ ∀ v, (k, v) ∉ pairs := by
  have hmem : k ∈ fill (∅ : Map κ ν) pairs ↔ ∃ v, (k, v) ∈ pairs := mem_fill_empty
  rw [mem_iff_contents] at hmem
  rw [← not_iff_not, ← ne_eq, Option.ne_none_iff_exists', hmem]
  simp

/-- A value in a filled map was put in. -/
theorem mem_of_contents_fill {pairs : List (κ × ν)} {k : κ} {v : ν}
    (h : contents (fill (∅ : Map κ ν) pairs) k = some v) : (k, v) ∈ pairs := by
  rw [contents_fill, contents_empty, Option.none_or] at h
  obtain ⟨before, after, rfl, -⟩ := List.lookup_eq_some_iff.mp h
  exact List.mem_append_right before List.mem_cons_self

/-! ## Sets -/

/-- How a hash set iterates: over what was put into it, each element once, in
some order. -/
structure SetOrder (α : Type u) where
  elements : List α → List α
  nodup : ∀ xs, (elements xs).Nodup
  mem_iff : ∀ xs x, x ∈ elements xs ↔ x ∈ xs

/-- One such order. -/
def SetOrder.dedup (α : Type u) [DecidableEq α] : SetOrder α :=
  ⟨List.dedup, List.nodup_dedup, fun _ _ => List.mem_dedup⟩

end KeyMap
