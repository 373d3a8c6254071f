import Mathlib.Data.Multiset.AddSub
import Gannet.Lib.Run

/-!
# Tasks that share permits and a result

One thread spawns a task for every item and then joins them all. A task waits for one
of a limited number of permits, works, puts its outcome into the result that all tasks
share, and gives the permit back. Its share in the result ends with its work.

- `Inv`: where the items are, and what the counters and the result say about that.
- `Inv.progress`: while something is left to do, some step can be taken, and no more than
  five steps are left for an item (`Step.remaining`).
- `Inv.finished`: at the end every item was worked on once, the result has the outcomes,
  and the spawning thread is its only owner.
-/

namespace TaskPool

universe u v w

variable {ι : Type u} {β : Type v} {ρ : Type w}

/-! ## The system -/

/-- The items by how far their tasks are. -/
structure State (ι : Type u) (ρ : Type w) where
  unspawned : List ι
  waiting : Multiset ι
  running : Multiset ι
  /-- Done, but still with a permit. -/
  worked : Multiset ι
  ended : Multiset ι
  joined : Multiset ι
  permits : Nat
  /-- Who has a share in the result: the spawning thread and the tasks yet to work. -/
  owners : Nat
  result : ρ

/-- No task is spawned. -/
def State.init (limit : Nat) (items : List ι) (result : ρ) : State ι ρ where
  unspawned := items
  waiting := 0
  running := 0
  worked := 0
  ended := 0
  joined := 0
  permits := limit
  owners := 1
  result := result

/-- What happens next, and to which item. -/
inductive Label (ι : Type u) (β : Type v) where
  | spawn (i : ι)
  | acquire (i : ι)
  | work (i : ι) (outcome : β)
  | release (i : ι)
  | join (i : ι)

/-- A step of the pool. The spawning thread spawns a task for each item, in order, and then joins
those that have ended, as they end. A task waits for a permit, works, which puts its outcome into
the result and gives up its share in it, and then gives the permit back. -/
inductive Step (absorb : ρ → ι → β → ρ) : State ι ρ → Label ι β → State ι ρ → Prop where
  | spawn {s : State ι ρ} {i : ι} {rest : List ι} (h : s.unspawned = i :: rest) :
      Step absorb s (.spawn i)
        { s with unspawned := rest, waiting := i ::ₘ s.waiting, owners := s.owners + 1 }
  | acquire {s : State ι ρ} {i : ι} {rest : Multiset ι} (h : s.waiting = i ::ₘ rest)
      (hpermit : 0 < s.permits) :
      Step absorb s (.acquire i)
        { s with waiting := rest, running := i ::ₘ s.running, permits := s.permits - 1 }
  | work {s : State ι ρ} {i : ι} {rest : Multiset ι} (outcome : β) (h : s.running = i ::ₘ rest) :
      Step absorb s (.work i outcome)
        { s with
          running := rest, worked := i ::ₘ s.worked, owners := s.owners - 1
          result := absorb s.result i outcome }
  | release {s : State ι ρ} {i : ι} {rest : Multiset ι} (h : s.worked = i ::ₘ rest) :
      Step absorb s (.release i)
        { s with worked := rest, ended := i ::ₘ s.ended, permits := s.permits + 1 }
  | join {s : State ι ρ} {i : ι} {rest : Multiset ι} (hspawned : s.unspawned = [])
      (h : s.ended = i ::ₘ rest) :
      Step absorb s (.join i) { s with ended := rest, joined := i ::ₘ s.joined }

/-- The items that were worked on, with their outcomes. -/
def outcomes (labels : List (Label ι β)) : List (ι × β) :=
  labels.filterMap fun
    | .work i outcome => some (i, outcome)
    | _ => none

/-- The steps that are left. -/
def State.remaining (s : State ι ρ) : Nat :=
  5 * s.unspawned.length + 4 * s.waiting.card + 3 * s.running.card + 2 * s.worked.card
    + s.ended.card

/-- All items, wherever they are. -/
def State.placed (s : State ι ρ) : Multiset ι :=
  ↑s.unspawned + s.waiting + s.running + s.worked + s.ended + s.joined

/-- The items whose work is done. -/
def State.done (s : State ι ρ) : Multiset ι := s.worked + s.ended + s.joined

/-! ## What a step does -/

variable {absorb : ρ → ι → β → ρ} {limit : Nat} {items : List ι} {init : ρ}
  {labels : List (Label ι β)} {s t : State ι ρ} {a : Label ι β}

theorem outcomes_append (as bs : List (Label ι β)) :
    outcomes (as ++ bs) = outcomes as ++ outcomes bs :=
  List.filterMap_append

/-- No item is lost or doubled. -/
theorem Step.placed (h : Step absorb s a t) : t.placed = s.placed := by
  cases h with
  | spawn h =>
    simp only [State.placed, h, ← Multiset.cons_coe, Multiset.cons_add, Multiset.add_cons]
  | acquire h _ => simp only [State.placed, h, Multiset.cons_add, Multiset.add_cons]
  | work _ h => simp only [State.placed, h, Multiset.cons_add, Multiset.add_cons]
  | release h => simp only [State.placed, h, Multiset.cons_add, Multiset.add_cons]
  | join _ h => simp only [State.placed, h, Multiset.cons_add, Multiset.add_cons]

/-- Every step is one less to go. -/
theorem Step.remaining (h : Step absorb s a t) : t.remaining + 1 = s.remaining := by
  cases h with
  | spawn h =>
    simp only [State.remaining, h, List.length_cons, Multiset.card_cons]
    omega
  | acquire h _ =>
    simp only [State.remaining, h, Multiset.card_cons]
    omega
  | work _ h =>
    simp only [State.remaining, h, Multiset.card_cons]
    omega
  | release h =>
    simp only [State.remaining, h, Multiset.card_cons]
    omega
  | join _ h =>
    simp only [State.remaining, h, Multiset.card_cons]
    omega

/-- A permit is free or with a task that runs or has just worked. -/
theorem Step.permits (h : Step absorb s a t) : t.permits + t.running.card + t.worked.card
    = s.permits + s.running.card + s.worked.card := by
  cases h with
  | spawn h => rfl
  | acquire h hpermit =>
    simp only [Multiset.card_cons]
    omega
  | work _ h =>
    simp only [h, Multiset.card_cons]
    omega
  | release h =>
    simp only [h, Multiset.card_cons]
    omega
  | join _ h => rfl

/-- Whoever is yet to work has a share. -/
theorem Step.owners (h : Step absorb s a t)
    (hs : s.owners = 1 + s.waiting.card + s.running.card) :
    t.owners = 1 + t.waiting.card + t.running.card := by
  cases h with
  | spawn h =>
    simp only [Multiset.card_cons]
    omega
  | acquire h hpermit =>
    rw [h, Multiset.card_cons] at hs
    simp only [Multiset.card_cons]
    omega
  | work _ h =>
    rw [h, Multiset.card_cons] at hs
    dsimp only
    omega
  | release h => exact hs
  | join _ h => exact hs

/-- The result takes in the outcome, if there is one. -/
theorem Step.result (h : Step absorb s a t) :
    t.result = (outcomes [a]).foldl (fun r o => absorb r o.1 o.2) s.result := by
  cases h <;> rfl

theorem Step.done (h : Step absorb s a t) :
    t.done = s.done + ((outcomes [a]).map Prod.fst : List ι) := by
  cases h with
  | spawn h => exact (Multiset.add_zero _).symm
  | acquire h hpermit => exact (Multiset.add_zero _).symm
  | work outcome h =>
    simp only [State.done, outcomes, Multiset.cons_add, List.filterMap_cons, List.filterMap_nil,
      List.map_cons, List.map_nil, ← Multiset.cons_coe, Multiset.add_cons]
    exact congrArg _ (Multiset.add_zero _).symm
  | release h =>
    simp only [State.done, h, Multiset.cons_add, Multiset.add_cons]
    exact congrArg _ (Multiset.add_zero _).symm
  | join _ h =>
    simp only [State.done, h, Multiset.cons_add, Multiset.add_cons]
    exact congrArg _ (Multiset.add_zero _).symm

/-! ## What holds in every state -/

/-- What holds after any labels: every item is in one place, permits and shares add up, the
result has the outcomes in the order of the work, and the labels account for the steps taken. -/
structure Inv (absorb : ρ → ι → β → ρ) (limit : Nat) (items : List ι) (init : ρ)
    (labels : List (Label ι β)) (s : State ι ρ) : Prop where
  placed : s.placed = items
  permits : s.permits + s.running.card + s.worked.card = limit
  owners : s.owners = 1 + s.waiting.card + s.running.card
  result : s.result = (outcomes labels).foldl (fun r o => absorb r o.1 o.2) init
  done : s.done = ((outcomes labels).map Prod.fst : List ι)
  steps : labels.length + s.remaining = 5 * items.length

theorem inv_init : Inv absorb limit items init [] (.init limit items init) where
  placed := by simp [State.init, State.placed]
  permits := by simp [State.init]
  owners := by simp [State.init]
  result := rfl
  done := by simp [State.init, State.done, outcomes]
  steps := by simp [State.init, State.remaining]

theorem Inv.step (hi : Inv absorb limit items init labels s) (h : Step absorb s a t) :
    Inv absorb limit items init (labels ++ [a]) t where
  placed := h.placed.trans hi.placed
  permits := h.permits.trans hi.permits
  owners := h.owners hi.owners
  result := by rw [h.result, hi.result, outcomes_append, List.foldl_append]
  done := by rw [h.done, hi.done, outcomes_append, List.map_append, Multiset.coe_add]
  steps := by
    have hremaining := h.remaining
    have hsteps := hi.steps
    rw [List.length_append, List.length_singleton]
    omega

theorem Run.inv (h : Lts.Run (Step absorb) (.init limit items init) labels s) :
    Inv absorb limit items init labels s :=
  h.invariant_labels (Inv absorb limit items init) inv_init fun _ hi hstep => hi.step hstep

/-! ## Progress and end -/

theorem Inv.limited (hi : Inv absorb limit items init labels s) :
    s.running.card + s.worked.card ≤ limit := by
  have hpermits := hi.permits
  omega

/-- While steps are left, one can be taken, whatever a task that works makes of its
item. -/
theorem Inv.progress (hi : Inv absorb limit items init labels s) (hlimit : 0 < limit)
    (hleft : s.remaining ≠ 0) (outcome : ι → β) :
    ∃ a t, Step absorb s a t ∧ ∀ i o, a = .work i o → o = outcome i := by
  cases hunspawned : s.unspawned with
  | cons i rest => exact ⟨_, _, .spawn hunspawned, by rintro _ _ ⟨⟩⟩
  | nil =>
    rcases s.running.empty_or_exists_mem with hrunning | ⟨i, hi'⟩
    · rcases s.worked.empty_or_exists_mem with hworked | ⟨i, hi'⟩
      · rcases s.waiting.empty_or_exists_mem with hwaiting | ⟨i, hi'⟩
        · rcases s.ended.empty_or_exists_mem with hended | ⟨i, hi'⟩
          · -- nothing is left
            simp [State.remaining, hunspawned, hrunning, hworked, hwaiting, hended] at hleft
          · obtain ⟨rest, hrest⟩ := Multiset.exists_cons_of_mem hi'
            exact ⟨_, _, .join hunspawned hrest, by rintro _ _ ⟨⟩⟩
        · -- nobody has a permit, so there is one
          obtain ⟨rest, hrest⟩ := Multiset.exists_cons_of_mem hi'
          have hpermits := hi.permits
          rw [hrunning, hworked, Multiset.card_zero] at hpermits
          exact ⟨_, _, .acquire hrest (by omega), by rintro _ _ ⟨⟩⟩
      · obtain ⟨rest, hrest⟩ := Multiset.exists_cons_of_mem hi'
        exact ⟨_, _, .release hrest, by rintro _ _ ⟨⟩⟩
    · obtain ⟨rest, hrest⟩ := Multiset.exists_cons_of_mem hi'
      exact ⟨_, _, .work (outcome i) hrest, by rintro _ _ ⟨⟩; rfl⟩

/-- At the end every item was worked on once, all permits are back, and only the spawning
thread has a share in the result. -/
theorem Inv.finished (hi : Inv absorb limit items init labels s) (hend : s.remaining = 0) :
    ((outcomes labels).map Prod.fst).Perm items ∧ s.permits = limit ∧ s.owners = 1 := by
  have hcounts : s.unspawned.length = 0 ∧ s.waiting.card = 0 ∧ s.running.card = 0 ∧
      s.worked.card = 0 ∧ s.ended.card = 0 := by
    rw [State.remaining] at hend
    omega
  obtain ⟨hunspawned, hwaiting, hrunning, hworked, hended⟩ := hcounts
  have hplaced := hi.placed
  have hdone := hi.done
  have hpermits := hi.permits
  have howners := hi.owners
  rw [Multiset.card_eq_zero] at hwaiting hrunning hworked hended
  rw [List.length_eq_zero_iff] at hunspawned
  rw [State.placed, hunspawned, hwaiting, hrunning, hworked, hended, Multiset.coe_nil] at hplaced
  rw [State.done, hworked, hended] at hdone
  rw [hrunning, hworked, Multiset.card_zero] at hpermits
  rw [hwaiting, hrunning, Multiset.card_zero] at howners
  refine ⟨Multiset.coe_eq_coe.mp ?_, by omega, by omega⟩
  rw [← hdone, ← hplaced]
  simp only [Multiset.zero_add]

end TaskPool
