import Mathlib.Data.List.Sublists
import Mathlib.Logic.Function.Basic
import Gannet.Lib.Run

/-!
# Copies of a shared cell

Processes read the value of a cell, work on their copies and write them back, without a
lock: a process overwrites whatever was written since it read the cell. The cell may
also fall back to its first value, before a write or instead of one.

`Run.outcome`: in any interleaving of any number of processes, the cell and every copy
are what some of the calls made so far lead to, in their order. Calls get lost, but none
is made up, doubled or moved before another.
-/

namespace SharedCell

open Function Lts

variable {ι V α : Type} {move : V → α → V → Prop} {init v : V} {ops ops' : List α}

/-! ## The system -/

/-- The cell, and the copy of each process that has read it. -/
structure State (ι V : Type) where
  cell : V
  copy : ι → Option V

/-- No process has read the cell. -/
def State.start (init : V) : State ι V := ⟨init, fun _ => none⟩

/-- What a process does to the cell or to its copy. -/
inductive Action (ι α : Type) where
  | read (i : ι)
  | call (i : ι) (op : α)
  | reset
  | write (i : ι)
  | drop (i : ι)

/-- A process reads the cell, calls an operation on its copy, or writes it back. The cell may be
reset, and a write may be spoilt, which resets it too. -/
inductive Step [DecidableEq ι] (move : V → α → V → Prop) (init : V) (s : State ι V) :
    Action ι α → State ι V → Prop where
  | read (i : ι) : Step move init s (.read i) { s with copy := update s.copy i (some s.cell) }
  | call {i : ι} {v w : V} {op : α} (h : s.copy i = some v) (hop : move v op w) :
      Step move init s (.call i op) { s with copy := update s.copy i (some w) }
  | reset : Step move init s .reset { s with cell := init }
  | write {i : ι} {v : V} (h : s.copy i = some v) :
      Step move init s (.write i) { s with cell := v }
  /-- Another write came in between. -/
  | spoil (i : ι) : Step move init s (.write i) { s with cell := init }
  | drop (i : ι) : Step move init s (.drop i) { s with copy := update s.copy i none }

/-- The calls among some actions, of all processes. -/
def calls (as : List (Action ι α)) : List α :=
  as.filterMap fun
    | .call _ op => some op
    | _ => none

/-! ## Outcomes -/

/-- Some of the calls, in their order, lead to the value. -/
def Outcome (move : V → α → V → Prop) (init : V) (ops : List α) (v : V) : Prop :=
  ∃ ops', ops'.Sublist ops ∧ Run move init ops' v

theorem outcome_init (ops : List α) : Outcome move init ops init :=
  ⟨[], List.nil_sublist ops, .nil⟩

theorem Outcome.mono (h : Outcome move init ops v) (hsub : ops.Sublist ops') :
    Outcome move init ops' v := by
  obtain ⟨some, hsome, hrun⟩ := h
  exact ⟨some, hsome.trans hsub, hrun⟩

theorem Outcome.call {w : V} {op : α} (h : Outcome move init ops v) (hop : move v op w) :
    Outcome move init (ops ++ [op]) w := by
  obtain ⟨some, hsome, hrun⟩ := h
  exact ⟨some ++ [op], hsome.append (List.Sublist.refl [op]), hrun.snoc hop⟩

/-- The cell and all copies are outcomes of the calls. -/
structure Sound (move : V → α → V → Prop) (init : V) (ops : List α) (s : State ι V) : Prop where
  cell : Outcome move init ops s.cell
  copy : ∀ i v, s.copy i = some v → Outcome move init ops v

theorem sound_start : Sound move init [] (State.start init : State ι V) where
  cell := outcome_init []
  copy _ _ h := nomatch h

theorem Sound.mono {s : State ι V} (h : Sound move init ops s) (hsub : ops.Sublist ops') :
    Sound move init ops' s where
  cell := h.cell.mono hsub
  copy i v hv := (h.copy i v hv).mono hsub

theorem calls_append (as bs : List (Action ι α)) : calls (as ++ bs) = calls as ++ calls bs :=
  List.filterMap_append

variable [DecidableEq ι] {s t : State ι V} {a : Action ι α} {as : List (Action ι α)}

/-- A copy that is replaced. -/
theorem Sound.update (h : Sound move init ops s) {i : ι} {copy : Option V}
    (hcopy : ∀ v ∈ copy, Outcome move init ops v) :
    Sound move init ops { s with copy := update s.copy i copy } where
  cell := h.cell
  copy j v hv := by
    by_cases hj : j = i
    · subst hj
      have hself : Function.update s.copy j copy j = copy := update_self ..
      exact hcopy v (hself.symm.trans hv)
    · have hother : Function.update s.copy i copy j = s.copy j := update_of_ne hj ..
      exact h.copy j v (hother.symm.trans hv)

/-- One action. -/
theorem Sound.step (h : Sound move init ops s) (hs : Step move init s a t) :
    Sound move init (ops ++ calls [a]) t := by
  have hsub : ops.Sublist (ops ++ calls [a]) := List.sublist_append_left ops _
  cases hs with
  | read i =>
    refine (h.mono hsub).update fun v hv => ?_
    obtain rfl := Option.some.inj hv
    exact h.cell.mono hsub
  | call hcopy hop =>
    refine (h.mono hsub).update fun v hv => ?_
    obtain rfl := Option.some.inj hv
    exact (h.copy _ _ hcopy).call hop
  | reset => exact ⟨outcome_init _, (h.mono hsub).copy⟩
  | write hcopy => exact ⟨(h.copy _ _ hcopy).mono hsub, (h.mono hsub).copy⟩
  | spoil i => exact ⟨outcome_init _, (h.mono hsub).copy⟩
  | drop i => exact (h.mono hsub).update fun v hv => nomatch hv

/-- **No interleaving makes up a value**: the cell and all copies are outcomes of the
calls so far. -/
theorem Run.outcome (h : Run (Step move init) (State.start init) as s) :
    Sound move init (calls as) s := by
  refine h.invariant_labels (fun as s => Sound move init (calls as) s) sound_start ?_
  intro as a s t _ hsound hstep
  rw [calls_append]
  exact hsound.step hstep

end SharedCell
