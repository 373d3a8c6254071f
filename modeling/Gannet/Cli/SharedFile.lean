import Gannet.Identity.StoreDisk
import Gannet.Lib.SharedCell

/-!
# Any number of processes on one registry file (store.rs, commands.rs)

Every command loads the registry, makes its calls on a copy in memory and saves the
copy: `listen` after each call, the others once at most. Nothing keeps the processes of
several commands apart. A save truncates the file and then writes its text in one piece;
others may load or save the file in between. A process may be stopped at any time. If
that happens while it writes, a part of its text may be in the file; where another
process has written since the truncation, that case is left out.

The file is a `SharedCell` (`Run.view`). So the registry on disk and those in memory are
what some of the calls made so far lead to, in their order, and each of them satisfies the
invariant of the registry, whatever is lost (`interleaved_represented`).
-/

namespace Gannet.SharedFile

open Function KeyMap Store

variable {ι : Type}

/-! ## The processes -/

/-- A process, by its registry in memory. -/
inductive Process where
  | stopped
  | working (store : Store)
  /-- The file is truncated, the text not yet written. -/
  | saving (store : Store)

/-- The registry in memory, if the process runs. -/
def Process.store : Process → Option Store
  | stopped => none
  | working store => some store
  | saving store => some store

/-- The file, and what every process has in memory. -/
structure State (ι : Type) where
  file : File
  process : ι → Process

/-- No process runs, and there is no file yet. -/
def State.init : State ι := ⟨none, fun _ => .stopped⟩

/-- What a process does next. -/
inductive Action (ι : Type) where
  | load (i : ι)
  | call (i : ι) (op : Op)
  | truncate (i : ι)
  | write (i : ι)
  /-- Stopped when `n` bytes of the text are written. -/
  | cut (i : ι) (n : Nat)
  | stop (i : ι)

/-- The calls on the registries in memory. -/
def calls (as : List (Action ι)) : List Op :=
  as.filterMap fun
    | .call _ op => some op
    | _ => none

/-- The file and one process replaced. -/
def State.set [DecidableEq ι] (s : State ι) (file : File) (i : ι) (p : Process) : State ι where
  file := file
  process := update s.process i p

/-- A step of one process. A process is cut short in its write only while the file is still
empty: where another has written since it was truncated, parts of two texts would be mixed,
and that case is left out. -/
inductive Step [DecidableEq ι] (s : State ι) : Action ι → State ι → Prop where
  | load {i : ι} (h : s.process i = .stopped) :
      Step s (.load i) (s.set s.file i (.working (load serdeJson s.file)))
  | call {i : ι} {store store' : Store} {op : Op} (h : s.process i = .working store)
      (hclock : op.Clocked) (hop : Store.Step store op store') :
      Step s (.call i op) (s.set s.file i (.working store'))
  | truncate {i : ι} {store : Store} (h : s.process i = .working store) :
      Step s (.truncate i) (s.set (some []) i (.saving store))
  | write {i : ι} {store : Store} (h : s.process i = .saving store) :
      Step s (.write i)
        (s.set (some (overwrite (store.bytes serdeJson) (s.file.getD []))) i (.working store))
  | cut {i : ι} {store : Store} (n : Nat) (h : s.process i = .saving store)
      (hfile : s.file = some []) :
      Step s (.cut i n) (s.set (some ((store.bytes serdeJson).take n)) i .stopped)
  | stop (i : ι) : Step s (.stop i) (s.set s.file i .stopped)

/-! ## Runs of calls -/

/-- A call, on the records of a registry. -/
def Moves (c : Contents) (op : Op) (c' : Contents) : Prop :=
  op.Clocked ∧ ∃ s t : Store, s.contents = c ∧ Store.Step s op t ∧ t.contents = c'

variable {store : Store} {ops : List Op} {c : Contents}

/-- Calls on the records are calls on a registry. -/
theorem reaches_of_moves (h : Lts.Run Moves Store.empty.contents ops c) :
    (∀ op ∈ ops, op.Clocked) ∧ ∃ s, Reaches ops s ∧ s.contents = c := by
  induction h with
  | nil => exact ⟨List.forall_mem_nil _, Store.empty, .nil, rfl⟩
  | @snoc ops op c c' _ hmove ih =>
    obtain ⟨hops, s, hreach, hs⟩ := ih
    obtain ⟨hclock, u, t, hu, ⟨u', hu', ht⟩, hc'⟩ := hmove
    have hsame : SameEntries s.records u'.records := by
      refine sameEntries_iff.mpr ?_
      exact hs.trans (hu.symm.trans (sameEntries_iff.mp hu'))
    refine ⟨?_, t, hreach.snoc ⟨u', hsame, ht⟩, hc'⟩
    exact List.forall_mem_append.mpr ⟨hops, List.forall_mem_singleton.mpr hclock⟩

/-- What is in memory has 64-bit times. -/
theorem timed_of_outcome (h : SharedCell.Outcome Moves Store.empty.contents ops store.contents) :
    store.Timed := by
  obtain ⟨some, -, hrun⟩ := h
  obtain ⟨hops, s, hreach, hs⟩ := reaches_of_moves hrun
  exact timed_congr (hreach.timed hops) hs

/-! ## The file as a cell -/

/-- The cell that the file is: its value is what would be loaded. -/
abbrev Cell (ι : Type) := SharedCell.State ι Contents

/-- The file and the registries in memory, as contents. -/
def State.view (s : State ι) : Cell ι where
  cell := (load serdeJson s.file).contents
  copy i := (s.process i).store.map Store.contents

/-- The steps on the cell that a step on the file stands for. -/
def labels : Action ι → List (SharedCell.Action ι Op)
  | .load i => [.read i]
  | .call i op => [.call i op]
  | .truncate _ => [.reset]
  | .write i => [.write i]
  | .cut i _ => [.write i, .drop i]
  | .stop i => [.drop i]

variable {s t : State ι} {i : ι} {p : Process} {a : Action ι} {as : List (Action ι)}

theorem calls_labels (as : List (Action ι)) :
    SharedCell.calls (as.flatMap labels) = calls as := by
  induction as with
  | nil => rfl
  | cons a as ih =>
    rw [List.flatMap_cons, SharedCell.calls_append, ih]
    cases a <;> rfl

theorem copy_of_process (h : s.process i = p) :
    s.view.copy i = p.store.map Store.contents :=
  congrArg (fun p : Process => p.store.map Store.contents) h

variable [DecidableEq ι]

/-- What the cell's processes see of a step on the file. -/
theorem view_set (s : State ι) (file : File) (i : ι) (p : Process) : (s.set file i p).view
    = ⟨(load serdeJson file).contents,
        update s.view.copy i (p.store.map Store.contents)⟩ := by
  refine congrArg (SharedCell.State.mk _) (funext fun j => ?_)
  show (update s.process i p j).store.map Store.contents = _
  by_cases hj : j = i
  · subst hj
    rw [update_self, update_self]
  · rw [update_of_ne hj, update_of_ne hj]
    rfl

/-- A save leaves its process's copy as it is. -/
theorem view_set_same (h : (s.process i).store = p.store) (file : File) :
    (s.set file i p).view = { s.view with cell := (load serdeJson file).contents } := by
  have hcopy : s.view.copy i = p.store.map Store.contents := congrArg (Option.map _) h
  rw [view_set, ← hcopy, update_eq_self]

/-! ## The processes on the cell -/

/-- A step of the processes is a step of theirs on the cell, or two. -/
theorem Step.view (h : Step s a t)
    (htimed : ∀ i store, (s.process i).store = some store → store.Timed) :
    Lts.Run (SharedCell.Step Moves Store.empty.contents) s.view (labels a) t.view := by
  cases h with
  | load h =>
    rw [view_set]
    exact .single (.read _)
  | call h hclock hop =>
    rw [view_set]
    exact .single (.call (copy_of_process h) ⟨hclock, _, _, rfl, hop, rfl⟩)
  | @truncate i store h =>
    have hkeep : (s.process i).store = (Process.saving store).store := by
      rw [h]
      rfl
    rw [view_set_same hkeep, load_truncated]
    exact .single .reset
  | @write i store h =>
    have hkeep : (s.process i).store = (Process.working store).store := by
      rw [h]
      rfl
    have hcopy := copy_of_process h
    have hstore : store.Timed := htimed i store hkeep
    rw [view_set_same hkeep]
    rcases load_overwritten hstore (s.file.getD []) with hload | hload
    · rw [hload]
      exact .single (.write hcopy)
    · rw [hload]
      exact .single (.spoil i)
  | @cut i store n h hfile =>
    have hcopy := copy_of_process h
    have hstore : store.Timed := htimed i store (congrArg Process.store h)
    rw [view_set]
    by_cases hn : n < (store.bytes serdeJson).length
    · rw [load_torn hstore hn]
      exact .cons (.spoil i) (.single (.drop i))
    · have hsaved := load_saved hstore
      rw [save] at hsaved
      rw [List.take_of_length_le (Nat.le_of_not_lt hn), hsaved]
      exact .cons (.write hcopy) (.single (.drop i))
  | stop i =>
    rw [view_set]
    exact .single (.drop i)

/-- **Simulation**: a run on the file is a run on the cell. -/
theorem Run.view (h : Lts.Run Step (State.init : State ι) as s) :
    Lts.Run (SharedCell.Step Moves Store.empty.contents)
      (SharedCell.State.start Store.empty.contents) (as.flatMap labels) s.view := by
  refine h.simulate State.view labels fun {bs b t u} _ hcell hstep => hstep.view ?_
  intro i store hstore
  have hcopy : t.view.copy i = some store.contents := congrArg (Option.map Store.contents) hstore
  exact timed_of_outcome ((SharedCell.Run.outcome hcell).copy i _ hcopy)

/-! ## What holds in any interleaving -/

/-- Some of the calls, in their order, lead to these records. -/
def Outcome (ops : List Op) (store : Store) : Prop :=
  ∃ ops' s, ops'.Sublist ops ∧ Reaches ops' s ∧ s.contents = store.contents

/-- An outcome of the cell's calls is one of the registry's. -/
theorem outcome_of_cell
    (h : SharedCell.Outcome Moves Store.empty.contents ops store.contents) :
    Outcome ops store := by
  obtain ⟨ops', hsub, hrun⟩ := h
  obtain ⟨-, s, hreach, hs⟩ := reaches_of_moves hrun
  exact ⟨ops', s, hsub, hreach, hs⟩

/-- The registry on disk and every registry in memory are outcomes of the calls. -/
theorem Run.outcome (h : Lts.Run Step (State.init : State ι) as s) :
    Outcome (calls as) (load serdeJson s.file) ∧
      ∀ i store, (s.process i).store = some store → Outcome (calls as) store := by
  have hsound := SharedCell.Run.outcome (Run.view h)
  rw [calls_labels] at hsound
  refine ⟨outcome_of_cell hsound.cell, fun i store hstore => ?_⟩
  exact outcome_of_cell (hsound.copy i _ (congrArg (Option.map Store.contents) hstore))

/-- The invariant of the registry, and a tag on every record. -/
structure Represented (store : Store) : Prop where
  coherent : ∀ k r, store.contents k = some r → r.Coherent k
  tagged : ∀ k r, store.contents k = some r → r.tag ≠ none
  mac_unique : ∀ k₁ k₂ r₁ r₂ text, store.contents k₁ = some r₁ → store.contents k₂ = some r₂ →
    r₁.mac = some text → r₂.mac = some text → k₁ = k₂ ∧ r₁ = r₂

/-- Whatever processes share the file, what they have in memory keeps the invariant. -/
theorem Outcome.invariant (h : Outcome ops store)
    (hclock : (clocks ops).Pairwise (· ≤ ·)) (hfew : (clocks ops).length < UInt32.size) :
    Represented store := by
  obtain ⟨ops', s, hsub, hreach, hs⟩ := h
  have hsub' : (clocks ops').Sublist (clocks ops) := hsub.filterMap _
  have hw := hreach.wellFormed
  have hdated := hreach.dated (hclock.sublist hsub')
  have hcounted := hreach.counted (Nat.lt_of_le_of_lt hsub'.length_le hfew)
  constructor
  · intro k r hk
    exact hw.coherent hdated hcounted (hs ▸ hk)
  · intro k r hk
    exact hreach.tagged (hs ▸ hk)
  · intro k₁ k₂ r₁ r₂ text h₁ h₂
    rw [hs] at hw
    exact hw.mac_unique h₁ h₂

/-- **Any interleaving**: the registry on disk and every registry in memory are what some
of the calls made so far lead to, in their order. With clocks that do not go back and
fewer than 2³² sightings they satisfy the invariant. -/
theorem interleaved_represented (h : Lts.Run Step (State.init : State ι) as s)
    (hclock : (clocks (calls as)).Pairwise (· ≤ ·))
    (hfew : (clocks (calls as)).length < UInt32.size) :
    (Outcome (calls as) (load serdeJson s.file) ∧ Represented (load serdeJson s.file)) ∧
      ∀ i store, (s.process i).store = some store →
        Outcome (calls as) store ∧ Represented store := by
  obtain ⟨hfile, hmemory⟩ := Run.outcome h
  refine ⟨⟨hfile, hfile.invariant hclock hfew⟩, fun i store hstore => ?_⟩
  have houtcome := hmemory i store hstore
  exact ⟨houtcome, houtcome.invariant hclock hfew⟩

/-- Two processes load the missing file, see one device each and save at the same time. -/
theorem interleaved_two :
    ∃ (as : List (Action Bool)) (s : State Bool), Lts.Run Step State.init as s ∧
      calls as = [.sweep desk 0, .arp sofa phone 1] ∧ Represented (load serdeJson s.file) := by
  have hload : Lts.Run Step (State.init : State Bool) [.load false, .load true] _ :=
    .cons (.load rfl) (.single (.load rfl))
  have hclock₀ : (Op.sweep desk 0).Clocked := show 0 < 2 ^ 64 by decide
  have hclock₁ : (Op.arp sofa phone 1).Clocked := show 1 < 2 ^ 64 by decide
  have hdesk := hload.snoc (.call (i := false) rfl hclock₀ (step_apply _ _))
  have hsofa := hdesk.snoc (.call (i := true) rfl hclock₁ (step_apply _ _))
  have htruncate := (hsofa.snoc (.truncate (i := false) rfl)).snoc (.truncate (i := true) rfl)
  have hwrite := (htruncate.snoc (.write (i := true) rfl)).snoc (.write (i := false) rfl)
  exact ⟨_, _, hwrite, rfl, (interleaved_represented hwrite (by decide) (by decide)).1.2⟩

end Gannet.SharedFile
