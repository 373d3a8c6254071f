import Gannet.Cli.Commands
import Gannet.Cli.SharedFile

/-!
# A command as one process (commands.rs)

`Runs` is a command from file to file, `SharedFile` any number of processes step by step.
`Runs.alone`: a command that has the file for itself takes the steps of one process, with
the same calls, and leaves the same file. So what holds in any interleaving holds of the
commands.
-/

namespace Gannet.Commands

open KeyMap Store
open SharedFile (Process State)

variable {ι : Type} {i : ι} {s t t' : Store} {ops : List Op} {file file' : File} {cmd : Command}
  {ouiTable : UInt32 → Option String}

/-- The calls of a process that only works. -/
theorem calls_work (ops : List Op) : SharedFile.calls (ops.map (.call i)) = ops := by
  induction ops with
  | nil => rfl
  | cons op ops ih => exact congrArg (op :: ·) ih

/-- The calls of a process that saves after each of them. -/
theorem calls_work_saving (ops : List Op) : SharedFile.calls
    (ops.flatMap fun op => [.call i op, .truncate i, .write i]) = ops := by
  induction ops with
  | nil => rfl
  | cons op ops ih => exact congrArg (op :: ·) ih

variable [DecidableEq ι] {σ : State ι}

theorem set_set (σ : State ι) (file file' : File) (i : ι) (p p' : Process) :
    (σ.set file i p).set file' i p' = σ.set file' i p' := by
  rw [State.set, State.set, State.set, Function.update_idem]

theorem set_process (σ : State ι) (file : File) (i : ι) (p : Process) :
    (σ.set file i p).process i = p :=
  Function.update_self ..

theorem set_self (σ : State ι) (i : ι) : σ.set σ.file i (σ.process i) = σ := by
  rw [State.set, Function.update_eq_self]

/-- A process makes its calls while the file stays as it is. -/
theorem work (hrun : Lts.Run Store.Step s ops t) (hclock : ∀ op ∈ ops, op.Clocked)
    (hi : σ.process i = .working s) :
    Lts.Run SharedFile.Step σ (ops.map (.call i)) (σ.set σ.file i (.working t)) := by
  induction hrun with
  | nil =>
    rw [← hi, set_self]
    exact .nil
  | @snoc ops op t u _ hstep ih =>
    rw [List.forall_mem_append, List.forall_mem_singleton] at hclock
    have hcall := (ih hclock.1).snoc (.call (set_process ..) hclock.2 hstep)
    rw [set_set] at hcall
    rw [List.map_append]
    exact hcall

/-- A save that nobody interrupts. -/
theorem save_file (hi : σ.process i = .working s) :
    Lts.Run SharedFile.Step σ [.truncate i, .write i]
      (σ.set (s.save serdeJson) i (.working s)) := by
  have htruncate := Lts.Run.single (SharedFile.Step.truncate hi)
  have hwrite := htruncate.snoc (.write (set_process ..))
  rw [set_set] at hwrite
  have hbytes : overwrite (s.bytes serdeJson)
      ((σ.set (some []) i (.saving s)).file.getD []) = s.bytes serdeJson := overwrite_nil _
  rw [hbytes] at hwrite
  exact hwrite

/-- A call and a save, time and again. -/
theorem work_saving (hrun : Lts.Run Store.Step s ops t) (hclock : ∀ op ∈ ops, op.Clocked)
    (hi : σ.process i = .working s) :
    Lts.Run SharedFile.Step σ (ops.flatMap fun op => [.call i op, .truncate i, .write i])
      (σ.set (if ops = [] then σ.file else t.save serdeJson) i (.working t)) := by
  induction hrun with
  | nil =>
    rw [if_pos rfl, ← hi, set_self]
    exact .nil
  | @snoc ops op t u _ hstep ih =>
    rw [List.forall_mem_append, List.forall_mem_singleton] at hclock
    have hcall := (ih hclock.1).snoc (.call (set_process ..) hclock.2 hstep)
    rw [set_set] at hcall
    have hsave := hcall.append (save_file (set_process ..))
    rw [set_set, List.append_assoc] at hsave
    rw [List.flatMap_append, List.flatMap_singleton,
      if_neg (List.append_ne_nil_of_right_ne_nil _ (List.cons_ne_nil _ _))]
    exact hsave

/-- What a process does between its load and its end. -/
theorem load_stop {as : List (SharedFile.Action ι)} (hi : σ.process i = .stopped)
    (h : Lts.Run SharedFile.Step (σ.set σ.file i (.working (load serdeJson σ.file))) as
      (σ.set file' i (.working t))) :
    ∃ as', Lts.Run SharedFile.Step σ as' (σ.set file' i .stopped) ∧
      SharedFile.calls as' = SharedFile.calls as := by
  have hstop := (h.cons (.load hi)).snoc (.stop i)
  rw [set_set] at hstop
  refine ⟨_, hstop, ?_⟩
  rw [SharedFile.calls, List.filterMap_append]
  exact List.append_nil _

/-- A process that runs alone from load to stop and saves nothing. -/
theorem alone_unsaved (hi : σ.process i = .stopped) (hclock : ∀ op ∈ ops, op.Clocked)
    (hrun : Lts.Run Store.Step (load serdeJson σ.file) ops t) :
    ∃ as, Lts.Run SharedFile.Step σ as (σ.set σ.file i .stopped) ∧ SharedFile.calls as = ops := by
  have hwork := work hrun hclock (set_process σ σ.file i (.working (load serdeJson σ.file)))
  rw [set_set] at hwork
  obtain ⟨as, has, hcalls⟩ := load_stop hi hwork
  exact ⟨as, has, hcalls.trans (calls_work ops)⟩

/-- A process that runs alone from load to stop and saves at its end. -/
theorem alone_saved (hi : σ.process i = .stopped) (hclock : ∀ op ∈ ops, op.Clocked)
    (hrun : Lts.Run Store.Step (load serdeJson σ.file) ops t) :
    ∃ as, Lts.Run SharedFile.Step σ as (σ.set (t.save serdeJson) i .stopped) ∧
      SharedFile.calls as = ops := by
  have hwork := work hrun hclock (set_process σ σ.file i (.working (load serdeJson σ.file)))
  have hsave := hwork.append (save_file (set_process ..))
  rw [set_set, set_set] at hsave
  obtain ⟨as, has, hcalls⟩ := load_stop hi hsave
  refine ⟨as, has, hcalls.trans ?_⟩
  rw [SharedFile.calls, List.filterMap_append]
  exact (List.append_nil _).trans (calls_work ops)

/-- **One process**: a command that runs alone takes the steps of a process. -/
theorem Runs.alone (h : Runs ouiTable σ.file cmd file')
    (hclock : ∀ op ∈ cmd.calls ouiTable, op.Clocked) (hi : σ.process i = .stopped) :
    ∃ as, Lts.Run SharedFile.Step σ as (σ.set file' i .stopped) ∧
      SharedFile.calls as = cmd.calls ouiTable := by
  obtain ⟨t, hrun, hfile⟩ := h.outcome
  rcases hfile with ⟨rfl, -⟩ | rfl
  · exact alone_unsaved hi hclock hrun
  cases cmd with
  | scan results hashing clock => exact alone_saved hi hclock hrun
  | survey subnets clock => exact alone_saved hi hclock hrun
  | listen cfg events =>
    by_cases hnocall : (Command.listen cfg events).calls ouiTable = []
    · exact alone_saved hi hclock hrun
    · have hwork := work_saving hrun hclock
        (set_process σ σ.file i (.working (load serdeJson σ.file)))
      rw [set_set, if_neg hnocall] at hwork
      obtain ⟨as, has, hcalls⟩ := load_stop hi hwork
      exact ⟨as, has, hcalls.trans (calls_work_saving _)⟩
  | tag ip text => exact alone_saved hi hclock hrun
  | list => exact alone_saved hi hclock hrun

/-- **Sessions**: commands that run one after the other, from no file on, are one way for
a process to run, and nothing is lost: the file has what all their calls lead to, in their
order. -/
theorem session_keeps_all {cmds : List Command} (h : Lts.Run (Runs ouiTable) none cmds file)
    (hclock : ∀ op ∈ cmds.flatMap (Command.calls ouiTable), op.Clocked) :
    ∃ as : List (SharedFile.Action Unit),
      Lts.Run SharedFile.Step State.init as ⟨file, fun _ => .stopped⟩ ∧
        SharedFile.calls as = cmds.flatMap (Command.calls ouiTable) ∧
        ∃ s, Reaches (SharedFile.calls as) s ∧ s.contents = (load serdeJson file).contents := by
  have hone : ∃ as : List (SharedFile.Action Unit),
      Lts.Run SharedFile.Step State.init as ⟨file, fun _ => .stopped⟩ ∧
        SharedFile.calls as = cmds.flatMap (Command.calls ouiTable) := by
    refine h.invariant_labels (fun cmds file =>
      (∀ op ∈ cmds.flatMap (Command.calls ouiTable), op.Clocked) →
        ∃ as : List (SharedFile.Action Unit),
          Lts.Run SharedFile.Step State.init as ⟨file, fun _ => .stopped⟩ ∧
            SharedFile.calls as = cmds.flatMap (Command.calls ouiTable)) ?_ ?_ hclock
    · exact fun _ => ⟨[], .nil, rfl⟩
    · intro cmds cmd file file' _ ih hstep hclock
      rw [List.flatMap_append, List.flatMap_singleton, List.forall_mem_append] at hclock
      obtain ⟨as, hrun, hcalls⟩ := ih hclock.1
      obtain ⟨bs, hrun', hcalls'⟩ :=
        Runs.alone (σ := ⟨file, fun _ => .stopped⟩) (i := ()) hstep hclock.2 rfl
      refine ⟨as ++ bs, hrun.append hrun', ?_⟩
      rw [List.flatMap_append, List.flatMap_singleton, ← hcalls, ← hcalls']
      exact List.filterMap_append
  obtain ⟨as, hrun, hcalls⟩ := hone
  obtain ⟨s, hreach, hs⟩ := Run.holds h hclock
  exact ⟨as, hrun, hcalls, s, hcalls ▸ hreach, hs⟩

/-- A scan, and then a tag for what it found. -/
theorem session_keeps_desk :
    ∃ (file : File) (as : List (SharedFile.Action Unit)) (s : Store),
      Lts.Run (Runs fun _ => none) none [deskScan, .tag "192.168.1.10" "printer"] file ∧
        Reaches (SharedFile.calls as) s ∧ s.contents = (load serdeJson file).contents := by
  have hscan : Runs (fun _ => none) none deskScan _ := .scan _ _ _
  have hrun := (Lts.Run.single hscan).snoc (.tag "192.168.1.10" "printer")
  obtain ⟨as, -, -, s, hreach, hs⟩ := session_keeps_all hrun deskSession_clocked
  exact ⟨_, as, s, hrun, hreach, hs⟩

end Gannet.Commands
