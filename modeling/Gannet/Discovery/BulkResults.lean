import Gannet.Discovery.OsGuess
import Gannet.Discovery.ScanServices

/-!
# Collecting the results of many tasks (fingerprint.rs, mdns.rs)

`probe_bulk` and `resolve_bulk` spawn one task for every target and take the results
as the tasks finish, in whatever order that is. The loop goes on while a task brings
a value: the first one that ends in an error ends the loop, and dropping the set
aborts the tasks that are left.

`bulk_results_iff`: every target with a value gets its entry iff every such target
has a value from before the first error.
-/

namespace Gannet

open KeyMap Mdns

/-! ## The code -/

/-- How a task can end without a value. -/
inductive JoinError where
  | panicked
  | cancelled
deriving DecidableEq, Repr

/-- What `join_next` brings, one task after the other. -/
abbrev Finished (ν : Type) := List (Except JoinError (Ipv4Addr × ν))

/-- `while let Some(Ok((ip, result))) = set.join_next().await { .. }`; `keep` is what
is inserted for a result. -/
def collectResults {ν μ : Type} (keep : ν → Option μ) (results : Map Ipv4Addr μ) :
    Finished ν → Map Ipv4Addr μ
  | [] => results
  | .error _ :: _ => results
  | .ok (ip, result) :: finished =>
    match keep result with
    | some kept => collectResults keep (results.insert ip kept) finished
    | none => collectResults keep results finished

/-- `probe_bulk` of the module `raw`. -/
def Fingerprint.Raw.probeBulk (finished : Finished (Option Fingerprint.Result)) :
    Map Ipv4Addr (Option Fingerprint.Result) :=
  collectResults some ∅ finished

/-- `probe_bulk` of the module `ttl_only`, the same loop. -/
def Fingerprint.TtlOnly.probeBulk (finished : Finished (Option Fingerprint.Result)) :
    Map Ipv4Addr (Option Fingerprint.Result) :=
  collectResults some ∅ finished

/-- `resolve_bulk`: only hosts with a result get an entry. -/
def Mdns.resolveBulk (finished : Finished (Option MdnsResult)) : Map Ipv4Addr MdnsResult :=
  collectResults id ∅ finished

/-! ## What is collected -/

/-- The results that come before the first error. -/
def beforeError {ν : Type} : Finished ν → List (Ipv4Addr × ν)
  | .ok result :: finished => result :: beforeError finished
  | _ => []

variable {ν μ : Type} {keep : ν → Option μ} {ip : Ipv4Addr}

/-- A map has an entry for the addresses it had, and for those with a result worth
keeping before the first error. -/
theorem mem_collectResults (results : Map Ipv4Addr μ) (finished : Finished ν) :
    ip ∈ collectResults keep results finished ↔
      ip ∈ results ∨ ∃ v r, (ip, v) ∈ beforeError finished ∧ keep v = some r := by
  induction finished generalizing results with
  | nil => simp [collectResults, beforeError]
  | cons task finished ih =>
    cases task with
    | error e => simp [collectResults, beforeError]
    | ok result =>
      obtain ⟨ip', v⟩ := result
      rw [collectResults, beforeError]
      cases hkeep : keep v with
      | none =>
        dsimp only
        rw [ih]
        refine or_congr_right ⟨?_, ?_⟩
        · rintro ⟨v', r, hmem, hr⟩
          exact ⟨v', r, List.mem_cons_of_mem _ hmem, hr⟩
        · rintro ⟨v', r, hmem, hr⟩
          rcases List.mem_cons.mp hmem with heq | hmem
          · obtain ⟨-, rfl⟩ := Prod.mk.inj heq
            exact nomatch hkeep.symm.trans hr
          · exact ⟨v', r, hmem, hr⟩
      | some kept =>
        dsimp only
        rw [ih, AList.mem_insert]
        constructor
        · rintro ((rfl | hmem) | ⟨v', r, hmem, hr⟩)
          · exact .inr ⟨v, kept, List.mem_cons_self, hkeep⟩
          · exact .inl hmem
          · exact .inr ⟨v', r, List.mem_cons_of_mem _ hmem, hr⟩
        · rintro (hmem | ⟨v', r, hmem, hr⟩)
          · exact .inl (.inr hmem)
          · rcases List.mem_cons.mp hmem with heq | hmem
            · exact .inl (.inl (Prod.mk.inj heq).1)
            · exact .inr ⟨v', r, hmem, hr⟩

/-! ## One task per target -/

/-- The tasks of a call, each with its target, in the order in which they finish. -/
structure BulkRun (targets : List Ipv4Addr) (ν : Type) where
  tasks : List (Ipv4Addr × Except JoinError ν)
  perm : (tasks.map Prod.fst).Perm targets

namespace BulkRun

variable {targets : List Ipv4Addr}

/-- What `join_next` brings in this run; an error does not say whose it is. -/
def finished (run : BulkRun targets ν) : Finished ν :=
  run.tasks.map fun task => task.2.map fun v => (task.1, v)

/-- The target has a task with a result worth keeping. -/
def HasValue (run : BulkRun targets ν) (keep : ν → Option μ) (ip : Ipv4Addr) : Prop :=
  ∃ v r, (ip, .ok v) ∈ run.tasks ∧ keep v = some r

/-- It has one among the tasks that finish before the first error. -/
def HasEarlyValue (run : BulkRun targets ν) (keep : ν → Option μ) (ip : Ipv4Addr) : Prop :=
  ∃ v r, (ip, .ok v) ∈ run.tasks.takeWhile (fun task => task.2.isOk) ∧ keep v = some r

theorem mem_beforeError {tasks : List (Ipv4Addr × Except JoinError ν)} {v : ν} :
    (ip, v) ∈ beforeError (tasks.map fun task => task.2.map fun v => (task.1, v)) ↔
      (ip, .ok v) ∈ tasks.takeWhile fun task => task.2.isOk := by
  induction tasks with
  | nil => exact iff_of_false List.not_mem_nil List.not_mem_nil
  | cons task tasks ih =>
    obtain ⟨ip', outcome⟩ := task
    cases outcome with
    | error e => exact iff_of_false List.not_mem_nil List.not_mem_nil
    | ok v' =>
      rw [List.map_cons, List.takeWhile_cons_of_pos rfl, List.mem_cons, ← ih]
      show (ip, v) ∈ (ip', v') :: beforeError _ ↔ _
      rw [List.mem_cons, Prod.mk.injEq, Prod.mk.injEq, Except.ok.injEq]

/-- The collector has what finished before the first error. -/
theorem mem_collect (run : BulkRun targets ν) :
    ip ∈ collectResults keep ∅ run.finished ↔ run.HasEarlyValue keep ip := by
  rw [mem_collectResults]
  simp only [AList.notMem_empty, false_or, finished, mem_beforeError]
  rfl

/-- So nothing is missing iff nothing finished after it. -/
theorem collect_complete_iff (run : BulkRun targets ν) :
    (∀ ip, run.HasValue keep ip → ip ∈ collectResults keep ∅ run.finished) ↔
      ∀ ip, run.HasValue keep ip → run.HasEarlyValue keep ip :=
  forall_congr' fun _ => imp_congr_right fun _ => run.mem_collect

end BulkRun

/-- **Results of many tasks**: for every target list, every order in which the tasks
finish and every set of tasks that end in an error, each target whose task brings a
value has an entry iff it has such a task before the first error. -/
theorem bulk_results_iff {targets : List Ipv4Addr}
    (probes : BulkRun targets (Option Fingerprint.Result))
    (queries : BulkRun targets (Option MdnsResult)) :
    ((∀ ip, probes.HasValue some ip → ip ∈ Fingerprint.Raw.probeBulk probes.finished) ↔
        ∀ ip, probes.HasValue some ip → probes.HasEarlyValue some ip) ∧
      ((∀ ip, probes.HasValue some ip → ip ∈ Fingerprint.TtlOnly.probeBulk probes.finished) ↔
        ∀ ip, probes.HasValue some ip → probes.HasEarlyValue some ip) ∧
      ((∀ ip, queries.HasValue id ip → ip ∈ Mdns.resolveBulk queries.finished) ↔
        ∀ ip, queries.HasValue id ip → queries.HasEarlyValue id ip) :=
  ⟨probes.collect_complete_iff, probes.collect_complete_iff, queries.collect_complete_iff⟩

/-- One of two probes is aborted by a panic, the other finishes after it. -/
def panickedProbe :
    BulkRun [⟨10, 0, 0, 1⟩, ⟨10, 0, 0, 2⟩] (Option Fingerprint.Result) where
  tasks := [(⟨10, 0, 0, 1⟩, .error .panicked), (⟨10, 0, 0, 2⟩, .ok (some ⟨none, none⟩))]
  perm := .refl _

/-- The result of the other is lost with it. -/
theorem bulk_results_of_panic : panickedProbe.HasValue some ⟨10, 0, 0, 2⟩ ∧
    (⟨10, 0, 0, 2⟩ : Ipv4Addr) ∉ Fingerprint.Raw.probeBulk panickedProbe.finished :=
  ⟨⟨some ⟨none, none⟩, some ⟨none, none⟩, List.mem_cons_of_mem _ List.mem_cons_self, rfl⟩,
    AList.notMem_empty _⟩

end Gannet
