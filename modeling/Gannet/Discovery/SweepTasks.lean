import Gannet.Discovery.HostCount
import Gannet.Lib.TaskPool

/-!
# The tasks of a sweep (sweep.rs)

`sweep_subnet` spawns a task for each of its targets. A task waits for one of 256
permits, probes its target on a blocking thread and enters it in the set `found`, which
the tasks share behind a lock. When all are joined the set is unwrapped, which panics if
somebody else has a share in it.

`sweep_tasks`: in every interleaving at most 256 tasks have a permit, nobody is stuck, and
at the end the unwrapping is safe and the set is what `Sweep.sweepSubnet` computes from the
answers of the probes.
-/

namespace Gannet

open TaskPool

namespace Sweep

/-- `MAX_CONCURRENT` -/
def maxConcurrent : Nat := 256

/-- The closure of a task, on what `probe_host` returned; nothing where the blocking task
failed. -/
def insertFound (found : Finset Ipv4Addr) (target : Ipv4Addr) (answer : Option Bool) :
    Finset Ipv4Addr :=
  if answer = some true then insert target found else found

/-- The steps of the sweep's tasks. -/
def TaskStep : State Ipv4Addr (Finset Ipv4Addr) → Label Ipv4Addr (Option Bool) →
    State Ipv4Addr (Finset Ipv4Addr) → Prop :=
  Step insertFound

/-- `sweep_subnet` before its first `spawn`. -/
def tasksInit (targets : List Ipv4Addr) : State Ipv4Addr (Finset Ipv4Addr) :=
  .init maxConcurrent targets ∅

variable {targets : List Ipv4Addr} {labels : List (Label Ipv4Addr (Option Bool))}
  {s : State Ipv4Addr (Finset Ipv4Addr)}

/-- The set has the targets that answered, in whatever order. -/
theorem mem_foldl_insertFound (answers : List (Ipv4Addr × Option Bool)) (found : Finset Ipv4Addr)
    (ip : Ipv4Addr) : ip ∈ answers.foldl (fun found o => insertFound found o.1 o.2) found ↔
      ip ∈ found ∨ (ip, some true) ∈ answers := by
  induction answers generalizing found with
  | nil => simp
  | cons o answers ih =>
    obtain ⟨target, answer⟩ := o
    rw [List.foldl_cons, ih, insertFound, List.mem_cons, Prod.mk.injEq]
    by_cases hanswer : answer = some true
    · rw [if_pos hanswer, Finset.mem_insert]
      simp only [hanswer, and_true]
      tauto
    · rw [if_neg hanswer]
      simp only [Ne.symm hanswer, and_false, false_or]

/-- The answer a target gave in a run. -/
def answered (labels : List (Label Ipv4Addr (Option Bool))) (ip : Ipv4Addr) : Bool :=
  (ip, some true) ∈ outcomes labels

/-- At the end the set is that of the targets that answered. -/
theorem result_eq (h : Lts.Run TaskStep (tasksInit targets) labels s) (hend : s.remaining = 0) :
    s.result = (targets.filter (answered labels)).toFinset := by
  have hinv := TaskPool.Run.inv h
  obtain ⟨hperm, -, -⟩ := hinv.finished hend
  ext ip
  rw [hinv.result, mem_foldl_insertFound, List.mem_toFinset, List.mem_filter, answered,
    decide_eq_true_iff, ← hperm.mem_iff]
  constructor
  · rintro (h | h)
    · exact absurd h (Finset.notMem_empty ip)
    · exact ⟨List.mem_map_of_mem h, h⟩
  · exact fun h => .inr h.2

/-- **The tasks of a sweep**: in every interleaving no more than 256 tasks have a permit, a
step can be taken until all targets are probed and joined, which takes five steps for each,
and then every target was probed once, nobody else has a share in the set, and the set is
the result of `sweepSubnet` on the answers. -/
theorem sweep_tasks {profile : Machine.Profile} {subnet srcIp : Ipv4Addr} {prefixLen : UInt8}
    {known : List Ipv4Addr}
    (htargets : Sweep.targets profile subnet prefixLen known srcIp = .ok targets)
    (h : Lts.Run TaskStep (tasksInit targets) labels s) :
    s.running.card + s.worked.card ≤ maxConcurrent ∧
      labels.length + s.remaining = 5 * targets.length ∧
      (s.remaining ≠ 0 → ∀ answer : Ipv4Addr → Option Bool, ∃ a t, TaskStep s a t ∧
        ∀ ip b, a = .work ip b → b = answer ip) ∧
      (s.remaining = 0 → ((outcomes labels).map Prod.fst).Perm targets ∧ s.owners = 1 ∧
        sweepSubnet profile subnet prefixLen known (some srcIp) (answered labels)
          = .ok s.result) := by
  have hinv := TaskPool.Run.inv h
  refine ⟨hinv.limited, hinv.steps, fun hleft answer => hinv.progress (by decide) hleft answer,
    fun hend => ?_⟩
  obtain ⟨hperm, -, howners⟩ := hinv.finished hend
  refine ⟨hperm, howners, ?_⟩
  rw [result_eq h hend]
  simp only [sweepSubnet, htargets, bind, Except.bind]
  rfl

/-- The first address of 10.0.0.252/30. -/
def firstHost : Ipv4Addr := ⟨10, 0, 0, 252⟩
/-- The next one. -/
def secondHost : Ipv4Addr := ⟨10, 0, 0, 253⟩

/-- The second task gets its permit first, the first one is done first, and only the second
host answers. -/
def smallLabels : List (Label Ipv4Addr (Option Bool)) :=
  [.spawn firstHost, .spawn secondHost, .acquire secondHost, .acquire firstHost,
    .work firstHost (some false), .release firstHost, .work secondHost (some true),
    .join firstHost, .release secondHost, .join secondHost]

/-- The labels are a run to the end. -/
theorem smallLabels_run : ∃ s, Lts.Run TaskStep (tasksInit [firstHost, secondHost]) smallLabels s ∧
    s.remaining = 0 ∧ s.result = {secondHost} := by
  have hspawned : Lts.Run TaskStep (tasksInit [firstHost, secondHost])
      [.spawn firstHost, .spawn secondHost] _ := .cons (.spawn rfl) (.single (.spawn rfl))
  have hrunning := (hspawned.snoc (.acquire (Eq.refl (secondHost ::ₘ {firstHost}))
    (Nat.zero_lt_succ 255))).snoc (.acquire (Eq.refl (firstHost ::ₘ 0)) (Nat.zero_lt_succ 254))
  have hfirst := (hrunning.snoc (.work (some false) (Eq.refl (firstHost ::ₘ {secondHost})))).snoc
    (.release (Eq.refl (firstHost ::ₘ 0)))
  have hsecond := (hfirst.snoc (.work (some true) (Eq.refl (secondHost ::ₘ 0)))).snoc
    (.join rfl (Eq.refl (firstHost ::ₘ 0)))
  have hend := (hsecond.snoc (.release (Eq.refl (secondHost ::ₘ 0)))).snoc
    (.join rfl (Eq.refl (secondHost ::ₘ 0)))
  exact ⟨_, hend, rfl, rfl⟩

/-- 10.0.0.252/30 is swept from its address 10.0.0.254. -/
theorem sweep_tasks_small :
    ∃ s, Lts.Run TaskStep (tasksInit [firstHost, secondHost]) smallLabels s ∧
      s.owners = 1 ∧ s.result = {secondHost} ∧
      sweepSubnet .release firstHost 30 [] (some ⟨10, 0, 0, 254⟩) (answered smallLabels)
        = .ok s.result := by
  have htargets : Sweep.targets .release firstHost 30 [] ⟨10, 0, 0, 254⟩
      = .ok [firstHost, secondHost] := by decide
  obtain ⟨s, hrun, hend, hresult⟩ := smallLabels_run
  obtain ⟨-, howners, hsweep⟩ := (sweep_tasks htargets hrun).2.2.2 hend
  exact ⟨s, hrun, howners, hresult, hsweep⟩

end Sweep

end Gannet
