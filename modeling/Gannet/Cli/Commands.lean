import Gannet.Discovery.Enrichment
import Gannet.Discovery.Listener
import Gannet.Discovery.Survey
import Gannet.Identity.StoreDisk
import Gannet.Identity.Tagging

/-!
# The commands from file to file (commands.rs, main.rs)

Each command with what its discovery found as input, from the registry file before it to
the file after it. What is printed is the text of what the functions return. `Runs` is a
command that runs to its end with no other beside it.

`Run.holds`: after any commands, one after the other, the file has what all of their calls
lead to, in their order.
-/

namespace Gannet.Commands

open KeyMap Mdns Store Survey

/-! ## The code -/

/-- What the discovery of a scan returned. -/
structure ScanResults where
  arpEntries : List ArpEntry
  sweepResults : List Ipv4Addr
  mdnsResults : Map Ipv4Addr MdnsResult
  fingerprints : Map Ipv4Addr (Option Fingerprint.Result)

/-- The order in which the registry iterates at each call. -/
structure Hashing where
  order : Nat → Store → Store
  same : ∀ n s, SameEntries s.records (order n s).records

/-- The order in which the entries came. -/
def Hashing.stable : Hashing := ⟨fun _ s => s, fun _ _ => SameEntries.refl _⟩

/-- `devices`, as they are upserted: by ascending address. -/
def scanDevices (ouiTable : UInt32 → Option String) (results : ScanResults) : List Device :=
  ((enriched ouiTable results.mdnsResults results.fingerprints results.arpEntries
    results.sweepResults).map Device.classify).mergeSort fun a b => a.ip.toU32 ≤ b.ip.toU32

/-- The devices upserted, each with the tag of the record it went into. The `n`-th call
reads the clock as `clock n`. -/
def upsertAll (hashing : Hashing) (clock : Nat → Nat) :
    List Device → Nat → Store → Store × List (Device × String)
  | [], _, s => (s, [])
  | d :: ds, n, s =>
    let (s, record) := (hashing.order n s).upsert d Namer.generate (clock n)
    let (s, tagged) := upsertAll hashing clock ds (n + 1) s
    (s, (d, record.tag.getD "-") :: tagged)

/-- The two tables of a scan. -/
structure ScanReport where
  arpTagged : List (Device × String)
  sweepTagged : List (Device × String)

/-- `scan`, after its discovery. -/
def scan (ouiTable : UInt32 → Option String) (results : ScanResults) (hashing : Hashing)
    (clock : Nat → Nat) (file : File) : File × Option ScanReport :=
  -- "No devices found."
  if foundHosts results.arpEntries results.sweepResults = [] then (file, none)
  else
    let (store, tagged) :=
      upsertAll hashing clock (scanDevices ouiTable results) 0 (load serdeJson file)
    (store.save serdeJson, some {
      arpTagged := tagged.filter fun entry => entry.1.via = .arp
      sweepTagged := tagged.filter fun entry => entry.1.via ≠ .arp })

/-- `survey`, after its discovery. -/
def survey (subnets : List DiscoveredSubnet) (clock : Nat → Nat) (file : File) : File :=
  let (store, records) := recordSurvey clock subnets 0 (load serdeJson file)
  -- `discovered_any`
  if records = [] then file else store.save serdeJson

/-- How `tag` ends: with "Invalid IP", a tagged record, or "No record found". -/
inductive Tagging where
  | invalidIp
  | tagged
  | missing
deriving DecidableEq, Repr

/-- `tag` -/
def tag (ip tag : String) (file : File) : File × Tagging :=
  let store := load serdeJson file
  match Ipv4Addr.parse ip.toList with
  | none => (file, .invalidIp)
  | some addr =>
    let (store, found) := store.setTag none addr tag
    if found then (store.save serdeJson, .tagged) else (file, .missing)

/-- `list`: the records in the order of its table. -/
def list (hashing : Hashing) (file : File) : List Record :=
  let store := hashing.order 0 (load serdeJson file)
  ((values store.records).mergeSort fun a b => a.lastSeen ≤ b.lastSeen).reverse

/-! ## Commands -/

/-- A command with what its discovery found. -/
inductive Command where
  | scan (results : ScanResults) (hashing : Hashing) (clock : Nat → Nat)
  | survey (subnets : List DiscoveredSubnet) (clock : Nat → Nat)
  | listen (cfg : Passive.Config) (events : List Passive.Event)
  | tag (ip tag : String)
  | list

/-- The calls of `upsert` for some devices. -/
def upserts (clock : Nat → Nat) : List Device → Nat → List Op
  | [], _ => []
  | d :: ds, n => .upsert d Namer.generate (clock n) :: upserts clock ds (n + 1)

/-- The call behind what the listener did, if there is one. -/
def eventCall : Passive.Event → Option Op
  | .sighted device now _ => some (.upsert device Namer.generate now)
  | _ => none

/-- The calls a command makes on the registry. -/
def Command.calls (ouiTable : UInt32 → Option String) : Command → List Op
  | .scan results _ clock => upserts clock (scanDevices ouiTable results) 0
  | .survey subnets clock =>
    upserts clock ((subnets.filter (·.Live)).map fun subnet => .fromSweep subnet.network) 0
  | .listen _ events => events.filterMap eventCall
  | .tag ip text => ((Ipv4Addr.parse ip.toList).map fun addr => .setTag none addr text).toList
  | .list => []

/-- A whole command, alone with the file. The listener saves after every sighting. -/
inductive Runs (ouiTable : UInt32 → Option String) (file : File) : Command → File → Prop where
  | scan (results : ScanResults) (hashing : Hashing) (clock : Nat → Nat) :
      Runs ouiTable file (.scan results hashing clock)
        (scan ouiTable results hashing clock file).1
  | survey (subnets : List DiscoveredSubnet) (clock : Nat → Nat) :
      Runs ouiTable file (.survey subnets clock) (survey subnets clock file)
  | listen {cfg : Passive.Config} {events : List Passive.Event} {last : Passive.Listener}
      {saved : Store}
      (hrun : Lts.Run (Passive.Listener.Step cfg) (.init (load serdeJson file)) events last)
      (hsaved : SameEntries last.store.records saved.records) :
      Runs ouiTable file (.listen cfg events)
        (if events.filterMap eventCall = [] then file else saved.save serdeJson)
  | tag (ip tag : String) : Runs ouiTable file (.tag ip tag) (Commands.tag ip tag file).1
  | list : Runs ouiTable file .list file

/-! ## What the commands do with the registry -/

variable {ouiTable : UInt32 → Option String} {s t t' : Store} {ops calls : List Op}
  {file file' : File} {cmd : Command}

/-- The upserts of a scan are clocked if its clock is. -/
theorem clocked_upserts {clock : Nat → Nat} (hclock : ∀ n, clock n < 2 ^ 64) (ds : List Device)
    (n : Nat) : ∀ op ∈ upserts clock ds n, op.Clocked := by
  induction ds generalizing n with
  | nil => exact List.forall_mem_nil _
  | cons d ds ih => exact List.forall_mem_cons.mpr ⟨hclock n, ih (n + 1)⟩

/-- The loop over the devices makes these calls. -/
theorem upsertAll_run (hashing : Hashing) (clock : Nat → Nat) (ds : List Device) (n : Nat)
    (s : Store) : Lts.Run Store.Step s (upserts clock ds n) (upsertAll hashing clock ds n s).1 := by
  induction ds generalizing n s with
  | nil => exact .nil
  | cons d ds ih =>
    have hstep : Store.Step s (.upsert d Namer.generate (clock n))
        ((hashing.order n s).upsert d Namer.generate (clock n)).1 :=
      ⟨hashing.order n s, hashing.same n s, SameEntries.refl _⟩
    exact .cons hstep (ih (n + 1) _)

/-- The loop over the subnets makes a call for each that is live. -/
theorem recordSurvey_run (clock : Nat → Nat) (subnets : List DiscoveredSubnet) (n : Nat)
    (s : Store) : Lts.Run Store.Step s
      (upserts clock ((subnets.filter (·.Live)).map fun subnet => .fromSweep subnet.network) n)
      (recordSurvey clock subnets n s).1 := by
  induction subnets generalizing n s with
  | nil => exact .nil
  | cons subnet subnets ih =>
    rw [recordSurvey]
    by_cases hlive : subnet.Live
    · rw [if_pos hlive, List.filter_cons_of_pos (by simpa using hlive), List.map_cons]
      exact .cons (step_apply s _) (ih (n + 1) _)
    · rw [if_neg hlive, List.filter_cons_of_neg (by simpa using hlive)]
      exact ih n s

/-- The listener's store changes by the call behind the event. -/
theorem next_store {cfg : Passive.Config} {l l' : Passive.Listener} {a : Passive.Action}
    {e : Passive.Event} (h : Passive.Listener.next cfg l a = some (e, l')) :
    l'.store = (eventCall e).elim l.store l.store.apply := by
  cases a with
  | read input =>
    simp only [Passive.Listener.next] at h
    split at h
    · split at h <;> cases h <;> rfl
    · cases h
  | send source =>
    simp only [Passive.Listener.next] at h
    split at h
    · cases h
    · cases h
      exact (Passive.Listener.deliver_store _ _).1
  | receive now =>
    simp only [Passive.Listener.next] at h
    split at h
    · cases h
    · split at h <;> cases h <;> rfl
  | receiveService now =>
    simp only [Passive.Listener.next] at h
    split at h
    · cases h
    · split at h <;> cases h <;> rfl

/-- The calls of a listener are those behind its sightings, whatever else it does. -/
theorem listener_run {cfg : Passive.Config} {l l' : Passive.Listener} {events : List Passive.Event}
    (h : Lts.Run (Passive.Listener.Step cfg) l events l') :
    ∃ t, Lts.Run Store.Step l.store (events.filterMap eventCall) t ∧
      SameEntries t.records l'.store.records := by
  induction h with
  | nil => exact ⟨l.store, .nil, SameEntries.refl _⟩
  | @snoc events e u v _ hstep ih =>
    obtain ⟨t, hrun, ht⟩ := ih
    obtain ⟨store, a, hstore, hnext⟩ := hstep
    have hafter := next_store hnext
    rw [List.filterMap_append]
    cases hcall : eventCall e with
    | none =>
      rw [hcall] at hafter
      refine ⟨t, ?_, ?_⟩
      · rw [List.filterMap_cons_none hcall, List.filterMap_nil, List.append_nil]
        exact hrun
      · rw [hafter]
        exact ht.trans hstore
    | some op =>
      rw [hcall] at hafter
      refine ⟨v.store, ?_, SameEntries.refl _⟩
      rw [List.filterMap_cons_some hcall, List.filterMap_nil]
      refine hrun.snoc ⟨store, ht.trans hstore, ?_⟩
      rw [hafter]
      exact SameEntries.refl _

/-! ## One command after the other -/

/-- Calls do not depend on the order in which the registry was read. -/
theorem run_congr (h : Lts.Run Store.Step s ops t) {s' : Store} (hs : s.contents = s'.contents) :
    ∃ t', Lts.Run Store.Step s' ops t' ∧ t'.contents = t.contents := by
  induction h with
  | nil => exact ⟨s', .nil, hs.symm⟩
  | @snoc ops op t u _ hstep ih =>
    obtain ⟨t', hrun, ht⟩ := ih
    obtain ⟨store, hstore, hu⟩ := hstep
    have hsame : SameEntries t'.records t.records := sameEntries_iff.mpr ht
    exact ⟨u, hrun.snoc ⟨store, hsame.trans hstore, hu⟩, rfl⟩

/-- The file has what the calls lead to. -/
def Holds (ops : List Op) (file : File) : Prop :=
  ∃ s, Reaches ops s ∧ s.contents = (load serdeJson file).contents

/-- The last call leaves the registry in any order. -/
theorem run_reorder (hrun : Lts.Run Store.Step s ops t) (hne : ops ≠ [])
    (hsame : SameEntries t.records t'.records) : Lts.Run Store.Step s ops t' := by
  cases hrun with
  | nil => exact absurd rfl hne
  | snoc hrun hstep =>
    obtain ⟨store, hstore, ht⟩ := hstep
    exact hrun.snoc ⟨store, hstore, hsame.symm.trans ht⟩

/-- Without hosts there is nothing to upsert. -/
theorem scanDevices_eq_nil {results : ScanResults}
    (h : foundHosts results.arpEntries results.sweepResults = []) :
    scanDevices ouiTable results = [] := by
  have hnone := map_applyFingerprints (g := Device.ip) (fun _ _ => rfl) results.fingerprints []
  rw [scanDevices, enriched, h, List.map_nil, List.map_eq_nil_iff.mp hnone, List.map_nil,
    List.mergeSort_nil]

/-- A survey that records nothing has no live subnet. -/
theorem live_eq_nil {subnets : List DiscoveredSubnet} {clock : Nat → Nat} {n : Nat}
    (h : (recordSurvey clock subnets n s).2 = []) : subnets.filter (·.Live) = [] := by
  have hips := recordSurvey_lastIp clock subnets n s
  rw [h, List.map_nil] at hips
  exact List.map_eq_nil_iff.mp hips.symm

/-- What a whole command does: its calls on what it loaded. Without a save they changed
nothing. -/
theorem Runs.outcome (h : Runs ouiTable file cmd file') :
    ∃ t, Lts.Run Store.Step (load serdeJson file) (cmd.calls ouiTable) t ∧
      (file' = file ∧ t.contents = (load serdeJson file).contents ∨
        file' = t.save serdeJson) := by
  have hnone (hnil : cmd.calls ouiTable = []) :
      ∃ t, Lts.Run Store.Step (load serdeJson file) (cmd.calls ouiTable) t ∧
        (file = file ∧ t.contents = (load serdeJson file).contents ∨ file = t.save serdeJson) := by
    rw [hnil]
    exact ⟨_, .nil, .inl ⟨rfl, rfl⟩⟩
  cases h with
  | scan results hashing clock =>
    rw [Commands.scan]
    split_ifs with hhosts
    · exact hnone (by rw [Command.calls, scanDevices_eq_nil hhosts, upserts])
    · exact ⟨_, upsertAll_run hashing clock _ 0 _, .inr rfl⟩
  | survey subnets clock =>
    rw [Commands.survey]
    dsimp only
    split_ifs with hrecords
    · exact hnone (by rw [Command.calls, live_eq_nil hrecords, List.map_nil, upserts])
    · exact ⟨_, recordSurvey_run clock subnets 0 _, .inr rfl⟩
  | @listen cfg events last saved hrun hsaved =>
    obtain ⟨t, hcalls, ht⟩ := listener_run hrun
    split_ifs with hnocall
    · exact hnone hnocall
    · exact ⟨saved, run_reorder hcalls hnocall (ht.trans hsaved), .inr rfl⟩
  | tag ip text =>
    rw [Commands.tag]
    cases haddr : Ipv4Addr.parse ip.toList with
    | none => exact hnone (by rw [Command.calls, haddr]; rfl)
    | some addr =>
      have hcalls : (Command.tag ip text).calls ouiTable = [.setTag none addr text] := by
        rw [Command.calls, haddr]
        rfl
      have hspec := setTag_none_spec (load serdeJson file) addr text
      rw [hcalls]
      dsimp only
      refine ⟨_, .single (step_apply _ _), ?_⟩
      cases hfound : (load serdeJson file).contents (ipKey addr) with
      | some r =>
        rw [hfound] at hspec
        rw [if_pos hspec.2]
        exact .inr rfl
      | none =>
        rw [hfound] at hspec
        dsimp only at hspec
        rw [apply, hspec]
        exact .inl ⟨rfl, rfl⟩
  | list => exact hnone rfl

/-- A whole command adds its calls. -/
theorem Runs.holds (h : Runs ouiTable file cmd file') (hfile : Holds ops file)
    (hclock : ∀ op ∈ ops ++ cmd.calls ouiTable, op.Clocked) :
    Holds (ops ++ cmd.calls ouiTable) file' := by
  obtain ⟨s, hreach, hs⟩ := hfile
  obtain ⟨t, hrun, hfile'⟩ := h.outcome
  obtain ⟨u, hcalls, hu⟩ := run_congr hrun hs.symm
  have hreach' : Reaches (ops ++ cmd.calls ouiTable) u := hreach.append hcalls
  refine ⟨u, hreach', hu.trans ?_⟩
  rcases hfile' with ⟨rfl, ht⟩ | rfl
  · exact ht
  · exact (load_saved (timed_congr (hreach'.timed hclock) hu)).symm

/-- After any commands that run one after the other, from no file on. -/
theorem Run.holds {cmds : List Command} (h : Lts.Run (Runs ouiTable) none cmds file)
    (hclock : ∀ op ∈ cmds.flatMap (Command.calls ouiTable), op.Clocked) :
    Holds (cmds.flatMap (Command.calls ouiTable)) file := by
  refine h.invariant_labels (fun cmds file =>
    (∀ op ∈ cmds.flatMap (Command.calls ouiTable), op.Clocked) →
      Holds (cmds.flatMap (Command.calls ouiTable)) file) ?_ ?_ hclock
  · exact fun _ => ⟨Store.empty, .nil, rfl⟩
  · intro cmds cmd file file' _ ih hstep hclock
    rw [List.flatMap_append, List.flatMap_singleton] at hclock ⊢
    exact hstep.holds (ih fun op hop => hclock op (List.mem_append_left _ hop)) hclock

/-! ## A small session -/

/-- A scan that hears the phone at the sofa and finds the desk by its sweep. -/
def deskScan : Command :=
  .scan ⟨[⟨sofa, phone⟩], [desk], ∅, ∅⟩ .stable fun n => 5 + n % 2

theorem deskSession_clocked :
    ∀ op ∈ [deskScan, .tag "192.168.1.10" "printer"].flatMap (Command.calls fun _ => none),
      op.Clocked := by
  refine List.forall_mem_append.mpr ⟨clocked_upserts (fun _ => by omega) _ 0, ?_⟩
  exact List.forall_mem_singleton.mpr trivial

end Gannet.Commands
