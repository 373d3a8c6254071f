import Gannet.Cli.Report
import Gannet.Discovery.BulkResults
import Gannet.Discovery.ListenModes
import Gannet.Discovery.Liveness

/-!
# OS hints from the SYN to the registry (fingerprint.rs, commands.rs)

`probe_syn` sends a SYN to three ports and guesses the operating system by the first SYN+ACK.
What it waits for is not the answer to its SYN (`Fingerprint`): while nothing else comes in,
no probe of a scan has a guess, so no device has one and no record ever gets one.

- `probeSyn_smallAck`: no probe has a hint that hears only answers to SYNs of this program.
- `session_no_hints`: no record has one after a session whose scans only hear such answers.
-/

namespace Gannet

open Bytes KeyMap

/-! ## The probe of a host (fingerprint.rs) -/

namespace Fingerprint.Raw

/-- `FALLBACK_PORTS` -/
def fallbackPorts : List UInt16 := [443, 80, 22]

/-- The wait of `probe_port_blocking`: 2 s, in nanoseconds. -/
def synAckWait : Nat := 2000000000

/-- `probe_port_blocking`, from its source port on. -/
def probePortBlocking (srcPort port : UInt16) (channel : Option ProbeChannel) :
    Except Panic (Option SynAck) :=
  match channel with
  | none => .ok none
  | some channel =>
    if channel.sends then
      waitSynAck srcPort port (channel.start + synAckWait) channel.events
    else .ok none

/-- What the tasks of `probe_syn` meet, and those that end within its 3 s, in the order in
which they do. -/
structure SynProbe where
  srcPort : UInt16 → UInt16
  channel : UInt16 → Option ProbeChannel
  finished : List UInt16
  finished_subset : finished ⊆ fallbackPorts

/-- `if let Ok(Ok(Some(syn_ack))) = joined` -/
def SynProbe.joined (probe : SynProbe) (port : UInt16) : Option SynAck :=
  (probePortBlocking (probe.srcPort port) port (probe.channel port)).toOption.join

/-- `probe_syn` -/
def probeSyn (srcIp : Option Ipv4Addr) (probe : SynProbe) : Except Panic (Option Result) :=
  match srcIp with
  | none => .ok none
  | some _ => do return some (← resultOf (probe.finished.findSome? probe.joined))

/-- Nothing but answers to this program arrives while the host is probed. -/
def OnlyAnswers (probe : SynProbe) : Prop :=
  ∀ port ∈ fallbackPorts, ∀ channel, probe.channel port = some channel →
    ∀ now bytes, (now, Received.datagram bytes) ∈ channel.events → Sweep.SmallAck bytes

/-- Of answers to small acknowledgement numbers the wait makes nothing. -/
theorem waitSynAck_smallAck {srcPort port : UInt16} {deadline : Nat}
    {events : List (Nat × Received)}
    (h : ∀ now bytes, (now, Received.datagram bytes) ∈ events → Sweep.SmallAck bytes) :
    waitSynAck srcPort port deadline events = .ok none := by
  induction events with
  | nil => rfl
  | cons event rest ih =>
    obtain ⟨now, received⟩ := event
    have hrest := ih fun now bytes hmem => h now bytes (List.mem_cons_of_mem _ hmem)
    unfold waitSynAck
    by_cases hlate : deadline ≤ now
    · rw [if_pos hlate]
    rw [if_neg hlate]
    cases received with
    | timedOut => rfl
    | failed => rfl
    | datagram bytes =>
      obtain ⟨p, hp, hprotocol⟩ :=
        (h now bytes List.mem_cons_self).view (show 80 ≤ probeBufferSize by decide)
      have hpassed : inspectPacket srcPort port p = .ok none := by
        rw [inspectPacket, hprotocol]
        rfl
      simp only [hp, hpassed, bind, Except.bind]
      -- out of time or not, nothing is returned
      rw [hrest]
      exact ite_self _

/-- The hint of a result, if there is one. -/
def hint (result : Option Result) : Option String := result.bind Result.osHint

/-- Without a SYN+ACK there is no hint. -/
theorem probeSyn_smallAck {srcIp : Option Ipv4Addr} {probe : SynProbe} (h : OnlyAnswers probe)
    {result : Option Result} (hresult : probeSyn srcIp probe = .ok result) :
    hint result = none := by
  cases srcIp with
  | none =>
    obtain rfl := Except.ok.inj hresult
    rfl
  | some _ =>
    have hnone : probe.finished.findSome? probe.joined = none := by
      rw [List.findSome?_eq_none_iff]
      intro port hport
      rw [SynProbe.joined]
      unfold probePortBlocking
      cases hchannel : probe.channel port with
      | none => rfl
      | some channel =>
        dsimp only
        split_ifs
        · rw [waitSynAck_smallAck (h port (probe.finished_subset hport) channel hchannel)]
          rfl
        · rfl
    rw [probeSyn, hnone] at hresult
    obtain rfl := Except.ok.inj hresult
    rfl

end Fingerprint.Raw

namespace Commands

open Store

/-! ## The devices of a command -/

/-- The call brings no hint. -/
def Unhinted : Op → Prop
  | .upsert device _ _ => device.osHint = none
  | .setTag _ _ _ => True

/-- Devices without a hint are upserted without one. -/
theorem unhinted_upserts {clock : Nat → Nat} {ds : List Device}
    (h : ∀ d ∈ ds, d.osHint = none) (n : Nat) : ∀ op ∈ upserts clock ds n, Unhinted op := by
  induction ds generalizing n with
  | nil => exact List.forall_mem_nil _
  | cons d ds ih =>
    rw [List.forall_mem_cons] at h
    exact List.forall_mem_cons.mpr ⟨h.1, ih h.2 (n + 1)⟩

/-- Names bring no hint. -/
theorem osHint_namedDevice (ouiTable : UInt32 → Option String)
    (mdnsResults : Map Ipv4Addr Mdns.MdnsResult) (found : Found) :
    (namedDevice ouiTable mdnsResults found).osHint = none := by
  unfold namedDevice
  cases contents mdnsResults found.ip <;> cases found <;> rfl

/-- Nor does a fingerprint without one. -/
theorem osHint_updateFirst {p : Device → Bool} {fp : Fingerprint.Result} (hfp : fp.osHint = none)
    {ds : List Device} (h : ∀ d ∈ ds, d.osHint = none) :
    ∀ d ∈ updateFirst p (·.applyFingerprint fp) ds, d.osHint = none := by
  induction ds with
  | nil => exact List.forall_mem_nil _
  | cons d ds ih =>
    rw [List.forall_mem_cons] at h
    rw [updateFirst]
    by_cases hp : p d = true
    · rw [if_pos hp]
      exact List.forall_mem_cons.mpr ⟨hfp, h.2⟩
    · rw [if_neg hp]
      exact List.forall_mem_cons.mpr ⟨h.1, ih h.2⟩

/-- Fingerprints without a hint give none. -/
theorem osHint_applyFingerprints {fingerprints : Map Ipv4Addr (Option Fingerprint.Result)}
    (hnone : ∀ ip v, contents fingerprints ip = some v → Fingerprint.Raw.hint v = none)
    {ds : List Device} (h : ∀ d ∈ ds, d.osHint = none) :
    ∀ d ∈ applyFingerprints fingerprints ds, d.osHint = none := by
  have hentries : ∀ entry ∈ fingerprints.entries, Fingerprint.Raw.hint entry.2 = none :=
    fun entry hentry => hnone entry.1 entry.2 (AList.mem_lookup_iff.mpr hentry)
  rw [applyFingerprints]
  generalize fingerprints.entries = entries at hentries
  induction entries generalizing ds with
  | nil => exact h
  | cons entry entries ih =>
    rw [List.forall_mem_cons] at hentries
    rw [List.foldl_cons]
    refine ih ?_ hentries.2
    cases hfp : entry.2 with
    | none => exact h
    | some fp =>
      rw [hfp] at hentries
      exact osHint_updateFirst hentries.1 h

/-- The devices of a scan whose fingerprints have no hint. -/
theorem osHint_scanDevices {ouiTable : UInt32 → Option String} {results : ScanResults}
    (hnone : ∀ ip v, contents results.fingerprints ip = some v → Fingerprint.Raw.hint v = none) :
    ∀ d ∈ scanDevices ouiTable results, d.osHint = none := by
  intro d hd
  rw [scanDevices, List.mem_mergeSort, List.mem_map] at hd
  obtain ⟨d, hd, rfl⟩ := hd
  refine osHint_applyFingerprints hnone ?_ d hd
  intro d hd
  obtain ⟨found, -, rfl⟩ := List.mem_map.mp hd
  exact osHint_namedDevice ..

/-- The listener knows no hints. -/
theorem unhinted_sighted {cfg : Passive.Config} {l l' : Passive.Listener} {e : Passive.Event}
    (h : Passive.Listener.Outcome cfg l e l') : ∀ op ∈ eventCall e, Unhinted op := by
  cases h with
  | read _ _ => exact fun _ h => nomatch h
  | sent _ _ => exact fun _ h => nomatch h
  | skipped _ _ _ => exact fun _ h => nomatch h
  | dropped _ _ _ => exact fun _ h => nomatch h
  | entry _ htake _ =>
    rintro op hop
    obtain rfl := Option.some.inj hop
    unfold Passive.takeEntry at htake
    split_ifs at htake
    obtain ⟨-, rfl⟩ := Prod.mk.inj (Option.some.inj htake)
    rfl
  | service _ htake _ =>
    rintro op hop
    obtain rfl := Option.some.inj hop
    obtain ⟨mac, -, rfl⟩ := Option.map_eq_some_iff.mp htake
    rfl

/-- What a listener upserts has no hint. -/
theorem unhinted_events {cfg : Passive.Config} {l l' : Passive.Listener}
    {events : List Passive.Event} (hw : WellFormed l.store.contents)
    (h : Lts.Run (Passive.Listener.Step cfg) l events l') :
    ∀ op ∈ events.filterMap eventCall, Unhinted op := by
  refine (h.invariant_labels (fun events l => WellFormed l.store.contents ∧
    ∀ op ∈ events.filterMap eventCall, Unhinted op) ⟨hw, List.forall_mem_nil _⟩ ?_).2
  rintro events e l l' - ⟨hw, hunhinted⟩ hstep
  have houtcome := hstep.outcome hw
  refine ⟨houtcome.learns.wellFormed hw, ?_⟩
  rw [List.filterMap_append, List.forall_mem_append]
  refine ⟨hunhinted, fun op hop => ?_⟩
  obtain ⟨e', he', hcall⟩ := List.mem_filterMap.mp hop
  obtain rfl := List.mem_singleton.mp he'
  exact unhinted_sighted houtcome op hcall

/-! ## Results without a hint -/

/-- What a bulk call returns for an address is the result of a task. -/
theorem contents_collectResults {ν μ : Type} {keep : ν → Option μ} {ip : Ipv4Addr} {r : μ}
    (finished : Finished ν) {results : Map Ipv4Addr μ}
    (h : contents (collectResults keep results finished) ip = some r) :
    contents results ip = some r ∨ ∃ v, .ok (ip, v) ∈ finished ∧ keep v = some r := by
  induction finished generalizing results with
  | nil => exact .inl h
  | cons task finished ih =>
    have hlater : (∃ v, .ok (ip, v) ∈ finished ∧ keep v = some r) →
        ∃ v, .ok (ip, v) ∈ task :: finished ∧ keep v = some r :=
      fun ⟨v, hv, hr⟩ => ⟨v, List.mem_cons_of_mem _ hv, hr⟩
    cases task with
    | error e => exact .inl h
    | ok result =>
      obtain ⟨ip', v⟩ := result
      rw [collectResults] at h
      cases hkeep : keep v with
      | none =>
        rw [hkeep] at h
        exact (ih h).imp id hlater
      | some kept =>
        rw [hkeep] at h
        rcases ih h with hold | hnew
        · by_cases hip : ip = ip'
          · subst hip
            rw [KeyMap.contents, AList.lookup_insert] at hold
            obtain rfl := Option.some.inj hold
            exact .inr ⟨v, List.mem_cons_self, hkeep⟩
          · rw [KeyMap.contents, AList.lookup_insert_ne hip] at hold
            exact .inl hold
        · exact .inr (hlater hnew)

/-- A scan whose fingerprints are those of probes that heard only answers. -/
def Quiet : Command → Prop
  | .scan results _ _ => ∃ finished, results.fingerprints = Fingerprint.Raw.probeBulk finished ∧
      ∀ ip result, .ok (ip, result) ∈ finished → ∃ srcIp probe,
        Fingerprint.Raw.OnlyAnswers probe ∧
          Fingerprint.Raw.probeSyn srcIp probe = .ok result
  | _ => True

variable {ouiTable : UInt32 → Option String} {file file' : File} {cmd : Command}
  {cmds : List Command}

/-- A quiet scan finds no hint. -/
theorem Quiet.osHint {results : ScanResults} {hashing : Hashing} {clock : Nat → Nat}
    (h : Quiet (.scan results hashing clock)) :
    ∀ d ∈ scanDevices ouiTable results, d.osHint = none := by
  obtain ⟨finished, hfingerprints, hprobes⟩ := h
  refine osHint_scanDevices fun ip v hv => ?_
  rw [hfingerprints] at hv
  rcases contents_collectResults finished hv with hempty | ⟨v', hmem, hkeep⟩
  · exact nomatch hempty
  · obtain rfl := Option.some.inj hkeep
    obtain ⟨srcIp, probe, hanswers, hprobe⟩ := hprobes ip _ hmem
    exact Fingerprint.Raw.probeSyn_smallAck hanswers hprobe

/-- A quiet command makes calls without hints. -/
theorem Runs.unhinted (h : Runs ouiTable file cmd file') (hquiet : Quiet cmd)
    (hw : WellFormed (load serdeJson file).contents) :
    ∀ op ∈ cmd.calls ouiTable, Unhinted op := by
  cases h with
  | scan results hashing clock => exact unhinted_upserts hquiet.osHint 0
  | survey subnets clock =>
    refine unhinted_upserts (fun d hd => ?_) 0
    obtain ⟨subnet, -, rfl⟩ := List.mem_map.mp hd
    rfl
  | listen hrun _ => exact unhinted_events hw hrun
  | tag ip text =>
    intro op hop
    rw [Command.calls, Option.mem_toList, Option.map_eq_some_iff] at hop
    obtain ⟨addr, -, rfl⟩ := hop
    trivial
  | list => exact List.forall_mem_nil _

/-! ## Sessions -/

/-- No record has an OS hint. -/
def NoHints (c : Contents) : Prop := ∀ k r, c k = some r → r.osHint = none

/-- A call without a hint leaves a registry without hints. -/
theorem NoHints.transition {c c' : Contents} {op : Op} (hc : NoHints c) (hop : Unhinted op)
    (h : Transition c op c') : NoHints c' := by
  cases h with
  | sighting hsighting =>
    intro k r hk
    rcases hsighting.entry hk with rfl | hold
    · have hsight (r : Record) {d : Device} {now : Nat} (hd : d.osHint = none)
          (hr : r.osHint = none) : (r.sight d now).osHint = none := by
        show d.osHint.or r.osHint = none
        rw [hd, hr]
        rfl
      rcases hsighting.sightedFrom with ⟨k₀, r₀, hk₀, key, mac, rfl⟩ | ⟨key, mac, key', mac', rfl⟩
      · exact hsight _ hop (hc k₀ r₀ hk₀)
      · exact hsight _ hop hop
    · exact hc k r hold
  | @retag _ _ _ k₀ r₀ htarget =>
    have hold := hc k₀ r₀ (tagTarget_spec htarget)
    intro k r hk
    rcases update_some_cases hk with ⟨-, rfl⟩ | ⟨-, hk⟩
    · exact hold
    · exact hc k r hk
  | untagged _ => exact hc

/-- So do all calls of a run. -/
theorem noHints_of_reaches {ops : List Op} {s : Store} (h : Reaches ops s)
    (hops : ∀ op ∈ ops, Unhinted op) : NoHints s.contents := by
  refine h.invariant_labels (fun ops s => (∀ op ∈ ops, Unhinted op) → NoHints s.contents)
    (fun _ => ?_) ?_ hops
  · exact fun _ _ h => nomatch h
  · intro ops op t u hrun ih hstep hops
    rw [List.forall_mem_append, List.forall_mem_singleton] at hops
    exact (ih hops.1).transition hops.2 (hstep.transition (Reaches.wellFormed hrun))

/-- And all commands of a session. -/
theorem session_unhinted (h : Lts.Run (Runs ouiTable) none cmds file)
    (hclock : ∀ op ∈ cmds.flatMap (Command.calls ouiTable), op.Clocked)
    (hquiet : ∀ cmd ∈ cmds, Quiet cmd) :
    ∀ op ∈ cmds.flatMap (Command.calls ouiTable), Unhinted op := by
  induction h with
  | nil => exact List.forall_mem_nil _
  | @snoc cmds cmd file file' hrun hstep ih =>
    rw [List.flatMap_append, List.flatMap_singleton, List.forall_mem_append] at hclock ⊢
    rw [List.forall_mem_append, List.forall_mem_singleton] at hquiet
    obtain ⟨s, hreach, hs⟩ := Run.holds hrun hclock.1
    exact ⟨ih hclock.1 hquiet.1, hstep.unhinted hquiet.2 (hs ▸ hreach.wellFormed)⟩

/-- **No OS hints**: in every session whose scans hear nothing over TCP but answers to SYNs of
this program, no device of a scan has an OS hint, and no record of the registry ever has
one. -/
theorem session_no_hints (h : Lts.Run (Runs ouiTable) none cmds file)
    (hclock : ∀ op ∈ cmds.flatMap (Command.calls ouiTable), op.Clocked)
    (hquiet : ∀ cmd ∈ cmds, Quiet cmd) :
    NoHints (load serdeJson file).contents ∧
      ∀ results hashing clock, .scan results hashing clock ∈ cmds → ∀ before report,
        (scan ouiTable results hashing clock before).2 = some report →
        ∀ row ∈ report.arpTagged ++ report.sweepTagged, row.1.osHint = none := by
  constructor
  · obtain ⟨s, hreach, hs⟩ := Run.holds h hclock
    exact hs ▸ noHints_of_reaches hreach (session_unhinted h hclock hquiet)
  · intro results hashing clock hscan before report hreport row hrow
    obtain ⟨harp, hsweep⟩ := scan_tables hreport
    have hrows : row.1 ∈ scanDevices ouiTable results := by
      rcases List.mem_append.mp hrow with hrow | hrow
      · have hmem := List.mem_map_of_mem (f := Prod.fst) hrow
        rw [harp] at hmem
        exact List.mem_of_mem_filter hmem
      · have hmem := List.mem_map_of_mem (f := Prod.fst) hrow
        rw [hsweep] at hmem
        exact List.mem_of_mem_filter hmem
    exact (hquiet _ hscan).osHint _ hrows

/-- The answer of a desk whose SSH port is open. -/
def deskProbe : Fingerprint.Raw.SynProbe where
  srcPort := fun _ => 43211
  channel := fun _ => some ⟨true, 0, [(0, .datagram sampleReply.bytes)]⟩
  finished := [22]
  finished_subset := by decide

/-- A scan that finds the desk by its sweep and hears nothing but its answer. -/
def answeredScan : Command :=
  .scan ⟨[], [desk], ∅, Fingerprint.Raw.probeBulk [.ok (desk, some ⟨none, none⟩)]⟩ .stable fun _ => 5

/-- The scan hears nothing but the answers of the desk. -/
theorem quiet_answeredScan : Quiet answeredScan := by
  refine ⟨_, rfl, fun ip result hmem => ⟨some sofa, deskProbe, ?_, ?_⟩⟩
  · intro port _ channel hchannel now bytes hbytes
    obtain rfl := Option.some.inj hchannel
    obtain ⟨-, hbytes⟩ := Prod.mk.inj (List.mem_singleton.mp hbytes)
    obtain rfl := Received.datagram.inj hbytes
    exact ⟨sampleReply.ip, sampleReply.tcp, rfl, sampleReply.segment, by decide⟩
  · obtain ⟨-, rfl⟩ := Prod.mk.inj (Except.ok.inj (List.mem_singleton.mp hmem))
    rfl

/-- It leaves no trace in the registry. -/
theorem session_no_hints_desk :
    ∃ file, Lts.Run (Runs fun _ => none) none [answeredScan] file ∧
      NoHints (load serdeJson file).contents := by
  have hscan : Runs (fun _ => none) none answeredScan _ := .scan _ _ _
  have hclock : ∀ op ∈ [answeredScan].flatMap (Command.calls fun _ => none), op.Clocked := by
    rw [List.flatMap_singleton]
    exact clocked_upserts (fun _ => by decide) _ 0
  exact ⟨_, .single hscan, (session_no_hints (.single hscan) hclock
    (List.forall_mem_singleton.mpr quiet_answeredScan)).1⟩

end Commands

end Gannet
