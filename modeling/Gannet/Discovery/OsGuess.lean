import Gannet.Discovery.Fingerprint
import Gannet.Discovery.TcpOptions
import Gannet.Identity.Classify
import Gannet.Lib.Ranking

/-!
# Guessing the operating system (discovery/fingerprint.rs)

`guess_os` has fourteen rules. Those whose condition holds push a label with a
score; the scores are sorted, and the first label is the hint.

- `os_rule_live_iff`: the label of a rule is ever returned iff no earlier rule with
  at least its score holds wherever it does.
- `osHint_not_ioT`: the rule for embedded devices is behind the one for Linux, so no
  hint is of the kind that `os_category` would take for an IoT device.
-/

namespace Gannet

open Bytes Ranking

namespace Fingerprint

/-! ## The code -/

/-- One `if` of `guess_os`: the hint it pushes, its score and its condition. -/
structure OsRule where
  label : String
  score : Nat
  applies : StackFingerprint → Bool

/-- The rules in the order of their tests. -/
def osRules : List OsRule :=
  [⟨"Linux", 3, fun fp => fp.ttl ≤ 64⟩,
    ⟨"Linux (kernel 4.x+)", 8, fun fp =>
      fp.ttl ≤ 64 && fp.window == 65535 && fp.mss == some 1460 && fp.scale.isSome⟩,
    ⟨"Linux (kernel 3.x)", 6, fun fp => fp.ttl ≤ 64 && fp.window == 29200 && fp.mss == some 1460⟩,
    ⟨"macOS 10.15+", 9, fun fp => fp.ttl == 64 && fp.window == 65535 &&
      fp.options.contains .timestamp && fp.options.contains .sackPermitted⟩,
    ⟨"macOS 10.15+", 7, fun fp => fp.ttl == 64 && fp.window == 65535 && fp.mss == some 1460⟩,
    ⟨"macOS/Linux", 3, fun fp => fp.ttl == 64⟩,
    ⟨"Windows", 3, fun fp => fp.ttl == 128⟩,
    ⟨"Windows 7/2008", 7, fun fp => fp.ttl == 128 && fp.window == 8192⟩,
    ⟨"Windows 10/11", 8, fun fp => fp.ttl == 128 && fp.window == 65535 && fp.scale == some 8⟩,
    ⟨"Windows 10/11", 9, fun fp => fp.ttl == 128 && fp.window == 65535 &&
      fp.options.contains .timestamp && fp.options.contains .sackPermitted && fp.scale == some 8⟩,
    ⟨"BSD/Solaris/Network Device", 4, fun fp => fp.ttl == 255⟩,
    ⟨"OpenBSD", 7, fun fp => fp.ttl == 255 && fp.window == 16384⟩,
    ⟨"FreeBSD", 6, fun fp => fp.ttl == 255 && fp.window == 65535⟩,
    ⟨"Embedded/IoT", 3, fun fp => fp.ttl ≤ 32⟩]

/-- `guess_os` -/
def guessOs (fp : StackFingerprint) : Option String :=
  let scores := osRules.filter fun rule => rule.applies fp
  ((scores.mergeSort fun a b => b.score ≤ a.score).head?).map OsRule.label

/-- `FingerprintResult` -/
structure Result where
  synAck : Option StackFingerprint
  osHint : Option String
deriving DecidableEq, Repr

/-- What `probe_syn` makes of the SYN+ACK, if one came. -/
def resultOf (synAck : Option SynAck) : Except Panic Result :=
  match synAck with
  | some (ttl, window, opts) => do
    let fp ← parseStackFingerprint ttl window opts
    return ⟨some fp, guessOs fp⟩
  | none => .ok ⟨none, none⟩

/-! ## The rule that wins -/

variable {fp : StackFingerprint} {rule : OsRule}

/-- The first of the rules that apply with the highest score. -/
def winningRule (fp : StackFingerprint) : Option OsRule :=
  winner OsRule.applies OsRule.score osRules fp

/-- The hint is the label of the rule that wins. -/
theorem guessOs_eq (fp : StackFingerprint) : guessOs fp = (winningRule fp).map OsRule.label :=
  congrArg (Option.map OsRule.label) (head?_mergeSort OsRule.score _)

/-- No two rules have both their label and their score in common. -/
theorem osRules_nodup : osRules.Nodup :=
  List.Nodup.of_map (fun rule => (rule.label, rule.score)) (by decide)

/-- Two labels belong to rules that are shadowed. -/
def deadLabels : List String := ["macOS/Linux", "Embedded/IoT"]

/-- A fingerprint with the TTL of a rule and nothing else of interest. -/
def bareFingerprint (ttl : UInt8) (window : UInt16) : StackFingerprint :=
  ⟨ttl, window, [], none, none, false, 0⟩

/-- Every other rule wins somewhere. -/
theorem exists_winningRule (hrule : rule ∈ osRules) (hlabel : rule.label ∉ deadLabels) :
    ∃ fp, winningRule fp = some rule := by
  simp only [osRules, List.mem_cons, List.not_mem_nil, or_false] at hrule
  obtain rfl | rfl | rfl | rfl | rfl | rfl | rfl | rfl | rfl | rfl | rfl | rfl | rfl | rfl := hrule
  · exact ⟨bareFingerprint 64 0, rfl⟩
  · exact ⟨⟨63, 65535, [], some 1460, some 7, false, 0⟩, rfl⟩
  · exact ⟨⟨64, 29200, [], some 1460, none, false, 0⟩, rfl⟩
  · exact ⟨⟨64, 65535, [.timestamp, .sackPermitted], none, none, true, 0⟩, rfl⟩
  · exact ⟨⟨64, 65535, [], some 1460, none, false, 0⟩, rfl⟩
  · exact absurd List.mem_cons_self hlabel
  · exact ⟨bareFingerprint 128 0, rfl⟩
  · exact ⟨bareFingerprint 128 8192, rfl⟩
  · exact ⟨⟨128, 65535, [], none, some 8, false, 0⟩, rfl⟩
  · exact ⟨⟨128, 65535, [.timestamp, .sackPermitted], none, some 8, true, 0⟩, rfl⟩
  · exact ⟨bareFingerprint 255 0, rfl⟩
  · exact ⟨bareFingerprint 255 16384, rfl⟩
  · exact ⟨bareFingerprint 255 65535, rfl⟩
  · exact absurd (List.mem_cons_of_mem _ List.mem_cons_self) hlabel

/-- The rules that never win ask for a small TTL. -/
theorem ttl_of_dead (hrule : rule ∈ osRules) (hdead : rule.label ∈ deadLabels)
    (happlies : rule.applies fp = true) : fp.ttl ≤ 64 := by
  have hmem : rule ∈ osRules.filter fun r => r.label ∈ deadLabels :=
    List.mem_filter.mpr ⟨hrule, decide_eq_true hdead⟩
  have htwo : osRules.filter (fun r => r.label ∈ deadLabels)
      = [⟨"macOS/Linux", 3, fun fp => fp.ttl == 64⟩,
        ⟨"Embedded/IoT", 3, fun fp => fp.ttl ≤ 32⟩] := rfl
  rw [htwo, List.mem_cons, List.mem_singleton] at hmem
  obtain rfl | rfl := hmem
  · exact UInt8.le_of_eq (eq_of_beq happlies)
  · exact UInt8.le_trans (of_decide_eq_true happlies) (by decide)

/-- The first rule holds wherever one of the two does. -/
theorem dead_shadowed {before after : List OsRule} (htable : osRules = before ++ rule :: after)
    (hdead : rule.label ∈ deadLabels) :
    ∃ earlier, Shadows OsRule.applies OsRule.score before earlier rule := by
  have hrule : rule ∈ osRules := htable ▸ List.mem_append_right before List.mem_cons_self
  cases before with
  | nil =>
    obtain ⟨rfl, -⟩ := List.cons.inj htable
    exact absurd hdead (by decide)
  | cons linux before =>
    obtain ⟨rfl, -⟩ := List.cons.inj htable
    refine ⟨_, List.mem_cons_self, ?_, fun fp happlies => ?_⟩
    · have hscores : ∀ r ∈ osRules, r.label ∈ deadLabels → r.score ≤ 3 := by decide
      exact hscores rule hrule hdead
    · exact decide_eq_true (ttl_of_dead hrule hdead happlies)

/-- So neither of them ever wins. -/
theorem winningRule_ne_dead (hdead : rule.label ∈ deadLabels) : winningRule fp ≠ some rule := by
  intro hwin
  obtain ⟨before, after, htable⟩ := List.append_of_mem (winner_spec hwin).1
  obtain ⟨earlier, hshadows⟩ := dead_shadowed htable hdead
  rw [winningRule, htable] at hwin
  exact hshadows.winner_ne (htable ▸ osRules_nodup) hwin

/-- They give no hint. -/
theorem guessOs_notMem_dead {hint : String} (h : guessOs fp = some hint) : hint ∉ deadLabels := by
  rw [guessOs_eq] at h
  obtain ⟨rule, hwin, rfl⟩ := Option.map_eq_some_iff.mp h
  exact fun hdead => winningRule_ne_dead hdead hwin

/-- **Rules of the guesser**: the label of a rule is returned for some fingerprint
iff no rule before it with at least its score holds for all fingerprints it holds
for. -/
theorem os_rule_live_iff {before after : List OsRule} (htable : osRules = before ++ rule :: after) :
    (∃ fp, guessOs fp = some rule.label) ↔ ∀ earlier ∈ before, rule.score ≤ earlier.score →
      ∃ fp, rule.applies fp = true ∧ earlier.applies fp = false := by
  by_cases hdead : rule.label ∈ deadLabels
  · obtain ⟨earlier, hshadows⟩ := dead_shadowed htable hdead
    constructor
    · rintro ⟨fp, hfp⟩
      exact absurd hdead (guessOs_notMem_dead hfp)
    · intro hfree
      obtain ⟨fp, happlies, hnot⟩ := hfree earlier hshadows.earlier hshadows.score_le
      exact nomatch hnot.symm.trans (hshadows.applies fp happlies)
  · have hrule : rule ∈ osRules := htable ▸ List.mem_append_right before List.mem_cons_self
    obtain ⟨fp, hwin⟩ := exists_winningRule hrule hdead
    refine iff_of_true ⟨fp, by rw [guessOs_eq, hwin]; rfl⟩ fun earlier hmem hscore => ?_
    by_contra hnone
    have hshadows : Shadows OsRule.applies OsRule.score before earlier rule := by
      refine ⟨hmem, hscore, fun fp happlies => ?_⟩
      by_contra hnot
      exact hnone ⟨fp, happlies, Bool.eq_false_of_not_eq_true hnot⟩
    rw [winningRule, htable] at hwin
    exact hshadows.winner_ne (htable ▸ osRules_nodup) hwin

/-- The rule for embedded devices is behind the one for Linux. -/
theorem os_rules_dead : (¬ ∃ fp, guessOs fp = some "macOS/Linux") ∧
    (¬ ∃ fp, guessOs fp = some "Embedded/IoT") ∧
    "macOS/Linux" ∈ osRules.map OsRule.label ∧ "Embedded/IoT" ∈ osRules.map OsRule.label := by
  refine ⟨?_, ?_, by decide, by decide⟩
  · rintro ⟨fp, hfp⟩
    exact guessOs_notMem_dead hfp (by decide)
  · rintro ⟨fp, hfp⟩
    exact guessOs_notMem_dead hfp (by decide)

/-- No rule before it covers its condition with a better score. -/
theorem os_rule_live_freeBSD : (∃ fp, guessOs fp = some "FreeBSD") ↔
    ∀ earlier ∈ osRules.take 12, 6 ≤ earlier.score → ∃ fp : StackFingerprint,
      (fp.ttl == 255 && fp.window == 65535) = true ∧ earlier.applies fp = false :=
  os_rule_live_iff (show osRules = osRules.take 12 ++
    (⟨"FreeBSD", 6, fun fp => fp.ttl == 255 && fp.window == 65535⟩ : OsRule) ::
      osRules.drop 13 from rfl)

/-- So no hint makes a device an IoT device. -/
theorem osHint_not_ioT {hint : String} (h : guessOs fp = some hint) :
    osCategory hint.toList ≠ some .ioT := by
  have hlabels : ∀ label ∈ osRules.map OsRule.label, label ∉ deadLabels →
      osCategory label.toList ≠ some .ioT := by decide +kernel
  have hlive := guessOs_notMem_dead h
  rw [guessOs_eq] at h
  obtain ⟨rule, hwin, rfl⟩ := Option.map_eq_some_iff.mp h
  exact hlabels _ (List.mem_map_of_mem (winner_spec hwin).1) hlive

end Fingerprint

end Gannet
