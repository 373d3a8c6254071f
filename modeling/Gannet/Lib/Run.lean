import Mathlib.Data.List.Perm.Basic

/-!
# Runs of labelled transition systems

The components are state machines driven from outside: a step takes a state
and a label (a call, a received message, a scheduler's choice) to a next state,
possibly more than one. This file has the one induction such systems need.

- `Run step s as t`: from `s`, the labels `as` in order can lead to `t`.
- `Run.invariant`: what holds first and survives every step holds at the end
  of every run, hence in every state reached (a prefix of a run is a run).
- `Guarded step cond`: the same system restricted to steps that meet `cond`;
  a run of it is a run whose steps all meet `cond`.
- `Commuting step Ok`: labels that, where `Ok` allows them, lead to one state
  and may be swapped. Then the order of the labels of a run does not matter
  (`Commuting.run_perm`, `Commuting.run_unique`).
-/

namespace Lts

universe u v

variable {σ : Type u} {α : Type v} {step : σ → α → σ → Prop}

/-- Runs from `s`: the labels taken, oldest first, and the state reached. -/
inductive Run (step : σ → α → σ → Prop) (s : σ) : List α → σ → Prop where
  | nil : Run step s [] s
  | snoc {as : List α} {a : α} {t u : σ} :
      Run step s as t → step t a u → Run step s (as ++ [a]) u

namespace Run

theorem single {s t : σ} {a : α} (h : step s a t) : Run step s [a] t :=
  (nil : Run step s [] s).snoc h

/-- Runs compose, and so do their labels. -/
theorem append {s t u : σ} {as bs : List α} (h₁ : Run step s as t)
    (h₂ : Run step t bs u) : Run step s (as ++ bs) u := by
  induction h₂ with
  | nil => simpa using h₁
  | snoc _ hstep ih =>
    rw [← List.append_assoc]
    exact ih.snoc hstep

theorem cons {s t u : σ} {a : α} {as : List α} (h : step s a t) (hrun : Run step t as u) :
    Run step s (a :: as) u :=
  (single h).append hrun

theorem nil_iff {s t : σ} : Run step s [] t ↔ t = s := by
  constructor
  · intro h
    generalize hlabels : ([] : List α) = labels at h
    induction h with
    | nil => rfl
    | snoc _ _ _ => exact absurd hlabels (by simp)
  · rintro rfl
    exact .nil

/-- Runs, last step last. -/
theorem snoc_iff {s u : σ} {a : α} {as : List α} :
    Run step s (as ++ [a]) u ↔ ∃ t, Run step s as t ∧ step t a u := by
  constructor
  · intro h
    generalize hlabels : as ++ [a] = labels at h
    cases h with
    | nil => exact absurd hlabels (by simp)
    | snoc hrun hlast =>
      obtain ⟨rfl, hsame⟩ := List.append_inj' hlabels rfl
      obtain ⟨rfl, -⟩ := List.cons.inj hsame
      exact ⟨_, hrun, hlast⟩
  · rintro ⟨t, hrun, hlast⟩
    exact hrun.snoc hlast

/-- Runs, first step first. -/
theorem cons_iff {s t : σ} {a : α} {as : List α} :
    Run step s (a :: as) t ↔ ∃ u, step s a u ∧ Run step u as t := by
  constructor
  · intro h
    generalize hlabels : a :: as = labels at h
    induction h generalizing as with
    | nil => exact nomatch hlabels
    | @snoc bs b t u hrun hlast ih =>
      cases bs with
      | nil =>
        obtain rfl := nil_iff.mp hrun
        obtain ⟨rfl, rfl⟩ := List.cons.inj hlabels
        exact ⟨u, hlast, .nil⟩
      | cons b' bs =>
        obtain ⟨rfl, rfl⟩ := List.cons.inj hlabels
        obtain ⟨v, hfirst, hrest⟩ := ih rfl
        exact ⟨v, hfirst, hrest.snoc hlast⟩
  · rintro ⟨u, hfirst, hrest⟩
    exact cons hfirst hrest

/-- The invariant rule, for invariants that also read the labels taken so far. -/
theorem invariant_labels {s t : σ} {as : List α} (I : List α → σ → Prop)
    (hinit : I [] s)
    (hstep : ∀ {bs : List α} {b : α} {t u : σ},
      Run step s bs t → I bs t → step t b u → I (bs ++ [b]) u)
    (h : Run step s as t) : I as t := by
  induction h with
  | nil => exact hinit
  | snoc hrun hlast ih => exact hstep hrun ih hlast

/-- The invariant rule. -/
theorem invariant {s t : σ} {as : List α} (I : σ → Prop) (hinit : I s)
    (hstep : ∀ {t u : σ} {b : α}, I t → step t b u → I u)
    (h : Run step s as t) : I t :=
  h.invariant_labels (fun _ => I) hinit fun _ hI hs => hstep hI hs

/-- Runs of a system are runs of any system that allows the same steps. -/
theorem mono {step' : σ → α → σ → Prop} {s t : σ} {as : List α}
    (himp : ∀ {t u : σ} {a : α}, step t a u → step' t a u)
    (h : Run step s as t) : Run step' s as t := by
  induction h with
  | nil => exact nil
  | snoc _ hstep ih => exact ih.snoc (himp hstep)

/-- A run is followed step by step in another system: `view` is what is seen of a state
there, `labels` what a step is seen as. -/
theorem simulate {τ β : Type*} {step' : τ → β → τ → Prop} {s t : σ} {as : List α} (view : σ → τ)
    (labels : α → List β)
    (hstep : ∀ {bs : List α} {b : α} {t u : σ}, Run step s bs t →
      Run step' (view s) (bs.flatMap labels) (view t) → step t b u →
      Run step' (view t) (labels b) (view u))
    (h : Run step s as t) : Run step' (view s) (as.flatMap labels) (view t) := by
  induction h with
  | nil => exact .nil
  | snoc hrun hlast ih =>
    rw [List.flatMap_append, List.flatMap_singleton]
    exact ih.append (hstep hrun ih hlast)

end Run

/-- The steps of a system that meet `cond` at the state they leave. -/
def Guarded (step : σ → α → σ → Prop) (cond : σ → α → Prop) : σ → α → σ → Prop :=
  fun s a t => cond s a ∧ step s a t

theorem Run.of_guarded {cond : σ → α → Prop} {s t : σ} {as : List α}
    (h : Run (Guarded step cond) s as t) : Run step s as t :=
  h.mono fun hs => hs.2

/-! ## Commuting labels -/

/-- Where the labels are `Ok`, a step has one outcome, leaves the rest of them
`Ok`, and may change places with the step after it. -/
structure Commuting (step : σ → α → σ → Prop) (Ok : σ → List α → Prop) : Prop where
  perm : ∀ {s as bs}, as.Perm bs → Ok s as → Ok s bs
  rest : ∀ {s a as t}, Ok s (a :: as) → step s a t → Ok t as
  unique : ∀ {s a as t t'}, Ok s (a :: as) → step s a t → step s a t' → t = t'
  swap : ∀ {s a b as t u}, Ok s (a :: b :: as) → step s a t → step t b u →
    ∃ t', step s b t' ∧ step t' a u

namespace Commuting

variable {Ok : σ → List α → Prop} {s t t' : σ} {as bs : List α}

/-- The labels of a run in any other order are the labels of a run to the same
state. -/
theorem run_perm (hc : Commuting step Ok) (hperm : as.Perm bs) (hok : Ok s as)
    (h : Run step s as t) : Run step s bs t := by
  induction hperm generalizing s t with
  | nil => exact h
  | cons a _ ih =>
    obtain ⟨u, hfirst, hrest⟩ := Run.cons_iff.mp h
    exact Run.cons_iff.mpr ⟨u, hfirst, ih (hc.rest hok hfirst) hrest⟩
  | swap a b as =>
    obtain ⟨u, hfirst, hrest⟩ := Run.cons_iff.mp h
    obtain ⟨v, hsecond, hrest⟩ := Run.cons_iff.mp hrest
    obtain ⟨u', hfirst', hsecond'⟩ := hc.swap hok hfirst hsecond
    exact Run.cons_iff.mpr ⟨u', hfirst', Run.cons_iff.mpr ⟨v, hsecond', hrest⟩⟩
  | trans hperm₁ _ ih₁ ih₂ => exact ih₂ (hc.perm hperm₁ hok) (ih₁ hok h)

/-- A run's labels determine where it leads. -/
theorem run_unique (hc : Commuting step Ok) (hok : Ok s as) (h : Run step s as t)
    (h' : Run step s as t') : t = t' := by
  induction as generalizing s with
  | nil => rw [Run.nil_iff.mp h, Run.nil_iff.mp h']
  | cons a as ih =>
    obtain ⟨u, hfirst, hrest⟩ := Run.cons_iff.mp h
    obtain ⟨u', hfirst', hrest'⟩ := Run.cons_iff.mp h'
    obtain rfl := hc.unique hok hfirst hfirst'
    exact ih (hc.rest hok hfirst) hrest hrest'

end Commuting

end Lts
