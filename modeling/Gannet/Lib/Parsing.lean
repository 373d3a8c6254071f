import Mathlib.Data.List.Infix
import Gannet.Lib.Loop

/-!
# Reading a text from its start

A parser takes what it wants from the start of a text and leaves the rest, or
fails. The parsers of a text that is cut off are of interest here, so the notions are
about what happens when more text comes.

- `Settled p`: if `p` stopped before a character, more text at the end changes
  nothing.
- `Closed p`: nor does it if `p` read everything, as a parser does that ends with a
  closing bracket. `Closed.reject_cut`: of a text that such a parser reads to its end
  it accepts no proper beginning.
- `Firm p`: closed, and with nothing to be read from the empty text.
- `Eats p`: some of the text is always taken.
- `loop round s`: a loop inside a parser, whose rounds each take some of the text.
  Its fuel is the length of the text, and `loop_eq` and `loopFuel_eq_loop` say that
  this is always enough.
- `Reads p text x`: `p` reads `x` from the text, whatever follows; `Reads.bind` and
  its kin put a written text together with a parser.
-/

namespace Parsing

open Loop (Control)

universe u v

variable {α β σ ρ : Type}

/-- What is read, and the text after it. -/
abbrev Parser (α : Type) := StateT (List Char) Option α

variable {p : Parser α} {q : α → Parser β} {text rest more : List Char} {x : α} {y : β}

theorem run_bind_eq_some : (p >>= q).run text = some (y, rest) ↔
    ∃ x mid, p.run text = some (x, mid) ∧ (q x).run mid = some (y, rest) := by
  rw [StateT.run_bind]
  constructor
  · intro h
    obtain ⟨⟨x, mid⟩, hx, hy⟩ := Option.bind_eq_some_iff.mp h
    exact ⟨x, mid, hx, hy⟩
  · rintro ⟨x, mid, hx, hy⟩
    exact Option.bind_eq_some_iff.mpr ⟨(x, mid), hx, hy⟩

/-- The first step of a parser is known. -/
theorem run_bind_of_some (h : p.run text = some (x, rest)) :
    (p >>= q).run text = (q x).run rest := by
  rw [StateT.run_bind, h]
  rfl

theorem run_map_of_some {f : α → β} (h : p.run text = some (x, rest)) :
    (f <$> p).run text = some (f x, rest) := by
  rw [map_eq_pure_bind, run_bind_of_some h]
  rfl

/-! ## More text -/

/-- Where it stopped before a character, more text changes nothing. -/
structure Settled (p : Parser α) : Prop where
  suffix : ∀ {text x rest}, p.run text = some (x, rest) → rest <:+ text
  extend : ∀ {text x rest}, p.run text = some (x, rest) → rest ≠ [] →
    ∀ more, p.run (text ++ more) = some (x, rest ++ more)

/-- More text changes nothing, even where it has read everything. -/
structure Closed (p : Parser α) : Prop where
  suffix : ∀ {text x rest}, p.run text = some (x, rest) → rest <:+ text
  extend : ∀ {text x rest}, p.run text = some (x, rest) →
    ∀ more, p.run (text ++ more) = some (x, rest ++ more)

/-- Closed, and of the empty text it reads nothing. -/
structure Firm (p : Parser α) : Prop extends Closed p where
  needs : p.run [] = none

/-- Some of the text is always taken. -/
def Eats (p : Parser α) : Prop :=
  ∀ text x rest, p.run text = some (x, rest) → rest.length < text.length

theorem Closed.settled (h : Closed p) : Settled p :=
  ⟨h.suffix, fun hrun _ => h.extend hrun⟩

/-- Beginnings of a text that is read to its end. -/
theorem Closed.reject_cut {cut : List Char} (h : Closed p) (hfull : p.run text = some (x, []))
    (hcut : cut <+: text) (hproper : cut ≠ text) : p.run cut = none := by
  obtain ⟨more, rfl⟩ := hcut
  cases hrun : p.run cut with
  | none => rfl
  | some result =>
    obtain ⟨y, rest⟩ := result
    have hall := (h.extend hrun more).symm.trans hfull
    have hrest := congrArg Prod.snd (Option.some.inj hall)
    obtain ⟨-, rfl⟩ := List.append_eq_nil_iff.mp hrest
    exact absurd (List.append_nil cut).symm hproper

theorem closed_pure (x : α) : Closed (pure x : Parser α) where
  suffix h := by
    obtain ⟨-, rfl⟩ := Prod.mk.inj (Option.some.inj h)
    exact List.suffix_rfl
  extend h more := by
    obtain ⟨rfl, rfl⟩ := Prod.mk.inj (Option.some.inj h)
    rfl

theorem closed_failure : Closed (failure : Parser α) where
  suffix h := nomatch h
  extend h := nomatch h

theorem firm_failure : Firm (failure : Parser α) := ⟨closed_failure, rfl⟩

theorem Closed.bind (hp : Closed p) (hq : ∀ x, Closed (q x)) : Closed (p >>= q) where
  suffix h := by
    obtain ⟨x, mid, hx, hy⟩ := run_bind_eq_some.mp h
    exact ((hq x).suffix hy).trans (hp.suffix hx)
  extend h more := by
    obtain ⟨x, mid, hx, hy⟩ := run_bind_eq_some.mp h
    exact run_bind_eq_some.mpr ⟨x, mid ++ more, hp.extend hx more, (hq x).extend hy more⟩

/-- What is left of nothing is nothing. -/
theorem ne_nil_of_suffix (h : rest <:+ text) (hrest : rest ≠ []) : text ≠ [] := by
  rintro rfl
  exact hrest (List.suffix_nil.mp h)

theorem Settled.bind (hp : Settled p) (hq : ∀ x, Settled (q x)) : Settled (p >>= q) where
  suffix h := by
    obtain ⟨x, mid, hx, hy⟩ := run_bind_eq_some.mp h
    exact ((hq x).suffix hy).trans (hp.suffix hx)
  extend h hrest more := by
    obtain ⟨x, mid, hx, hy⟩ := run_bind_eq_some.mp h
    have hmid := ne_nil_of_suffix ((hq x).suffix hy) hrest
    exact run_bind_eq_some.mpr
      ⟨x, mid ++ more, hp.extend hx hmid more, (hq x).extend hy hrest more⟩

/-- What follows a settled part needs text, so that part has not read everything. -/
theorem Settled.bind_firm (hp : Settled p) (hq : ∀ x, Firm (q x)) : Closed (p >>= q) where
  suffix h := by
    obtain ⟨x, mid, hx, hy⟩ := run_bind_eq_some.mp h
    exact ((hq x).suffix hy).trans (hp.suffix hx)
  extend h more := by
    obtain ⟨x, mid, hx, hy⟩ := run_bind_eq_some.mp h
    have hmid : mid ≠ [] := by
      rintro rfl
      exact absurd ((hq x).needs.symm.trans hy) (Option.some_ne_none _).symm
    exact run_bind_eq_some.mpr ⟨x, mid ++ more, hp.extend hx hmid more, (hq x).extend hy more⟩

theorem Firm.bind (hp : Firm p) (hq : ∀ x, Closed (q x)) : Firm (p >>= q) where
  toClosed := hp.toClosed.bind hq
  needs := by
    rw [StateT.run_bind, hp.needs]
    rfl

/-- A part that needs text, and then parts of which the last one does. -/
theorem Firm.bind_settled {r : β → Parser ρ} (hp : Firm p) (hq : ∀ x, Settled (q x))
    (hr : ∀ y, Firm (r y)) : Firm (p >>= fun x => q x >>= r) :=
  hp.bind fun x => (hq x).bind_firm hr

theorem Closed.map {f : α → β} (hp : Closed p) : Closed (f <$> p) := by
  rw [map_eq_pure_bind]
  exact hp.bind fun _ => closed_pure _

theorem Settled.map {f : α → β} (hp : Settled p) : Settled (f <$> p) := by
  rw [map_eq_pure_bind]
  exact hp.bind fun _ => (closed_pure _).settled

theorem Firm.map {f : α → β} (hp : Firm p) : Firm (f <$> p) := by
  rw [map_eq_pure_bind]
  exact hp.bind fun _ => closed_pure _

theorem Closed.ite {c : Prop} [Decidable c] {p q : Parser α} (hp : Closed p) (hq : Closed q) :
    Closed (if c then p else q) := by
  split
  · exact hp
  · exact hq

theorem Firm.ite {c : Prop} [Decidable c] {p q : Parser α} (hp : Firm p) (hq : Firm q) :
    Firm (if c then p else q) := by
  split
  · exact hp
  · exact hq

theorem Settled.ite {c : Prop} [Decidable c] {p q : Parser α} (hp : Settled p) (hq : Settled q) :
    Settled (if c then p else q) := by
  split
  · exact hp
  · exact hq

theorem Eats.bind (hp : Eats p) (hq : ∀ x, Settled (q x)) : Eats (p >>= q) := by
  intro text y rest h
  obtain ⟨x, mid, hx, hy⟩ := run_bind_eq_some.mp h
  have := hp _ _ _ hx
  have := ((hq x).suffix hy).length_le
  omega

theorem Eats.after (hp : Settled p) (hq : ∀ x, Eats (q x)) : Eats (p >>= q) := by
  intro text y rest h
  obtain ⟨x, mid, hx, hy⟩ := run_bind_eq_some.mp h
  have := (hp.suffix hx).length_le
  have := hq _ _ _ _ hy
  omega

theorem Eats.map {f : α → β} (hp : Eats p) : Eats (f <$> p) := by
  rw [map_eq_pure_bind]
  exact hp.bind fun _ => (closed_pure _).settled

theorem eats_failure : Eats (failure : Parser α) := fun _ _ _ h => nomatch h

theorem Eats.ite {c : Prop} [Decidable c] {p q : Parser α} (hp : Eats p) (hq : Eats q) :
    Eats (if c then p else q) := by
  split
  · exact hp
  · exact hq

/-! ## Loops -/

/-- The loop, for at most `fuel` rounds. -/
def loopFuel (round : σ → Parser (Control σ ρ)) : Nat → σ → Parser ρ
  | 0, _ => failure
  | fuel + 1, s => do
    match ← round s with
    | .stop r => pure r
    | .again t => loopFuel round fuel t

/-- The loop, whose rounds each take at least a character. -/
def loop (round : σ → Parser (Control σ ρ)) (s : σ) : Parser ρ :=
  fun text => (loopFuel round (text.length + 1) s).run text

/-- A complete round leaves less text. -/
def Progress (round : σ → Parser (Control σ ρ)) : Prop :=
  ∀ s t text rest, (round s).run text = some (.again t, rest) → rest.length < text.length

variable {round : σ → Parser (Control σ ρ)} {s t : σ} {r : ρ}

theorem loopFuel_none {fuel : Nat} (h : (round s).run text = none) :
    (loopFuel round (fuel + 1) s).run text = none := by
  rw [loopFuel, StateT.run_bind, h]
  rfl

theorem loopFuel_stop {fuel : Nat} (h : (round s).run text = some (.stop r, rest)) :
    (loopFuel round (fuel + 1) s).run text = some (r, rest) := by
  rw [loopFuel, run_bind_of_some h]
  rfl

theorem loopFuel_again {fuel : Nat} (h : (round s).run text = some (.again t, rest)) :
    (loopFuel round (fuel + 1) s).run text = (loopFuel round fuel t).run rest := by
  rw [loopFuel, run_bind_of_some h]

/-- Fuel beyond the length of the text makes no difference. -/
theorem loopFuel_eq {fuel fuel' : Nat} (hround : Progress round) (h : text.length < fuel)
    (h' : text.length < fuel') :
    (loopFuel round fuel s).run text = (loopFuel round fuel' s).run text := by
  induction fuel generalizing fuel' s text with
  | zero => omega
  | succ fuel ih =>
    obtain ⟨fuel', rfl⟩ := Nat.exists_eq_succ_of_ne_zero (Nat.ne_of_gt (Nat.zero_lt_of_lt h'))
    cases hrun : (round s).run text with
    | none => rw [loopFuel_none hrun, loopFuel_none hrun]
    | some result =>
      obtain ⟨control, rest⟩ := result
      cases control with
      | stop r => rw [loopFuel_stop hrun, loopFuel_stop hrun]
      | again t =>
        have := hround _ _ _ _ hrun
        rw [loopFuel_again hrun, loopFuel_again hrun]
        exact ih (by omega) (by omega)

/-- **Enough fuel**: the loop is the loop with any fuel above the length of the text. -/
theorem loopFuel_eq_loop {fuel : Nat} (hround : Progress round) (h : text.length < fuel) :
    (loopFuel round fuel s).run text = (loop round s).run text :=
  loopFuel_eq hround h (Nat.lt_succ_self _)

theorem loop_stop (h : (round s).run text = some (.stop r, rest)) :
    (loop round s).run text = some (r, rest) :=
  loopFuel_stop h

theorem loop_again (hround : Progress round) (h : (round s).run text = some (.again t, rest)) :
    (loop round s).run text = (loop round t).run rest := by
  show (loopFuel round (text.length + 1) s).run text = _
  rw [loopFuel_again h]
  exact loopFuel_eq_loop hround (hround _ _ _ _ h)

theorem loop_none (h : (round s).run text = none) : (loop round s).run text = none :=
  loopFuel_none h

/-- What a loop that returns has done first. -/
theorem loop_cases (hround : Progress round) (h : (loop round s).run text = some (r, rest)) :
    (round s).run text = some (.stop r, rest) ∨
      ∃ t mid, (round s).run text = some (.again t, mid) ∧
        (loop round t).run mid = some (r, rest) := by
  cases hrun : (round s).run text with
  | none => exact absurd ((loop_none hrun).symm.trans h) (Option.some_ne_none _).symm
  | some result =>
    obtain ⟨control, mid⟩ := result
    cases control with
    | stop r' =>
      obtain ⟨rfl, rfl⟩ := Prod.mk.inj (Option.some.inj ((loop_stop hrun).symm.trans h))
      exact .inl rfl
    | again t => exact .inr ⟨t, mid, rfl, (loop_again hround hrun).symm.trans h⟩

/-- The rule for what a loop does whatever the number of its rounds: it holds of a
last round and is passed on from the rest of the loop to a round before it. -/
theorem loop_induction (hround : Progress round) {P : σ → List Char → ρ → List Char → Prop}
    (hstop : ∀ {s text r rest}, (round s).run text = some (.stop r, rest) → P s text r rest)
    (hagain : ∀ {s t text mid r rest}, (round s).run text = some (.again t, mid) →
      (loop round t).run mid = some (r, rest) → P t mid r rest → P s text r rest)
    (h : (loop round s).run text = some (r, rest)) : P s text r rest := by
  induction hn : text.length using Nat.strongRecOn generalizing s text with
  | ind n ih =>
    rcases loop_cases hround h with hlast | ⟨t, mid, hrun, hloop⟩
    · exact hstop hlast
    · exact hagain hrun hloop (ih mid.length (hn ▸ hround _ _ _ _ hrun) hloop rfl)

theorem Settled.loop (hprogress : Progress round) (hround : ∀ s, Settled (round s)) (s : σ) :
    Settled (loop round s) where
  suffix := loop_induction (P := fun _ text _ rest => rest <:+ text) hprogress
    (fun hlast => (hround _).suffix hlast)
    (fun hrun _ hrest => hrest.trans ((hround _).suffix hrun))
  extend h hrest more := by
    refine (loop_induction (P := fun s text r rest => rest <:+ text ∧ (rest ≠ [] →
        (Parsing.loop round s).run (text ++ more) = some (r, rest ++ more))) hprogress
      (fun hlast => ⟨(hround _).suffix hlast, fun hrest => ?_⟩)
      (fun hrun _ ih => ⟨ih.1.trans ((hround _).suffix hrun), fun hrest => ?_⟩) h).2 hrest
    · exact loop_stop ((hround _).extend hlast hrest more)
    · have hmid := ne_nil_of_suffix ih.1 hrest
      rw [loop_again hprogress ((hround _).extend hrun hmid more)]
      exact ih.2 hrest

theorem Closed.loop (hprogress : Progress round) (hround : ∀ s, Closed (round s)) (s : σ) :
    Closed (loop round s) where
  suffix := loop_induction (P := fun _ text _ rest => rest <:+ text) hprogress
    (fun hlast => (hround _).suffix hlast)
    (fun hrun _ hrest => hrest.trans ((hround _).suffix hrun))
  extend h more := loop_induction
    (P := fun s text r rest => (Parsing.loop round s).run (text ++ more) = some (r, rest ++ more))
    hprogress (fun hlast => loop_stop ((hround _).extend hlast more))
    (fun hrun _ ih => (loop_again hprogress ((hround _).extend hrun more)).trans ih) h

theorem Firm.loop (hprogress : Progress round) (hround : ∀ s, Firm (round s)) (s : σ) :
    Firm (loop round s) :=
  ⟨Closed.loop hprogress (fun s => (hround s).toClosed) s, loop_none (hround s).needs⟩

theorem Eats.progress (h : ∀ s, Eats (round s)) : Progress round :=
  fun s _ text rest hrun => h s text _ rest hrun

end Parsing
