import Mathlib.Order.Basic

/-!
# Loops that leave from the middle

`loop { .. }` with `return`, `break` and `continue` inside: a body that, from
the loop's variables, either goes round `again` with new ones or `stop`s with
the result, and that may fail.

- `Halts body s n r`: after `n` complete rounds the next one stops with `r`.
- `run body fuel s`: the executable loop, `none` when the fuel is used up.
- `Visits body s ss t r`: the same as `Halts`, with the states its rounds start
  from.
- `exists_halts_of_decreasing`, `exists_halts`: a loop whose complete rounds
  lower a measure, or make progress towards a bound, halts within that many.
- `forRange`: a loop over a range; `Unrolls.forRange` relates it to a recursion.
- `appendAll`: a loop over a list that pushes to a result, which is judged with
  `AllOk`.
-/

namespace Loop

universe u v w

variable {σ : Type u} {ρ : Type v} {ε : Type w}

/-- What a round of the loop decides. -/
inductive Control (σ : Type u) (ρ : Type v) where
  | again (s : σ)
  | stop (r : ρ)

variable (body : σ → Except ε (Control σ ρ))

/-- The loop, for at most `fuel` rounds. -/
def run : Nat → σ → Option (Except ε ρ)
  | 0, _ => none
  | fuel + 1, s =>
    match body s with
    | .error e => some (.error e)
    | .ok (.stop r) => some (.ok r)
    | .ok (.again t) => run fuel t

/-- The loop from `s` stops with `r`, after `n` complete rounds. -/
inductive Halts : σ → Nat → ρ → Prop where
  | stop {s : σ} {r : ρ} : body s = .ok (.stop r) → Halts s 0 r
  | again {s t : σ} {n : Nat} {r : ρ} :
      body s = .ok (.again t) → Halts t n r → Halts s (n + 1) r

/-- The loop from `s` makes complete rounds from the states `ss` in order, and
stops with `r` in the round from `t`. -/
inductive Visits : σ → List σ → σ → ρ → Prop where
  | stop {s : σ} {r : ρ} : body s = .ok (.stop r) → Visits s [] s r
  | again {s t u : σ} {ss : List σ} {r : ρ} :
      body s = .ok (.again t) → Visits t ss u r → Visits s (s :: ss) u r

variable {body} {s : σ} {n : Nat} {r : ρ}

/-- With more fuel than rounds, the executable loop returns the result. -/
theorem Halts.run_eq {fuel : Nat} (h : Halts body s n r) (hfuel : n < fuel) :
    run body fuel s = some (.ok r) := by
  induction h generalizing fuel with
  | stop hstop =>
    obtain ⟨fuel, rfl⟩ := Nat.exists_eq_succ_of_ne_zero (Nat.ne_of_gt hfuel)
    rw [run, hstop]
  | again hround _ ih =>
    obtain ⟨fuel, rfl⟩ := Nat.exists_eq_succ_of_ne_zero (Nat.ne_of_gt (Nat.zero_lt_of_lt hfuel))
    rw [run, hround]
    exact ih (Nat.lt_of_succ_lt_succ hfuel)

theorem Visits.halts {t : σ} {ss : List σ} (h : Visits body s ss t r) :
    Halts body s ss.length r := by
  induction h with
  | stop hstop => exact .stop hstop
  | again hround _ ih => exact .again hround ih

/-- **Termination**: if no round from a state of the invariant fails, and every
complete round lowers the measure, the loop halts, with at most as many complete
rounds as the measure says. -/
theorem exists_halts_of_decreasing (I : σ → Prop) (measure : σ → Nat)
    (hround : ∀ s, I s → (∃ r, body s = .ok (.stop r)) ∨
      ∃ t, body s = .ok (.again t) ∧ I t ∧ measure t < measure s) (hs : I s) :
    ∃ n r, Halts body s n r ∧ n ≤ measure s := by
  induction hm : measure s using Nat.strongRecOn generalizing s with
  | ind m ih =>
    rcases hround s hs with ⟨r, hstop⟩ | ⟨t, hagain, ht, hlt⟩
    · exact ⟨0, r, .stop hstop, Nat.zero_le _⟩
    · obtain ⟨n, r, hhalts, hn⟩ := ih (measure t) (by omega) ht rfl
      exact ⟨n + 1, r, hhalts.again hagain, by omega⟩

/-- A loop whose complete rounds each make one unit of progress towards a bound
halts before it has done more rounds than the bound allows. -/
theorem exists_halts (I : σ → Prop) (progress : σ → Nat) {bound : Nat}
    (hround : ∀ s, I s → (∃ r, body s = .ok (.stop r)) ∨
      ∃ t, body s = .ok (.again t) ∧ I t ∧ progress t = progress s + 1)
    (hbound : ∀ s, I s → progress s ≤ bound) (hs : I s) :
    ∃ n r, Halts body s n r ∧ n + progress s ≤ bound := by
  obtain ⟨n, r, hhalts, hn⟩ := exists_halts_of_decreasing I (fun s => bound - progress s) (by
    intro s hs
    rcases hround s hs with hstop | ⟨t, hagain, ht, hprogress⟩
    · exact .inl hstop
    · have := hbound t ht
      exact .inr ⟨t, hagain, ht, by omega⟩) hs
  have := hbound s hs
  exact ⟨n, r, hhalts, by omega⟩

/-! ## Bounded loops -/

/-- `for _ in 0..limit`, with `finish` after the last round and `stop` where the
body leaves the loop; also the number of rounds entered. -/
def forRange (body : σ → Except ε (Control σ ρ)) (finish : σ → ρ) :
    Nat → σ → Except ε (ρ × Nat)
  | 0, s => .ok (finish s, 0)
  | limit + 1, s =>
    match body s with
    | .error e => .error e
    | .ok (.stop r) => .ok (r, 1)
    | .ok (.again t) => (forRange body finish limit t).map fun (r, rounds) => (r, rounds + 1)

/-- The recursion `loop` on the number of rounds left is the loop of this body,
and no round of it fails. -/
structure Unrolls (body : σ → Except ε (Control σ ρ)) (finish : σ → ρ)
    (loop : Nat → σ → Except ε ρ) : Prop where
  zero : ∀ s, loop 0 s = .ok (finish s)
  succ : ∀ s, (∃ r, body s = .ok (.stop r) ∧ ∀ n, loop (n + 1) s = .ok r) ∨
    ∃ t, body s = .ok (.again t) ∧ ∀ n, loop (n + 1) s = loop n t

/-- The bounded loop returns what the recursion does, and enters no more rounds
than it may. -/
theorem Unrolls.forRange {finish : σ → ρ} {loop : Nat → σ → Except ε ρ}
    (h : Unrolls body finish loop) (limit : Nat) (s : σ) :
    ∃ r rounds, forRange body finish limit s = .ok (r, rounds) ∧ rounds ≤ limit ∧
      loop limit s = .ok r := by
  induction limit generalizing s with
  | zero => exact ⟨finish s, 0, rfl, Nat.le_refl 0, h.zero s⟩
  | succ limit ih =>
    rcases h.succ s with ⟨r, hstop, hloop⟩ | ⟨t, hagain, hloop⟩
    · refine ⟨r, 1, ?_, by omega, hloop limit⟩
      rw [Loop.forRange, hstop]
    · obtain ⟨r, rounds, hrun, hle, hr⟩ := ih t
      refine ⟨r, rounds + 1, ?_, by omega, (hloop limit).trans hr⟩
      rw [Loop.forRange, hagain]
      simp only [hrun]
      rfl

/-! ## Loops over a list -/

/-- A map none of whose calls fails. -/
theorem mapM_ok {α β ε : Type} {f : α → Except ε β} {g : α → β} {xs : List α}
    (h : ∀ x ∈ xs, f x = .ok (g x)) : xs.mapM f = .ok (xs.map g) := by
  induction xs with
  | nil => rfl
  | cons x xs ih =>
    rw [List.mapM_cons, h x List.mem_cons_self, ih fun y hy => h y (List.mem_cons_of_mem x hy)]
    rfl

section AppendAll

variable {α : Type u} {β : Type v} {ε : Type w}

/-- A loop that appends what each round brings. -/
def appendAll (f : α → Except ε (List β)) : List α → Except ε (List β)
  | [] => .ok []
  | x :: xs =>
    match f x, appendAll f xs with
    | .ok ys, .ok rest => .ok (ys ++ rest)
    | .error e, _ => .error e
    | .ok _, .error e => .error e

/-- The computation returns, and all it returns has the property. -/
def AllOk (p : β → Prop) (r : Except ε (List β)) : Prop := ∃ ys, r = .ok ys ∧ ∀ y ∈ ys, p y

variable {p : β → Prop} {r r' : Except ε (List β)}

theorem allOk_ok {ys : List β} : AllOk p (.ok ys : Except ε (List β)) ↔ ∀ y ∈ ys, p y := by
  constructor
  · rintro ⟨ys', h, hall⟩
    exact Except.ok.inj h ▸ hall
  · exact fun hall => ⟨ys, rfl, hall⟩

theorem not_allOk_error {e : ε} : ¬ AllOk p (.error e) := fun ⟨_, h, _⟩ => nomatch h

theorem AllOk.mono {q : β → Prop} (h : AllOk p r) (hpq : ∀ y, p y → q y) : AllOk q r := by
  obtain ⟨ys, hr, hall⟩ := h
  exact ⟨ys, hr, fun y hy => hpq y (hall y hy)⟩

/-- A result with more after it. -/
theorem allOk_append_ok {zs : List β} :
    AllOk p (do let ys ← r; return ys ++ zs) ↔ AllOk p r ∧ ∀ z ∈ zs, p z := by
  cases r with
  | error e => exact iff_of_false not_allOk_error fun h => not_allOk_error h.1
  | ok ys =>
    show AllOk p (.ok (ys ++ zs)) ↔ _
    rw [allOk_ok, allOk_ok]
    exact List.forall_mem_append

/-- Two results, one after the other. -/
theorem allOk_append :
    AllOk p (do let ys ← r; let zs ← r'; return ys ++ zs) ↔ AllOk p r ∧ AllOk p r' := by
  cases r with
  | error e => exact iff_of_false not_allOk_error fun h => not_allOk_error h.1
  | ok ys =>
    cases r' with
    | error e => exact iff_of_false not_allOk_error fun h => not_allOk_error h.2
    | ok zs =>
      show AllOk p (.ok (ys ++ zs)) ↔ _
      rw [allOk_ok, allOk_ok, allOk_ok]
      exact List.forall_mem_append

theorem allOk_appendAll {f : α → Except ε (List β)} {xs : List α} :
    AllOk p (appendAll f xs) ↔ ∀ x ∈ xs, AllOk p (f x) := by
  induction xs with
  | nil => exact iff_of_true ⟨[], rfl, fun _ h => nomatch h⟩ fun _ h => nomatch h
  | cons x xs ih =>
    rw [List.forall_mem_cons, ← ih, appendAll]
    cases f x with
    | error e => exact iff_of_false not_allOk_error fun h => not_allOk_error h.1
    | ok ys =>
      cases appendAll f xs with
      | error e => exact iff_of_false not_allOk_error fun h => not_allOk_error h.2
      | ok rest =>
        simp only [allOk_ok]
        exact List.forall_mem_append

/-- What a loop appended is what its rounds brought. -/
theorem mem_appendAll {f : α → Except ε (List β)} {xs : List α} {ys : List β} {y : β}
    (h : appendAll f xs = .ok ys) : y ∈ ys ↔ ∃ x ∈ xs, ∃ zs, f x = .ok zs ∧ y ∈ zs := by
  induction xs generalizing ys with
  | nil =>
    obtain rfl := Except.ok.inj h
    simp
  | cons x xs ih =>
    rw [appendAll] at h
    cases hx : f x with
    | error e => simp [hx] at h
    | ok zs =>
      cases hxs : appendAll f xs with
      | error e => simp [hx, hxs] at h
      | ok rest =>
        rw [hx, hxs] at h
        obtain rfl := Except.ok.inj h
        simp [hx, ih hxs]

end AppendAll

end Loop
