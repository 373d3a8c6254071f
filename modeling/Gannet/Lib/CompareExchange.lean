import Mathlib.Data.List.Chain
import Mathlib.Data.List.Nodup
import Gannet.Lib.Run

/-!
# Numbers handed out by compare-exchange

A shared cell and any number of threads. A call reads the cell, computes the next
value from what it read, and tries to exchange the one for the other; when the cell
holds something else it goes round again with what it saw. Reads may be stale: a
thread may see any value the cell has ever had. Only a successful exchange is tied
to the value of the moment.

- `Inv`: the values of the cell form a chain under `next`, the results are that chain,
  and every value a thread works with is in it.
- `Closed`: a set of values that `next` does not leave has all results in it, and
  where `next` does not fail on it no call does.
- `cyclic_nodup`: where `next` counts round a cycle of `n` values, no `n` results in
  a row repeat one.
-/

namespace CompareExchange

universe u v w

variable {θ : Type u} {ν : Type v} {ε : Type w}

/-- The cell, and what the threads have read and returned. -/
structure State (θ : Type u) (ν : Type v) where
  value : ν
  /-- The earlier values of the cell, latest first. -/
  past : List ν
  /-- What a call under way has read last. -/
  current : θ → Option ν
  /-- The calls that have returned, latest first. -/
  returned : List (θ × ν)

/-- All values of the cell so far, latest first. -/
def State.history (s : State θ ν) : List ν := s.value :: s.past

/-- No call has begun. -/
def State.init (v : ν) : State θ ν := ⟨v, [], fun _ => none, []⟩

/-- What a thread does to the cell. -/
inductive Label (θ : Type u) (ν : Type v) (ε : Type w) where
  | load (t : θ) (v : ν)
  | exchange (t : θ) (v : ν)
  | retry (t : θ) (actual : ν)
  | fail (t : θ) (e : ε)

variable {next : ν → Except ε ν} {init : ν} {s s' : State θ ν} {a : Label θ ν ε}

/-! ## The chain of values -/

/-- What holds in every state. -/
structure Inv (next : ν → Except ε ν) (init : ν) (s : State θ ν) : Prop where
  chain : s.history.IsChain fun w v => next v = .ok w
  returned : s.history = s.returned.map Prod.snd ++ [init]
  seen : ∀ t v, s.current t = some v → v ∈ s.history

theorem inv_init : Inv next init (State.init init : State θ ν) where
  chain := .singleton _
  returned := rfl
  seen := fun _ _ h => nomatch h

/-- A set of values that `next` does not leave. -/
structure Closed (next : ν → Except ε ν) (init : ν) (P : ν → Prop) : Prop where
  init : P init
  next : ∀ v, P v → ∃ w, next v = .ok w ∧ P w

/-- Every value of a chain is in the closed set. -/
theorem Closed.of_chain {P : ν → Prop} (hclosed : Closed next init P) {vs : List ν}
    (hchain : (vs ++ [init]).IsChain fun w v => next v = .ok w) : ∀ v ∈ vs ++ [init], P v := by
  induction vs with
  | nil =>
    intro v hv
    rw [List.mem_singleton.mp hv]
    exact hclosed.init
  | cons w vs ih =>
    have hrest := ih hchain.tail
    intro v hv
    rcases List.mem_cons.mp hv with rfl | hv
    · -- it is computed from the value before it
      cases hvs : vs ++ [init] with
      | nil => exact absurd hvs (by simp)
      | cons x xs =>
        rw [List.cons_append, hvs] at hchain
        rw [hvs] at hrest
        obtain ⟨w', hw', hP⟩ := hclosed.next x (hrest x List.mem_cons_self)
        rw [(List.isChain_cons_cons.mp hchain).1] at hw'
        exact Except.ok.inj hw' ▸ hP
    · exact hrest v hv

theorem Closed.history {P : ν → Prop} (hclosed : Closed next init P) (h : Inv next init s) :
    ∀ v ∈ s.history, P v := by
  have hchain := h.chain
  rw [h.returned] at hchain ⊢
  exact hclosed.of_chain hchain

/-- Nothing else is ever returned. -/
theorem Closed.returned {P : ν → Prop} (hclosed : Closed next init P) (h : Inv next init s) :
    ∀ result ∈ s.returned, P result.2 := by
  intro result hmem
  refine hclosed.history h _ ?_
  rw [h.returned]
  exact List.mem_append_left _ (List.mem_map_of_mem hmem)

/-! ## Steps -/

variable [DecidableEq θ]

/-- What one thread has read last, replaced. -/
def State.setCurrent (s : State θ ν) (t : θ) (v : Option ν) : State θ ν :=
  { s with current := fun t' => if t' = t then v else s.current t' }

theorem State.setCurrent_current (s : State θ ν) (t t' : θ) (v : Option ν) :
    (s.setCurrent t v).current t' = if t' = t then v else s.current t' := rfl

/-- The steps of a thread, for a computation `next` that may fail. -/
inductive Step (next : ν → Except ε ν) :
    State θ ν → Label θ ν ε → State θ ν → Prop where
  | load {s : State θ ν} {t : θ} {v : ν} (hidle : s.current t = none) (hseen : v ∈ s.history) :
      Step next s (.load t v) (s.setCurrent t (some v))
  | exchange {s : State θ ν} {t : θ} {v : ν} (hcurrent : s.current t = some s.value)
      (hnext : next s.value = .ok v) :
      Step next s (.exchange t v)
        { s.setCurrent t none with
          value := v, past := s.history, returned := (t, v) :: s.returned }
  | retry {s : State θ ν} {t : θ} {v w actual : ν} (hcurrent : s.current t = some v)
      (hnext : next v = .ok w) (hseen : actual ∈ s.history) (hother : actual ≠ v) :
      Step next s (.retry t actual) (s.setCurrent t (some actual))
  | fail {s : State θ ν} {t : θ} {v : ν} {e : ε} (hcurrent : s.current t = some v)
      (hnext : next v = .error e) : Step next s (.fail t e) (s.setCurrent t none)

theorem Inv.setCurrent (h : Inv next init s) {t : θ} {v : Option ν}
    (hv : ∀ x, v = some x → x ∈ s.history) : Inv next init (s.setCurrent t v) where
  chain := h.chain
  returned := h.returned
  seen := by
    intro t' x hx
    by_cases ht : t' = t
    · rw [State.setCurrent_current, if_pos ht] at hx
      exact hv x hx
    · rw [State.setCurrent_current, if_neg ht] at hx
      exact h.seen t' x hx

theorem Inv.step (h : Inv next init s) (hstep : Step next s a s') : Inv next init s' := by
  cases hstep with
  | load hidle hseen =>
    exact h.setCurrent fun x hx => Option.some.inj hx ▸ hseen
  | @exchange t v hcurrent hnext =>
    have hrest : Inv next init (s.setCurrent t none) := h.setCurrent fun x hx => nomatch hx
    refine ⟨List.isChain_cons_cons.mpr ⟨hnext, h.chain⟩, ?_, fun t' x hx => ?_⟩
    · exact congrArg (v :: ·) h.returned
    · exact List.mem_cons_of_mem v (hrest.seen t' x hx)
  | retry hcurrent hnext hseen hother =>
    exact h.setCurrent fun x hx => Option.some.inj hx ▸ hseen
  | fail hcurrent hnext => exact h.setCurrent fun x hx => nomatch hx

theorem inv_run {as : List (Label θ ν ε)} (h : Lts.Run (Step next) (.init init) as s) :
    Inv next init s :=
  h.invariant (Inv next init) inv_init fun hinv hstep => hinv.step hstep

/-- No call fails. -/
theorem Closed.not_fail {P : ν → Prop} (hclosed : Closed next init P) (h : Inv next init s)
    {t : θ} {e : ε} : ¬ Step next s (.fail t e) s' := by
  intro hstep
  cases hstep with
  | @fail _ v _ hcurrent hnext =>
    obtain ⟨w, hw, -⟩ := hclosed.next v (hclosed.history h v (h.seen t v hcurrent))
    cases hnext.symm.trans hw

/-! ## Counting round a cycle -/

/-- From an element of a cyclic count, the head is some steps further. -/
theorem exists_steps {n c : Nat} {cs : List Nat}
    (h : (c :: cs).IsChain fun c d => c = (d + 1) % n) :
    ∀ d ∈ cs, ∃ k, 0 < k ∧ k ≤ cs.length ∧ c = (d + k) % n := by
  induction cs generalizing c with
  | nil => exact fun _ hmem => nomatch hmem
  | cons x xs ih =>
    obtain ⟨hfirst, hrest⟩ := List.isChain_cons_cons.mp h
    intro d hd
    rcases List.mem_cons.mp hd with rfl | hd
    · exact ⟨1, Nat.one_pos, Nat.succ_le_succ (Nat.zero_le _), hfirst⟩
    · obtain ⟨k, hpos, hle, hx⟩ := ih hrest d hd
      refine ⟨k + 1, Nat.succ_pos k, Nat.succ_le_succ hle, ?_⟩
      rw [hfirst, hx, Nat.mod_add_mod, Nat.add_assoc]

/-- Fewer steps than the cycle has do not lead back. -/
theorem add_mod_ne {n d k : Nat} (hd : d < n) (hpos : 0 < k) (hk : k < n) : (d + k) % n ≠ d := by
  by_cases hwrap : d + k < n
  · rw [Nat.mod_eq_of_lt hwrap]
    omega
  · rw [Nat.mod_eq_sub_mod (Nat.le_of_not_lt hwrap), Nat.mod_eq_of_lt (by omega)]
    omega

theorem cyclic_nodup {n : Nat} {cs : List Nat} (h : cs.IsChain fun c d => c = (d + 1) % n)
    (hlt : ∀ c ∈ cs, c < n) (hlen : cs.length ≤ n) : cs.Nodup := by
  induction cs with
  | nil => exact List.nodup_nil
  | cons c cs ih =>
    refine List.nodup_cons.mpr ⟨fun hmem => ?_, ih h.tail
      (fun d hd => hlt d (List.mem_cons_of_mem c hd)) (Nat.le_of_succ_le hlen)⟩
    obtain ⟨k, hpos, hle, hc⟩ := exists_steps h c hmem
    exact add_mod_ne (hlt c List.mem_cons_self) hpos (Nat.lt_of_le_of_lt hle hlen) hc.symm

end CompareExchange
