import Gannet.Identity.StoreText

/-!
# Values that are skipped (identity/store.rs)

A member of an object that is no field of the registry or of a record has its value skipped,
whatever it is. The reader does this without recursion: it keeps the arrays and objects that
are still open as frames. `Skips text`: the text is passed over like one value, whatever frames
are open. Scalars are skipped, and so are arrays and objects of values that are (`skips_array`,
`skips_object`), hence values of any depth.
-/

namespace Gannet.Json

open Parsing JsonReader
open Loop (Control)

variable {text rest ws : List Char} {frames frames' : List Frame} {acceptComma : Bool}

/-! ## After a value -/

/-- What the rounds go on with after a value. -/
def afterValue (frames : List Frame) (acceptComma : Bool) : Parser Unit := do
  match ← closeFrames frames acceptComma with
  | none => pure ()
  | some frames => do
    ignoreKey frames
    loop ignoreRound frames

theorem progress_ignoreRound : Progress ignoreRound :=
  Eats.progress fun frames => (eats_ignoreScalar frames).bind settled_afterScalar

/-- The first round takes a scalar, or a bracket that opens a frame. -/
theorem loop_ignoreRound
    (h : (ignoreScalar frames).run text = some ((frames', acceptComma), rest)) :
    (loop ignoreRound frames).run text = (afterValue frames' acceptComma).run rest := by
  have hround : (ignoreRound frames).run text = _ := run_bind_of_some h
  dsimp only at hround
  cases hclose : (closeFrames frames' acceptComma).run rest with
  | none =>
    rw [StateT.run_bind, hclose] at hround
    rw [loop_none hround, afterValue, StateT.run_bind, hclose]
    rfl
  | some result =>
    obtain ⟨open', mid⟩ := result
    rw [run_bind_of_some hclose] at hround
    rw [afterValue, run_bind_of_some hclose]
    cases open' with
    | none => exact loop_stop hround
    | some frames =>
      dsimp only at hround ⊢
      cases hkey : (ignoreKey frames).run mid with
      | none =>
        rw [StateT.run_bind, hkey] at hround ⊢
        exact loop_none hround
      | some result =>
        rw [run_bind_of_some hkey] at hround ⊢
        exact loop_again progress_ignoreRound hround

/-- The text is passed over like one value, whatever frames are open. -/
def Skips (text : List Char) : Prop :=
  ∀ frames ws rest, White ws → EndsNumber rest →
    (loop ignoreRound frames).run (ws ++ (text ++ rest)) = (afterValue frames true).run rest

/-- Outside of all frames the value is the last one. -/
theorem Skips.reads (h : Skips text) : Reads ignoreValue text () :=
  fun ws rest hws hrest => h [] ws rest hws hrest

/-! ## Scalars -/

theorem skips_scalar (h : ∀ frames ws rest, White ws → EndsNumber rest →
    (ignoreScalar frames).run (ws ++ (text ++ rest)) = some ((frames, true), rest)) :
    Skips text :=
  fun frames ws rest hws hrest => loop_ignoreRound (h frames ws rest hws hrest)

theorem skips_null : Skips "null".toList :=
  skips_scalar fun frames ws rest hws _ => by
    show (ignoreScalar frames).run (ws ++ 'n' :: ("ull".toList ++ rest)) = _
    rw [ignoreScalar, run_bind_of_some (parseWhitespace_run hws rfl)]
    rfl

theorem skips_bool (b : Bool) : Skips (if b then "true".toList else "false".toList) := by
  refine skips_scalar fun frames ws rest hws _ => ?_
  cases b with
  | false =>
    show (ignoreScalar frames).run (ws ++ 'f' :: ("alse".toList ++ rest)) = _
    rw [ignoreScalar, run_bind_of_some (parseWhitespace_run hws rfl)]
    rfl
  | true =>
    show (ignoreScalar frames).run (ws ++ 't' :: ("rue".toList ++ rest)) = _
    rw [ignoreScalar, run_bind_of_some (parseWhitespace_run hws rfl)]
    rfl

theorem ignoreStrRound_escape (c : Char) :
    (ignoreStrRound ()).run (escape c ++ rest) = some (.again (), rest) := by
  unfold escape
  split_ifs with hquote h08 h09 h0A h0C h0D h20
  · rcases hquote with rfl | rfl <;> rfl
  · rfl
  · rfl
  · rfl
  · rfl
  · rfl
  · have hescape : ignoreEscape.run ('u' :: ("00".toList ++ Text.hex2 c.toNat.toUInt8 ++ rest))
        = some ((), rest) :=
      run_map_of_some (decodeHexEscape_hex2 _)
    have hround : (ignoreEscape >>= fun _ => pure (Control.again ()) :
        Parser (Control Unit Unit)).run _ = _ := run_bind_of_some hescape
    exact hround
  · obtain ⟨hq, hb⟩ := not_or.mp hquote
    show (if c = quotationMark then _ else if c = backslash then _ else
      if c.toNat < 0x20 then _ else pure (.again ()) :
        Parser (Control Unit Unit)).run rest = _
    rw [if_neg hq, if_neg hb, if_neg h20]
    rfl

theorem ignoreStr_run (s : List Char) :
    ignoreStr.run (s.flatMap escape ++ quotationMark :: rest) = some ((), rest) := by
  induction s with
  | nil => exact loop_stop rfl
  | cons c s ih =>
    rw [List.flatMap_cons, List.append_assoc, ignoreStr,
      loop_again progress_ignoreStrRound (ignoreStrRound_escape c)]
    exact ih

theorem skips_string (s : String) : Skips (string s) := by
  refine skips_scalar fun frames ws rest hws _ => ?_
  have hstr : ((do ignoreStr; pure (frames, true)) : Parser (List Frame × Bool)).run
      (s.toList.flatMap escape ++ quotationMark :: rest) = some ((frames, true), rest) := by
    rw [run_bind_of_some (ignoreStr_run s.toList)]
    rfl
  rw [string_append, ignoreScalar, run_bind_of_some (parseWhitespace_run hws rfl)]
  exact hstr

theorem ignoreInteger_run (n : Nat) (hrest : EndsNumber rest) :
    ignoreInteger.run (number n ++ rest) = some ((), rest) := by
  have hpeek : peek.run rest = some (rest.head?, rest) := rfl
  have hzero : ¬ (number n = [] ∨ ((number n).head? = some '0' ∧ number n ≠ ['0'])) := by
    rintro (hnil | ⟨hhead, hlong⟩)
    · exact Nat.toDigits_ne_nil hnil
    · obtain rfl := head?_number hhead
      exact hlong (by decide)
  have hnone (c : Char) (hc : isNumberPart c = true) : rest.head? ≠ some c := by
    intro hhead
    exact absurd ((hrest c hhead).2.symm.trans hc) (by decide)
  rw [ignoreInteger, run_bind_of_some (digits_run n hrest), if_neg hzero, run_bind_of_some hpeek,
    if_neg (hnone '.' rfl), if_neg]
  · rfl
  · rintro (he | he)
    · exact hnone 'e' rfl he
    · exact hnone 'E' rfl he

theorem skips_number (n : Nat) : Skips (number n) := by
  refine skips_scalar fun frames ws rest hws hrest => ?_
  have hne : number n ≠ [] := Nat.toDigits_ne_nil
  obtain ⟨c, cs, hcs⟩ := List.exists_cons_of_ne_nil hne
  have hdigit : c.isDigit = true := isDigit_of_mem_number (hcs ▸ List.mem_cons_self)
  have hother : ∀ c', c'.isDigit = false → c ≠ c' := by
    rintro c' hc' rfl
    exact absurd (hdigit.symm.trans hc') (by decide)
  have hinteger := ignoreInteger_run n hrest
  rw [hcs, List.cons_append] at hinteger ⊢
  rw [ignoreScalar, run_bind_of_some (parseWhitespace_run hws (isSpace_of_digit hdigit))]
  dsimp only
  rw [if_neg (hother 'n' rfl), if_neg (hother 't' rfl), if_neg (hother 'f' rfl),
    if_neg (hother '-' rfl), if_pos hdigit, run_bind_of_some hinteger]
  rfl

/-! ## Arrays and objects -/

/-- An item of an array or of an object is passed over up to the end of its value. -/
def SkipsItem (frame : Frame) (text : List Char) : Prop :=
  (∃ c cs, text = c :: cs ∧ isSpace c = false ∧ c ≠ frame.closing) ∧
    ∀ frames ws rest, White ws → EndsNumber rest →
      (do ignoreKey (frame :: frames); loop ignoreRound (frame :: frames) : Parser Unit).run
          (ws ++ (text ++ rest)) = (afterValue (frame :: frames) true).run rest

variable {frame : Frame} {items : List (List Char)}

/-- Before its first item a frame stays open. -/
theorem afterValue_first (h : SkipsItem frame text) (hws : White ws) (hrest : EndsNumber rest) :
    (afterValue (frame :: frames) false).run (ws ++ (text ++ rest))
      = (afterValue (frame :: frames) true).run rest := by
  obtain ⟨⟨c, cs, rfl, hspace, hclosing⟩, hskips⟩ := h
  have hopen : (closeFrames (frame :: frames) false).run (ws ++ (c :: cs ++ rest))
      = some (some (frame :: frames), c :: cs ++ rest) := by
    rw [closeFrames, List.cons_append, run_bind_of_some (parseWhitespace_run hws hspace)]
    dsimp only
    rw [if_neg (fun h => Bool.false_ne_true h.2), if_neg hclosing, if_neg Bool.false_ne_true]
    rfl
  rw [afterValue, run_bind_of_some hopen]
  exact hskips frames [] rest white_nil hrest

/-- After a comma comes another item. -/
theorem afterValue_comma (h : SkipsItem frame text) (hws : White ws) (hrest : EndsNumber rest) :
    (afterValue (frame :: frames) true).run (',' :: (ws ++ (text ++ rest)))
      = (afterValue (frame :: frames) true).run rest := by
  have hopen : (closeFrames (frame :: frames) true).run (',' :: (ws ++ (text ++ rest)))
      = some (some (frame :: frames), ws ++ (text ++ rest)) := rfl
  rw [afterValue, run_bind_of_some hopen]
  exact h.2 frames ws rest hws hrest

/-- The closing bracket ends the frame, and with it a value of the frame around it. -/
theorem afterValue_closing (hws : White ws) :
    (afterValue (frame :: frames) acceptComma).run (ws ++ frame.closing :: rest)
      = (afterValue frames true).run rest := by
  have hclosing : isSpace frame.closing = false ∧ frame.closing ≠ ',' := by
    cases frame <;> decide
  have hclose : (closeFrames (frame :: frames) acceptComma).run (ws ++ frame.closing :: rest)
      = (closeFrames frames true).run rest := by
    rw [closeFrames, run_bind_of_some (parseWhitespace_run hws hclosing.1)]
    dsimp only
    rw [if_neg fun h => hclosing.2 h.1, if_pos rfl]
    rfl
  rw [afterValue, StateT.run_bind, hclose, afterValue, StateT.run_bind]

/-- The items after the first one, and the closing bracket. -/
theorem afterValue_blockTail (h : ∀ item ∈ items, SkipsItem frame item) (indent : Nat) :
    (afterValue (frame :: frames) true).run (blockTail indent items ++ frame.closing :: rest)
      = (afterValue frames true).run rest := by
  induction items with
  | nil => exact afterValue_closing (white_newline indent)
  | cons item items ih =>
    rw [List.forall_mem_cons] at h
    rw [blockTail_cons, afterValue_comma h.1 (white_newline (indent + 2))
      (endsNumber_blockTail indent items)]
    exact ih h.2

theorem skips_block (frame : Frame) {opening : Char} (hopening : ∀ frames ws rest, White ws →
      (ignoreScalar frames).run (ws ++ opening :: rest) = some ((frame :: frames, false), rest))
    (h : ∀ item ∈ items, SkipsItem frame item) (indent : Nat) :
    Skips (block opening frame.closing indent items) := by
  intro frames ws rest hws _
  rw [block_eq, List.cons_append, loop_ignoreRound (hopening frames ws _ hws)]
  cases items with
  | nil => exact afterValue_closing white_nil
  | cons item items =>
    rw [List.forall_mem_cons] at h
    rw [blockBody_cons, afterValue_first h.1 (white_newline (indent + 2))
      (endsNumber_blockTail indent items)]
    exact afterValue_blockTail h.2 indent

/-- **Arrays** of values that are skipped are skipped. -/
theorem skips_array (h : ∀ item ∈ items, Skips item ∧ StartsElement item) (indent : Nat) :
    Skips (block '[' ']' indent items) := by
  refine skips_block .seq (fun frames ws rest hws => ?_) (fun item hitem => ?_) indent
  · rw [ignoreScalar, run_bind_of_some (parseWhitespace_run hws rfl)]
    rfl
  · obtain ⟨hskips, hstart⟩ := h item hitem
    exact ⟨hstart, fun frames => hskips (.seq :: frames)⟩

theorem skipsItem_field (h : Skips text) (name : String) :
    SkipsItem .map (field name text) := by
  refine ⟨⟨quotationMark, _, rfl, rfl, by decide⟩, fun frames ws rest hws hrest => ?_⟩
  have hopen : (expect quotationMark).run (ws ++ (field name text ++ rest))
      = some ((), name.toList.flatMap escape ++ quotationMark :: (": ".toList ++ text ++ rest)) := by
    rw [field, List.append_assoc, List.append_assoc, string_append, ← List.append_assoc]
    exact expect_run hws rfl
  have hkey : (ignoreKey (.map :: frames)).run (ws ++ (field name text ++ rest))
      = some ((), ' ' :: (text ++ rest)) := by
    rw [ignoreKey, run_bind_of_some hopen, run_bind_of_some (ignoreStr_run name.toList)]
    rfl
  rw [run_bind_of_some hkey]
  exact h (.map :: frames) [' '] rest (white_replicate 1) hrest

/-- **Objects** of values that are skipped are skipped. -/
theorem skips_object {members : List (String × List Char)} (h : ∀ m ∈ members, Skips m.2)
    (indent : Nat) :
    Skips (block openBrace closeBrace indent (members.map fun m => field m.1 m.2)) := by
  refine skips_block .map (fun frames ws rest hws => ?_) (fun item hitem => ?_) indent
  · rw [ignoreScalar, run_bind_of_some (parseWhitespace_run hws rfl)]
    rfl
  · obtain ⟨m, hm, rfl⟩ := List.mem_map.mp hitem
    exact skipsItem_field (h m hm) m.1

end Gannet.Json
