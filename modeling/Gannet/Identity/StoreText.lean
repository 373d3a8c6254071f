import Gannet.Lib.JsonReader
import Gannet.Identity.StoreJson

/-!
# Reading what the pretty printer wrote (identity/store.rs)

`Reads p text x`: the reader takes the printed text of a value as that value, white
space before it aside. One lemma for each shape that is printed: strings, numbers,
options, variants, sequences, maps and structures. The items of a block are read round
by round (`ReadsItems`), and a structure is read from its fields in any order, with
other members between them (`reads_struct`).
-/

namespace Gannet.Json

open Parsing JsonReader
open Loop (Control)

variable {α ι σ : Type} {p : Parser α} {x : α} {text rest ws : List Char}

/-! ## White space and characters -/

/-- All of it is white space. -/
def White (ws : List Char) : Prop := ∀ c ∈ ws, isSpace c = true

theorem white_nil : White [] := fun _ h => nomatch h

theorem white_replicate (n : Nat) : White (List.replicate n ' ') := by
  intro c hc
  rw [List.eq_of_mem_replicate hc]
  rfl

theorem White.cons {c : Char} (hc : isSpace c = true) (h : White ws) : White (c :: ws) :=
  List.forall_mem_cons.mpr ⟨hc, h⟩

theorem parseWhitespace_run (hws : White ws) {c : Char} (hc : isSpace c = false) :
    parseWhitespace.run (ws ++ c :: rest) = some (some c, c :: rest) := by
  have hdrop : (ws ++ c :: rest).dropWhile isSpace = c :: rest := by
    rw [List.dropWhile_append_of_pos hws, List.dropWhile_cons_of_neg (by rw [hc]; decide)]
  show some (_, _) = _
  rw [hdrop]
  rfl

theorem expect_run (hws : White ws) {c : Char} (hc : isSpace c = false) :
    (expect c).run (ws ++ c :: rest) = some ((), rest) := by
  rw [expect, run_bind_of_some (parseWhitespace_run hws hc)]
  dsimp only
  rw [if_pos rfl]
  rfl

/-- What may follow a value: not what would make a longer number of it. -/
def EndsNumber (rest : List Char) : Prop :=
  ∀ c ∈ rest.head?, c.isDigit = false ∧ isNumberPart c = false

/-- The value is read from the text, after any white space. -/
def Reads (p : Parser α) (text : List Char) (x : α) : Prop :=
  ∀ ws rest, White ws → EndsNumber rest → p.run (ws ++ (text ++ rest)) = some (x, rest)

/-! ## Strings -/

theorem decodeHexEscape_hex2 (b : UInt8) :
    decodeHexEscape.run ("00".toList ++ Text.hex2 b ++ rest) = some (b.toNat, rest) := by
  have hb : b.toNat < 256 := b.toNat_lt
  show (Text.hexDigits 0 ['0', '0', Nat.digitChar (b.toNat / 16),
    Nat.digitChar (b.toNat % 16)]).map _ = _
  simp only [Text.hexDigits, Text.hexDigit_digitChar _ (show b.toNat / 16 < 16 by omega),
    Text.hexDigit_digitChar _ (show b.toNat % 16 < 16 by omega), Option.bind_some,
    show Text.hexDigit '0' = some 0 from rfl, Option.map_some]
  exact congrArg (fun n => some (n, rest)) (by omega)

theorem strRound_escaped {cs : List Char} {c : Char} (h : parseEscape.run text = some (c, rest)) :
    (strRound cs).run (backslash :: text) = some (.again (cs ++ [c]), rest) := by
  show ((parseEscape >>= fun escaped => pure (.again (cs ++ [escaped]))) :
    Parser (Control (List Char) (List Char))).run text = _
  rw [run_bind_of_some h]
  rfl

theorem parseUnicodeEscape_hex2 {b : UInt8} :
    parseUnicodeEscape.run ("00".toList ++ Text.hex2 b ++ rest)
      = some (Char.ofNat b.toNat, rest) := by
  have hb : b.toNat < 256 := b.toNat_lt
  rw [parseUnicodeEscape, run_bind_of_some (decodeHexEscape_hex2 b), if_neg (by omega),
    if_pos (by omega)]
  rfl

/-- A character is read back from the text it is written as. -/
theorem strRound_escape (cs : List Char) (c : Char) :
    (strRound cs).run (escape c ++ rest) = some (.again (cs ++ [c]), rest) := by
  have hcode {n : Nat} (hn : c.toNat = n) : Char.ofNat n = c := hn ▸ Char.ofNat_toNat c
  unfold escape
  split_ifs with hquote h08 h09 h0A h0C h0D h20
  · refine strRound_escaped ?_
    show (if c = quotationMark ∨ c = backslash ∨ c = '/' then pure c
      else _ : Parser Char).run rest = _
    rw [if_pos (hquote.imp id .inl)]
    rfl
  · exact hcode h08 ▸ strRound_escaped rfl
  · exact hcode h09 ▸ strRound_escaped rfl
  · exact hcode h0A ▸ strRound_escaped rfl
  · exact hcode h0C ▸ strRound_escaped rfl
  · exact hcode h0D ▸ strRound_escaped rfl
  · refine strRound_escaped ?_
    have hbyte : c.toNat.toUInt8.toNat = c.toNat :=
      UInt8.toNat_ofNat'.trans (Nat.mod_eq_of_lt (by omega))
    have hread : parseUnicodeEscape.run ("00".toList ++ Text.hex2 c.toNat.toUInt8 ++ rest) = _ :=
      parseUnicodeEscape_hex2
    rw [hbyte, Char.ofNat_toNat] at hread
    exact hread
  · obtain ⟨hq, hb⟩ := not_or.mp hquote
    show (if c = quotationMark then _ else if c = backslash then _ else
      if c.toNat < 0x20 then _ else pure (.again (cs ++ [c])) :
        Parser (Control (List Char) (List Char))).run rest = _
    rw [if_neg hq, if_neg hb, if_neg h20]
    rfl

theorem strLoop_run (cs s : List Char) :
    (loop strRound cs).run (s.flatMap escape ++ quotationMark :: rest) = some (cs ++ s, rest) := by
  induction s generalizing cs with
  | nil =>
    rw [List.append_nil]
    exact loop_stop rfl
  | cons c s ih =>
    rw [List.flatMap_cons, List.append_assoc, loop_again progress_strRound (strRound_escape cs c),
      ih, List.append_assoc, List.singleton_append]

theorem parseStr_run (s : String) :
    parseStr.run (s.toList.flatMap escape ++ quotationMark :: rest) = some (s, rest) := by
  rw [parseStr, run_map_of_some (strLoop_run [] s.toList), List.nil_append, String.ofList_toList]

theorem string_append (s : String) :
    string s ++ rest = quotationMark :: (s.toList.flatMap escape ++ quotationMark :: rest) := by
  simp only [string, List.cons_append, List.append_assoc, List.nil_append]

theorem reads_string (s : String) : Reads deserializeString (string s) s := by
  intro ws rest hws _
  rw [string_append, deserializeString, run_bind_of_some (parseWhitespace_run hws rfl)]
  exact parseStr_run s

/-! ## Numbers -/

/-- Only the number 0 is written with a leading zero. -/
theorem head?_number {n : Nat} (h : (number n).head? = some '0') : n = 0 := by
  induction n using Nat.strongRecOn with
  | ind n ih =>
    rw [number, Nat.toDigits_eq_if (by decide)] at h
    split at h
    · have hdigit : ∀ d < 10, Nat.digitChar d = '0' → d = 0 := by decide
      exact hdigit n ‹_› (Option.some.inj h)
    · have hne : Nat.toDigits 10 (n / 10) ≠ [] := Nat.toDigits_ne_nil
      rw [List.head?_append_of_ne_nil _ hne] at h
      have := ih (n / 10) (by omega) h
      omega

theorem isDigit_of_mem_number {n : Nat} {c : Char} (h : c ∈ number n) : c.isDigit = true :=
  Nat.isDigit_of_mem_toDigits (by decide) (by decide) h

theorem digits_run (n : Nat) (hrest : EndsNumber rest) :
    digits.run (number n ++ rest) = some (number n, rest) := by
  have htake : rest.takeWhile Char.isDigit = [] ∧ rest.dropWhile Char.isDigit = rest := by
    cases rest with
    | nil => exact ⟨rfl, rfl⟩
    | cons c rest =>
      have hc : ¬ c.isDigit = true := Bool.eq_false_iff.mp (hrest c rfl).1
      exact ⟨List.takeWhile_cons_of_neg hc, List.dropWhile_cons_of_neg hc⟩
  have hdigits : ∀ c ∈ number n, c.isDigit = true := fun c => isDigit_of_mem_number
  show some (_, _) = _
  rw [List.takeWhile_append_of_pos hdigits, List.dropWhile_append_of_pos hdigits, htake.1, htake.2,
    List.append_nil]

theorem isSpace_of_digit {c : Char} (h : c.isDigit = true) : isSpace c = false := by
  by_contra hspace
  rw [Bool.not_eq_false, isSpace, decide_eq_true_iff] at hspace
  rcases hspace with rfl | rfl | rfl | rfl <;> exact absurd h (by decide)

theorem reads_number {bound n : Nat} (h : n < bound) :
    Reads (deserializeUnsigned bound) (number n) n := by
  intro ws rest hws hrest
  have hne : number n ≠ [] := Nat.toDigits_ne_nil
  obtain ⟨c, cs, hcs⟩ := List.exists_cons_of_ne_nil hne
  have hdigit : c.isDigit = true := isDigit_of_mem_number (hcs ▸ List.mem_cons_self)
  have hspace : isSpace c = false := isSpace_of_digit hdigit
  have hwhite : (discard parseWhitespace).run (ws ++ (number n ++ rest))
      = some ((), number n ++ rest) := by
    rw [hcs, List.cons_append]
    exact run_map_of_some (parseWhitespace_run hws hspace)
  have hpeek : peek.run rest = some (rest.head?, rest) := rfl
  have hzero : ¬ (number n = [] ∨ ((number n).head? = some '0' ∧ number n ≠ ['0']) ∨
      rest.head?.any isNumberPart = true ∨ bound ≤ Nat.ofDigitChars 10 (number n) 0) := by
    rintro (h' | ⟨hhead, hlong⟩ | hpart | hbound)
    · exact hne h'
    · obtain rfl := head?_number hhead
      exact hlong (by decide)
    · cases hhead : rest.head? with
      | none =>
        rw [hhead] at hpart
        exact nomatch hpart
      | some c =>
        rw [hhead] at hpart
        exact absurd ((hrest c hhead).2.symm.trans hpart) (by decide)
    · rw [number, Nat.ofDigitChars_ten_toDigits] at hbound
      omega
  rw [deserializeUnsigned, run_bind_of_some hwhite, run_bind_of_some (digits_run n hrest),
    run_bind_of_some hpeek]
  dsimp only
  rw [if_neg hzero, number, Nat.ofDigitChars_ten_toDigits]
  rfl

/-! ## Options and names -/

/-- The text of a value that is not mistaken for `null`. -/
def StartsValue (text : List Char) : Prop :=
  ∃ c cs, text = c :: cs ∧ isSpace c = false ∧ c ≠ 'n'

theorem startsValue_string (s : String) : StartsValue (string s) := ⟨_, _, rfl, rfl, by decide⟩

theorem reads_option {print : α → List Char} {o : Option α}
    (h : ∀ x ∈ o, Reads p (print x) x ∧ StartsValue (print x)) :
    Reads (deserializeOption p) (option print o) o := by
  intro ws rest hws hrest
  cases o with
  | none =>
    have hn : option print (none : Option α) ++ rest = 'n' :: ("ull".toList ++ rest) := rfl
    rw [hn, deserializeOption, run_bind_of_some (parseWhitespace_run hws rfl)]
    rfl
  | some x =>
    obtain ⟨hread, c, cs, htext, hspace, hne⟩ := h x rfl
    have hvalue := hread [] rest white_nil hrest
    rw [List.nil_append, htext, List.cons_append] at hvalue
    show (deserializeOption p).run (ws ++ (print x ++ rest)) = _
    rw [htext, List.cons_append, deserializeOption, run_bind_of_some (parseWhitespace_run hws hspace)]
    dsimp only
    rw [if_neg hne, run_map_of_some hvalue]

theorem reads_enum {variant : String → Option α} {name : String} (h : variant name = some x) :
    Reads (deserializeEnum variant) (string name) x := by
  intro ws rest hws hrest
  have hname := reads_string name [] rest white_nil hrest
  rw [List.nil_append, string_append] at hname
  rw [string_append, deserializeEnum, run_bind_of_some (parseWhitespace_run hws rfl)]
  dsimp only
  rw [if_neg (by decide), if_pos rfl,
    run_bind_of_some hname, h]
  rfl

/-! ## Blocks -/

/-- A round reads one item of a block, which is the first or comes after a comma. -/
def ReadsItem (round : Bool × σ → Parser (Control (Bool × σ) σ)) (s : σ) (text : List Char)
    (t : σ) : Prop :=
  ∀ ws rest, White ws → EndsNumber rest →
    (round (true, s)).run (ws ++ (text ++ rest)) = some (.again (false, t), rest) ∧
      (round (false, s)).run (',' :: (ws ++ (text ++ rest))) = some (.again (false, t), rest)

/-- The rounds read the items in their order. -/
inductive ReadsItems (round : Bool × σ → Parser (Control (Bool × σ) σ)) :
    σ → List (List Char) → σ → Prop where
  | nil {s : σ} : ReadsItems round s [] s
  | cons {s t u : σ} {text : List Char} {texts : List (List Char)} :
      ReadsItem round s text t → ReadsItems round t texts u → ReadsItems round s (text :: texts) u

/-- Before the closing bracket a round stops. -/
def StopsAt (round : Bool × σ → Parser (Control (Bool × σ) σ)) (closing : Char) : Prop :=
  ∀ first s ws rest, White ws →
    (round (first, s)).run (ws ++ closing :: rest) = some (.stop s, closing :: rest)

theorem intercalate_cons (sep x : List Char) (xs : List (List Char)) :
    sep.intercalate (x :: xs) = x ++ xs.flatMap (sep ++ ·) := by
  induction xs generalizing x with
  | nil => simp [List.intercalate]
  | cons y ys ih =>
    rw [List.flatMap_cons, List.append_assoc, ← ih]
    rfl

/-- What stands after the opening bracket. -/
def blockBody (closing : Char) (indent : Nat) (items : List (List Char)) : List Char :=
  (block openBrace closing indent items).tail

theorem block_eq (opening closing : Char) (indent : Nat) (items : List (List Char)) :
    block opening closing indent items = opening :: blockBody closing indent items := by
  unfold blockBody block
  split <;> rfl

theorem endsNumber_newline : EndsNumber ('\n' :: rest) := by
  intro c hc
  obtain rfl := Option.some.inj hc
  decide

theorem endsNumber_comma : EndsNumber (',' :: rest) := by
  intro c hc
  obtain rfl := Option.some.inj hc
  decide

variable {round : Bool × σ → Parser (Control (Bool × σ) σ)} {s t : σ} {closing : Char}
  {items : List (List Char)}

/-- What stands after the first item, up to the closing bracket. -/
def blockTail (indent : Nat) (items : List (List Char)) : List Char :=
  (items.map (List.replicate (indent + 2) ' ' ++ ·)).flatMap (",\n".toList ++ ·) ++
    '\n' :: List.replicate indent ' '

theorem endsNumber_blockTail (indent : Nat) (items : List (List Char)) :
    EndsNumber (blockTail indent items ++ rest) := by
  cases items with
  | nil => exact endsNumber_newline
  | cons item items => exact endsNumber_comma

theorem blockTail_cons (indent : Nat) (item : List Char) (items : List (List Char)) :
    blockTail indent (item :: items) ++ rest = ',' ::
      ('\n' :: List.replicate (indent + 2) ' ' ++ (item ++ (blockTail indent items ++ rest))) := by
  rw [blockTail, List.map_cons, List.flatMap_cons]
  simp only [blockTail, List.append_assoc]
  rfl

theorem blockBody_cons (closing : Char) (indent : Nat) (item : List Char)
    (items : List (List Char)) :
    blockBody closing indent (item :: items) ++ rest = '\n' :: List.replicate (indent + 2) ' ' ++
      (item ++ (blockTail indent items ++ closing :: rest)) := by
  rw [blockBody, block, if_neg (List.cons_ne_nil _ _), List.map_cons, intercalate_cons]
  simp only [blockTail, List.append_assoc, List.cons_append, List.tail_cons, List.nil_append]

theorem white_newline (n : Nat) : White ('\n' :: List.replicate n ' ') :=
  (white_replicate n).cons rfl

/-- The items after the first one. -/
theorem ReadsItems.loop_tail (hprogress : Progress round) (hstop : StopsAt round closing)
    (h : ReadsItems round s items t) (indent : Nat) :
    (loop round (false, s)).run (blockTail indent items ++ closing :: rest)
      = some (t, closing :: rest) := by
  induction h with
  | nil => exact loop_stop (hstop false _ _ _ (white_newline indent))
  | cons hitem hitems ih =>
    rw [blockTail_cons, loop_again hprogress
      (hitem _ _ (white_newline (indent + 2)) (endsNumber_blockTail indent _)).2]
    exact ih

theorem ReadsItems.loop_run (hprogress : Progress round) (hstop : StopsAt round closing)
    (h : ReadsItems round s items t) (indent : Nat) :
    (loop round (true, s)).run (blockBody closing indent items ++ rest)
      = some (t, closing :: rest) := by
  cases h with
  | nil => exact loop_stop (hstop true _ [] _ white_nil)
  | cons hitem hitems =>
    rw [blockBody_cons, loop_again hprogress
      (hitem _ _ (white_newline (indent + 2)) (endsNumber_blockTail indent _)).1]
    exact hitems.loop_tail hprogress hstop indent

/-! ## Sequences and maps -/

theorem stopsAt_elementRound : StopsAt (elementRound p) closeBracket := by
  intro first s ws rest hws
  have hnext : (nextElement p first).run (ws ++ closeBracket :: rest)
      = some (none, closeBracket :: rest) := by
    rw [nextElement, hasNextElement, bind_assoc, run_bind_of_some (parseWhitespace_run hws rfl)]
    rfl
  rw [elementRound, run_bind_of_some hnext]
  rfl

/-- A value starts with a character that neither ends a sequence nor is white space. -/
def StartsElement (text : List Char) : Prop :=
  ∃ c cs, text = c :: cs ∧ isSpace c = false ∧ c ≠ closeBracket

theorem nextElement_run (h : Reads p text x) (hstart : StartsElement text) {ws rest : List Char}
    (hws : White ws) (hrest : EndsNumber rest) :
    (nextElement p true).run (ws ++ (text ++ rest)) = some (some x, rest) ∧
      (nextElement p false).run (',' :: (ws ++ (text ++ rest))) = some (some x, rest) := by
  obtain ⟨c, cs, rfl, hspace, hne⟩ := hstart
  have hvalue : ((some <$> p) : Parser (Option α)).run (c :: cs ++ rest) = some (some x, rest) :=
    run_map_of_some (h [] rest white_nil hrest)
  have hmore : (hasNextElement true).run (ws ++ (c :: cs ++ rest))
      = some (true, c :: cs ++ rest) := by
    rw [hasNextElement, List.cons_append, run_bind_of_some (parseWhitespace_run hws hspace)]
    dsimp only
    rw [if_neg hne]
    rfl
  have hcomma : (hasNextElement false).run (',' :: (ws ++ (c :: cs ++ rest)))
      = some (true, c :: cs ++ rest) := by
    have hspace' : elementPastComma.run (ws ++ (c :: cs ++ rest))
        = some (true, c :: cs ++ rest) := by
      rw [elementPastComma, List.cons_append, run_bind_of_some (parseWhitespace_run hws hspace)]
      dsimp only
      rw [if_neg hne]
      rfl
    exact hspace'
  constructor
  · rw [nextElement, run_bind_of_some hmore]
    exact hvalue
  · rw [nextElement, run_bind_of_some hcomma]
    exact hvalue

theorem readsItem_element (h : Reads p text x) (hstart : StartsElement text) (xs : List α) :
    ReadsItem (elementRound p) xs text (xs ++ [x]) := by
  intro ws rest hws hrest
  obtain ⟨hfirst, hlater⟩ := nextElement_run h hstart hws hrest
  constructor
  · rw [elementRound, run_bind_of_some hfirst]
    rfl
  · rw [elementRound, run_bind_of_some hlater]
    rfl

theorem readsItems_elements {print : ι → List Char} {value : ι → α} {is : List ι}
    (h : ∀ i ∈ is, Reads p (print i) (value i) ∧ StartsElement (print i)) (xs : List α) :
    ReadsItems (elementRound p) xs (is.map print) (xs ++ is.map value) := by
  induction is generalizing xs with
  | nil =>
    simp only [List.map_nil, List.append_nil]
    exact .nil
  | cons i is ih =>
    rw [List.forall_mem_cons] at h
    have hrest := ih h.2 (xs ++ [value i])
    rw [List.append_assoc, List.singleton_append] at hrest
    exact .cons (readsItem_element h.1.1 h.1.2 xs) hrest

theorem reads_strings (indent : Nat) (xs : List String) :
    Reads (deserializeSeq deserializeString) (strings indent xs) xs := by
  intro ws rest hws _
  have hstrings : ∀ s ∈ xs, Reads deserializeString (string s) (id s) ∧ StartsElement (string s) :=
    fun s _ => ⟨reads_string s, _, _, rfl, rfl, by decide⟩
  have hitems := readsItems_elements hstrings []
  rw [List.map_id, List.nil_append] at hitems
  have hloop : (loop (elementRound deserializeString) (true, [])).run
      (blockBody ']' indent (xs.map string) ++ rest) = some (xs, closeBracket :: rest) :=
    hitems.loop_run (progress_elementRound eats_deserializeString) stopsAt_elementRound indent
  have hopen : (expect openBracket).run (ws ++ '[' :: (blockBody ']' indent (xs.map string) ++ rest))
      = some ((), blockBody ']' indent (xs.map string) ++ rest) := expect_run hws rfl
  have hend : endSeq.run (closeBracket :: rest) = some ((), rest) :=
    expect_run white_nil rfl
  rw [strings, block_eq, deserializeSeq, List.cons_append, run_bind_of_some hopen,
    run_bind_of_some hloop, run_bind_of_some hend]
  rfl

theorem run_nextKey (key : String) {ws rest : List Char} (hws : White ws) :
    (nextKey true).run (ws ++ (string key ++ rest)) = some (some key, rest) ∧
      (nextKey false).run (',' :: (ws ++ (string key ++ rest))) = some (some key, rest) := by
  have hkey : ((some <$> parseStr) : Parser (Option String)).run
      (key.toList.flatMap escape ++ quotationMark :: rest) = some (some key, rest) :=
    run_map_of_some (parseStr_run key)
  have hquote : (expect quotationMark).run
      (ws ++ quotationMark :: (key.toList.flatMap escape ++ quotationMark :: rest))
      = some ((), key.toList.flatMap escape ++ quotationMark :: rest) := expect_run hws rfl
  rw [string_append]
  constructor
  · rw [nextKey, run_bind_of_some (parseWhitespace_run hws rfl)]
    exact hkey
  · show ((expect quotationMark >>= fun _ => some <$> parseStr) :
      Parser (Option String)).run _ = _
    rw [run_bind_of_some hquote]
    exact hkey

theorem run_nextKey_end (first : Bool) {ws rest : List Char} (hws : White ws) :
    (nextKey first).run (ws ++ closeBrace :: rest)
      = some (none, closeBrace :: rest) := by
  rw [nextKey, run_bind_of_some (parseWhitespace_run hws rfl)]
  rfl

/-- After a key: the colon, and the value after a space. -/
theorem run_value (h : Reads p text x) (hrest : EndsNumber rest) :
    (do parseObjectColon; p : Parser α).run (": ".toList ++ text ++ rest) = some (x, rest) := by
  have hcolon : parseObjectColon.run (": ".toList ++ text ++ rest)
      = some ((), ' ' :: (text ++ rest)) := rfl
  rw [run_bind_of_some hcolon]
  exact h [' '] rest (white_replicate 1) hrest

theorem stopsAt_keyRound {after : σ → String → Parser σ} :
    StopsAt (keyRound after) closeBrace := by
  intro first s ws rest hws
  rw [keyRound, run_bind_of_some (run_nextKey_end first hws)]
  rfl

theorem readsItem_field {after : σ → String → Parser σ} {key : String}
    (h : ∀ rest, EndsNumber rest →
      (after s key).run (": ".toList ++ text ++ rest) = some (t, rest)) :
    ReadsItem (keyRound after) s (field key text) t := by
  intro ws rest hws hrest
  have htext : field key text ++ rest = string key ++ (": ".toList ++ text ++ rest) := by
    simp only [field, List.append_assoc]
  obtain ⟨hfirst, hlater⟩ := run_nextKey key hws
  rw [htext]
  constructor
  · rw [keyRound, run_bind_of_some hfirst]
    dsimp only
    rw [run_bind_of_some (h rest hrest)]
    rfl
  · rw [keyRound, run_bind_of_some hlater]
    dsimp only
    rw [run_bind_of_some (h rest hrest)]
    rfl

theorem readsItems_entries {key : ι → String} {print : ι → List Char} {value : ι → α} {is : List ι}
    (h : ∀ i ∈ is, Reads p (print i) (value i)) (entries : List (String × α)) :
    ReadsItems (keyRound (entry p)) entries (is.map fun i => field (key i) (print i))
      (entries ++ is.map fun i => (key i, value i)) := by
  induction is generalizing entries with
  | nil =>
    simp only [List.map_nil, List.append_nil]
    exact .nil
  | cons i is ih =>
    rw [List.forall_mem_cons] at h
    have hrest := ih h.2 (entries ++ [(key i, value i)])
    rw [List.append_assoc, List.singleton_append] at hrest
    refine .cons (readsItem_field fun rest hends => ?_) hrest
    rw [entry, ← bind_assoc, run_bind_of_some (run_value h.1 hends)]
    rfl

theorem reads_map {key : ι → String} {print : ι → List Char} {value : ι → α} {is : List ι}
    (hp : Settled p) (h : ∀ i ∈ is, Reads p (print i) (value i)) (indent : Nat) :
    Reads (deserializeMap p) (block openBrace closeBrace indent
      (is.map fun i => field (key i) (print i))) (is.map fun i => (key i, value i)) := by
  intro ws rest hws _
  have hitems : ReadsItems _ [] (is.map fun i => field (key i) (print i)) _ :=
    readsItems_entries h []
  have hloop : (loop (keyRound (entry p)) (true, [])).run
      (blockBody closeBrace indent (is.map fun i => field (key i) (print i)) ++ rest)
      = some (is.map fun i => (key i, value i), closeBrace :: rest) :=
    hitems.loop_run (progress_keyRound (settled_entry hp)) stopsAt_keyRound indent
  have hopen : (expect openBrace).run (ws ++ openBrace ::
      (blockBody closeBrace indent (is.map fun i => field (key i) (print i)) ++ rest))
      = some ((), blockBody closeBrace indent (is.map fun i => field (key i) (print i)) ++ rest) :=
    expect_run hws rfl
  have hend : endMap.run (closeBrace :: rest) = some ((), rest) :=
    expect_run white_nil rfl
  rw [block_eq, deserializeMap, List.cons_append, run_bind_of_some hopen, run_bind_of_some hloop,
    run_bind_of_some hend]
  rfl

/-! ## Structures -/

section Struct

variable {F : Type} [DecidableEq F] {schema : Schema F}

/-- A member of an object that is read as a structure: a field, or one of another name. -/
inductive Member (F : Type) where
  | field (f : F)
  | other (name : String) (text : List Char)

/-- The field it is, if it is one. -/
def Member.field? : Member F → Option F
  | field f => some f
  | other _ _ => none

/-- The texts of a structure's fields, and the values read from them. -/
structure Printed (schema : Schema F) where
  value : ∀ f, schema.Value f
  text : F → List Char
  reads : ∀ f, Reads (schema.read f) (text f) (value f)

/-- The text of a member. -/
def Printed.member (printed : Printed schema) : Member F → List Char
  | .field f => Json.field (schema.name f) (printed.text f)
  | .other name text => Json.field name text

/-- The member is no field, and has a value. -/
def Member.Skipped (schema : Schema F) : Member F → Prop
  | .field _ => True
  | .other name text => schema.fieldOf name = none ∧ Reads ignoreValue text ()

theorem readsItem_known (printed : Printed schema) {found : schema.Found} {f : F}
    (hname : schema.fieldOf (schema.name f) = some f) (hnew : found f = none) :
    ReadsItem (keyRound schema.member) found (printed.member (.field f))
      (Function.update found f (some (printed.value f))) := by
  refine readsItem_field fun rest hends => ?_
  rw [Schema.member, hname]
  dsimp only
  rw [hnew, Option.isSome_none, if_neg Bool.false_ne_true, ← bind_assoc,
    run_bind_of_some (run_value (printed.reads f) hends)]
  rfl

theorem readsItem_other (printed : Printed schema) {found : schema.Found} {name : String}
    {text : List Char} (h : (Member.other name text).Skipped schema) :
    ReadsItem (keyRound schema.member) found (printed.member (.other name text)) found := by
  refine readsItem_field fun rest hends => ?_
  rw [Schema.member, h.1]
  dsimp only
  rw [← bind_assoc, run_bind_of_some (run_value h.2 hends)]
  rfl

/-- What has been found after some members. -/
def Printed.foundIn (printed : Printed schema) (found : schema.Found) (members : List (Member F)) :
    schema.Found :=
  fun f => if f ∈ members.filterMap Member.field? then some (printed.value f) else found f

theorem readsItems_members (printed : Printed schema)
    (hnames : ∀ f, schema.fieldOf (schema.name f) = some f) {members : List (Member F)}
    (hskipped : ∀ m ∈ members, m.Skipped schema)
    (hnodup : (members.filterMap Member.field?).Nodup) {found : schema.Found}
    (hnew : ∀ f ∈ members.filterMap Member.field?, found f = none) :
    ReadsItems (keyRound schema.member) found (members.map printed.member)
      (printed.foundIn found members) := by
  induction members generalizing found with
  | nil => exact .nil
  | cons m members ih =>
    rw [List.forall_mem_cons] at hskipped
    cases m with
    | field f =>
      have hcons : (Member.field f :: members).filterMap Member.field?
          = f :: members.filterMap Member.field? := rfl
      rw [hcons, List.nodup_cons] at hnodup
      rw [hcons, List.forall_mem_cons] at hnew
      refine .cons (readsItem_known printed (hnames f) hnew.1) ?_
      have hnew' : ∀ g ∈ members.filterMap Member.field?,
          Function.update found f (some (printed.value f)) g = none := by
        intro g hg
        rw [Function.update_of_ne (ne_of_mem_of_not_mem hg hnodup.1)]
        exact hnew.2 g hg
      have hrest := ih hskipped.2 hnodup.2 hnew'
      have hfound : printed.foundIn (Function.update found f (some (printed.value f))) members
          = printed.foundIn found (.field f :: members) := by
        funext g
        unfold Printed.foundIn
        rw [hcons]
        by_cases hgf : g = f
        · subst hgf
          rw [if_pos List.mem_cons_self, Function.update_self, ite_self]
        · rw [Function.update_of_ne hgf]
          exact if_congr (by rw [List.mem_cons, or_iff_right hgf]) rfl rfl
      rw [← hfound]
      exact hrest
    | other name text =>
      exact .cons (readsItem_other printed hskipped.1) (ih hskipped.2 hnodup hnew)

/-- A structure is read from its fields in any order, whatever other members stand
between them. -/
theorem reads_struct (printed : Printed schema) {build : schema.Found → Option α}
    (hread : ∀ f, Settled (schema.read f))
    (hnames : ∀ f, schema.fieldOf (schema.name f) = some f) {members : List (Member F)}
    (hskipped : ∀ m ∈ members, m.Skipped schema)
    (hnodup : (members.filterMap Member.field?).Nodup)
    (hall : ∀ f, f ∈ members.filterMap Member.field?)
    (hbuild : build (fun f => some (printed.value f)) = some x) (indent : Nat) :
    Reads (deserializeStruct schema build)
      (block openBrace closeBrace indent (members.map printed.member)) x := by
  intro ws rest hws _
  have hitems : ReadsItems _ (fun _ => none) _ _ :=
    readsItems_members printed hnames hskipped hnodup fun _ _ => rfl
  have hloop : (loop (keyRound schema.member) (true, fun _ => none)).run
      (blockBody closeBrace indent (members.map printed.member) ++ rest)
      = some (printed.foundIn (fun _ => none) members, closeBrace :: rest) :=
    hitems.loop_run (progress_keyRound (Schema.settled_member hread)) stopsAt_keyRound indent
  have hvisit : schema.visitMap.run (blockBody closeBrace indent (members.map printed.member) ++ rest)
      = some (fun f => some (printed.value f), closeBrace :: rest) := by
    rw [Schema.visitMap, run_bind_of_some hloop]
    refine congrArg some (Prod.ext (funext fun f => ?_) rfl)
    show (printed.foundIn (fun _ => none) members f).or _ = _
    rw [Printed.foundIn, if_pos (hall f)]
    rfl
  have hend : endMap.run (closeBrace :: rest) = some ((), rest) :=
    expect_run white_nil rfl
  have hbody : (schema.visit openBrace).run
      (openBrace :: (blockBody closeBrace indent (members.map printed.member) ++ rest))
      = some (fun f => some (printed.value f), rest) := by
    show (schema.visitMap >>= fun found => endMap >>= fun _ => pure found : Parser schema.Found).run
      _ = _
    rw [run_bind_of_some hvisit, run_bind_of_some hend]
    rfl
  have hspace : parseWhitespace.run (ws ++ openBrace ::
      (blockBody closeBrace indent (members.map printed.member) ++ rest))
      = some (some openBrace, openBrace ::
        (blockBody closeBrace indent (members.map printed.member) ++ rest)) :=
    parseWhitespace_run hws rfl
  rw [block_eq, List.cons_append, deserializeStruct, run_bind_of_some hspace]
  dsimp only
  rw [run_bind_of_some hbody, hbuild]
  rfl

end Struct

end Gannet.Json
