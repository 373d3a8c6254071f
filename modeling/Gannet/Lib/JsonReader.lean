import Mathlib.Logic.Function.Basic
import Gannet.Lib.Parsing
import Gannet.Lib.Text

/-!
# A streaming JSON reader

How serde_json reads a text into a type: there is no JSON value in between, each
type asks the reader for what it expects. A structure is read from an object, its
fields in any order and members of other names skipped, or from an array with its
fields in order; a field that may be missing has a value for that case.

`Schema` describes such a structure. `closed_deserializeStruct`: a structure whose
fields are settled is closed, since it ends with its bracket.
-/

namespace JsonReader

open Loop (Control)
open Parsing

variable {α β σ : Type}

def openBrace : Char := '\x7b'
def closeBrace : Char := '\x7d'
def openBracket : Char := '['
def closeBracket : Char := ']'
def quotationMark : Char := '"'
def backslash : Char := '\\'

/-! ## Characters -/

/-- White space of JSON. -/
def isSpace (c : Char) : Bool := c = ' ' ∨ c = '\n' ∨ c = '\t' ∨ c = '\r'

/-- The character after the white space, which stays where it is. -/
def parseWhitespace : Parser (Option Char) := fun text =>
  some ((text.dropWhile isSpace).head?, text.dropWhile isSpace)

/-- The next character, which is there. -/
def eatChar : Parser Char
  | [] => none
  | c :: rest => some (c, rest)

/-- The next character, which stays where it is. -/
def peek : Parser (Option Char) := fun text => some (text.head?, text)

/-- Exactly this text. -/
def parseIdent (ident : List Char) : Parser Unit := fun text =>
  (Text.stripStart ident text).map ((), ·)

/-- White space and then this character. -/
def expect (c : Char) : Parser Unit := do
  match ← parseWhitespace with
  | some c' => if c' = c then discard eatChar else failure
  | none => failure

/-- The colon after a key. -/
def parseObjectColon : Parser Unit := expect ':'
/-- The end of an array. -/
def endSeq : Parser Unit := expect closeBracket
/-- The end of an object. -/
def endMap : Parser Unit := expect closeBrace

/-! ## Strings -/

/-- Four hex digits. -/
def decodeHexEscape : Parser Nat
  | a :: b :: c :: d :: rest => (Text.hexDigits 0 [a, b, c, d]).map (·, rest)
  | _ => none

/-- After `\u`: a character of its own, or the first half of a pair. -/
def parseUnicodeEscape : Parser Char := do
  let n ← decodeHexEscape
  if 0xDC00 ≤ n ∧ n ≤ 0xDFFF then failure
  else if n < 0xD800 ∨ 0xDBFF < n then pure (Char.ofNat n)
  else
    parseIdent [backslash, 'u']
    let n₂ ← decodeHexEscape
    if n₂ < 0xDC00 ∨ 0xDFFF < n₂ then failure
    else pure (Char.ofNat ((n - 0xD800) * 1024 + (n₂ - 0xDC00) + 0x10000))

/-- After a backslash. -/
def parseEscape : Parser Char := do
  let c ← eatChar
  if c = quotationMark ∨ c = backslash ∨ c = '/' then pure c
  else if c = 'b' then pure (Char.ofNat 0x08)
  else if c = 'f' then pure (Char.ofNat 0x0C)
  else if c = 'n' then pure '\n'
  else if c = 'r' then pure '\r'
  else if c = 't' then pure '\t'
  else if c = 'u' then parseUnicodeEscape
  else failure

/-- A character of a string, or the quotation mark after it. -/
def strRound (cs : List Char) : Parser (Control (List Char) (List Char)) := do
  let c ← eatChar
  if c = quotationMark then pure (.stop cs)
  else if c = backslash then do
    let escaped ← parseEscape
    pure (.again (cs ++ [escaped]))
  else if c.toNat < 0x20 then failure
  else pure (.again (cs ++ [c]))

/-- After the opening quotation mark. -/
def parseStr : Parser String := String.ofList <$> loop strRound []

/-- A string, after white space. -/
def deserializeString : Parser String := do
  match ← parseWhitespace with
  | some c => if c = quotationMark then do discard eatChar; parseStr else failure
  | none => failure

/-! ## Numbers -/

/-- As many digits as there are. -/
def digits : Parser (List Char) := fun text =>
  some (text.takeWhile Char.isDigit, text.dropWhile Char.isDigit)

/-- A number goes on, as no integer. -/
def isNumberPart (c : Char) : Bool := c = '.' ∨ c = 'e' ∨ c = 'E'

/-- An unsigned integer below the bound. A text with a sign, a fraction or an
exponent is a number of another kind, from which none is made. -/
def deserializeUnsigned (bound : Nat) : Parser Nat := do
  discard parseWhitespace
  let ds ← digits
  let next ← peek
  let n := Nat.ofDigitChars 10 ds 0
  if ds = [] ∨ (ds.head? = some '0' ∧ ds ≠ ['0']) ∨ next.any isNumberPart ∨ bound ≤ n then failure
  else pure n

/-! ## Values that are skipped -/

/-- After a backslash, in a string that is skipped. -/
def ignoreEscape : Parser Unit := do
  let c ← eatChar
  if c ∈ [quotationMark, backslash, '/', 'b', 'f', 'n', 'r', 't'] then pure ()
  else if c = 'u' then discard decodeHexEscape
  else failure

/-- A character of a string that is skipped. -/
def ignoreStrRound (_ : Unit) : Parser (Control Unit Unit) := do
  let c ← eatChar
  if c = quotationMark then pure (.stop ())
  else if c = backslash then do
    ignoreEscape
    pure (.again ())
  else if c.toNat < 0x20 then failure
  else pure (.again ())

/-- A string that is skipped, after its opening quotation mark. -/
def ignoreStr : Parser Unit := loop ignoreStrRound ()

/-- At least one digit. -/
def someDigits : Parser Unit := do
  if (← digits) = [] then failure

/-- The exponent of a number that is skipped. -/
def ignoreExponent : Parser Unit := do
  discard eatChar
  let next ← peek
  if next = some '+' ∨ next = some '-' then discard eatChar
  someDigits

/-- The fraction of a number that is skipped. -/
def ignoreDecimal : Parser Unit := do
  discard eatChar
  someDigits
  let next ← peek
  if next = some 'e' ∨ next = some 'E' then ignoreExponent

/-- After the sign, if there is one. -/
def ignoreInteger : Parser Unit := do
  let ds ← digits
  if ds = [] ∨ (ds.head? = some '0' ∧ ds ≠ ['0']) then failure
  else
    let next ← peek
    if next = some '.' then ignoreDecimal
    else if next = some 'e' ∨ next = some 'E' then ignoreExponent

/-- An array or an object that is being skipped. -/
inductive Frame where
  | seq
  | map
deriving DecidableEq, Repr

/-- The bracket that ends it. -/
def Frame.closing : Frame → Char
  | seq => closeBracket
  | map => closeBrace

/-- The ends of frames, up to the next element or the end of the value. -/
def closeFrames : List Frame → Bool → Parser (Option (List Frame))
  | [], _ => pure none
  | frame :: frames, acceptComma => do
    match ← parseWhitespace with
    | none => failure
    | some c =>
      if c = ',' ∧ acceptComma then do
        discard eatChar
        pure (some (frame :: frames))
      else if c = frame.closing then do
        discard eatChar
        closeFrames frames true
      else if acceptComma then failure
      else pure (some (frame :: frames))

/-- A scalar, or the start of an array or an object, which is then a new frame. -/
def ignoreScalar (frames : List Frame) : Parser (List Frame × Bool) := do
  match ← parseWhitespace with
  | none => failure
  | some c =>
    if c = 'n' then do parseIdent "null".toList; pure (frames, true)
    else if c = 't' then do parseIdent "true".toList; pure (frames, true)
    else if c = 'f' then do parseIdent "false".toList; pure (frames, true)
    else if c = '-' then do discard eatChar; ignoreInteger; pure (frames, true)
    else if c.isDigit then do ignoreInteger; pure (frames, true)
    else if c = quotationMark then do discard eatChar; ignoreStr; pure (frames, true)
    else if c = openBracket then do discard eatChar; pure (.seq :: frames, false)
    else if c = openBrace then do discard eatChar; pure (.map :: frames, false)
    else failure

/-- In an object, the key before the next value. -/
def ignoreKey : List Frame → Parser Unit
  | .map :: _ => do
    expect quotationMark
    ignoreStr
    parseObjectColon
  | _ => pure ()

/-- A round over a value: a scalar or an opening bracket, and what ends after it. -/
def ignoreRound (frames : List Frame) : Parser (Control (List Frame) Unit) := do
  let (frames, acceptComma) ← ignoreScalar frames
  match ← closeFrames frames acceptComma with
  | none => pure (.stop ())
  | some frames => do
    ignoreKey frames
    pure (.again frames)

/-- `ignore_value`: any value, without recursion. -/
def ignoreValue : Parser Unit := loop ignoreRound []

/-! ## Options, sequences and maps -/

/-- `null`, or a value. -/
def deserializeOption (p : Parser α) : Parser (Option α) := do
  match ← parseWhitespace with
  | some c =>
    if c = 'n' then do
      parseIdent "null".toList
      pure none
    else some <$> p
  | none => some <$> p

/-- What `has_next_element` asks for past a comma. -/
def elementPastComma : Parser Bool := do
  match ← parseWhitespace with
  | some c => if c = closeBracket then failure else pure true
  | none => failure

/-- `has_next_element` -/
def hasNextElement (first : Bool) : Parser Bool := do
  match ← parseWhitespace with
  | none => failure
  | some c =>
    if c = closeBracket then pure false
    else if first then pure true
    else if c = ',' then do
      discard eatChar
      elementPastComma
    else failure

/-- The next element of a sequence, if there is one. -/
def nextElement (p : Parser α) (first : Bool) : Parser (Option α) := do
  if ← hasNextElement first then some <$> p else pure none

/-- What has been read of a sequence, and whether that is nothing yet. -/
def elementRound (p : Parser α) (s : Bool × List α) :
    Parser (Control (Bool × List α) (List α)) := do
  match ← nextElement p s.1 with
  | none => pure (.stop s.2)
  | some x => pure (.again (false, s.2 ++ [x]))

/-- The elements in their order. -/
def deserializeSeq (p : Parser α) : Parser (List α) := do
  expect openBracket
  let xs ← loop (elementRound p) (true, [])
  endSeq
  pure xs

/-- `has_next_key`, and the key. -/
def nextKey (first : Bool) : Parser (Option String) := do
  match ← parseWhitespace with
  | none => failure
  | some c =>
    if c = closeBrace then pure none
    else if first then
      if c = quotationMark then do discard eatChar; some <$> parseStr else failure
    else if c = ',' then do
      discard eatChar
      expect quotationMark
      some <$> parseStr
    else failure

/-- A round over the members of an object: a key, and what is made of what follows. -/
def keyRound (after : σ → String → Parser σ) (s : Bool × σ) : Parser (Control (Bool × σ) σ) := do
  match ← nextKey s.1 with
  | none => pure (.stop s.2)
  | some key => do
    let t ← after s.2 key
    pure (.again (false, t))

/-- The entry of a map, after its key. -/
def entry (p : Parser α) (entries : List (String × α)) (key : String) :
    Parser (List (String × α)) := do
  parseObjectColon
  let x ← p
  pure (entries ++ [(key, x)])

/-- The entries in their order. -/
def deserializeMap (p : Parser α) : Parser (List (String × α)) := do
  expect openBrace
  let entries ← loop (keyRound (entry p)) (true, [])
  endMap
  pure entries

/-! ## Structures -/

/-- A structure: its fields in the order of their declaration, each with its name, how
it is read and what it is if it is missing. -/
structure Schema (F : Type) where
  Value : F → Type
  name : F → String
  read : ∀ f, Parser (Value f)
  missing : ∀ f, Option (Value f)
  fields : List F

namespace Schema

variable {F : Type} [DecidableEq F]

/-- The fields found so far. -/
abbrev Found (schema : Schema F) := ∀ f, Option (schema.Value f)

/-- The field of this name. -/
def fieldOf (schema : Schema F) (name : String) : Option F :=
  schema.fields.find? fun f => schema.name f = name

/-- One member of an object: a field, which must not come twice, or something else. -/
def member (schema : Schema F) (found : schema.Found) (key : String) : Parser schema.Found :=
  match schema.fieldOf key with
  | none => do
    parseObjectColon
    ignoreValue
    pure found
  | some f =>
    if (found f).isSome then failure
    else do
      parseObjectColon
      let x ← schema.read f
      pure (Function.update found f (some x))

/-- The fields from an object; those that are missing get what they have then. -/
def visitMap (schema : Schema F) : Parser schema.Found := do
  let found ← loop (keyRound schema.member) (true, fun _ => none)
  pure fun f => (found f).or (schema.missing f)

/-- The fields from an array, all of them and in order. -/
def visitSeq (schema : Schema F) : Bool → List F → schema.Found → Parser schema.Found
  | _, [], found => pure found
  | first, f :: fs, found => do
    match ← nextElement (schema.read f) first with
    | none => failure
    | some x => visitSeq schema false fs (Function.update found f (some x))

end Schema

variable {F : Type} [DecidableEq F]

/-- The fields of a structure whose text starts with this character. -/
def Schema.visit (schema : Schema F) (c : Char) : Parser schema.Found :=
  if c = openBracket then do
    discard eatChar
    let found ← schema.visitSeq true schema.fields fun _ => none
    endSeq
    pure found
  else if c = openBrace then do
    discard eatChar
    let found ← schema.visitMap
    endMap
    pure found
  else failure

/-- A structure built of its fields. -/
def deserializeStruct (schema : Schema F) (build : schema.Found → Option α) : Parser α := do
  match ← parseWhitespace with
  | none => failure
  | some c => do
    let found ← schema.visit c
    match build found with
    | some x => pure x
    | none => failure

/-- An enumeration whose variants are plain names: the name, or an object of the name and
`null`. -/
def deserializeEnum (variant : String → Option α) : Parser α := do
  match ← parseWhitespace with
  | none => failure
  | some c =>
    if c = openBrace then do
      discard eatChar
      let name ← deserializeString
      match variant name with
      | none => failure
      | some x => do
        parseObjectColon
        discard parseWhitespace
        parseIdent "null".toList
        endMap
        pure x
    else if c = quotationMark then do
      let name ← deserializeString
      match variant name with
      | none => failure
      | some x => pure x
    else failure

/-- `from_str`: the value, and nothing but white space after it. -/
def fromStr (p : Parser α) (text : List Char) : Option α :=
  match p.run text with
  | some (x, rest) => if rest.all isSpace then some x else none
  | none => none

/-! ## More text -/

variable {p : Parser α} {q : Option Char → Parser α} {text rest : List Char}

theorem settled_parseWhitespace : Settled parseWhitespace where
  suffix h := by
    obtain ⟨-, rfl⟩ := Prod.mk.inj (Option.some.inj h)
    exact List.dropWhile_suffix _
  extend h hrest more := by
    obtain ⟨rfl, rfl⟩ := Prod.mk.inj (Option.some.inj h)
    have hdrop : (_ ++ more).dropWhile isSpace = _ ++ more :=
      (List.dropWhile_append).trans (if_neg (by simpa using hrest))
    show some ((_ : List Char).head?, _) = _
    rw [hdrop, List.head?_append_of_ne_nil _ hrest]

/-- After white space a character is there, or the text is at its end. -/
theorem firm_afterWhitespace (hsome : ∀ c, Closed (q (some c))) (hnone : Firm (q none)) :
    Firm (parseWhitespace >>= q) where
  suffix h := by
    obtain ⟨c, mid, hx, hy⟩ := run_bind_eq_some.mp h
    refine List.IsSuffix.trans ?_ (settled_parseWhitespace.suffix hx)
    cases c with
    | none => exact hnone.suffix hy
    | some c => exact (hsome c).suffix hy
  extend h more := by
    obtain ⟨c, mid, hx, hy⟩ := run_bind_eq_some.mp h
    cases c with
    | none =>
      obtain ⟨hhead, rfl⟩ := Prod.mk.inj (Option.some.inj hx)
      rw [List.head?_eq_none_iff.mp hhead, hnone.needs] at hy
      exact nomatch hy
    | some c =>
      have hmid : mid ≠ [] := by
        rintro rfl
        obtain ⟨hhead, hnil⟩ := Prod.mk.inj (Option.some.inj hx)
        rw [hnil] at hhead
        exact nomatch hhead
      exact run_bind_eq_some.mpr
        ⟨some c, mid ++ more, settled_parseWhitespace.extend hx hmid more, (hsome c).extend hy more⟩
  needs := (run_bind_of_some rfl).trans hnone.needs

theorem closed_eatChar : Closed eatChar where
  suffix {text _ _} h := by
    cases text with
    | nil => exact nomatch h
    | cons c text =>
      obtain ⟨-, rfl⟩ := Prod.mk.inj (Option.some.inj h)
      exact List.suffix_cons c text
  extend {text _ _} h more := by
    cases text with
    | nil => exact nomatch h
    | cons c text =>
      obtain ⟨rfl, rfl⟩ := Prod.mk.inj (Option.some.inj h)
      rfl

theorem firm_eatChar : Firm eatChar := ⟨closed_eatChar, rfl⟩

theorem eats_eatChar : Eats eatChar := by
  intro text c rest h
  cases text with
  | nil => exact nomatch h
  | cons c text =>
    obtain ⟨-, rfl⟩ := Prod.mk.inj (Option.some.inj h)
    exact Nat.lt_succ_self _

theorem settled_peek : Settled peek where
  suffix h := by
    obtain ⟨-, rfl⟩ := Prod.mk.inj (Option.some.inj h)
    exact List.suffix_rfl
  extend h hrest more := by
    obtain ⟨rfl, rfl⟩ := Prod.mk.inj (Option.some.inj h)
    show some ((_ : List Char).head?, _) = _
    rw [List.head?_append_of_ne_nil _ hrest]

theorem settled_digits : Settled digits where
  suffix h := by
    obtain ⟨-, rfl⟩ := Prod.mk.inj (Option.some.inj h)
    exact List.dropWhile_suffix _
  extend {text _ _} h hrest more := by
    obtain ⟨rfl, rfl⟩ := Prod.mk.inj (Option.some.inj h)
    have hdrop : (text ++ more).dropWhile Char.isDigit = text.dropWhile Char.isDigit ++ more :=
      (List.dropWhile_append).trans (if_neg (by simpa using hrest))
    have htake : (text ++ more).takeWhile Char.isDigit = text.takeWhile Char.isDigit := by
      have hsplit : (text ++ more).takeWhile Char.isDigit ++ (text ++ more).dropWhile Char.isDigit
          = text.takeWhile Char.isDigit ++ (text ++ more).dropWhile Char.isDigit := by
        rw [List.takeWhile_append_dropWhile, hdrop, ← List.append_assoc,
          List.takeWhile_append_dropWhile]
      exact List.append_cancel_right hsplit
    show some (_, _) = _
    rw [hdrop, htake]

theorem run_parseIdent_eq_some {ident : List Char} :
    (parseIdent ident).run text = some ((), rest) ↔ text = ident ++ rest := by
  show ((if ident <+: text then some (text.drop ident.length) else none).map _) = _ ↔ _
  constructor
  · intro h
    split at h
    · obtain ⟨more, rfl⟩ := ‹ident <+: text›
      rw [List.drop_left] at h
      obtain ⟨-, rfl⟩ := Prod.mk.inj (Option.some.inj h)
      rfl
    · exact nomatch h
  · rintro rfl
    rw [if_pos (List.prefix_append _ _), List.drop_left]
    rfl

theorem closed_parseIdent (ident : List Char) : Closed (parseIdent ident) where
  suffix h := by
    rw [run_parseIdent_eq_some.mp h]
    exact List.suffix_append _ _
  extend h more := by
    rw [run_parseIdent_eq_some.mp h, List.append_assoc]
    exact run_parseIdent_eq_some.mpr rfl

theorem firm_expect (c : Char) : Firm (expect c) :=
  firm_afterWhitespace (fun _ => closed_eatChar.map.ite closed_failure) firm_failure

theorem closed_decodeHexEscape : Closed decodeHexEscape where
  suffix {text _ _} h := by
    match text, h with
    | a :: b :: c :: d :: rest, h =>
      obtain ⟨n, -, h⟩ := Option.map_eq_some_iff.mp h
      obtain ⟨-, rfl⟩ := Prod.mk.inj h
      exact ⟨[a, b, c, d], rfl⟩
  extend {text _ _} h more := by
    match text, h with
    | a :: b :: c :: d :: rest, h =>
      obtain ⟨n, hn, h⟩ := Option.map_eq_some_iff.mp h
      obtain ⟨rfl, rfl⟩ := Prod.mk.inj h
      show (Text.hexDigits 0 [a, b, c, d]).map _ = _
      rw [hn]
      rfl

theorem closed_parseUnicodeEscape : Closed parseUnicodeEscape :=
  closed_decodeHexEscape.bind fun _ => closed_failure.ite ((closed_pure _).ite
    ((closed_parseIdent _).bind fun _ => closed_decodeHexEscape.bind fun _ =>
      closed_failure.ite (closed_pure _)))

theorem closed_parseEscape : Closed parseEscape := by
  refine closed_eatChar.bind fun c => ?_
  repeat' apply Closed.ite
  all_goals first
    | exact closed_pure _
    | exact closed_failure
    | exact closed_parseUnicodeEscape

theorem firm_strRound (cs : List Char) : Firm (strRound cs) :=
  firm_eatChar.bind fun _ => (closed_pure _).ite
    ((closed_parseEscape.bind fun _ => closed_pure _).ite (closed_failure.ite (closed_pure _)))

theorem eats_strRound (cs : List Char) : Eats (strRound cs) := by
  refine eats_eatChar.bind fun c => Closed.settled ?_
  exact (closed_pure _).ite
    ((closed_parseEscape.bind fun _ => closed_pure _).ite (closed_failure.ite (closed_pure _)))

theorem progress_strRound : Progress strRound := Eats.progress eats_strRound

theorem firm_parseStr : Firm parseStr := (Firm.loop progress_strRound firm_strRound []).map

theorem firm_deserializeString : Firm deserializeString :=
  firm_afterWhitespace (fun _ => (closed_eatChar.map.bind fun _ => firm_parseStr.toClosed).ite
    closed_failure) firm_failure

theorem eats_deserializeString : Eats deserializeString := by
  refine Eats.after settled_parseWhitespace fun o => ?_
  cases o with
  | none => exact eats_failure
  | some c => exact (eats_eatChar.map.bind fun _ => firm_parseStr.settled).ite eats_failure

theorem settled_deserializeUnsigned (bound : Nat) : Settled (deserializeUnsigned bound) :=
  settled_parseWhitespace.map.bind fun _ => settled_digits.bind fun _ => settled_peek.bind fun _ =>
    closed_failure.settled.ite (closed_pure _).settled

theorem length_of_digits {ds : List Char} (h : digits.run text = some (ds, rest)) :
    ds.length + rest.length = text.length := by
  obtain ⟨rfl, rfl⟩ := Prod.mk.inj (Option.some.inj h)
  rw [← List.length_append, List.takeWhile_append_dropWhile]

theorem closed_ignoreEscape : Closed ignoreEscape :=
  closed_eatChar.bind fun _ => (closed_pure _).ite (closed_decodeHexEscape.map.ite closed_failure)

theorem closed_afterStrChar (c : Char) : Closed
    (if c = quotationMark then pure (.stop ())
      else if c = backslash then do
        ignoreEscape
        pure (.again ())
      else if c.toNat < 0x20 then failure
      else pure (.again ()) : Parser (Control Unit Unit)) :=
  (closed_pure _).ite ((closed_ignoreEscape.bind fun _ => closed_pure _).ite
    (closed_failure.ite (closed_pure _)))

theorem progress_ignoreStrRound : Progress ignoreStrRound :=
  Eats.progress fun _ => eats_eatChar.bind fun c => (closed_afterStrChar c).settled

theorem firm_ignoreStr : Firm ignoreStr :=
  Firm.loop progress_ignoreStrRound (fun _ => firm_eatChar.bind closed_afterStrChar) ()

theorem settled_someDigits : Settled someDigits :=
  settled_digits.bind fun _ => closed_failure.settled.ite (closed_pure _).settled

theorem settled_ignoreExponent : Settled ignoreExponent :=
  closed_eatChar.settled.map.bind fun _ => settled_peek.bind fun _ =>
    (closed_eatChar.settled.map.bind fun _ => settled_someDigits).ite settled_someDigits

theorem settled_ignoreDecimal : Settled ignoreDecimal :=
  closed_eatChar.settled.map.bind fun _ => settled_someDigits.bind fun _ =>
    settled_peek.bind fun _ => settled_ignoreExponent.ite (closed_pure _).settled

theorem settled_ignoreInteger : Settled ignoreInteger :=
  settled_digits.bind fun _ => closed_failure.settled.ite (settled_peek.bind fun _ =>
    settled_ignoreDecimal.ite (settled_ignoreExponent.ite (closed_pure _).settled))

theorem eats_ignoreInteger : Eats ignoreInteger := by
  intro text x rest h
  obtain ⟨ds, mid, hdigits, hrest⟩ := run_bind_eq_some.mp h
  have hlength := length_of_digits hdigits
  have hsuffix : rest <:+ mid := by
    refine Settled.suffix ?_ hrest
    exact closed_failure.settled.ite (settled_peek.bind fun _ =>
      settled_ignoreDecimal.ite (settled_ignoreExponent.ite (closed_pure _).settled))
  have hds : ds ≠ [] := by
    rintro rfl
    exact nomatch hrest
  have := hsuffix.length_le
  have := List.length_pos_iff.mpr hds
  omega

theorem settled_closeFrames (frames : List Frame) (acceptComma : Bool) :
    Settled (closeFrames frames acceptComma) := by
  induction frames generalizing acceptComma with
  | nil => exact (closed_pure _).settled
  | cons frame frames ih =>
    refine settled_parseWhitespace.bind fun o => ?_
    cases o with
    | none => exact closed_failure.settled
    | some c =>
      exact (closed_eatChar.settled.map.bind fun _ => (closed_pure _).settled).ite
        ((closed_eatChar.settled.map.bind fun _ => ih true).ite
          (closed_failure.settled.ite (closed_pure _).settled))

theorem eats_parseIdent {ident : List Char} (h : ident ≠ []) : Eats (parseIdent ident) := by
  intro text x rest hrun
  have hpos := List.length_pos_iff.mpr h
  rw [run_parseIdent_eq_some.mp hrun, List.length_append]
  omega

/-- The ways on after the first character of a value. -/
theorem settled_ignoreScalar (frames : List Frame) : Settled (ignoreScalar frames) := by
  refine settled_parseWhitespace.bind fun o => ?_
  cases o with
  | none => exact closed_failure.settled
  | some c =>
    have hident (ident : List Char) :
        Settled (do parseIdent ident; pure (frames, true) : Parser (List Frame × Bool)) :=
      (closed_parseIdent ident).settled.bind fun _ => (closed_pure _).settled
    have hinteger : Settled (do ignoreInteger; pure (frames, true) : Parser (List Frame × Bool)) :=
      settled_ignoreInteger.bind fun _ => (closed_pure _).settled
    have heat {q : Parser (List Frame × Bool)} (hq : Settled q) :
        Settled (do discard eatChar; q) := closed_eatChar.settled.map.bind fun _ => hq
    exact (hident _).ite ((hident _).ite ((hident _).ite ((heat hinteger).ite (hinteger.ite
      ((heat (firm_ignoreStr.settled.bind fun _ => (closed_pure _).settled)).ite
        ((heat (closed_pure _).settled).ite ((heat (closed_pure _).settled).ite
          closed_failure.settled)))))))

theorem eats_ignoreScalar (frames : List Frame) : Eats (ignoreScalar frames) := by
  refine Eats.after settled_parseWhitespace fun o => ?_
  cases o with
  | none => exact eats_failure
  | some c =>
    have hident {ident : List Char} (hne : ident ≠ []) :
        Eats (do parseIdent ident; pure (frames, true) : Parser (List Frame × Bool)) :=
      (eats_parseIdent hne).bind fun _ => (closed_pure _).settled
    have heat {q : Parser (List Frame × Bool)} (hq : Settled q) :
        Eats (do discard eatChar; q) := eats_eatChar.map.bind fun _ => hq
    exact (hident (by decide)).ite ((hident (by decide)).ite ((hident (by decide)).ite
      ((heat (settled_ignoreInteger.bind fun _ => (closed_pure _).settled)).ite
        ((eats_ignoreInteger.bind fun _ => (closed_pure _).settled).ite
          ((heat (firm_ignoreStr.settled.bind fun _ => (closed_pure _).settled)).ite
            ((heat (closed_pure _).settled).ite ((heat (closed_pure _).settled).ite
              eats_failure)))))))

theorem closed_ignoreKey (frames : List Frame) : Closed (ignoreKey frames) := by
  match frames with
  | .map :: _ =>
    exact (firm_expect _).toClosed.bind fun _ => firm_ignoreStr.toClosed.bind fun _ =>
      (firm_expect _).toClosed
  | .seq :: _ => exact closed_pure _
  | [] => exact closed_pure _

theorem settled_afterScalar (s : List Frame × Bool) : Settled (do
    match ← closeFrames s.1 s.2 with
    | none => pure (.stop ())
    | some frames => do
      ignoreKey frames
      pure (.again frames) : Parser (Control (List Frame) Unit)) := by
  refine (settled_closeFrames _ _).bind fun o => ?_
  cases o with
  | none => exact (closed_pure _).settled
  | some frames => exact ((closed_ignoreKey frames).bind fun _ => closed_pure _).settled

theorem settled_ignoreValue : Settled ignoreValue :=
  Settled.loop (Eats.progress fun frames => (eats_ignoreScalar frames).bind settled_afterScalar)
    (fun frames => (settled_ignoreScalar frames).bind settled_afterScalar) []

theorem firm_deserializeOption (hp : Firm p) : Firm (deserializeOption p) :=
  firm_afterWhitespace (fun _ => ((closed_parseIdent _).bind fun _ => closed_pure _).ite
    hp.toClosed.map) hp.map

theorem firm_elementPastComma : Firm elementPastComma :=
  firm_afterWhitespace (fun _ => closed_failure.ite (closed_pure _)) firm_failure

theorem firm_hasNextElement (first : Bool) : Firm (hasNextElement first) := by
  refine firm_afterWhitespace (fun c => ?_) firm_failure
  exact (closed_pure _).ite ((closed_pure _).ite
    ((closed_eatChar.map.bind fun _ => firm_elementPastComma.toClosed).ite closed_failure))

theorem settled_nextElement (hp : Settled p) (first : Bool) : Settled (nextElement p first) :=
  (firm_hasNextElement first).settled.bind fun _ => hp.map.ite (closed_pure _).settled

theorem settled_elementRound (hp : Settled p) (s : Bool × List α) : Settled (elementRound p s) := by
  refine (settled_nextElement hp s.1).bind fun o => ?_
  cases o with
  | none => exact (closed_pure _).settled
  | some x => exact (closed_pure _).settled

theorem progress_elementRound (hp : Eats p) : Progress (elementRound p) := by
  intro s t text rest h
  obtain ⟨o, mid, hnext, hend⟩ := run_bind_eq_some.mp h
  cases o with
  | none => exact nomatch hend
  | some x =>
    obtain ⟨-, rfl⟩ := Prod.mk.inj (Option.some.inj hend)
    obtain ⟨more, start, hmore, hx⟩ := run_bind_eq_some.mp hnext
    have hle := ((firm_hasNextElement s.1).suffix hmore).length_le
    cases more with
    | false => exact nomatch hx
    | true => exact Nat.lt_of_lt_of_le (hp.map _ _ _ hx) hle

theorem firm_deserializeSeq (hp : Settled p) (heats : Eats p) : Firm (deserializeSeq p) :=
  (firm_expect _).bind_settled
    (fun _ => Settled.loop (progress_elementRound heats) (settled_elementRound hp) _)
    fun _ => (firm_expect _).bind fun _ => closed_pure _

theorem firm_nextKey (first : Bool) : Firm (nextKey first) := by
  refine firm_afterWhitespace (fun c => ?_) firm_failure
  have hkey : Closed (do discard eatChar; some <$> parseStr) :=
    closed_eatChar.map.bind fun _ => firm_parseStr.toClosed.map
  exact (closed_pure _).ite ((hkey.ite closed_failure).ite ((closed_eatChar.map.bind fun _ =>
    (firm_expect _).toClosed.bind fun _ => firm_parseStr.toClosed.map).ite closed_failure))

/-- A key takes at least its quotation mark. -/
theorem length_of_nextKey {first : Bool} {key : String}
    (h : (nextKey first).run text = some (some key, rest)) : rest.length < text.length := by
  obtain ⟨o, mid, hspace, hkey⟩ := run_bind_eq_some.mp h
  have hle := (settled_parseWhitespace.suffix hspace).length_le
  have hstr : Eats (do discard eatChar; some <$> parseStr) :=
    eats_eatChar.map.bind fun _ => firm_parseStr.settled.map
  have hnext : Eats (do discard eatChar; expect quotationMark; some <$> parseStr) :=
    eats_eatChar.map.bind fun _ => (firm_expect _).settled.bind fun _ => firm_parseStr.settled.map
  cases o with
  | none => exact nomatch hkey
  | some c =>
    refine Nat.lt_of_lt_of_le ?_ hle
    dsimp only at hkey
    split at hkey
    · exact nomatch hkey
    · exact ((hstr.ite eats_failure).ite (hnext.ite eats_failure)) _ _ _ hkey

theorem settled_keyRound {after : σ → String → Parser σ} (h : ∀ s key, Settled (after s key))
    (s : Bool × σ) : Settled (keyRound after s) := by
  refine (firm_nextKey s.1).settled.bind fun o => ?_
  cases o with
  | none => exact (closed_pure _).settled
  | some key => exact (h s.2 key).bind fun _ => (closed_pure _).settled

theorem progress_keyRound {after : σ → String → Parser σ} (h : ∀ s key, Settled (after s key)) :
    Progress (keyRound after) := by
  intro s t text rest hrun
  obtain ⟨o, mid, hkey, hend⟩ := run_bind_eq_some.mp hrun
  cases o with
  | none => exact nomatch hend
  | some key =>
    refine Nat.lt_of_le_of_lt (List.IsSuffix.length_le ?_) (length_of_nextKey hkey)
    exact ((h s.2 key).bind fun _ => (closed_pure _).settled).suffix hend

theorem settled_entry (hp : Settled p) (entries : List (String × α)) (key : String) :
    Settled (entry p entries key) :=
  (firm_expect _).settled.bind fun _ => hp.bind fun _ => (closed_pure _).settled

theorem firm_deserializeMap (hp : Settled p) : Firm (deserializeMap p) :=
  (firm_expect _).bind_settled
    (fun _ => Settled.loop (progress_keyRound (settled_entry hp))
      (settled_keyRound (settled_entry hp)) _)
    fun _ => (firm_expect _).bind fun _ => closed_pure _

namespace Schema

variable {schema : Schema F} (hread : ∀ f, Settled (schema.read f))

include hread

theorem settled_member (found : schema.Found) (key : String) :
    Settled (schema.member found key) := by
  unfold member
  cases schema.fieldOf key with
  | none =>
    exact (firm_expect _).settled.bind fun _ => settled_ignoreValue.bind fun _ =>
      (closed_pure _).settled
  | some f =>
    exact closed_failure.settled.ite ((firm_expect _).settled.bind fun _ => (hread f).bind fun _ =>
      (closed_pure _).settled)

theorem settled_visitMap : Settled schema.visitMap :=
  (Settled.loop (progress_keyRound (settled_member hread))
    (settled_keyRound (settled_member hread)) _).bind fun _ => (closed_pure _).settled

theorem settled_visitSeq (first : Bool) (fs : List F) (found : schema.Found) :
    Settled (schema.visitSeq first fs found) := by
  induction fs generalizing first found with
  | nil => exact (closed_pure _).settled
  | cons f fs ih =>
    refine (settled_nextElement (hread f) first).bind fun o => ?_
    cases o with
    | none => exact closed_failure.settled
    | some x => exact ih false _

end Schema

/-- A structure ends with its bracket. -/
theorem firm_deserializeStruct {schema : Schema F} (hread : ∀ f, Settled (schema.read f))
    (build : schema.Found → Option α) : Firm (deserializeStruct schema build) := by
  refine firm_afterWhitespace (fun c => ?_) firm_failure
  refine Closed.bind ?_ fun found => ?_
  · have hseq := Schema.settled_visitSeq hread true schema.fields fun _ => none
    exact ((firm_eatChar.map.bind_settled (fun _ => hseq)
      fun _ => (firm_expect _).bind fun _ => closed_pure _).toClosed).ite
      (((firm_eatChar.map.bind_settled (fun _ => Schema.settled_visitMap hread)
        fun _ => (firm_expect _).bind fun _ => closed_pure _).toClosed).ite closed_failure)
  · cases build found with
    | none => exact closed_failure
    | some x => exact closed_pure x

theorem firm_deserializeEnum (variant : String → Option α) : Firm (deserializeEnum variant) := by
  refine firm_afterWhitespace (fun c => ?_) firm_failure
  refine Closed.ite (closed_eatChar.map.bind fun _ =>
    firm_deserializeString.toClosed.bind fun name => ?_) (Closed.ite
    (firm_deserializeString.toClosed.bind fun name => ?_) closed_failure)
  · cases variant name with
    | none => exact closed_failure
    | some x =>
      exact (firm_expect _).toClosed.bind fun _ => settled_parseWhitespace.map.bind_firm fun _ =>
        Firm.bind ⟨closed_parseIdent _, rfl⟩ fun _ => (firm_expect _).toClosed.bind fun _ =>
          closed_pure x
  · cases variant name with
    | none => exact closed_failure
    | some x => exact closed_pure x

/-- A text that `from_str` reads, and that ends with what is read of it, has no proper
beginning that `from_str` reads. -/
theorem fromStr_cut {cut : List Char} {x : α} (hp : Closed p) (hfull : p.run text = some (x, []))
    (hcut : cut <+: text) (hproper : cut ≠ text) : fromStr p cut = none := by
  rw [fromStr, hp.reject_cut hfull hcut hproper]

end JsonReader
