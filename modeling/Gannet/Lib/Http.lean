import Gannet.Lib.Text

/-!
# Reading an HTTP message

The head of a message is its lines up to an empty one, and what follows is the body.
A message that is written line by line is read back (`readMessage_messageOf`) if no
line is empty or has a carriage return in it.
-/

namespace Http

open Text

/-- The end of a line. -/
def crlf : List Char := ['\r', '\n']

/-- A message, from the lines of its head and its body. -/
def messageOf (head : List (List Char)) (body : List Char) : List Char :=
  head.flatMap (· ++ crlf) ++ (crlf ++ body)

/-- The lines up to an empty one, and what follows it; at most `fuel` lines are read. -/
def readLines : Nat → List Char → Option (List (List Char) × List Char)
  | 0, _ => none
  | fuel + 1, cs => do
    let (line, rest) ← splitAtFirst crlf cs
    if line = [] then return ([], rest)
    let (head, body) ← readLines fuel rest
    return (line :: head, body)

/-- The head and the body; every line takes a character. -/
def readMessage (cs : List Char) : Option (List (List Char) × List Char) :=
  readLines cs.length cs

/-- The value of the first field of a name. -/
def fieldValue (name : String) (head : List (List Char)) : Option (List Char) :=
  head.findSome? (stripStart (name.toList ++ ": ".toList))

theorem readLines_messageOf {head : List (List Char)} {fuel : Nat}
    (hlines : ∀ l ∈ head, l ≠ [] ∧ '\r' ∉ l) (hfuel : head.length < fuel) (body : List Char) :
    readLines fuel (messageOf head body) = some (head, body) := by
  induction head generalizing fuel with
  | nil =>
    cases fuel with
    | zero => cases hfuel
    | succ fuel => rfl
  | cons l head ih =>
    cases fuel with
    | zero => cases hfuel
    | succ fuel =>
      obtain ⟨hne, hcr⟩ := hlines l List.mem_cons_self
      have hsplit : splitAtFirst crlf (messageOf (l :: head) body)
          = some (l, messageOf head body) := by
        rw [messageOf, List.flatMap_cons, List.append_assoc, List.append_assoc]
        exact splitAtFirst_append hcr _
      have hrest := ih (fun l' hl' => hlines l' (List.mem_cons_of_mem l hl'))
        (Nat.lt_of_succ_lt_succ hfuel)
      rw [readLines, hsplit]
      show (if l = [] then some ([], _) else _) = _
      rw [if_neg hne, hrest]
      rfl

theorem readMessage_messageOf {head : List (List Char)} (hlines : ∀ l ∈ head, l ≠ [] ∧ '\r' ∉ l)
    (body : List Char) : readMessage (messageOf head body) = some (head, body) := by
  refine readLines_messageOf hlines ?_ body
  have hlen : head.length ≤ (head.flatMap (· ++ crlf)).length := by
    clear hlines
    induction head with
    | nil => exact Nat.le_refl 0
    | cons l head ih =>
      rw [List.flatMap_cons, List.length_append, List.length_append, List.length_cons]
      have hcrlf : crlf.length = 2 := rfl
      omega
  have hcrlf : crlf.length = 2 := rfl
  simp only [messageOf, List.length_append]
  omega

end Http
