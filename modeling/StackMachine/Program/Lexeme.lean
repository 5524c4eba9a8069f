import StackMachine.Text.Cut

/-!
Program text as lexemes. Between tokens stand blanks and comments; a token is a quoted text or
the longest run of characters that are not blank. No text is unreadable: a comment or a quotation
that is not closed is read as an ordinary token.
-/

set_option autoImplicit false

namespace StackMachine

inductive Token
  | bare (text : String)
  | quoted (text : String)
deriving DecidableEq

/-- The line of a lexeme is the one it starts on, counted from one. -/
structure Lexeme where
  token : Token
  line : Nat
deriving DecidableEq

def isSpace (c : Char) : Bool :=
  c == ' ' || c == '\t' || c == '\r' || c == '\n'

namespace Separator

def isLineEnd (c : Char) : Bool :=
  c == '\r' || c == '\n'

/-- True if a comment that runs to the end of its line can end where this text starts. -/
def atLineEnd : List Char → Bool
  | [] => true
  | '\n' :: _ => true
  | '\r' :: '\n' :: _ => true
  | _ => false

/-- One blank or one comment at the front of a text, and what follows it. A comment stands in
parentheses, which do not nest, or runs from a backslash to the end of its line. A carriage return
without a line feed ends no line, and a comment that runs into one is no comment. -/
def first? : List Char → Option (List Char × List Char)
  | [] => none
  | c :: text =>
    if isSpace c then some ([c], text)
    else if c = '(' ∧ ')' ∈ text then
      some ('(' :: Cut.before ')' text ++ [')'], Cut.after ')' text)
    else if c = '\\' ∧ atLineEnd (text.dropWhile (!isLineEnd ·)) then
      some ('\\' :: text.takeWhile (!isLineEnd ·), text.dropWhile (!isLineEnd ·))
    else none

theorem first?_append {text taken rest : List Char} (found : first? text = some (taken, rest)) :
    taken ++ rest = text := by
  cases text with
  | nil => simp [first?] at found
  | cons c text =>
    simp only [first?] at found
    split at found
    · obtain ⟨rfl, rfl⟩ := found
      rfl
    · split at found
      · rename_i closed
        obtain ⟨rfl, rfl⟩ := found
        simpa [closed.1] using Cut.before_append_after closed.2
      · split at found
        · rename_i ended
          obtain ⟨rfl, rfl⟩ := found
          simp [ended.1]
        · contradiction

theorem first?_ne_nil {text taken rest : List Char} (found : first? text = some (taken, rest)) :
    taken ≠ [] := by
  cases text with
  | nil => simp [first?] at found
  | cons c text =>
    simp only [first?] at found
    split at found
    · obtain ⟨rfl, rfl⟩ := found
      simp
    · split at found
      · obtain ⟨rfl, rfl⟩ := found
        simp
      · split at found
        · obtain ⟨rfl, rfl⟩ := found
          simp
        · contradiction

theorem length_lt_of_first? {text taken rest : List Char}
    (found : first? text = some (taken, rest)) : rest.length < text.length := by
  have whole := congrArg List.length (first?_append found)
  have positive := List.length_pos_iff.mpr (first?_ne_nil found)
  simp only [List.length_append] at whole
  omega

def span (text : List Char) : List Char × List Char :=
  match _found : first? text with
  | none => ([], text)
  | some (taken, rest) => (taken ++ (span rest).1, (span rest).2)
termination_by text.length
decreasing_by all_goals exact length_lt_of_first? _found

theorem span_append (text : List Char) : (span text).1 ++ (span text).2 = text := by
  fun_induction span text with
  | case1 => rfl
  | case2 text taken rest found ih => rw [List.append_assoc, ih, first?_append found]

theorem length_span_le (text : List Char) : (span text).2.length ≤ text.length := by
  have whole := congrArg List.length (span_append text)
  simp only [List.length_append] at whole
  omega

end Separator

namespace Token

def written : Token → List Char
  | bare text => text.toList
  | quoted text => '"' :: text.toList ++ ['"']

/-- The token at the front of a text that does not start with a blank, and what follows it. -/
def first? : List Char → Option (Token × List Char)
  | [] => none
  | c :: text =>
    if isSpace c then none
    else if c = '"' ∧ '"' ∈ text then
      some (.quoted (String.ofList (Cut.before '"' text)), Cut.after '"' text)
    else
      some (.bare (String.ofList (c :: text.takeWhile (!isSpace ·))), text.dropWhile (!isSpace ·))

theorem first?_append {text rest : List Char} {token : Token}
    (found : first? text = some (token, rest)) : token.written ++ rest = text := by
  cases text with
  | nil => simp [first?] at found
  | cons c text =>
    simp only [first?] at found
    split at found
    · contradiction
    · split at found
      · rename_i closed
        obtain ⟨rfl, rfl⟩ := found
        simpa [written, closed.1] using Cut.before_append_after closed.2
      · obtain ⟨rfl, rfl⟩ := found
        simp [written]

theorem written_ne_nil {text rest : List Char} {token : Token}
    (found : first? text = some (token, rest)) : token.written ≠ [] := by
  cases text with
  | nil => simp [first?] at found
  | cons c text =>
    simp only [first?] at found
    split at found
    · contradiction
    · split at found <;> obtain ⟨rfl, rfl⟩ := found <;> simp [written]

theorem length_lt_of_first? {text rest : List Char} {token : Token}
    (found : first? text = some (token, rest)) : rest.length < text.length := by
  have whole := congrArg List.length (first?_append found)
  have positive := List.length_pos_iff.mpr (written_ne_nil found)
  simp only [List.length_append] at whole
  omega

end Token

namespace Lexeme

/-- The lexemes of a text that starts on the given line. -/
def listFrom (line : Nat) (text : List Char) : List Lexeme :=
  let start := line + (Separator.span text).1.count '\n'
  match _found : Token.first? (Separator.span text).2 with
  | none => []
  | some (token, rest) => ⟨token, start⟩ :: listFrom (start + token.written.count '\n') rest
termination_by text.length
decreasing_by
  exact Nat.lt_of_lt_of_le (Token.length_lt_of_first? _found) (Separator.length_span_le text)

def list (text : String) : List Lexeme :=
  listFrom 1 text.toList

end Lexeme

end StackMachine
