import StackMachine.Failure
import StackMachine.Text.Characters
import StackMachine.Text.Cut

/-!
Input of the machine: tokens that wait to be read, and behind them bytes that are taken line by
line when no token waits.
-/

set_option autoImplicit false

namespace StackMachine

def lineFeed : UInt8 := 10

structure Input where
  pending : List String
  unread : List UInt8
deriving DecidableEq

namespace Input

/-- Tokens handed over as they are, even if they are empty or hold blanks. -/
def ofTokens (tokens : List String) : Input :=
  ⟨tokens, []⟩

def ofBytes (bytes : List UInt8) : Input :=
  ⟨[], bytes⟩

def append (input : Input) (tokens : List String) : Input :=
  { input with pending := input.pending ++ tokens }

/-- The tokens of a line, which are its parts between blanks; none if the line is no UTF-8 text. -/
def tokensOfLine? (line : List UInt8) : Option (List String) :=
  (String.fromUTF8? line.toByteArray).map fun text =>
    (Text.fields text.toList).map String.ofList

/-- The next token. A line that is no UTF-8 text is passed over, and the read that met it fails. -/
def read (input : Input) : Except Failure String × Input :=
  match input with
  | ⟨token :: rest, unread⟩ => (.ok token, ⟨rest, unread⟩)
  | ⟨[], []⟩ => (.error .inputExhausted, ⟨[], []⟩)
  | ⟨[], byte :: bytes⟩ =>
    let rest := Cut.after lineFeed (byte :: bytes)
    match tokensOfLine? (Cut.before lineFeed (byte :: bytes)) with
    | some tokens => read ⟨tokens, rest⟩
    | none => (.error .inputExhausted, ⟨[], rest⟩)
termination_by input.unread.length
decreasing_by exact Cut.length_after_lt (List.cons_ne_nil byte bytes)

def reads : Nat → Input → List (Except Failure String)
  | 0, _ => []
  | n + 1, input => input.read.1 :: reads n input.read.2

end Input

end StackMachine
