import StackMachine.Text.Columns

/-!
Escape sequences in a text: an escape character, an opening bracket, and all up to the letter that
sets colours and styles. They take no room on a screen.
-/

set_option autoImplicit false

namespace StackMachine.Text

def escape : Char :=
  '\u001B'

inductive EscapePlace
  | outside
  | atBracket
  | inside
deriving DecidableEq

namespace EscapePlace

def next (c : Char) : EscapePlace → EscapePlace
  | outside => if c = escape then atBracket else outside
  | atBracket => if c = '[' then inside else outside
  | inside => if c = 'm' then outside else inside

/-- True if a character belongs to a sequence from its bracket on. The escape character before the
bracket still counts one column. -/
def hides (c : Char) (place : EscapePlace) : Bool :=
  place = inside || place.next c = inside

end EscapePlace

/-- The characters in escape sequences that would take room, wide ones counted once. -/
def hiddenCount (text : List Char) : Nat :=
  (text.foldl (fun (place, count) c =>
    let counts := place.hides c && !isControl c && charColumns c ≠ 0
    (place.next c, if counts then count + 1 else count)) (EscapePlace.outside, 0)).2

def screenColumns (text : List Char) : Nat :=
  columns text - hiddenCount text

end StackMachine.Text
