import StackMachine.Text.Emoji

/-!
Display columns of a text: the columns of its characters, less what ligatures and emoji sequences
share. A text is measured from its end, since the columns of a character hang on what follows it.
-/

set_option autoImplicit false

namespace StackMachine.Text

/-- Asks the character before it to be drawn as text. -/
def textSelector : Char :=
  '\uFE0E'

/-- Asks the character before it to be drawn as a picture. -/
def emojiSelector : Char :=
  '\uFE0F'

inductive Presentation
  | text
  | emoji
deriving DecidableEq

/-- What follows a character and may share columns with it. -/
inductive Sequel
  | apart
  | ligature (rest : Ligature)
  | emoji (rest : EmojiEnd)
deriving DecidableEq

namespace Sequel

def ofChar (c : Char) : Sequel :=
  match Ligature.ofChar? c, EmojiEnd.ofChar? c with
  | some rest, _ => ligature rest
  | none, some rest => emoji rest
  | none, none => apart

def before? (c : Char) : Sequel → Option (Int × Sequel)
  | apart => none
  | ligature rest => (rest.before? c).map fun (columns, waiting) =>
    (columns, (waiting.map ligature).getD apart)
  | emoji rest => (rest.before? c).map fun (columns, sequence) => (columns, emoji sequence)

def takesPicture : Sequel → Bool
  | emoji rest => rest.takesPicture
  | _ => false

/-- Only a ligature goes on across a selector that the character before it does not take. -/
def withoutEmoji : Sequel → Sequel
  | emoji _ => apart
  | other => other

/-- What a selector leaves of the sequel for the character before it. -/
def selected (presentation : Presentation) (sequel : Sequel) : Sequel :=
  if presentation = .emoji ∧ sequel.takesPicture then sequel else sequel.withoutEmoji

end Sequel

/-- What follows a character: perhaps a selector, and then the sequel. -/
structure Context where
  selector : Option Presentation
  sequel : Sequel
deriving DecidableEq

namespace Context

def apart : Context :=
  ⟨none, .apart⟩

/-- The columns of a character with no selector after it, and the context of the one before. -/
def unselected (sequel : Sequel) (c : Char) : Int × Context :=
  if c ≤ lastNarrow then (1, apart)
  else if c = emojiSelector then (0, ⟨some .emoji, sequel.selected .emoji⟩)
  else if c = textSelector then (0, ⟨some .text, sequel.selected .text⟩)
  else match sequel.before? c with
    | some (columns, next) => (columns, ⟨none, next⟩)
    | none => (charColumns c, ⟨none, .ofChar c⟩)

/-- The columns of a character, and the context of the one before it. -/
def before (c : Char) (context : Context) : Int × Context :=
  match context.selector with
  | some .emoji =>
    if textSelectable.has c || emojiSelectable.has c then
      (if context.sequel.takesPicture then 0 else 2, ⟨none, .emoji .picture⟩)
    else unselected context.sequel.withoutEmoji c
  | some .text =>
    if textSelectable.has c then (1, apart) else unselected context.sequel c
  | none => unselected context.sequel c

end Context

def measure (text : List Char) : Int × Context :=
  text.foldr (fun c (columns, context) =>
    let (added, next) := context.before c
    (columns + added, next)) (0, .apart)

def columns (text : List Char) : Nat :=
  (measure text).1.toNat

end StackMachine.Text
