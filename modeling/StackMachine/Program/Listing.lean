import StackMachine.Code.Operand
import StackMachine.Text.Table

/-!
Words shown as program text, word by word, and the table of a program with the addresses it is
loaded at.
-/

set_option autoImplicit false

namespace StackMachine

namespace Word

def startsLiteral : Word → Bool
  | .instruction code _ => code == Opcode.lit.code
  | _ => false

/-- The reading of a word as an instruction or, if it stands after `LIT`, as data. -/
def reading (asData : Bool) (word : Word) : String :=
  match word with
  | .text payload => "\"" ++ payload ++ "\""
  | .literal _ => word.display
  | .instruction code operand? =>
    if asData then word.display
    else match Opcode.ofCode? code, operand? with
      | some operation, some operand =>
        operation.mnemonic ++ " " ++ (Address.unpack operand).display
      | some operation, none => operation.mnemonic
      | none, _ => "???"

/-- The readings of words of which the first may stand after `LIT`. Data makes no data. -/
def readings (asData : Bool) : List Word → List String
  | [] => []
  | word :: rest => word.reading asData :: readings (!asData && word.startsLiteral) rest

theorem length_readings (asData : Bool) (words : List Word) :
    (readings asData words).length = words.length := by
  induction words generalizing asData with
  | nil => rfl
  | cons word rest ih => simp [readings, ih]

end Word

def disassemble (words : List Word) : List String :=
  Word.readings false words

namespace Listing

structure Row where
  address : Address
  word : Word
  reading : String
deriving DecidableEq

/-- Words are listed at the addresses that loading them into fresh memory gives them. -/
def rows (words : List Word) : List Row :=
  (words.zip (disassemble words)).mapIdx fun i (word, reading) => ⟨.ofIndex i, word, reading⟩

def columns : List Column :=
  [⟨"Address", .right⟩, ⟨"Cell", .left⟩, ⟨"Assembly", .left⟩]

def table (words : List Word) : Table :=
  ⟨columns, (rows words).map fun row => [row.address.display, row.word.hex, row.reading]⟩

end Listing

end StackMachine
