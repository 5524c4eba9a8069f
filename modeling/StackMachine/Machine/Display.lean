import StackMachine.Machine.State
import StackMachine.Text.Table

/-!
A machine as text: where its counter stands, the cells around it, and both stacks.
-/

set_option autoImplicit false

namespace StackMachine

/-- A cell as it is shown. The highlighted one is the cell of the counter or the top of a stack. -/
structure CellRow where
  label : String
  word : Word
  highlighted : Bool
deriving DecidableEq

namespace CellRow

def cells (row : CellRow) : List String :=
  [(if row.highlighted then "* --> " else "") ++ row.label ++ " =", row.word.hex]

def table (rows : List CellRow) : Table :=
  ⟨[⟨"Address", .right⟩, ⟨"Contents", .left⟩], rows.map cells⟩

end CellRow

namespace Machine

def shownCells : Nat := 8

/-- The cells around the counter, half of them before it as far as there are any. -/
def memoryRows (machine : Machine) : List CellRow :=
  let position := machine.counter.position
  let start := Address.ofIndex (position.index - shownCells / 2)
  (machine.memory.cellsFrom start shownCells).map fun (address, word) =>
    ⟨address.display, word, address = position⟩

/-- The words of a stack, its top first, numbered from the bottom. -/
def stackRows (name : String) (stack : Stack) : List CellRow :=
  let top := stack.length - 1
  stack.mapIdx fun depth word =>
    ⟨name ++ "[" ++ Numeral.decimal (top - depth : Nat) ++ "]", word, depth = 0⟩

/-- The tables of memory and of both stacks, side by side as the cells of one row. -/
def table (machine : Machine) : Table :=
  ⟨[⟨"Memory", .left⟩, ⟨"Data Stack", .left⟩, ⟨"Return Stack", .left⟩],
    [[(CellRow.table machine.memoryRows).render,
      (CellRow.table (stackRows "D" machine.data)).render,
      (CellRow.table (stackRows "R" machine.returns)).render]]⟩

def display (machine : Machine) : String :=
  "Cursor: " ++ machine.counter.position.display ++ "\t" ++
    (if machine.running then "Running." else "Halted.") ++ "\n" ++ machine.table.render

end Machine

end StackMachine
