import StackMachine.Machine.Display
import StackMachine.Proofs.Edits
import StackMachine.Proofs.Image

/-!
What the display of a machine shows. The table of memory has the cells around the counter, in order
and as far as there are any, and an arrow at the cell of the counter and nowhere else. The table of
a stack has all its words, the top first, and an arrow at the top.
-/

set_option autoImplicit false

namespace StackMachine

namespace CellRow

/-- A row of a table that is highlighted: an arrow stands before its label. -/
def Arrowed (row : List String) : Prop :=
  ∃ label rest, row = ("* --> " ++ label) :: rest

/-- The rows of a table of cells, numbered from zero on: each has its label and the form of its
word, and the one with the given number has the arrow. -/
structure Shows (table : Table) (count : Nat) (label : Nat → String) (word : Nat → Option Word)
    (marked : Nat) : Prop where
  length : table.rows.length = count
  rows : ∀ i < count, ∃ shown, word i = some shown ∧
    table.rows[i]? = some [(if i = marked then "* --> " else "") ++ label i ++ " =", shown.hex]
  arrow : ∀ i row, table.rows[i]? = some row → (Arrowed row ↔ i = marked)

/-- The rows of a stack, the top first: each has the number of its word from the bottom, and the
first one has the arrow. -/
def ShowsStack (table : Table) (name : String) (stack : Stack) : Prop :=
  Shows table stack.length
    (fun i => name ++ "[" ++ Numeral.decimal (stack.length - 1 - i : Nat) ++ "]")
    (fun i => stack.bottomUp[stack.length - 1 - i]?) 0

/-- The arrow can be told from a label that does not start like it. -/
theorem arrowed_cells_iff {row : CellRow} (plain : row.label.toList.head? ≠ some '*') :
    Arrowed row.cells ↔ row.highlighted = true := by
  cases highlighted : row.highlighted with
  | true =>
    refine iff_of_true ⟨row.label ++ " =", [row.word.hex], ?_⟩ rfl
    rw [cells, highlighted, if_pos rfl, String.append_assoc]
  | false =>
    refine iff_of_false ?_ Bool.false_ne_true
    rintro ⟨label, rest, same⟩
    rw [cells, highlighted, if_neg Bool.false_ne_true, List.cons.injEq] at same
    have front := congrArg (List.head? ∘ String.toList) same.1
    cases chars : row.label.toList with
    | nil => simp [chars] at front
    | cons c more =>
      rw [chars] at plain
      simp [chars] at front
      exact plain (congrArg some front)

theorem shows_table {rows : List CellRow} {count marked : Nat} {label : Nat → String}
    {word : Nat → Option Word} (length : rows.length = count)
    (plain : ∀ i, (label i).toList.head? ≠ some '*')
    (each : ∀ i < count, ∃ shown, word i = some shown ∧
      rows[i]? = some ⟨label i, shown, decide (i = marked)⟩) :
    Shows (table rows) count label word marked := by
  refine ⟨?_, ?_, ?_⟩
  · rw [table, List.length_map, length]
  · intro i inside
    obtain ⟨shown, found, row⟩ := each i inside
    refine ⟨shown, found, ?_⟩
    simp [table, row, cells]
  · intro i row present
    rw [table, List.getElem?_map] at present
    obtain ⟨source, listed, rfl⟩ := Option.map_eq_some_iff.mp present
    have inside := (List.getElem?_eq_some_iff.mp listed).1
    obtain ⟨shown, _, row⟩ := each i (length ▸ inside)
    rw [listed, Option.some.injEq] at row
    rw [row, arrowed_cells_iff (plain i), decide_eq_true_iff]

end CellRow

namespace Machine

variable {machine : Machine} {segments : UInt8}

theorem Sound.ofIndex_position (sound : machine.Sound segments) :
    Address.ofIndex machine.counter.position.index = machine.counter.position :=
  Address.ofIndex_index (Address.isCellOf_iff.mp sound.position).2

/-- The cells around the counter, of which that of the counter has the arrow. -/
theorem Sound.shows_memory (sound : machine.Sound segments) :
    let place := machine.counter.position.index
    let first := place - 4
    CellRow.Shows (CellRow.table machine.memoryRows)
      (min (first + 8) (segments.toNat * segmentSize) - first)
      (fun i => (Address.ofIndex (first + i)).display)
      (fun i => machine.memory.get? (.ofIndex (first + i))) (min place 4) := by
  intro place first
  have below : place < segments.toNat * segmentSize := Address.index_lt sound.position
  have inside : ∀ {n : Nat}, n < segments.toNat * segmentSize →
      (Address.ofIndex n).index = n := Address.index_ofIndex_of_lt
  have start : (Address.ofIndex first).index = first := inside (by omega)
  have rows : machine.memoryRows = (List.range' first
      (min (first + 8) (segments.toNat * segmentSize) - first)).map fun n =>
        ⟨(Address.ofIndex n).display, (machine.memory.get? (.ofIndex n)).getD .nop,
          Address.ofIndex n = machine.counter.position⟩ := by
    change (machine.memory.cellsFrom (.ofIndex first) 8).map _ = _
    rw [sound.memory.cellsFrom_eq, start, List.map_map]
    rfl
  rw [rows]
  apply CellRow.shows_table
  · rw [List.length_map, List.length_range']
  · intro i
    simp [Address.toList_display]
  · intro i early
    have small : first + i < segments.toNat * segmentSize := by omega
    obtain ⟨word, found⟩ := sound.memory.get?_isCellOf (Address.isCellOf_ofIndex small)
    -- The row of the counter is found by its address, which no other number of a cell has.
    have here : Address.ofIndex (first + i) = machine.counter.position ↔ i = min place 4 := by
      constructor
      · intro same
        have number := congrArg Address.index same
        rw [inside small] at number
        omega
      · intro same
        have number : first + i = place := by omega
        rw [number, sound.ofIndex_position]
    refine ⟨word, found, ?_⟩
    rw [List.getElem?_map, List.getElem?_range' early, Option.map_some, Nat.one_mul, found,
      Option.getD_some]
    simp only [here]

/-- The words of a stack, of which the top has the arrow. -/
theorem shows_stack {name : String} (plain : name.toList.head? ≠ some '*') (stack : Stack) :
    CellRow.ShowsStack (CellRow.table (stackRows name stack)) name stack := by
  apply CellRow.shows_table
  · rw [stackRows, List.length_mapIdx]
  · intro i
    cases chars : name.toList with
    | nil => simp [chars]
    | cons c more => simpa [chars] using plain
  · intro i inside
    have found := List.getElem?_eq_getElem inside
    refine ⟨stack[i], ?_, ?_⟩
    · rw [Stack.bottomUp, List.getElem?_reverse (by omega), ← found]
      congr 1
      omega
    · rw [stackRows, List.getElem?_mapIdx, found, Option.map_some]

end Machine

/-- The display is a line on the counter and three tables: of the eight cells from four before the
counter on, as far as there are any, with an arrow at the counter, and of the words of each stack,
the top first and with the arrow. -/
theorem display_shows_surroundings (segments : UInt8) (machine : Machine)
    (reached : machine.Reachable segments) :
    let place := machine.counter.position.index
    let first := place - 4
    let count := min (first + 8) (segments.toNat * segmentSize) - first
    let memory := CellRow.table machine.memoryRows
    let data := CellRow.table (Machine.stackRows "D" machine.data)
    let returns := CellRow.table (Machine.stackRows "R" machine.returns)
    machine.display = "Cursor: " ++ machine.counter.position.display ++ "\t" ++
      (if machine.running then "Running." else "Halted.") ++ "\n" ++ machine.table.render ∧
    machine.table.rows = [[memory.render, data.render, returns.render]] ∧
    CellRow.Shows memory count (fun i => (Address.ofIndex (first + i)).display)
      (fun i => machine.memory.get? (.ofIndex (first + i))) (min place 4) ∧
    min place 4 < count ∧ Address.ofIndex (first + min place 4) = machine.counter.position ∧
    CellRow.ShowsStack data "D" machine.data ∧ CellRow.ShowsStack returns "R" machine.returns := by
  intro place first count memory data returns
  have sound := reached.sound
  have below : place < segments.toNat * segmentSize := Address.index_lt sound.position
  refine ⟨rfl, rfl, sound.shows_memory, ?_, ?_, ?_, ?_⟩
  · omega
  · have number : first + min place 4 = place := by omega
    rw [number, sound.ofIndex_position]
  · apply Machine.shows_stack
    decide
  · apply Machine.shows_stack
    decide

/-- Two cells before the end of memory the table stops after six rows, and the arrow is in the
fifth. -/
theorem display_shows_surroundings_end :
    let program := [Word.instruction Opcode.lit.code none, .literal 7,
      .instruction Opcode.call.code (some 0x03FE)]
    let session : Session := ⟨((Machine.fresh 1).load program).1.reset, .ofTokens [], #[]⟩
    let machine := session.step.session.step.session.machine
    (CellRow.table machine.memoryRows).rows.length = 6 ∧
      (CellRow.table machine.memoryRows).rows[4]? = some ["* --> [0:3FE] =", "0x00000000"] ∧
      (CellRow.table (Machine.stackRows "D" machine.data)).rows[0]? =
        some ["* --> D[0] =", "0x00000007"] := by
  intro program session machine
  have loaded : session.machine.Reachable 1 :=
    .reset (.load _ (.new (Machine.new_eq_ok_iff.mpr ⟨by decide, by decide, rfl⟩)))
  have reached : machine.Reachable 1 := .step (.step loaded)
  have state : machine.counter.position = ⟨0, 0x3FE⟩ ∧ machine.data = [.literal 7] ∧
      machine.memory.get? ⟨0, 0x3FE⟩ = some .nop := by
    decide +kernel
  clear_value machine
  obtain ⟨_, _, memory, _, _, data, _⟩ := display_shows_surroundings 1 machine reached
  obtain ⟨position, stack, cell⟩ := state
  have place : machine.counter.position.index = 1022 := by rw [position]; decide
  rw [place] at memory
  obtain ⟨word, found, row⟩ := memory.rows 4 (by decide)
  have fifth : Address.ofIndex (1022 - 4 + 4) = ⟨0, 0x3FE⟩ := by decide
  rw [fifth, cell, Option.some.injEq] at found
  rw [fifth, ← found] at row
  obtain ⟨top, held, first⟩ := data.rows 0 (by rw [stack]; decide)
  rw [stack] at held first ⊢
  cases held
  refine ⟨memory.length, row.trans ?_, first.trans ?_⟩
  · decide +kernel
  · decide +kernel

end StackMachine
