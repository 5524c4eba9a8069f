import StackMachine.Proofs.Reachable

/-!
Loading, seen in the row of all cells. The words of a program are written one after the other from
the cell of the counter on, and from the last cell of the row on with the first.
-/

set_option autoImplicit false

namespace StackMachine

/-- The cells after words have been written to them in turn, from a place on. -/
def overwrite (cells : List Word) (place : Nat) : List Word → List Word
  | [] => cells
  | word :: rest => overwrite (cells.set (place % cells.length) word) (place + 1) rest

/-- Places are counted around the row. -/
theorem overwrite_mod (cells : List Word) (place : Nat) (words : List Word) :
    overwrite cells (place % cells.length) words = overwrite cells place words := by
  induction words generalizing cells place with
  | nil => rfl
  | cons word rest ih =>
    have length : (cells.set (place % cells.length) word).length = cells.length := List.length_set
    rw [overwrite, overwrite, Nat.mod_mod, ← ih _ (place + 1), ← ih _ (place % cells.length + 1),
      length, Nat.mod_add_mod]

/-- Words that do not reach the end of the row stand between the cells before and after them. -/
theorem overwrite_eq {cells : List Word} {place : Nat} {words : List Word}
    (fits : place + words.length ≤ cells.length) :
    overwrite cells place words =
      cells.take place ++ words ++ cells.drop (place + words.length) := by
  induction words generalizing cells place with
  | nil => simp [overwrite]
  | cons word rest ih =>
    rw [List.length_cons] at fits
    have inside : place < cells.length := by omega
    have front : (cells.set place word).take (place + 1) = cells.take place ++ [word] := by
      rw [List.take_add_one, List.getElem?_set_self inside, List.take_set_of_le (Nat.le_refl place)]
      rfl
    have back : (cells.set place word).drop (place + 1 + rest.length) =
        cells.drop (place + (rest.length + 1)) := by
      rw [List.drop_set_of_lt (by omega), Nat.add_right_comm, Nat.add_assoc]
    rw [overwrite, Nat.mod_eq_of_lt inside, ih (by rw [List.length_set]; omega), front, back,
      List.append_assoc (cells.take place), List.length_cons, List.singleton_append]

namespace Machine

variable {machine : Machine} {segments : UInt8}

theorem Sound.exists_place (sound : machine.Sound segments)
    (room : machine.filled < segments.toNat * segmentSize) (word : Word) :
    ∃ next, machine.place word = .ok next ∧ next.Sound segments ∧
      next.filled = machine.filled + 1 ∧
      next.counter.position.index =
        (machine.counter.position.index + 1) % (segments.toNat * segmentSize) ∧
      next.memory.row = machine.memory.row.set machine.counter.position.index word := by
  obtain ⟨memory, written⟩ := sound.memory.exists_set sound.position word
  have placed := place_eq_ok_iff.mpr ⟨sound.memory.size_eq ▸ room, memory, written, rfl⟩
  exact ⟨_, placed, sound.place placed, rfl, Counter.index_next sound.counter sound.position,
    sound.memory.row_set sound.position written⟩

theorem Sound.exists_load (sound : machine.Sound segments) {words : List Word}
    (room : machine.filled + words.length ≤ segments.toNat * segmentSize) :
    ∃ loaded, machine.load words = (loaded, .ok ()) ∧ loaded.Sound segments ∧
      loaded.memory.row =
        overwrite machine.memory.row machine.counter.position.index words := by
  induction words generalizing machine with
  | nil => exact ⟨machine, rfl, sound, rfl⟩
  | cons word rest ih =>
    rw [List.length_cons] at room
    obtain ⟨next, placed, kept, filled, moved, row⟩ := sound.exists_place (by omega) word
    obtain ⟨loaded, done, last, written⟩ := ih kept (by omega)
    have length := sound.memory.length_row
    have inside : machine.counter.position.index % machine.memory.row.length =
        machine.counter.position.index := by
      rw [length, Nat.mod_eq_of_lt (Address.index_lt sound.position)]
    refine ⟨loaded, ?_, last, ?_⟩
    · rw [load, placed]
      exact done
    · rw [written, overwrite, inside, moved, ← row, ← kept.memory.length_row, overwrite_mod]

/-- Words that were all written have all been counted, so there was room for them. -/
theorem Sound.room_of_load {loaded : Machine} (sound : machine.Sound segments) {words : List Word}
    (done : machine.load words = (loaded, .ok ())) :
    machine.filled + words.length ≤ segments.toNat * segmentSize := by
  induction words generalizing machine with
  | nil => exact sound.filled
  | cons word rest ih =>
    rw [load] at done
    cases placed : machine.place word with
    | error cause => simp [placed] at done
    | ok next =>
      obtain ⟨_, memory, _, rfl⟩ := place_eq_ok_iff.mp placed
      rw [placed] at done
      have later := ih (sound.place placed) done
      change machine.filled + 1 + rest.length ≤ _ at later
      rw [List.length_cons]
      omega

theorem exists_load_fresh (positive : 1 ≤ segments.toNat) {words : List Word}
    (fits : words.length ≤ segments.toNat * segmentSize) :
    ∃ loaded, (fresh segments).load words = (loaded, .ok ()) ∧ loaded.Sound segments ∧
      loaded.memory.row = words ++ (fresh segments).memory.row.drop words.length := by
  have sound := Sound.fresh positive
  have room : (fresh segments).filled + words.length ≤ segments.toNat * segmentSize := by
    rw [show (fresh segments).filled = 0 from rfl, Nat.zero_add]
    exact fits
  have start : (fresh segments).counter.position.index = 0 := Address.index_zero
  obtain ⟨loaded, done, last, row⟩ := sound.exists_load room
  have inside : 0 + words.length ≤ (fresh segments).memory.row.length := by
    rw [Nat.zero_add, sound.memory.length_row]
    exact fits
  refine ⟨loaded, done, last, ?_⟩
  rw [row, start, overwrite_eq inside, List.take_zero, List.nil_append, Nat.zero_add]

theorem stacks_load (machine : Machine) (words : List Word) :
    (machine.load words).1.data = machine.data ∧
      (machine.load words).1.returns = machine.returns := by
  refine load_induction (P := fun other => other.data = machine.data ∧
    other.returns = machine.returns) ?_ machine words ⟨rfl, rfl⟩
  intro before next word placed kept
  obtain ⟨_, memory, _, rfl⟩ := place_eq_ok_iff.mp placed
  exact kept

theorem get?_fresh {address : Address} (inside : address.isCellOf segments = true) :
    (fresh segments).memory.get? address = some .nop := by
  obtain ⟨segment, offset⟩ := Address.isCellOf_iff.mp inside
  simp [fresh, Memory.get?, segment, offset]

/-- After loading, a cell holds the word of its number; cells after the program are empty. -/
theorem get?_load_fresh (positive : 1 ≤ segments.toNat) {words : List Word}
    (fits : words.length ≤ segments.toNat * segmentSize) {address : Address}
    (inside : address.isCellOf segments = true) :
    ((fresh segments).load words).1.memory.get? address =
      some (words[address.index]?.getD .nop) := by
  obtain ⟨loaded, done, sound, row⟩ := exists_load_fresh positive fits
  have offset := (Address.isCellOf_iff.mp inside).2
  rw [done, ← sound.memory.row_index offset, row]
  by_cases early : address.index < words.length
  · rw [List.getElem?_append_left early, List.getElem?_eq_getElem early, Option.getD_some]
  · have late := Nat.le_of_not_lt early
    have place : words.length + (address.index - words.length) = address.index := by omega
    rw [List.getElem?_append_right late, List.getElem?_drop, place,
      (Sound.fresh positive).memory.row_index offset, get?_fresh inside,
      List.getElem?_eq_none late, Option.getD_none]

end Machine

end StackMachine
