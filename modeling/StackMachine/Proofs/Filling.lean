import Mathlib.Data.Nat.ModEq
import StackMachine.Proofs.Loading

/-!
Loading from wherever the counter stands, into a machine that has a past. As many words are written
as there is room for, and room is what the words placed since the last clearing have left: steps,
runs, faults and resets neither take nor give any.
-/

set_option autoImplicit false

namespace StackMachine

/-- Places that are less than a whole round apart are different places. -/
theorem mod_apart {size place i j : Nat} (insideI : i < size) (insideJ : j < size) (apart : i ≠ j) :
    (place + i) % size ≠ (place + j) % size := by
  intro same
  have congruent : i ≡ j [MOD size] := Nat.ModEq.add_left_cancel' place same
  exact apart (congruent.eq_of_lt_of_lt insideI insideJ)

theorem getElem?_overwrite_of_apart {cells words : List Word} {place k : Nat}
    (apart : ∀ i < words.length, k ≠ (place + i) % cells.length) :
    (overwrite cells place words)[k]? = cells[k]? := by
  induction words generalizing cells place with
  | nil => rfl
  | cons word rest ih =>
    have first : place % cells.length ≠ k := (apart 0 (by simp)).symm
    rw [overwrite, ih, List.getElem?_set_ne first]
    intro i inside
    have later := apart (i + 1) (by simpa using inside)
    rwa [List.length_set, Nat.add_assoc, Nat.add_comm 1]

/-- Words that go around the row less than once do not come to the same cell twice. -/
theorem getElem?_overwrite_of_lt {cells words : List Word} {place i : Nat}
    (short : words.length ≤ cells.length) (inside : i < words.length) :
    (overwrite cells place words)[(place + i) % cells.length]? = words[i]? := by
  induction words generalizing cells place i with
  | nil => contradiction
  | cons word rest ih =>
    rw [List.length_cons] at short inside
    have length : (cells.set (place % cells.length) word).length = cells.length := List.length_set
    rw [overwrite]
    cases i with
    | zero =>
      rw [getElem?_overwrite_of_apart, Nat.add_zero,
        List.getElem?_set_self (Nat.mod_lt _ (by omega)), List.getElem?_cons_zero]
      intro j later
      rw [length, Nat.add_assoc]
      exact mod_apart (by omega) (by omega) (by omega)
    | succ i =>
      have later := @ih (cells.set (place % cells.length) word) (place + 1) i (by omega) (by omega)
      rwa [length, Nat.add_assoc, Nat.add_comm 1] at later

namespace Machine

variable {machine loaded : Machine} {segments : UInt8} {words : List Word}

/-- The number of words that loading places: those before the first that is refused. -/
def placements (machine : Machine) : List Word → Nat
  | [] => 0
  | word :: rest =>
    match machine.place word with
    | .ok next => next.placements rest + 1
    | .error _ => 0

/-- The machines that operations lead to, each with the number of words placed since it was built or
last cleared. A word that is refused leaves the machine as it was and is not counted. -/
inductive Counted (segments : UInt8) : Machine → Nat → Prop
  | new {machine : Machine} (built : Machine.new segments = .ok machine) :
      Counted segments machine 0
  | place {machine next : Machine} {count : Nat} (word : Word)
      (before : Counted segments machine count) (placed : machine.place word = .ok next) :
      Counted segments next (count + 1)
  | load {machine : Machine} {count : Nat} (words : List Word)
      (before : Counted segments machine count) :
      Counted segments (machine.load words).1 (count + machine.placements words)
  | step {session : Session} {count : Nat} (before : Counted segments session.machine count) :
      Counted segments session.step.session.machine count
  | run {session : Session} {count fuel : Nat} {report : Report}
      (before : Counted segments session.machine count)
      (ended : session.run? fuel = some report) :
      Counted segments report.session.machine count
  | reset {machine : Machine} {count : Nat} (before : Counted segments machine count) :
      Counted segments machine.reset count
  | clear {machine : Machine} {count : Nat} (before : Counted segments machine count) :
      Counted segments machine.clear 0

/-- What loading leaves: the words stand in the cells from that of the counter on and, where the row
of cells ends, from its first cell on; the counter stands after them, and they are counted. All else
is as it was. -/
structure Written (segments : UInt8) (words : List Word) (machine loaded : Machine) : Prop where
  cells : ∀ i < words.length, loaded.memory.get? (.ofIndex
    ((machine.counter.position.index + i) % (segments.toNat * segmentSize))) = words[i]?
  others : ∀ address : Address, (∀ i < words.length, address ≠ .ofIndex
    ((machine.counter.position.index + i) % (segments.toNat * segmentSize))) →
      loaded.memory.get? address = machine.memory.get? address
  position : loaded.counter.position = .ofIndex
    ((machine.counter.position.index + words.length) % (segments.toNat * segmentSize))
  filled : loaded.filled = machine.filled + words.length
  data : loaded.data = machine.data
  returns : loaded.returns = machine.returns
  running : loaded.running = machine.running

theorem filled_load (machine : Machine) (words : List Word) :
    (machine.load words).1.filled = machine.filled + machine.placements words := by
  induction words generalizing machine with
  | nil => rfl
  | cons word rest ih =>
    rw [load, placements]
    cases placed : machine.place word with
    | error cause => rfl
    | ok next =>
      obtain ⟨_, memory, _, rfl⟩ := place_eq_ok_iff.mp placed
      have later := ih { machine with
        memory, counter := machine.counter.advance, filled := machine.filled + 1 }
      simp only at later ⊢
      omega

theorem closed_filled (count : Nat) :
    Session.Closed fun session => session.machine.filled = count where
  data _ same := same
  returns _ same := same
  advance same := same
  jump _ same := same
  halt same := same
  write _ same := same
  input _ same := same
  output _ same := same

/-- The machine keeps the count of its past. -/
theorem Counted.filled_eq {count : Nat} (counted : machine.Counted segments count) :
    machine.filled = count := by
  induction counted with
  | new built =>
    obtain ⟨_, _, rfl⟩ := new_eq_ok_iff.mp built
    rfl
  | place word _ placed ih =>
    obtain ⟨_, memory, _, rfl⟩ := place_eq_ok_iff.mp placed
    rw [← ih]
  | load words _ ih => rw [filled_load, ih]
  | step _ ih => exact (closed_filled _).step ih
  | run _ ended ih => exact (closed_filled _).continue? ended ih
  | reset _ ih => exact ih
  | clear _ _ => rfl

theorem reachable_iff_counted :
    machine.Reachable segments ↔ ∃ count, machine.Counted segments count := by
  constructor
  · intro reached
    induction reached with
    | new built => exact ⟨_, .new built⟩
    | place word _ placed ih => exact ⟨_, .place word ih.choose_spec placed⟩
    | load words _ ih => exact ⟨_, .load words ih.choose_spec⟩
    | step _ ih => exact ⟨_, .step ih.choose_spec⟩
    | run _ ended ih => exact ⟨_, .run ih.choose_spec ended⟩
    | reset _ ih => exact ⟨_, .reset ih.choose_spec⟩
    | clear _ ih => exact ⟨_, .clear ih.choose_spec⟩
  · rintro ⟨count, counted⟩
    induction counted with
    | new built => exact .new built
    | place word _ placed ih => exact .place word ih placed
    | load words _ ih => exact .load words ih
    | step _ ih => exact .step ih
    | run _ ended ih => exact .run ih ended
    | reset _ ih => exact .reset ih
    | clear _ ih => exact .clear ih

/-- For each word that is placed the count goes on by one, and the counter by one cell. -/
theorem Sound.moved_of_load (sound : machine.Sound segments)
    (done : machine.load words = (loaded, .ok ())) :
    loaded.filled = machine.filled + words.length ∧
      loaded.counter.position.index =
        (machine.counter.position.index + words.length) % (segments.toNat * segmentSize) := by
  induction words generalizing machine with
  | nil =>
    cases done
    rw [List.length_nil, Nat.add_zero, Nat.add_zero,
      Nat.mod_eq_of_lt (Address.index_lt sound.position)]
    exact ⟨rfl, rfl⟩
  | cons word rest ih =>
    rw [load] at done
    cases placed : machine.place word with
    | error cause => simp [placed] at done
    | ok next =>
      rw [placed] at done
      obtain ⟨_, memory, _, rfl⟩ := place_eq_ok_iff.mp placed
      have moved := Counter.index_next sound.counter sound.position
      obtain ⟨filled, index⟩ := ih (sound.place placed) done
      rw [index, Counter.position_advance, moved, Nat.mod_add_mod, List.length_cons,
        Nat.add_assoc, Nat.add_comm 1]
      exact ⟨by simpa [Nat.add_assoc, Nat.add_comm 1] using filled, rfl⟩

theorem Sound.written_of_room (sound : machine.Sound segments)
    (room : machine.filled + words.length ≤ segments.toNat * segmentSize) :
    ∃ loaded, machine.load words = (loaded, .ok ()) ∧ loaded.Sound segments ∧
      Written segments words machine loaded := by
  obtain ⟨loaded, done, last, row⟩ := sound.exists_load room
  have length := sound.memory.length_row
  have positive : 0 < segments.toNat * segmentSize :=
    Nat.zero_lt_of_lt (Address.index_lt sound.position)
  have number : ∀ n, (Address.ofIndex (n % (segments.toNat * segmentSize))).isCellOf segments =
      true ∧ (Address.ofIndex (n % (segments.toNat * segmentSize))).index =
        n % (segments.toNat * segmentSize) := by
    intro n
    have small := Nat.mod_lt n positive
    exact ⟨Address.isCellOf_ofIndex small, Address.index_ofIndex_of_lt small⟩
  obtain ⟨filled, moved⟩ := sound.moved_of_load done
  refine ⟨loaded, done, last, ?_, ?_, ?_, filled, ?_, ?_, ?_⟩
  · intro i inside
    obtain ⟨cell, index⟩ := number (machine.counter.position.index + i)
    rw [← last.memory.row_index (Address.isCellOf_iff.mp cell).2, index, row, ← length]
    exact getElem?_overwrite_of_lt (by omega) inside
  · intro address apart
    by_cases cell : address.isCellOf segments = true
    · have offset := (Address.isCellOf_iff.mp cell).2
      rw [← last.memory.row_index offset, ← sound.memory.row_index offset, row]
      apply getElem?_overwrite_of_apart
      intro i inside same
      apply apart i inside
      rw [← length, ← same, Address.ofIndex_index offset]
    · have absent : ∀ {memory : Memory}, memory.Whole segments → memory.get? address = none := by
        intro memory whole
        rw [← Option.isNone_iff_eq_none, ← Option.not_isSome, whole.isSome_get?]
        simpa using cell
      rw [absent last.memory, absent sound.memory]
  · have offset := (Address.isCellOf_iff.mp last.position).2
    rw [← moved, Address.ofIndex_index offset]
  · rw [← (machine.stacks_load words).1, done]
  · rw [← (machine.stacks_load words).2, done]
  · have kept := load_induction (P := fun other => other.running = machine.running)
      (fun placed same => (running_of_place placed).trans same) machine words rfl
    rwa [done] at kept

theorem Sound.place_full (sound : machine.Sound segments)
    (full : machine.filled = segments.toNat * segmentSize) (word : Word) :
    machine.place word = .error (.outOfBounds ⟨segments, 0⟩) := by
  have beyond : Address.ofIndex (segments.toNat * segmentSize) = ⟨segments, 0⟩ := by
    have start : (⟨segments, 0⟩ : Address).index = segments.toNat * segmentSize := by
      simp [Address.index]
    rw [← start]
    exact Address.ofIndex_index (show (0 : UInt16).toNat < segmentSize by decide)
  have size := sound.memory.size_eq
  rw [Machine.place, if_pos (by omega), full, beyond]

/-- As many words are written as there is room for, and the first one beyond is refused. -/
theorem Sound.load_eq (sound : machine.Sound segments) (words : List Word) :
    ∃ loaded, machine.load words =
        (loaded, if words.length ≤ segments.toNat * segmentSize - machine.filled then .ok ()
          else .error (.outOfBounds ⟨segments, 0⟩)) ∧
      Written segments (words.take (segments.toNat * segmentSize - machine.filled)) machine
        loaded := by
  have below := sound.filled
  by_cases fits : words.length ≤ segments.toNat * segmentSize - machine.filled
  · have enough : machine.filled + words.length ≤ segments.toNat * segmentSize := by omega
    obtain ⟨loaded, done, _, written⟩ := sound.written_of_room enough
    rw [List.take_of_length_le fits, if_pos fits]
    exact ⟨loaded, done, written⟩
  · generalize held : segments.toNat * segmentSize - machine.filled = room at fits ⊢
    have taken : (words.take room).length = room := by
      rw [List.length_take]
      omega
    have enough : machine.filled + (words.take room).length ≤ segments.toNat * segmentSize := by
      omega
    obtain ⟨loaded, done, last, written⟩ := sound.written_of_room enough
    have more : 0 < (words.drop room).length := by
      rw [List.length_drop]
      omega
    obtain ⟨word, rest, left⟩ := List.exists_cons_of_length_pos more
    have full : loaded.filled = segments.toNat * segmentSize := by
      have counted := written.filled
      omega
    refine ⟨loaded, ?_, written⟩
    rw [if_neg fits, ← List.take_append_drop room words, load_append, done, left]
    simp only [load, last.place_full full word]

end Machine

/-- Loading a machine with any past. As many words as there are cells beyond the count of its past
are written from the cell of the counter on, around the row of cells; the outcome tells if these are
all. -/
theorem load_fills_room (segments : UInt8) :
    (∀ machine : Machine,
      machine.Reachable segments ↔ ∃ count, machine.Counted segments count) ∧
    ∀ (machine : Machine) (count : Nat), machine.Counted segments count →
      count ≤ segments.toNat * segmentSize ∧
      ∀ words : List Word,
        let room := segments.toNat * segmentSize - count
        machine.placements words = min words.length room ∧
        Machine.Written segments (words.take room) machine (machine.load words).1 ∧
        (machine.load words).2 =
          (if words.length ≤ room then .ok () else .error (.outOfBounds ⟨segments, 0⟩)) ∧
        ∀ more, machine.load (words ++ more) =
          match machine.load words with
          | (loaded, .ok _) => loaded.load more
          | (loaded, .error cause) => (loaded, .error cause) := by
  refine ⟨fun machine => Machine.reachable_iff_counted, ?_⟩
  intro machine count counted
  have sound := (Machine.reachable_iff_counted.mpr ⟨count, counted⟩).sound
  have filled := counted.filled_eq
  refine ⟨filled ▸ sound.filled, ?_⟩
  intro words room
  obtain ⟨loaded, done, written⟩ := sound.load_eq words
  rw [filled] at done written
  have placed := machine.filled_load words
  rw [done, written.filled, List.length_take] at placed
  refine ⟨?_, ?_, ?_, machine.load_append words⟩
  · omega
  · rw [done]
    exact written
  · rw [done]

/-- A jump to the last cell of one segment. Of two more words the first goes there and the second
into the first cell; of 1024 more the last is refused. -/
theorem load_fills_room_around :
    let program := [Word.instruction Opcode.call.code (some 0x03FF)]
    let session : Session := ⟨((Machine.fresh 1).load program).1.reset, .ofTokens [], #[]⟩
    let machine := session.step.session.machine
    let loaded := (machine.load [.literal 7, .literal 8]).1
    machine.counter.position = ⟨0, 0x3FF⟩ ∧
      (machine.load [.literal 7, .literal 8]).2 = .ok () ∧
      loaded.memory.get? ⟨0, 0x3FF⟩ = some (.literal 7) ∧
      loaded.memory.get? ⟨0, 0⟩ = some (.literal 8) ∧ loaded.counter.position = ⟨0, 1⟩ ∧
      (machine.load (List.replicate 1024 .nop)).2 = .error (.outOfBounds ⟨1, 0⟩) := by
  intro program session machine
  have counted : machine.Counted 1 (0 + (Machine.fresh 1).placements program) :=
    .step (.reset (.load _ (.new (Machine.new_eq_ok_iff.mpr ⟨by decide, by decide, rfl⟩))))
  have one : (Machine.fresh 1).placements program = 1 := by decide +kernel
  rw [one] at counted
  have stands : machine.counter.position = ⟨0, 0x3FF⟩ := by decide +kernel
  clear_value machine
  obtain ⟨_, fills⟩ := (load_fills_room 1).2 machine _ counted
  obtain ⟨_, written, outcome, _⟩ := fills [.literal 7, .literal 8]
  obtain ⟨_, _, refused, _⟩ := fills (List.replicate 1024 .nop)
  rw [if_pos (by decide)] at outcome
  rw [if_neg (by decide +kernel)] at refused
  rw [List.take_of_length_le (by decide)] at written
  have around : ∀ i < 3, Address.ofIndex (((⟨0, 0x3FF⟩ : Address).index + i) %
      ((1 : UInt8).toNat * segmentSize)) = [⟨0, 0x3FF⟩, ⟨0, 0⟩, ⟨0, 1⟩].getD i .zero := by
    decide +kernel
  have first := written.cells 0 (by decide)
  have second := written.cells 1 (by decide)
  have position := written.position
  rw [stands, around _ (by decide)] at first second position
  exact ⟨stands, outcome, first, second, position, refused⟩

end StackMachine
