import StackMachine.Code.Operand
import StackMachine.Storage.Counter
import StackMachine.Storage.Memory

/-!
Where cells are. A whole memory has a cell at exactly the addresses that are cells of its segments,
and laid out as one row it has the cell of an address at the number of that address. The counter
goes through the row in order, and from its last cell back to the first.
-/

set_option autoImplicit false

namespace StackMachine

namespace Address

theorem isCellOf_iff {address : Address} {segments : UInt8} :
    address.isCellOf segments = true ↔
      address.segment.toNat < segments.toNat ∧ address.offset.toNat < segmentSize := by
  simp [isCellOf, UInt8.lt_iff_toNat_lt]

theorem isCellOf_zero {segments : UInt8} (positive : 0 < segments.toNat) :
    zero.isCellOf segments = true :=
  isCellOf_iff.mpr ⟨positive, by decide⟩

theorem index_zero : zero.index = 0 := by decide

theorem index_lt {address : Address} {segments : UInt8}
    (inside : address.isCellOf segments = true) :
    address.index < segments.toNat * segmentSize := by
  obtain ⟨segment, offset⟩ := isCellOf_iff.mp inside
  unfold index
  have whole := Nat.mul_le_mul_right segmentSize (show address.segment.toNat + 1 ≤ _ from segment)
  rw [Nat.add_mul, Nat.one_mul] at whole
  omega

theorem isCellOf_ofIndex {n : Nat} {segments : UInt8} (small : n < segments.toNat * segmentSize) :
    (ofIndex n).isCellOf segments = true := by
  have upper := segments.toNat_lt
  have segment : n / segmentSize < segments.toNat :=
    (Nat.div_lt_iff_lt_mul (by decide)).mpr small
  have offset : n % segmentSize < segmentSize := Nat.mod_lt n (by decide)
  rw [isCellOf_iff]
  simp only [ofIndex, segmentSize, UInt8.toNat_ofNat', UInt16.toNat_ofNat'] at segment offset ⊢
  omega

theorem index_ofIndex_of_lt {n : Nat} {segments : UInt8}
    (small : n < segments.toNat * segmentSize) : (ofIndex n).index = n := by
  have upper := segments.toNat_lt
  exact index_ofIndex (Nat.lt_of_lt_of_le small (Nat.mul_le_mul_right _ (by omega)))

theorem index_inj {a b : Address} (insideA : a.offset.toNat < segmentSize)
    (insideB : b.offset.toNat < segmentSize) (same : a.index = b.index) : a = b := by
  rw [← ofIndex_index insideA, same, ofIndex_index insideB]

theorem segment_unpack (operand : UInt16) :
    (unpack operand).segment.toNat = operand.toNat / 4096 := by
  have upper := operand.toNat_lt
  have shift : (operand >>> 12).toNat = operand.toNat / 4096 := by
    rw [UInt16.toNat_shiftRight, Nat.shiftRight_eq_div_pow]
    rfl
  simp only [unpack, UInt16.toNat_toUInt8, shift]
  omega

theorem offset_unpack (operand : UInt16) :
    (unpack operand).offset.toNat = operand.toNat % 4096 := by
  simp only [unpack, UInt16.toNat_and]
  exact Nat.and_two_pow_sub_one_eq_mod operand.toNat 12

end Address

namespace Counter

theorem position_advance (counter : Counter) : counter.advance.position = counter.next := rfl

/-- The three moves of the counter: within a segment, over its end, and back to the start. -/
theorem next_cases (counter : Counter) :
    (counter.position.offset.toNat + 1 < segmentSize ∧
      counter.next = ⟨counter.position.segment, counter.position.offset + 1⟩) ∨
    (segmentSize ≤ counter.position.offset.toNat + 1 ∧
      counter.position.segment.toNat + 1 < counter.segments.toNat ∧
      counter.next = ⟨counter.position.segment + 1, 0⟩) ∨
    (segmentSize ≤ counter.position.offset.toNat + 1 ∧
      counter.segments.toNat ≤ counter.position.segment.toNat + 1 ∧ counter.next = .zero) := by
  obtain ⟨⟨segment, offset⟩, segments⟩ := counter
  by_cases within : offset.toNat + 1 < segmentSize
  · exact Or.inl ⟨within, by simp [next, within]⟩
  · by_cases more : segment.toNat + 1 < segments.toNat
    · exact Or.inr (Or.inl ⟨Nat.le_of_not_lt within, more, by simp [next, within, more]⟩)
    · exact Or.inr (Or.inr ⟨Nat.le_of_not_lt within, Nat.le_of_not_lt more,
        by simp [next, within, more]⟩)

theorem isCellOf_next {counter : Counter} {segments : UInt8} (same : counter.segments = segments)
    (inside : counter.position.isCellOf segments = true) :
    counter.next.isCellOf segments = true := by
  subst same
  obtain ⟨segment, offset⟩ := Address.isCellOf_iff.mp inside
  have upper := counter.segments.toNat_lt
  rcases counter.next_cases with ⟨within, moved⟩ | ⟨_, more, moved⟩ | ⟨_, _, moved⟩
  · rw [moved, Address.isCellOf_iff]
    simp only [segmentSize, UInt16.toNat_add, UInt16.toNat_ofNat] at within ⊢
    omega
  · rw [moved, Address.isCellOf_iff]
    simp only [segmentSize, UInt8.toNat_add, UInt8.toNat_ofNat, UInt16.toNat_ofNat]
    omega
  · rw [moved]
    exact Address.isCellOf_zero (by omega)

/-- In the row of all cells the counter moves to the next one, and from the last to the first. -/
theorem index_next {counter : Counter} {segments : UInt8} (same : counter.segments = segments)
    (inside : counter.position.isCellOf segments = true) :
    counter.next.index = (counter.position.index + 1) % (segments.toNat * segmentSize) := by
  subst same
  obtain ⟨segment, offset⟩ := Address.isCellOf_iff.mp inside
  have upper := counter.segments.toNat_lt
  unfold Address.index
  simp only [segmentSize] at offset ⊢
  rcases counter.next_cases with ⟨within, moved⟩ | ⟨ended, more, moved⟩ | ⟨ended, last, moved⟩
  · simp only [segmentSize] at within
    have small : counter.position.segment.toNat * 1024 + counter.position.offset.toNat + 1 <
        counter.segments.toNat * 1024 := by omega
    rw [moved, Nat.mod_eq_of_lt small]
    simp only [UInt16.toNat_add, UInt16.toNat_ofNat]
    omega
  · simp only [segmentSize] at ended
    have small : counter.position.segment.toNat * 1024 + counter.position.offset.toNat + 1 <
        counter.segments.toNat * 1024 := by omega
    rw [moved, Nat.mod_eq_of_lt small]
    simp only [UInt8.toNat_add, UInt8.toNat_ofNat, UInt16.toNat_ofNat]
    omega
  · simp only [segmentSize] at ended
    have whole : counter.position.segment.toNat * 1024 + counter.position.offset.toNat + 1 =
        counter.segments.toNat * 1024 := by omega
    rw [moved, whole, Nat.mod_self]
    rfl

end Counter

namespace Memory

/-- All segments are there, and none of them is cut short. -/
structure Whole (memory : Memory) (segments : UInt8) : Prop where
  count : memory.segments.size = segments.toNat
  length : ∀ cells ∈ memory.segments, cells.size = segmentSize

theorem Whole.size_eq {memory : Memory} {segments : UInt8} (whole : memory.Whole segments) :
    memory.size = segments.toNat * segmentSize := by
  rw [size, whole.count]

theorem Whole.segmentCount_eq {memory : Memory} {segments : UInt8}
    (whole : memory.Whole segments) : memory.segmentCount = segments := by
  rw [segmentCount, whole.count]
  exact UInt8.ofNat_toNat

theorem Whole.isSome_get? {memory : Memory} {segments : UInt8} (whole : memory.Whole segments)
    (address : Address) : (memory.get? address).isSome = address.isCellOf segments := by
  rw [Bool.eq_iff_iff, Address.isCellOf_iff, ← whole.count, get?]
  constructor
  · intro present
    obtain ⟨word, found⟩ := Option.isSome_iff_exists.mp present
    obtain ⟨cells, segment, cell⟩ := Option.bind_eq_some_iff.mp found
    obtain ⟨below, rfl⟩ := Array.getElem?_eq_some_iff.mp segment
    obtain ⟨inside, _⟩ := Array.getElem?_eq_some_iff.mp cell
    exact ⟨below, whole.length _ (Array.getElem_mem below) ▸ inside⟩
  · rintro ⟨below, inside⟩
    have length := whole.length _ (Array.getElem_mem below)
    rw [Array.getElem?_eq_getElem below, Option.bind_some,
      Array.getElem?_eq_getElem (by omega)]
    rfl

theorem Whole.get?_isCellOf {memory : Memory} {segments : UInt8} (whole : memory.Whole segments)
    {address : Address} (inside : address.isCellOf segments = true) :
    ∃ word, memory.get? address = some word :=
  Option.isSome_iff_exists.mp (whole.isSome_get? address ▸ inside)

theorem Whole.replicate (segments : UInt8) :
    (Memory.mk (Array.replicate segments.toNat (Array.replicate segmentSize Word.nop))).Whole
      segments := by
  refine ⟨Array.size_replicate, ?_⟩
  intro cells member
  rw [Array.eq_of_mem_replicate member, Array.size_replicate]

theorem Whole.set {memory written : Memory} {segments : UInt8} (whole : memory.Whole segments)
    {address : Address} {word : Word} (done : memory.set address word = .ok written) :
    written.Whole segments := by
  unfold Memory.set at done
  split at done
  · cases done
    refine ⟨by simpa using whole.count, ?_⟩
    intro cells member
    obtain ⟨i, below, rfl⟩ := Array.getElem_of_mem member
    simp only [Array.getElem_modify]
    rw [Array.size_modify] at below
    split <;> simp [whole.length _ (Array.getElem_mem below)]
  · cases done

theorem Whole.clear {memory : Memory} {segments : UInt8} (whole : memory.Whole segments) :
    memory.clear.Whole segments := by
  refine ⟨by simpa [Memory.clear] using whole.count, ?_⟩
  intro cells member
  obtain ⟨old, present, rfl⟩ := Array.mem_map.mp member
  rw [Array.size_map, whole.length old present]

theorem Whole.exists_set {memory : Memory} {segments : UInt8} (whole : memory.Whole segments)
    {address : Address} (inside : address.isCellOf segments = true) (word : Word) :
    ∃ written, memory.set address word = .ok written := by
  unfold Memory.set
  rw [whole.isSome_get?, inside]
  exact ⟨_, rfl⟩

def row (memory : Memory) : List Word :=
  memory.segments.toList.flatMap Array.toList

theorem length_flatMap_toList {segments : List (Array Word)}
    (length : ∀ cells ∈ segments, cells.size = segmentSize) :
    (segments.flatMap Array.toList).length = segments.length * segmentSize := by
  induction segments with
  | nil => rfl
  | cons cells rest ih =>
    have first := length cells (by simp)
    have later : ∀ other ∈ rest, other.size = segmentSize :=
      fun other member => length other (by simp [member])
    rw [List.flatMap_cons, List.length_append, ih later, Array.length_toList, first,
      List.length_cons, Nat.add_mul, Nat.one_mul, Nat.add_comm]

theorem getElem?_flatMap_toList {segments : List (Array Word)}
    (length : ∀ cells ∈ segments, cells.size = segmentSize) (segment offset : Nat)
    (inside : offset < segmentSize) :
    (segments.flatMap Array.toList)[segment * segmentSize + offset]? =
      segments[segment]?.bind fun cells => cells[offset]? := by
  induction segments generalizing segment with
  | nil => simp
  | cons cells rest ih =>
    have first := length cells (by simp)
    have later : ∀ other ∈ rest, other.size = segmentSize :=
      fun other member => length other (by simp [member])
    rw [List.flatMap_cons]
    cases segment with
    | zero =>
      rw [Nat.zero_mul, Nat.zero_add, List.getElem?_append_left (by simp [first, inside])]
      simp
    | succ segment =>
      have beyond : (segment + 1) * segmentSize + offset - segmentSize =
          segment * segmentSize + offset := by
        rw [Nat.add_mul]
        omega
      have past : cells.toList.length ≤ (segment + 1) * segmentSize + offset := by
        rw [Array.length_toList, first, Nat.add_mul]
        omega
      rw [List.getElem?_append_right past, Array.length_toList, first, List.getElem?_cons_succ,
        beyond, ih later segment]

theorem Whole.length_row {memory : Memory} {segments : UInt8} (whole : memory.Whole segments) :
    memory.row.length = segments.toNat * segmentSize := by
  rw [row, length_flatMap_toList (fun cells member => whole.length cells (by simpa using member)),
    Array.length_toList, whole.count]

/-- The row has the cell of an address at the number of the address. -/
theorem Whole.row_index {memory : Memory} {segments : UInt8} (whole : memory.Whole segments)
    {address : Address} (inside : address.offset.toNat < segmentSize) :
    memory.row[address.index]? = memory.get? address := by
  rw [row, Address.index, getElem?_flatMap_toList
    (fun cells member => whole.length cells (by simpa using member)) _ _ inside]
  simp [get?]

/-- A write to a cell is a write at its number in the row. -/
theorem Whole.row_set {memory written : Memory} {segments : UInt8} (whole : memory.Whole segments)
    {address : Address} {word : Word} (inside : address.isCellOf segments = true)
    (done : memory.set address word = .ok written) :
    written.row = memory.row.set address.index word := by
  have wholeAfter := whole.set done
  apply List.ext_getElem?
  intro n
  by_cases small : n < segments.toNat * segmentSize
  · have cell := Address.isCellOf_ofIndex small
    have offset := (Address.isCellOf_iff.mp cell).2
    have number : (Address.ofIndex n).index = n := Address.index_ofIndex_of_lt small
    have found := get?_set done (.ofIndex n)
    rw [← wholeAfter.row_index offset, ← whole.row_index offset, number] at found
    rw [found, List.getElem?_set, whole.length_row]
    by_cases here : Address.ofIndex n = address
    · subst here
      simp [number, small]
    · have apart : address.index ≠ n := by
        intro same
        apply here
        exact Address.index_inj offset (Address.isCellOf_iff.mp inside).2 (number.trans same.symm)
      simp [here, apart]
  · rw [List.getElem?_eq_none (by rw [wholeAfter.length_row]; omega),
      List.getElem?_eq_none (by rw [List.length_set, whole.length_row]; omega)]

end Memory

end StackMachine
