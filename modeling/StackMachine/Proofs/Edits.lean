import Mathlib.Data.List.Basic
import Mathlib.Data.List.Induction
import StackMachine.Proofs.History
import StackMachine.Proofs.Loading

/-!
Memory as one array with checked addresses. Whatever was written and cleared before, a cell holds
what the last write since the last clearing left there, and an address that is no cell is refused.
A window shows the cells in the order of their numbers, up to the last one of memory, wherever its
first number comes from.
-/

set_option autoImplicit false

namespace StackMachine

namespace Memory

inductive Edit
  | set (address : Address) (word : Word)
  | clear
deriving DecidableEq

/-- A write that is refused leaves memory as it was. -/
def edit (memory : Memory) : Edit → Memory
  | .set address word =>
    match memory.set address word with
    | .ok written => written
    | .error _ => memory
  | .clear => memory.clear

def Edit.wordAt? (address : Address) : Edit → Option Word
  | .set other word => if other = address then some word else none
  | .clear => none

/-- What the last write to an address has left there since the last clearing. Where there was none,
the word does nothing. -/
def lastWritten (address : Address) (edits : List Edit) : Word :=
  ((edits.reverse.takeWhile (· ≠ .clear)).findSome? (Edit.wordAt? address)).getD .nop

variable {memory fresh : Memory} {segments : UInt8} {address : Address} {edits : List Edit}

theorem Whole.refuses (whole : memory.Whole segments) (outside : address.isCellOf segments = false)
    (word : Word) :
    memory.get address = .error (.outOfBounds address) ∧
      memory.set address word = .error (.outOfBounds address) := by
  have absent : (memory.get? address).isSome = false := by rw [whole.isSome_get?, outside]
  constructor
  · rw [Memory.get, Option.isNone_iff_eq_none.mp (Option.isSome_eq_false_iff.mp absent)]
  · rw [Memory.set, absent]
    rfl

theorem lastWritten_nil (address : Address) : lastWritten address [] = .nop := rfl

theorem lastWritten_clear (address : Address) (edits : List Edit) :
    lastWritten address (edits ++ [.clear]) = .nop := by
  simp [lastWritten]

theorem lastWritten_set (address other : Address) (word : Word) (edits : List Edit) :
    lastWritten address (edits ++ [.set other word]) =
      if address = other then word else lastWritten address edits := by
  by_cases here : address = other
  · simp [lastWritten, Edit.wordAt?, here]
  · simp [lastWritten, Edit.wordAt?, here, Ne.symm here]

/-- A memory with all its segments, which holds the last write in each of its cells. -/
structure Recorded (segments : UInt8) (edits : List Edit) (memory : Memory) : Prop where
  whole : memory.Whole segments
  cells : ∀ address : Address, address.isCellOf segments = true →
    memory.get? address = some (lastWritten address edits)

theorem Recorded.edit (recorded : Recorded segments edits memory) (edit : Edit) :
    Recorded segments (edits ++ [edit]) (memory.edit edit) := by
  cases edit with
  | clear =>
    refine ⟨recorded.whole.clear, ?_⟩
    intro address inside
    rw [lastWritten_clear, Memory.edit, recorded.whole.clear_eq]
    exact Machine.get?_fresh inside
  | set other word =>
    by_cases target : other.isCellOf segments = true
    · obtain ⟨written, done⟩ := recorded.whole.exists_set target word
      have result : memory.edit (.set other word) = written := by rw [Memory.edit, done]
      rw [result]
      refine ⟨recorded.whole.set done, ?_⟩
      intro address inside
      rw [get?_set done, lastWritten_set, recorded.cells address inside]
      split <;> rfl
    · have refused := (recorded.whole.refuses (Bool.not_eq_true _ ▸ target) word).2
      have result : memory.edit (.set other word) = memory := by rw [Memory.edit, refused]
      rw [result]
      refine ⟨recorded.whole, ?_⟩
      intro address inside
      -- The record has the refused write too, but at an address that is no cell.
      have apart : address ≠ other := by
        intro same
        exact target (same ▸ inside)
      rw [lastWritten_set, if_neg apart, recorded.cells address inside]

theorem exists_new (few : 1 ≤ segments.toNat ∧ segments.toNat ≤ maxSegments) :
    ∃ fresh, Memory.new segments = .ok fresh ∧ Recorded segments [] fresh := by
  have built := Machine.new_eq_ok_iff.mpr ⟨few.1, few.2, rfl⟩
  unfold Machine.new at built
  cases made : Memory.new segments with
  | error cause => simp [made, Except.map] at built
  | ok fresh =>
    rw [made] at built
    have memory : fresh = (Machine.fresh segments).memory :=
      congrArg Machine.memory (Except.ok.inj built)
    refine ⟨fresh, rfl, memory ▸ .replicate segments, ?_⟩
    intro address inside
    rw [memory, lastWritten_nil]
    exact Machine.get?_fresh inside

/-- A record is kept through any edits. -/
theorem Recorded.editAll (recorded : Recorded segments [] fresh) (edits : List Edit) :
    Recorded segments edits (edits.foldl Memory.edit fresh) := by
  induction edits using List.reverseRecOn with
  | nil => exact recorded
  | append_singleton edits edit ih =>
    -- The record looks back from the last edit, so the induction takes that one off.
    rw [List.foldl_append]
    exact ih.edit edit

theorem lt_of_mem_window {n start count size : Nat}
    (member : n ∈ List.range' start (min (start + count) size - start)) : n < size := by
  rw [List.mem_range'_1] at member
  omega

/-- No cell of a window is missing from a whole memory. -/
theorem Whole.cellsFrom_eq (whole : memory.Whole segments) (start : Address) (count : Nat) :
    memory.cellsFrom start count =
      (List.range' start.index
        (min (start.index + count) (segments.toNat * segmentSize) - start.index)).map
          fun n => (.ofIndex n, (memory.get? (.ofIndex n)).getD .nop) := by
  have length : min count (memory.size - start.index) =
      min (start.index + count) (segments.toNat * segmentSize) - start.index := by
    rw [whole.size_eq]
    omega
  rw [cellsFrom, length, List.filterMap_eq_map_iff_forall_eq_some]
  intro n member
  obtain ⟨word, found⟩ :=
    whole.get?_isCellOf (Address.isCellOf_ofIndex (lt_of_mem_window member))
  rw [found, Option.map_some, Option.getD_some]

end Memory

/-- Memory is one array with checked addresses. After any edits a cell holds the last write since
the last clearing, and any other address is refused; a window from any address on, a cell or not,
has the cells from its number on. -/
theorem memory_holds_last_writes (segments : UInt8)
    (few : 1 ≤ segments.toNat ∧ segments.toNat ≤ maxSegments) :
    ∃ fresh, Memory.new segments = .ok fresh ∧ ∀ edits : List Memory.Edit,
      let memory := edits.foldl Memory.edit fresh
      (∀ address : Address, memory.get address =
        if address.isCellOf segments then .ok (Memory.lastWritten address edits)
        else .error (.outOfBounds address)) ∧
      (∀ (address : Address) (word : Word),
        if address.isCellOf segments then ∃ written, memory.set address word = .ok written
        else memory.set address word = .error (.outOfBounds address) ∧
          memory.edit (.set address word) = memory) ∧
      ∀ (start : Address) (count : Nat),
        let numbers := List.range' start.index
          (min (start.index + count) (segments.toNat * segmentSize) - start.index)
        memory.cellsFrom start count =
          numbers.map (fun n => (.ofIndex n, Memory.lastWritten (.ofIndex n) edits)) ∧
        ∀ n ∈ numbers, (Address.ofIndex n).index = n ∧
          memory.get (.ofIndex n) = .ok (Memory.lastWritten (.ofIndex n) edits) := by
  obtain ⟨fresh, built, empty⟩ := Memory.exists_new few
  refine ⟨fresh, built, ?_⟩
  intro edits memory
  have recorded := empty.editAll edits
  refine ⟨?_, ?_, ?_⟩
  · intro address
    split
    · rename_i inside
      rw [Memory.get, recorded.cells address inside]
    · rename_i outside
      exact (recorded.whole.refuses (Bool.not_eq_true _ ▸ outside) .nop).1
  · intro address word
    split
    · rename_i inside
      exact recorded.whole.exists_set inside word
    · rename_i outside
      have refused := (recorded.whole.refuses (Bool.not_eq_true _ ▸ outside) word).2
      exact ⟨refused, by rw [Memory.edit, refused]⟩
  · intro start count numbers
    have inside : ∀ n ∈ numbers, n < segments.toNat * segmentSize := by
      intro n member
      exact Memory.lt_of_mem_window member
    have found : ∀ n ∈ numbers,
        memory.get? (.ofIndex n) = some (Memory.lastWritten (.ofIndex n) edits) := by
      intro n member
      exact recorded.cells _ (Address.isCellOf_ofIndex (inside n member))
    constructor
    · rw [recorded.whole.cellsFrom_eq]
      apply List.map_congr_left
      intro n member
      rw [found n member, Option.getD_some]
    · intro n member
      refine ⟨Address.index_ofIndex_of_lt (inside n member), ?_⟩
      rw [Memory.get, found n member]

/-- A write that is cleared, one beyond the end of a segment, and a window from an offset that no
segment has, which goes on with the next segment. -/
theorem memory_holds_last_writes_window :
    let edits := [Memory.Edit.set ⟨1, 1022⟩ (.literal 7), .clear, .set ⟨1, 1023⟩ (.literal 8),
      .set ⟨1, 1024⟩ (.literal 9)]
    ∃ fresh, Memory.new 2 = .ok fresh ∧
      let memory := edits.foldl Memory.edit fresh
      memory.get ⟨1, 1022⟩ = .ok .nop ∧ memory.get ⟨1, 1023⟩ = .ok (.literal 8) ∧
      memory.get ⟨1, 1024⟩ = .error (.outOfBounds ⟨1, 1024⟩) ∧
      memory.cellsFrom ⟨0, 2046⟩ 8 = [(⟨1, 1022⟩, .nop), (⟨1, 1023⟩, .literal 8)] := by
  intro edits
  obtain ⟨fresh, built, edited⟩ := memory_holds_last_writes 2 ⟨by decide, by decide⟩
  obtain ⟨reads, _, windows⟩ := edited edits
  refine ⟨fresh, built, ?_, ?_, ?_, ?_⟩
  · exact (reads ⟨1, 1022⟩).trans (by decide)
  · exact (reads ⟨1, 1023⟩).trans (by decide)
  · exact (reads ⟨1, 1024⟩).trans (by decide)
  · exact (windows ⟨0, 2046⟩ 8).1.trans (by decide +kernel)

end StackMachine
