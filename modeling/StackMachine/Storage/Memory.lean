import StackMachine.Failure

/-!
Memory in segments. Every access is checked; nothing wraps.
-/

set_option autoImplicit false

namespace StackMachine

structure Memory where
  segments : Array (Array Word)
deriving DecidableEq

namespace Memory

/-- A memory of one to sixteen segments, all cells of which do nothing. -/
def new (segments : UInt8) : Except Failure Memory :=
  if segments = 0 then .error .noSegments
  else if maxSegments < segments.toNat then .error (.tooManySegments segments)
  else .ok ⟨Array.replicate segments.toNat (Array.replicate segmentSize Word.nop)⟩

def segmentCount (memory : Memory) : UInt8 :=
  UInt8.ofNat memory.segments.size

def size (memory : Memory) : Nat :=
  memory.segments.size * segmentSize

def get? (memory : Memory) (address : Address) : Option Word :=
  memory.segments[address.segment.toNat]?.bind fun segment => segment[address.offset.toNat]?

def get (memory : Memory) (address : Address) : Except Failure Word :=
  match memory.get? address with
  | some word => .ok word
  | none => .error (.outOfBounds address)

def set (memory : Memory) (address : Address) (word : Word) : Except Failure Memory :=
  if (memory.get? address).isSome then
    .ok ⟨memory.segments.modify address.segment.toNat
      fun segment => segment.setIfInBounds address.offset.toNat word⟩
  else
    .error (.outOfBounds address)

def clear (memory : Memory) : Memory :=
  ⟨memory.segments.map fun segment => segment.map fun _ => Word.nop⟩

/-- At most `count` cells from an address on, through the ends of segments, up to the end of
memory. -/
def cellsFrom (memory : Memory) (start : Address) (count : Nat) : List (Address × Word) :=
  (List.range' start.index (min count (memory.size - start.index))).filterMap fun n =>
    (memory.get? (.ofIndex n)).map fun word => (.ofIndex n, word)

theorem get?_set {memory written : Memory} {address : Address} {word : Word}
    (done : memory.set address word = .ok written) (other : Address) :
    written.get? other = if other = address then some word else memory.get? other := by
  unfold set at done
  split at done
  · rename_i present
    cases done
    obtain ⟨segment, offset⟩ := address
    obtain ⟨otherSegment, otherOffset⟩ := other
    simp only [get?, Address.mk.injEq] at present ⊢
    rw [Array.getElem?_modify]
    by_cases same : otherSegment = segment
    · subst same
      cases found : memory.segments[otherSegment.toNat]? with
      | none => simp [found] at present
      | some cells =>
        simp only [found, Option.bind_some, Option.isSome_iff_exists] at present
        obtain ⟨_, present⟩ := present
        have inside := (Array.getElem?_eq_some_iff.mp present).1
        simp only [if_true, Option.map_some, Option.bind_some, Array.getElem?_setIfInBounds,
          true_and, inside]
        by_cases here : otherOffset = offset
        · simp [here]
        · have apart : offset.toNat ≠ otherOffset.toNat := by
            intro equal
            exact here (UInt16.toNat_inj.mp equal.symm)
          simp [here, apart]
    · have apart : segment.toNat ≠ otherSegment.toNat := by
        intro equal
        exact same (UInt8.toNat_inj.mp equal.symm)
      simp [same, apart]
  · contradiction

end Memory

end StackMachine
