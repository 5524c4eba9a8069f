import StackMachine.Failure

/-!
The program counter: a position, and the number of segments it moves through. A target that it
jumps to goes through the same bounds check as the cell of an operand.
-/

set_option autoImplicit false

namespace StackMachine

/-- The address itself, if it names a cell in a memory of that many segments. -/
def Address.cellOf (address : Address) (segments : UInt8) : Except Failure Address :=
  if address.isCellOf segments then .ok address else .error (.outOfBounds address)

structure Counter where
  position : Address
  segments : UInt8
deriving DecidableEq

namespace Counter

def new (segments : UInt8) : Counter :=
  ⟨.zero, segments⟩

/-- The next cell: in the same segment, else first in the next segment, else first of all. -/
def next (counter : Counter) : Address :=
  let ⟨segment, offset⟩ := counter.position
  if offset.toNat + 1 < segmentSize then ⟨segment, offset + 1⟩
  else if segment.toNat + 1 < counter.segments.toNat then ⟨segment + 1, 0⟩
  else .zero

def advance (counter : Counter) : Counter :=
  { counter with position := counter.next }

/-- The target must lie within the segments of the counter. -/
def jump (counter : Counter) (target : Address) : Except Failure Counter :=
  match target.cellOf counter.segments with
  | .ok position => .ok { counter with position }
  | .error cause => .error cause

def rewind (counter : Counter) : Counter :=
  { counter with position := .zero }

end Counter

end StackMachine
