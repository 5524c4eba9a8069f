import StackMachine.Storage.Counter
import StackMachine.Storage.Memory
import StackMachine.Storage.Stack

/-!
The state of a machine, and what is done to it between runs: loading, rewinding and clearing.
-/

set_option autoImplicit false

namespace StackMachine

/-- Both stacks have their top first. The count of filled cells goes on until memory is cleared. -/
structure Machine where
  memory : Memory
  data : Stack
  returns : Stack
  counter : Counter
  filled : Nat
  running : Bool
deriving DecidableEq

namespace Machine

def defaultSegments : UInt8 := 2

/-- A halted machine with fresh memory and empty stacks. -/
def new (segments : UInt8) : Except Failure Machine :=
  (Memory.new segments).map fun memory =>
    { memory, data := [], returns := [], counter := .new segments, filled := 0, running := false }

def segmentCount (machine : Machine) : UInt8 :=
  machine.memory.segmentCount

/-- Writes one word where the counter stands, and moves on. Fails once as many words have been
filled in as memory has cells. -/
def place (machine : Machine) (word : Word) : Except Failure Machine :=
  if machine.memory.size ≤ machine.filled then
    .error (.outOfBounds (.ofIndex machine.filled))
  else
    (machine.memory.set machine.counter.position word).map fun memory =>
      { machine with
        memory
        counter := machine.counter.advance
        filled := machine.filled + 1 }

/-- Fills in words up to the first that fails. Those before it stay. -/
def load (machine : Machine) : List Word → Machine × Except Failure Unit
  | [] => (machine, .ok ())
  | word :: rest =>
    match machine.place word with
    | .ok machine => machine.load rest
    | .error cause => (machine, .error cause)

theorem load_append (machine : Machine) (first second : List Word) :
    machine.load (first ++ second) =
      match machine.load first with
      | (loaded, .ok _) => loaded.load second
      | (loaded, .error cause) => (loaded, .error cause) := by
  induction first generalizing machine with
  | nil => rfl
  | cons word rest ih =>
    simp only [List.cons_append, load]
    cases machine.place word with
    | ok placed => exact ih placed
    | error cause => rfl

/-- Rewinds the counter and empties the stacks. Memory stays, and so does the count of filled
cells. -/
def reset (machine : Machine) : Machine :=
  { machine with data := [], returns := [], counter := machine.counter.rewind, running := false }

/-- Rewinds the counter and the loader, and empties memory and stacks. -/
def clear (machine : Machine) : Machine :=
  { machine.reset with memory := machine.memory.clear, filled := 0 }

end Machine

end StackMachine
