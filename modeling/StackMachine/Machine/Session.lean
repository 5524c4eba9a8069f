import StackMachine.Channel.Input
import StackMachine.Code.Instruction
import StackMachine.Code.Operand
import StackMachine.Machine.State

/-!
A machine at work: the machine, the input it reads and what it has emitted. An action takes a
session to the next one; an action that fails keeps what it did before it failed.
-/

set_option autoImplicit false

namespace StackMachine

structure Session where
  machine : Machine
  input : Input
  output : Array String
deriving DecidableEq

abbrev Action := EStateM Failure Session

namespace Action

/-- The outcome of a check that does not touch the session. -/
def check {α : Type} (outcome : Except Failure α) : Action α := fun session =>
  match outcome with
  | .ok value => .ok value session
  | .error cause => .error cause session

def popData : Action Word := fun session =>
  match session.machine.data.pop .data with
  | .ok (word, rest) => .ok word { session with machine.data := rest }
  | .error cause => .error cause session

def pushData (word : Word) : Action Unit := fun session =>
  .ok () { session with machine.data := session.machine.data.push word }

def peekData (depth : Nat) : Action Word := fun session =>
  check (session.machine.data.peek .data depth) session

def popReturn : Action Word := fun session =>
  match session.machine.returns.pop .returns with
  | .ok (word, rest) => .ok word { session with machine.returns := rest }
  | .error cause => .error cause session

def pushReturn (word : Word) : Action Unit := fun session =>
  .ok () { session with machine.returns := session.machine.returns.push word }

def position : Action Address := fun session =>
  .ok session.machine.counter.position session

def nextPosition : Action Address := fun session =>
  .ok session.machine.counter.next session

def advance : Action Unit := fun session =>
  .ok () { session with machine.counter := session.machine.counter.advance }

def jump (target : Address) : Action Unit := fun session =>
  match session.machine.counter.jump target with
  | .ok counter => .ok () { session with machine.counter := counter }
  | .error cause => .error cause session

def halt : Action Unit := fun session =>
  .ok () { session with machine.running := false }

def readCell (address : Address) : Action Word := fun session =>
  check (session.machine.memory.get address) session

def writeCell (address : Address) (word : Word) : Action Unit := fun session =>
  match session.machine.memory.set address word with
  | .ok memory => .ok () { session with machine.memory := memory }
  | .error cause => .error cause session

/-- The address in the operand of a word, which must lie within memory. -/
def operandCell (word : Word) : Action Address := fun session =>
  check (word.operand.bind fun operand =>
    (Address.unpack operand).cellOf session.machine.segmentCount) session

def emit (text : String) : Action Unit := fun session =>
  .ok () { session with output := session.output.push text }

/-- A read that fails may have passed over a line of input. -/
def takeToken : Action String := fun session =>
  match session.input.read with
  | (.ok token, input) => .ok token { session with input }
  | (.error cause, input) => .error cause { session with input }

end Action

end StackMachine
