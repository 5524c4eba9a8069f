import StackMachine.Machine.Session

/-!
Execution. An instruction first takes effect on stacks, memory, input and output, and then moves
the counter. A step executes the word under the counter; a run rewinds the counter and steps until
the program exits or faults.
-/

set_option autoImplicit false

namespace StackMachine

/-- What the counter does after an instruction has taken effect. -/
inductive Flow
  | next
  | skip
  | jump (target : Address)
  | halt
deriving DecidableEq

namespace Action

def move : Flow → Action Unit
  | .next => advance
  | .skip => do
    advance
    advance
  | .jump target => jump target
  | .halt => halt

/-- Takes `a` off the data stack, then `b`, and puts `b` combined with `a` back. -/
def combineTop (combine : Int64 → Int64 → Int64) : Action Flow := do
  let a ← popData
  let b ← popData
  pushData (.literal (combine b.number a.number))
  return .next

def operandText (word : Word) : Action String := do
  let address ← operandCell word
  match ← readCell address with
  | .text payload => return payload
  | other => throw (.invalidOperand (.notText address other.bits))

/-- What each operation does, given the word it was found in, before the counter moves. -/
def effect (word : Word) : Opcode → Action Flow
  | .nop => return .next
  | .store => do
    let address ← operandCell word
    let value ← popData
    writeCell address value
    return .next
  | .add => combineTop (· + ·)
  | .sub => combineTop (· - ·)
  | .rstore => do
    let value ← popData
    pushReturn value
    return .next
  | .fetch => do
    let address ← operandCell word
    let value ← readCell address
    pushData value
    return .next
  | .and => combineTop (· &&& ·)
  | .drop => do
    let _ ← popData
    return .next
  | .dup => do
    let top ← peekData 0
    pushData top
    return .next
  | .or => combineTop (· ||| ·)
  | .overCopy => do
    let second ← peekData 1
    pushData second
    return .next
  | .rfetch => do
    let value ← popReturn
    pushData value
    return .next
  | .swap => do
    let a ← popData
    let b ← popData
    pushData a
    pushData b
    return .next
  | .xor => combineTop (· ^^^ ·)
  | .branchIf => do
    let operand ← check word.operand
    let condition ← popData
    return if condition.isTrue then .jump (.unpack operand) else .next
  | .call => do
    let operand ← check word.operand
    return .jump (.unpack operand)
  | .exit => return .halt
  | .lit => do
    let next ← nextPosition
    let value ← readCell next
    pushData value
    return .skip
  | .cout => do
    let value ← popData
    emit value.display
    return .next
  | .cin => do
    let token ← takeToken
    pushData (.ofToken token)
    return .next
  | .strlit =>
    if word.isText then return .next
    else do
      let _ ← operandText word
      return .next
  | .sout => do
    let text ← operandText word
    emit text
    return .next

/-- The effect of the word under the counter. -/
def enact : Action Flow := do
  let here ← position
  let word ← readCell here
  let operation ← check (Opcode.ofCode word.opcode)
  effect word operation

def execute : Action Unit := do
  let flow ← enact
  move flow

end Action

/-- A session after a step or a run, and the fault that ended it, if one did. -/
structure Report where
  session : Session
  fault? : Option Fault
deriving DecidableEq

namespace Machine

def currentOpcode (machine : Machine) : UInt8 :=
  match machine.memory.get? machine.counter.position with
  | some word => word.opcode
  | none => 0

/-- Ready to run from the first cell. Memory and stacks are kept. -/
def start (machine : Machine) : Machine :=
  { machine with counter := machine.counter.rewind, running := true }

end Machine

namespace Session

/-- One instruction. A fault halts the machine, and names where it stood before the step. -/
def step (session : Session) : Report :=
  match Action.execute session with
  | .ok _ next => ⟨next, none⟩
  | .error cause left =>
    ⟨{ left with machine.running := false },
      some ⟨session.machine.currentOpcode, session.machine.counter.position, cause⟩⟩

/-- Steps while the machine is running; none if that takes more than `fuel` steps. -/
def continue? : Nat → Session → Option Report
  | fuel, session =>
    if session.machine.running then
      match fuel with
      | 0 => none
      | fuel + 1 =>
        match session.step with
        | ⟨next, none⟩ => continue? fuel next
        | ⟨left, some fault⟩ => some ⟨left, some fault⟩
    else some ⟨session, none⟩

def run? (fuel : Nat) (session : Session) : Option Report :=
  continue? fuel { session with machine := session.machine.start }

end Session

end StackMachine
