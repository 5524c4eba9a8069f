import StackMachine.Failure

/-!
Stacks of words, as lists with the top first. A stack is told its name only to report underflow.
-/

set_option autoImplicit false

namespace StackMachine

abbrev Stack := List Word

namespace Stack

def push (word : Word) (stack : Stack) : Stack :=
  word :: stack

def pop (name : StackName) : Stack → Except Failure (Word × Stack)
  | [] => .error (.underflow name)
  | word :: rest => .ok (word, rest)

/-- The word that many places below the top, which stays where it is. -/
def peek (name : StackName) (stack : Stack) (depth : Nat) : Except Failure Word :=
  match stack[depth]? with
  | some word => .ok word
  | none => .error (.underflow name)

def bottomUp (stack : Stack) : List Word :=
  stack.reverse

end Stack

end StackMachine
