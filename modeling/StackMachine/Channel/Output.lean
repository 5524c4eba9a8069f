import StackMachine.Channel.Input

/-!
Output of the machine: each emitted text is a line, written to a sink that may have little room.
-/

set_option autoImplicit false

namespace StackMachine.Output

def lineBytes (text : String) : List UInt8 :=
  text.toUTF8.toList ++ [lineFeed]

/-- What a sink holds after some texts. The sink drops all that does not fit, and nobody is told. -/
def written (room : Option Nat) (texts : List String) : List UInt8 :=
  let bytes := texts.flatMap lineBytes
  match room with
  | some limit => bytes.take limit
  | none => bytes

def lines (texts : List String) : String :=
  String.join (texts.map (· ++ "\n"))

end StackMachine.Output
