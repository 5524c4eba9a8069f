import StackMachine.Code.Instruction
import StackMachine.Code.Operand
import StackMachine.Program.Lexeme

/-!
Programs as items. An item is what a program is written in: a text, an operation alone, an
operation with an address, or a literal. Each item stands for one or two words.
-/

set_option autoImplicit false

namespace StackMachine

inductive Item
  | text (payload : String)
  | plain (operation : Opcode)
  | addressed (operation : Opcode) (operand : UInt16)
  | literal (value : Word)
deriving DecidableEq

namespace Item

def words : Item → List Word
  | text payload => [.text payload]
  | plain operation => [.instruction operation.code none]
  | addressed operation operand => [.instruction operation.code (some operand)]
  | literal value => [.instruction Opcode.lit.code none, value]

def operation (name : String) : Except Failure Opcode :=
  if name.toList.head? = some '"' then .error (.invalidOperand .unterminatedString)
  else Opcode.ofMnemonic name

/-- The argument of `LIT`: a quoted text, a truth value or a number. -/
def literalWord : Token → Except Failure Word
  | .quoted payload => .ok (.text payload)
  | .bare spelling =>
    if Text.spells spelling "TRUE" then .ok .trueWord
    else if Text.spells spelling "FALSE" then .ok .falseWord
    else match Numeral.parse? spelling with
      | some value => .ok (.literal value)
      | none => .error (.invalidOperand (.notNumber spelling))

/-- The argument of any other operation is an address. A quoted one is shown with its quotes. -/
def operand : Token → Except Failure UInt16
  | .quoted payload => .error (.malformedAddress ("\"" ++ payload ++ "\""))
  | .bare spelling => (Address.parse spelling).bind Address.pack

def withArgument (operation : Opcode) (argument : Token) : Except Failure Item :=
  if operation = .lit then (literalWord argument).map .literal
  else (operand argument).map (.addressed operation)

/-- The items of a row of lexemes. A fault of an argument has the argument's line, any other the
line of the head. -/
def list : List Lexeme → Except SourceError (List Item)
  | [] => .ok []
  | ⟨.quoted payload, _⟩ :: rest => (list rest).map (.text payload :: ·)
  | ⟨.bare name, line⟩ :: rest =>
    match operation name with
    | .error cause => .error ⟨line, cause⟩
    | .ok operation =>
      if operation.takesArgument then
        match rest with
        | [] => .error ⟨line, .invalidOperand (.missingArgument operation)⟩
        | argument :: rest =>
          match withArgument operation argument.token with
          | .error cause => .error ⟨argument.line, cause⟩
          | .ok item => (list rest).map (item :: ·)
      else (list rest).map (.plain operation :: ·)

end Item

def assemble (text : String) : Except SourceError (List Word) :=
  (Item.list (Lexeme.list text)).map fun items => items.flatMap Item.words

end StackMachine
