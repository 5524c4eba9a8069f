import StackMachine.Code.Word
import StackMachine.Storage.Address

/-!
Everything that can go wrong, as causes. The wording of each cause is in `Failure.message`; a
cause met in program text is given a line, and one met by a running machine a location.
-/

set_option autoImplicit false

namespace StackMachine

inductive StackName
  | data
  | returns
deriving DecidableEq

namespace StackName

def display : StackName → String
  | data => "data"
  | returns => "return"

end StackName

/-- What is wrong with an operand, or with an argument in program text. -/
inductive OperandFlaw
  | tooWide (operation : Opcode) (value : UInt32)
  | required (operation : Opcode)
  | unexpected (operation : Opcode) (value : UInt32)
  | oversized (address : Address)
  | notText (address : Address) (found : UInt32)
  | notNumber (text : String)
  | missingArgument (operation : Opcode)
  | unterminatedString
deriving DecidableEq

namespace OperandFlaw

def message : OperandFlaw → String
  | tooWide operation value =>
    operation.mnemonic ++ " operand 0x" ++ Numeral.hex 1 value.toNat ++ " exceeds 16 bits"
  | required operation => operation.mnemonic ++ " requires an operand"
  | unexpected operation value =>
    operation.mnemonic ++ " takes no operand but was given 0x" ++ Numeral.hex 1 value.toNat
  | oversized address => address.display ++ " does not fit in an operand"
  | notText address found =>
    "expected text at " ++ address.display ++ ", found " ++ Word.hexOfBits found
  | notNumber text => "`" ++ text ++ "` is not a number"
  | missingArgument operation => operation.mnemonic ++ " is missing its argument"
  | unterminatedString => "unterminated string"

end OperandFlaw

inductive Failure
  | tooManySegments (requested : UInt8)
  | noSegments
  | outOfBounds (address : Address)
  | underflow (stack : StackName)
  | malformedAddress (text : String)
  | unknownMnemonic (text : String)
  | unknownOpcode (code : UInt8)
  | noOperand (bits : UInt32)
  | invalidOperand (flaw : OperandFlaw)
  | inputExhausted
deriving DecidableEq

namespace Failure

def message : Failure → String
  | tooManySegments requested =>
    Numeral.decimal requested.toNat ++ " memory segments requested, but the addressing system " ++
      "supports at most 16. Please request fewer segments."
  | noSegments => "at least one memory segment is required"
  | outOfBounds address =>
    "address " ++ address.display ++ " is outside of the configured memory"
  | underflow stack => "pop on empty " ++ stack.display ++ " stack"
  | malformedAddress text => "malformed address literal `" ++ text ++ "`"
  | unknownMnemonic text => "unknown mnemonic `" ++ text ++ "`"
  | unknownOpcode code => "unknown opcode 0x" ++ Numeral.hex 2 code.toNat
  | noOperand bits => "cell " ++ Word.hexOfBits bits ++ " carries no operand"
  | invalidOperand flaw => "invalid operand: " ++ flaw.message
  | inputExhausted => "the input source has no more tokens"

end Failure

/-- A cause met in program text, with the line it was met on, counted from one. -/
structure SourceError where
  line : Nat
  cause : Failure
deriving DecidableEq

namespace SourceError

def message (error : SourceError) : String :=
  "line " ++ Numeral.decimal error.line ++ ": " ++ error.cause.message

end SourceError

/-- A cause met by a running machine, with the opcode that was executed and where it stood. -/
structure Fault where
  opcode : UInt8
  location : Address
  cause : Failure
deriving DecidableEq

namespace Fault

def message (fault : Fault) : String :=
  fault.cause.message ++ " (opcode 0x" ++ Numeral.hex 2 fault.opcode.toNat ++ " at " ++
    fault.location.display ++ ")"

end Fault

end StackMachine
