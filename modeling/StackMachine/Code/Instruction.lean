import StackMachine.Failure

/-!
Instruction words, made and taken apart. Making one is checked against the instruction table;
taking one apart only reads the word.
-/

set_option autoImplicit false

namespace StackMachine

namespace Opcode

def ofCode (code : UInt8) : Except Failure Opcode :=
  match ofCode? code with
  | some operation => .ok operation
  | none => .error (.unknownOpcode code)

def ofMnemonic (text : String) : Except Failure Opcode :=
  match ofMnemonic? text with
  | some operation => .ok operation
  | none => .error (.unknownMnemonic text)

end Opcode

namespace Word

/-- An operand must be there exactly if the table asks for one, and it must fit in 16 bits. -/
def encode (code : UInt8) (operand : Option UInt32) : Except Failure Word :=
  match Opcode.ofCode code with
  | .error cause => .error cause
  | .ok operation =>
    match operation.hasOperand, operand with
    | true, some value =>
      if value ≤ 0xFFFF then
        .ok (.instruction code (some value.toUInt16))
      else
        .error (.invalidOperand (.tooWide operation value))
    | true, none => .error (.invalidOperand (.required operation))
    | false, some value => .error (.invalidOperand (.unexpected operation value))
    | false, none => .ok (.instruction code none)

/-- The operand of an instruction word. A word without one is reported by its bits. -/
def operand (word : Word) : Except Failure UInt16 :=
  match word.operand? with
  | some operand => .ok operand
  | none => .error (.noOperand word.bits)

end Word

end StackMachine
