import StackMachine.Code.Opcode
import StackMachine.Numeral

/-!
Words, which are what memory cells and stacks hold. Every word has a form of 32 bits: opcode,
operand and a zero byte for an instruction, the low half of a literal, and a fixed marker for a
text, whose characters stand beside the form.
-/

set_option autoImplicit false

namespace StackMachine

inductive Word
  | instruction (opcode : UInt8) (operand : Option UInt16)
  | literal (value : Int64)
  | text (payload : String)
deriving DecidableEq

namespace Word

/-- Fresh memory holds nothing else. -/
def nop : Word := .instruction Opcode.nop.code none

instance : Inhabited Word := ⟨nop⟩

def trueWord : Word := .literal 0x10000000

def falseWord : Word := .literal 0

/-- The 32 bits of a word. A missing operand counts as zero. -/
def bits : Word → UInt32
  | .instruction opcode operand =>
    opcode.toUInt32 <<< 24 ||| (operand.getD 0).toUInt32 <<< 8
  | .literal value => value.toUInt64.toUInt32
  | .text _ => Opcode.strlit.code.toUInt32 <<< 24

def hexOfBits (bits : UInt32) : String :=
  "0x" ++ Numeral.hex 8 bits.toNat

def hex (word : Word) : String :=
  hexOfBits word.bits

/-- The number that arithmetic works on: all 64 bits of a literal, else the 32 bits unsigned. -/
def number : Word → Int64
  | .literal value => value
  | word => word.bits.toUInt64.toInt64

/-- A word is true if the first hexadecimal digit of its form is 1. -/
def isTrue (word : Word) : Bool :=
  word.bits >>> 28 == 1

def isText : Word → Bool
  | .text _ => true
  | _ => false

/-- The opcode byte. A literal has one too, since it may be executed. -/
def opcode : Word → UInt8
  | .instruction opcode _ => opcode
  | .literal value => (Word.literal value).bits >>> 24 |>.toUInt8
  | .text _ => Opcode.strlit.code

def operand? : Word → Option UInt16
  | .instruction _ operand => operand
  | _ => none

/-- What printing a word shows: a literal in decimal, a text itself, an instruction its form. -/
def display : Word → String
  | .literal value => Numeral.decimal value.toInt
  | .text payload => payload
  | word => word.hex

/-- A token of input is a number if it reads as one, else a text. -/
def ofToken (token : String) : Word :=
  match Numeral.parse? token with
  | some value => .literal value
  | none => .text token

/-- Words are the same if their 32 bits are, across kinds; a text is the same only as a text with
its own characters. -/
def same : Word → Word → Bool
  | .text a, .text b => a == b
  | .text _, _ => false
  | _, .text _ => false
  | a, b => a.bits == b.bits

def hashKey : Word → UInt32 × Option String
  | .text payload => ((Word.text payload).bits, some payload)
  | word => (word.bits, none)

end Word

end StackMachine
