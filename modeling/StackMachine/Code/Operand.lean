import StackMachine.Failure
import StackMachine.Text.Characters

/-!
Addresses as operands. An operand has four bits of segment above twelve bits of offset, and an
address literal spells the same sixteen bits in hexadecimal digits.
-/

set_option autoImplicit false

namespace StackMachine.Address

/-- The top hexadecimal digit is the segment, the other three are the offset. -/
def unpack (operand : UInt16) : Address :=
  ⟨(operand >>> 12).toUInt8, operand &&& 0xFFF⟩

/-- Fails if the segment needs more than one hexadecimal digit, or the offset more than three. -/
def pack (address : Address) : Except Failure UInt16 :=
  if address.segment.toNat < maxSegments ∧ address.offset ≤ 0xFFF then
    .ok (address.segment.toUInt16 <<< 12 ||| address.offset)
  else
    .error (.invalidOperand (.oversized address))

def literalDigits? (text : List Char) : Option (List Char) :=
  let digits := (Numeral.afterHexMark? text).getD text
  if digits ≠ [] ∧ digits.length ≤ 4 ∧ digits.all (Numeral.isDigit 16) then some digits else none

/-- Up to three digits are an offset in segment zero. Of four digits the first is the segment. -/
def ofDigits (digits : List Char) : Address :=
  let segment := if 3 < digits.length then digits.take 1 else []
  let offset := digits.drop segment.length
  ⟨UInt8.ofNat (Numeral.value 16 segment), UInt16.ofNat (Numeral.value 16 offset)⟩

/-- Blanks around a literal are dropped, but a refusal shows the text as it came. -/
def parse (text : String) : Except Failure Address :=
  match literalDigits? (Text.trim text.toList) with
  | some digits => .ok (ofDigits digits)
  | none => .error (.malformedAddress text)

end StackMachine.Address
