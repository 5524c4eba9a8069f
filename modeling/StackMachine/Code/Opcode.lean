import StackMachine.Text.Characters

/-!
The instruction table: each operation has a code, a mnemonic and either no operand or one.
-/

set_option autoImplicit false

namespace StackMachine

inductive Opcode
  | nop
  | store
  | add
  | sub
  | rstore
  | fetch
  | and
  | drop
  | dup
  | or
  | overCopy
  | rfetch
  | swap
  | xor
  | branchIf
  | call
  | exit
  | lit
  | cout
  | cin
  | strlit
  | sout
deriving DecidableEq

namespace Opcode

def all : List Opcode :=
  [nop, store, add, sub, rstore, fetch, and, drop, dup, or, overCopy, rfetch, swap, xor, branchIf,
    call, exit, lit, cout, cin, strlit, sout]

def code : Opcode → UInt8
  | nop => 0x00
  | store => 0x01
  | add => 0x02
  | sub => 0x03
  | rstore => 0x04
  | fetch => 0x05
  | and => 0x06
  | drop => 0x07
  | dup => 0x08
  | or => 0x09
  | overCopy => 0x0A
  | rfetch => 0x0B
  | swap => 0x0C
  | xor => 0x0D
  | branchIf => 0x0E
  | call => 0x0F
  | exit => 0x10
  | lit => 0x11
  | cout => 0x12
  | cin => 0x13
  | strlit => 0x14
  | sout => 0x15

def ofCode? (code : UInt8) : Option Opcode :=
  all.find? fun operation => operation.code == code

def mnemonic : Opcode → String
  | nop => "NOP"
  | store => "STORE"
  | add => "ADD"
  | sub => "SUB"
  | rstore => "RSTORE"
  | fetch => "FETCH"
  | and => "AND"
  | drop => "DROP"
  | dup => "DUP"
  | or => "OR"
  | overCopy => "OVER"
  | rfetch => "RFETCH"
  | swap => "SWAP"
  | xor => "XOR"
  | branchIf => "IF"
  | call => "CALL"
  | exit => "EXIT"
  | lit => "LIT"
  | cout => "COUT"
  | cin => "CIN"
  | strlit => "STRLIT"
  | sout => "SOUT"

/-- The names a program may use: the mnemonic, and a second name for the return stack moves. -/
def spellings : Opcode → List String
  | rstore => ["RSTORE", ">R"]
  | rfetch => ["RFETCH", "R>"]
  | operation => [operation.mnemonic]

/-- Names are read in any ASCII letter case. -/
def ofMnemonic? (text : String) : Option Opcode :=
  all.find? fun operation => operation.spellings.any (Text.spells text)

/-- True if the instruction word itself carries an address. The word after `lit` is no operand. -/
def hasOperand : Opcode → Bool
  | store | fetch | branchIf | call | strlit | sout => true
  | _ => false

/-- In program text an argument follows an operation with an operand, and it follows `lit`. -/
def takesArgument (operation : Opcode) : Bool :=
  operation == lit || operation.hasOperand

theorem mem_all (operation : Opcode) : operation ∈ all := by
  cases operation <;> decide

theorem ofCode?_code (operation : Opcode) : ofCode? operation.code = some operation := by
  cases operation <;> rfl

theorem code_of_ofCode? {code : UInt8} {operation : Opcode}
    (known : ofCode? code = some operation) : operation.code = code := by
  simpa using List.find?_some known

end Opcode

end StackMachine
