/-!
Numbers as text. Writing gives upper-case hexadecimal with a least width, and signed decimal;
reading takes digits of a base, and the two spellings of a signed 64-bit number.
-/

set_option autoImplicit false

namespace StackMachine.Numeral

/-- The value of a hexadecimal digit, in either letter case. -/
def digitValue? (c : Char) : Option Nat :=
  if '0' ≤ c ∧ c ≤ '9' then some (c.toNat - '0'.toNat)
  else if 'a' ≤ c ∧ c ≤ 'f' then some (c.toNat - 'a'.toNat + 10)
  else if 'A' ≤ c ∧ c ≤ 'F' then some (c.toNat - 'A'.toNat + 10)
  else none

/-- Bases above sixteen have no further digits. -/
def isDigit (base : Nat) (c : Char) : Bool :=
  (digitValue? c).any (· < base)

def value (base : Nat) (digits : List Char) : Nat :=
  digits.foldl (fun total c => base * total + (digitValue? c).getD 0) 0

/-- One or more digits, and nothing else. -/
def read? (base : Nat) (digits : List Char) : Option Nat :=
  if digits ≠ [] ∧ digits.all (isDigit base) then some (value base digits) else none

def afterHexMark? : List Char → Option (List Char)
  | '0' :: mark :: rest => if mark = 'x' ∨ mark = 'X' then some rest else none
  | _ => none

/-- Numbers outside the signed 64-bit range have no reading. -/
def ofInt? (n : Int) : Option Int64 :=
  if Int64.minValue.toInt ≤ n ∧ n ≤ Int64.maxValue.toInt then some (Int64.ofInt n) else none

def hexadecimal? (text : List Char) : Option Int64 :=
  (afterHexMark? text).bind fun digits => (read? 16 digits).bind fun n => ofInt? n

def decimal? : List Char → Option Int64
  | '+' :: digits => (read? 10 digits).bind fun n => ofInt? n
  | '-' :: digits => (read? 10 digits).bind fun n => ofInt? (-n)
  | digits => (read? 10 digits).bind fun n => ofInt? n

/-- The whole text must be one number. -/
def parse? (text : String) : Option Int64 :=
  hexadecimal? text.toList <|> decimal? text.toList

/-- The digits of a number in base sixteen, with zeros in front up to the width. -/
def hexDigits (width n : Nat) : List Char :=
  let digits := (Nat.toDigits 16 n).map Char.toUpper
  List.replicate (width - digits.length) '0' ++ digits

def hex (width n : Nat) : String :=
  String.ofList (hexDigits width n)

def decimalDigits (n : Int) : List Char :=
  if n < 0 then '-' :: Nat.toDigits 10 n.natAbs else Nat.toDigits 10 n.natAbs

def decimal (n : Int) : String :=
  String.ofList (decimalDigits n)

theorem toList_hex (width n : Nat) : (hex width n).toList = hexDigits width n := by
  simp [hex]

theorem toList_decimal (n : Int) : (decimal n).toList = decimalDigits n := by
  simp [decimal]

end StackMachine.Numeral
