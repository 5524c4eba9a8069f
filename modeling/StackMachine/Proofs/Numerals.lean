import Mathlib.Algebra.Group.Nat.Defs
import StackMachine.Proofs.Cells
import StackMachine.Proofs.Spellings

/-!
Numbers and addresses written and read again. The digits of a number have its value in the base
they are written in, in either letter case and with any zeros before them. So every number that can
be written is read as itself, and so is the address in an operand.
-/

set_option autoImplicit false

namespace StackMachine

namespace Numeral

theorem value_concat (base : Nat) (digits : List Char) (c : Char) :
    value base (digits ++ [c]) = base * value base digits + (digitValue? c).getD 0 := by
  simp only [value, List.foldl_append, List.foldl_cons, List.foldl_nil]

theorem value_zeros (base count : Nat) (digits : List Char) :
    value base (List.replicate count '0' ++ digits) = value base digits := by
  have zero : (digitValue? '0').getD 0 = 0 := by decide
  induction count with
  | zero => rfl
  | succ count ih =>
    rw [← ih]
    simp only [List.replicate_succ, List.cons_append, value, List.foldl_cons, zero, Nat.mul_zero,
      Nat.add_zero]

/-- A way to write the digits of a base, such as a letter case, in which they can be read. -/
def Readable (base : Nat) (shape : Char → Char) : Prop :=
  ∀ d < base, digitValue? (shape (Nat.digitChar d)) = some d

theorem readable_decimal : Readable 10 id := by
  unfold Readable
  decide

theorem readable_upper : Readable 16 Char.toUpper := by
  unfold Readable
  decide

theorem mem_toDigits {base n : Nat} {c : Char} (wide : 1 < base)
    (member : c ∈ Nat.toDigits base n) : ∃ d < base, c = Nat.digitChar d := by
  induction n using Nat.strongRecOn with
  | ind n ih =>
    by_cases small : n < base
    · rw [Nat.toDigits_of_lt_base small, List.mem_singleton] at member
      exact ⟨n, small, member⟩
    · have below : n / base < n := Nat.div_lt_self (by omega) wide
      rw [Nat.toDigits_of_base_le wide (by omega), List.mem_append, List.mem_singleton] at member
      rcases member with front | last
      · exact ih (n / base) below front
      · exact ⟨n % base, Nat.mod_lt n (by omega), last⟩

theorem isDigit_of_readable {base d : Nat} {shape : Char → Char} (readable : Readable base shape)
    (small : d < base) : isDigit base (shape (Nat.digitChar d)) = true := by
  simp [isDigit, readable d small, small]

theorem all_isDigit_toDigits {base : Nat} {shape : Char → Char} (wide : 1 < base)
    (readable : Readable base shape) (n : Nat) :
    ((Nat.toDigits base n).map shape).all (isDigit base) = true := by
  rw [List.all_eq_true]
  intro c member
  obtain ⟨digit, written, rfl⟩ := List.mem_map.mp member
  obtain ⟨d, small, rfl⟩ := mem_toDigits wide written
  exact isDigit_of_readable readable small

theorem value_toDigits {base : Nat} {shape : Char → Char} (wide : 1 < base)
    (readable : Readable base shape) (n : Nat) :
    value base ((Nat.toDigits base n).map shape) = n := by
  induction n using Nat.strongRecOn with
  | ind n ih =>
    by_cases small : n < base
    · rw [Nat.toDigits_of_lt_base small]
      simp [value, readable n small]
    · have below : n / base < n := Nat.div_lt_self (by omega) wide
      have last : n % base < base := Nat.mod_lt n (by omega)
      rw [Nat.toDigits_of_base_le wide (by omega), List.map_append, List.map_singleton,
        value_concat, ih (n / base) below, readable _ last]
      exact Nat.div_add_mod n base

theorem read?_toDigits {base : Nat} {shape : Char → Char} (wide : 1 < base)
    (readable : Readable base shape) (n : Nat) :
    read? base ((Nat.toDigits base n).map shape) = some n := by
  have nonempty : (Nat.toDigits base n).map shape ≠ [] := by simp
  rw [read?, if_pos ⟨nonempty, all_isDigit_toDigits wide readable n⟩,
    value_toDigits wide readable]

theorem value_hexDigits (width n : Nat) : value 16 (hexDigits width n) = n := by
  rw [hexDigits, value_zeros]
  exact value_toDigits (by decide) readable_upper n

theorem all_isDigit_hexDigits (width n : Nat) :
    (hexDigits width n).all (isDigit 16) = true := by
  have zero : isDigit 16 '0' = true := by decide
  rw [hexDigits, List.all_append, all_isDigit_toDigits (by decide) readable_upper n]
  simp [zero]

/-- A number that fits in the width is written in just that many digits. -/
theorem length_hexDigits {width n : Nat} (positive : 0 < width) (fits : n < 16 ^ width) :
    (hexDigits width n).length = width := by
  have short := (Nat.length_toDigits_le_iff (by decide) positive).mpr fits
  simp only [hexDigits, List.length_append, List.length_replicate, List.length_map]
  omega

/-- Digits alone carry no mark, since the letter of the mark is no digit. -/
theorem afterHexMark?_of_digits {digits : List Char} (all : digits.all (isDigit 16) = true) :
    afterHexMark? digits = none := by
  cases marked : afterHexMark? digits with
  | none => rfl
  | some rest =>
    obtain ⟨mark, rfl, known⟩ := afterHexMark?_eq_some marked
    have digit : isDigit 16 mark = true := List.all_eq_true.mp all mark (by simp)
    rcases known with rfl | rfl <;> exact absurd digit (by decide)

theorem all_isDigit_sixteen {digits : List Char} (all : digits.all (isDigit 10) = true) :
    digits.all (isDigit 16) = true := by
  rw [List.all_eq_true] at all ⊢
  intro c member
  have small := all c member
  simp only [isDigit, Option.any_eq_true, decide_eq_true_eq] at small ⊢
  obtain ⟨d, known, below⟩ := small
  exact ⟨d, known, by omega⟩

theorem ofInt?_toInt (value : Int64) : ofInt? value.toInt = some value := by
  have lower := value.minValue_le_toInt
  have upper := value.toInt_le
  rw [ofInt?, if_pos ⟨lower, upper⟩, Int64.ofInt_toInt]

/-- Digits alone carry no sign. -/
theorem decimal?_of_digits {digits : List Char} (all : digits.all (isDigit 10) = true) :
    decimal? digits = (read? 10 digits).bind fun n => ofInt? n := by
  unfold decimal?
  split
  · rename_i rest
    exact absurd (List.all_eq_true.mp all '+' (by simp)) (by decide)
  · rename_i rest
    exact absurd (List.all_eq_true.mp all '-' (by simp)) (by decide)
  · rfl

theorem parse?_decimal (value : Int64) : parse? (decimal value.toInt) = some value := by
  have read : ∀ n : Nat, read? 10 (Nat.toDigits 10 n) = some n := by
    intro n
    simpa using read?_toDigits (by decide) readable_decimal n
  have fits := ofInt?_toInt value
  rw [parse?, toList_decimal, decimalDigits]
  split
  · rename_i negative
    have number : -(value.toInt.natAbs : Int) = value.toInt := by omega
    have unmarked : hexadecimal? ('-' :: Nat.toDigits 10 value.toInt.natAbs) = none := rfl
    rw [unmarked, Option.orElse_eq_orElse, Option.orElse_eq_or, Option.none_or, decimal?, read,
      Option.bind_some, number, fits]
  · rename_i positive
    have number : (value.toInt.natAbs : Int) = value.toInt := by omega
    have digits : (Nat.toDigits 10 value.toInt.natAbs).all (isDigit 10) = true := by
      simpa using all_isDigit_toDigits (by decide) readable_decimal value.toInt.natAbs
    have unmarked : hexadecimal? (Nat.toDigits 10 value.toInt.natAbs) = none := by
      rw [hexadecimal?, afterHexMark?_of_digits (all_isDigit_sixteen digits)]
      rfl
    rw [unmarked, decimal?_of_digits digits, read]
    simp [number, fits]

end Numeral

namespace Text

theorem trim_of_solid {text : List Char} (solid : ∀ c ∈ text, isBlank c = false) :
    trim text = text := by
  have kept : ∀ {list : List Char}, (∀ c ∈ list, isBlank c = false) →
      list.dropWhile isBlank = list := by
    intro list solid
    cases list with
    | nil => rfl
    | cons c rest => rw [List.dropWhile_cons_of_neg (by simp [solid c])]
  have backwards : ∀ c ∈ text.reverse, isBlank c = false := by
    intro c member
    exact solid c (List.mem_reverse.mp member)
  rw [trim, kept solid, kept backwards, List.reverse_reverse]

theorem isBlank_of_isDigit {base : Nat} {c : Char} (digit : Numeral.isDigit base c = true) :
    isBlank c = false := by
  have between : 48 ≤ c.toNat ∧ c.toNat ≤ 102 := by
    unfold Numeral.isDigit Numeral.digitValue? at digit
    by_cases decimal : '0' ≤ c ∧ c ≤ '9'
    · exact ⟨decimal.1, Nat.le_trans decimal.2 (by decide)⟩
    · by_cases lower : 'a' ≤ c ∧ c ≤ 'f'
      · exact ⟨Nat.le_trans (by decide) lower.1, lower.2⟩
      · by_cases upper : 'A' ≤ c ∧ c ≤ 'F'
        · exact ⟨Nat.le_trans (by decide) upper.1, Nat.le_trans upper.2 (by decide)⟩
        · simp [decimal, lower, upper] at digit
  have apart : ∀ range ∈ blanks.ranges, range.2 < 48 ∨ 102 < range.1 := by decide
  rw [← Bool.not_eq_true]
  intro blank
  obtain ⟨range, member, inside⟩ := List.any_eq_true.mp blank
  simp only [Bool.and_eq_true, decide_eq_true_eq] at inside
  have away := apart range member
  omega

end Text

namespace Address

theorem packed_unpack (operand : UInt16) : (unpack operand).packed = operand := by
  have upper := operand.toNat_lt
  have offset := offset_unpack operand
  have below : (unpack operand).offset.toNat < 2 ^ 12 := by omega
  have shift : (12 : UInt16).toNat % 16 = 12 := by decide
  have fits : (operand.toNat / 4096) <<< 12 % 2 ^ 16 = (operand.toNat / 4096) <<< 12 := by
    rw [Nat.shiftLeft_eq]
    omega
  apply UInt16.toNat_inj.mp
  rw [packed, UInt16.toNat_or, UInt16.toNat_shiftLeft, UInt8.toNat_toUInt16, shift,
    segment_unpack, fits, ← Nat.shiftLeft_add_eq_or_of_lt below, offset, Nat.shiftLeft_eq]
  omega

/-- Four digits: the first is the segment, the other three are the offset. -/
theorem ofDigits_append {first rest : List Char} (one : first.length = 1)
    (three : rest.length = 3) :
    ofDigits (first ++ rest) =
      ⟨.ofNat (Numeral.value 16 first), .ofNat (Numeral.value 16 rest)⟩ := by
  have long : 3 < (first ++ rest).length := by
    rw [List.length_append]
    omega
  simp only [ofDigits, if_pos long, List.take_left' one, one, List.drop_left' one]

def operandDigits (operand : UInt16) : List Char :=
  Numeral.hexDigits 1 (unpack operand).segment.toNat ++
    Numeral.hexDigits 3 (unpack operand).offset.toNat

theorem all_isDigit_operandDigits (operand : UInt16) :
    (operandDigits operand).all (Numeral.isDigit 16) = true := by
  rw [operandDigits, List.all_append, Numeral.all_isDigit_hexDigits,
    Numeral.all_isDigit_hexDigits, Bool.and_self]

theorem parse_operandDigits (operand : UInt16) :
    parse (.ofList (operandDigits operand)) = .ok (unpack operand) := by
  have upper := operand.toNat_lt
  have segment := segment_unpack operand
  have offset := offset_unpack operand
  have one : (Numeral.hexDigits 1 (unpack operand).segment.toNat).length = 1 :=
    Numeral.length_hexDigits (by decide) (by omega)
  have three : (Numeral.hexDigits 3 (unpack operand).offset.toNat).length = 3 :=
    Numeral.length_hexDigits (by decide) (by omega)
  have four : (operandDigits operand).length = 4 := by
    rw [operandDigits, List.length_append, one, three]
  have digits := all_isDigit_operandDigits operand
  have nonempty : operandDigits operand ≠ [] := by
    intro empty
    rw [empty] at four
    contradiction
  have solid : ∀ c ∈ operandDigits operand, Text.isBlank c = false := by
    intro c member
    exact Text.isBlank_of_isDigit (List.all_eq_true.mp digits c member)
  have found : literalDigits? (operandDigits operand) = some (operandDigits operand) := by
    rw [literalDigits?, Numeral.afterHexMark?_of_digits digits]
    exact if_pos ⟨nonempty, Nat.le_of_eq four, digits⟩
  rw [parse_eq_ok_iff, String.toList_ofList, Text.trim_of_solid solid]
  refine ⟨_, found, ?_⟩
  rw [operandDigits, ofDigits_append one three, Numeral.value_hexDigits, Numeral.value_hexDigits,
    UInt8.ofNat_toNat, UInt16.ofNat_toNat]

end Address

end StackMachine
