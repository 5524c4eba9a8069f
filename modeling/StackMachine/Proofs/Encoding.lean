import StackMachine.Proofs.Items
import StackMachine.Proofs.Refusals
import StackMachine.Proofs.Sameness

/-!
Instruction words, made and taken apart again. A word is made exactly of what the instruction table
allows, and gives back what it was made of. Sameness of words does not see whether an operand is
there, but the table settles that for each operation, so no two makings give the same word.
-/

set_option autoImplicit false

namespace StackMachine

theorem toUInt32_toUInt16 {value : UInt32} (small : value ≤ 0xFFFF) :
    value.toUInt16.toUInt32 = value := by
  have bound : value.toNat ≤ 0xFFFF := UInt32.le_iff_toNat_le.mp small
  apply UInt32.toNat_inj.mp
  rw [UInt16.toNat_toUInt32, UInt32.toNat_toUInt16]
  omega

namespace Opcode

/-- The operand that an operation is made with, and the one that its word then carries. -/
inductive Takes (operation : Opcode) : Option UInt32 → Option UInt16 → Prop
  | nothing (without : operation.hasOperand = false) : Takes operation none none
  | operand (carried : UInt16) (asked : operation.hasOperand = true) :
      Takes operation (some carried.toUInt32) (some carried)

/-- What is wrong with an operand that an operation is not made with. -/
inductive Refuses (operation : Opcode) : Option UInt32 → OperandFlaw → Prop
  | tooWide {value : UInt32} (asked : operation.hasOperand = true) (wide : 0xFFFF < value) :
      Refuses operation (some value) (.tooWide operation value)
  | required (asked : operation.hasOperand = true) : Refuses operation none (.required operation)
  | unexpected {value : UInt32} (without : operation.hasOperand = false) :
      Refuses operation (some value) (.unexpected operation value)

variable {operation : Opcode} {operand : Option UInt32} {carried : Option UInt16}

theorem exists_takes_iff : (∃ carried, operation.Takes operand carried) ↔
    if operation.hasOperand then ∃ value, operand = some value ∧ value ≤ 0xFFFF
    else operand = none := by
  constructor
  · rintro ⟨carried, takes⟩
    cases takes with
    | nothing without => simp [without]
    | operand carried asked =>
      rw [if_pos asked]
      exact ⟨carried.toUInt32, rfl, toUInt32_le carried⟩
  · intro fits
    by_cases asked : operation.hasOperand = true
    · rw [if_pos asked] at fits
      obtain ⟨value, rfl, small⟩ := fits
      have takes := Takes.operand value.toUInt16 asked
      rw [toUInt32_toUInt16 small] at takes
      exact ⟨_, takes⟩
    · rw [if_neg asked] at fits
      subst fits
      exact ⟨none, .nothing (Bool.not_eq_true _ ▸ asked)⟩

theorem takes_or_refuses (operation : Opcode) (operand : Option UInt32) :
    (∃ carried, operation.Takes operand carried) ∨ ∃ flaw, operation.Refuses operand flaw := by
  cases asked : operation.hasOperand with
  | false =>
    cases operand with
    | none => exact .inl ⟨none, .nothing asked⟩
    | some value => exact .inr ⟨_, .unexpected asked⟩
  | true =>
    cases operand with
    | none => exact .inr ⟨_, .required asked⟩
    | some value =>
      by_cases small : value ≤ 0xFFFF
      · left
        rw [exists_takes_iff, if_pos asked]
        exact ⟨value, rfl, small⟩
      · right
        refine ⟨_, .tooWide asked ?_⟩
        rw [UInt32.le_iff_toNat_le] at small
        rw [UInt32.lt_iff_toNat_lt]
        omega

end Opcode

namespace Word

variable {operation : Opcode} {operand : Option UInt32} {carried : Option UInt16}
  {code : UInt8} {word : Word}

theorem encode_takes (takes : operation.Takes operand carried) :
    encode operation.code operand = .ok (.instruction operation.code carried) := by
  cases takes with
  | nothing without => exact @encode_code operation none without.symm
  | operand carried asked => exact @encode_code operation (some carried) asked.symm

theorem encode_refuses {flaw : OperandFlaw} (refuses : operation.Refuses operand flaw) :
    encode operation.code operand = .error (.invalidOperand flaw) := by
  have known : Opcode.ofCode operation.code = .ok operation := by
    rw [Opcode.ofCode, Opcode.ofCode?_code]
  cases refuses with
  | tooWide asked wide =>
    have large := UInt32.not_le.mpr wide
    simp [encode, known, asked, large]
  | required asked => simp [encode, known, asked]
  | unexpected without => simp [encode, known, without]

theorem encode_unknown (unknown : ∀ operation : Opcode, operation.code ≠ code)
    (operand : Option UInt32) : encode code operand = .error (.unknownOpcode code) := by
  have absent : Opcode.ofCode? code = none := by
    cases known : Opcode.ofCode? code with
    | none => rfl
    | some operation => exact absurd (Opcode.code_of_ofCode? known) (unknown operation)
  rw [encode, Opcode.ofCode, absent]

theorem encode_eq_ok_iff : encode code operand = .ok word ↔
    ∃ (operation : Opcode) (carried : Option UInt16), operation.code = code ∧
      operation.Takes operand carried ∧ word = .instruction code carried := by
  constructor
  · intro made
    by_cases known : ∃ operation : Opcode, operation.code = code
    · obtain ⟨operation, rfl⟩ := known
      rcases operation.takes_or_refuses operand with ⟨carried, takes⟩ | ⟨flaw, refuses⟩
      · rw [encode_takes takes] at made
        exact ⟨operation, carried, rfl, takes, (Except.ok.inj made).symm⟩
      · rw [encode_refuses refuses] at made
        contradiction
    · rw [encode_unknown (not_exists.mp known)] at made
      contradiction
  · rintro ⟨operation, carried, rfl, takes, rfl⟩
    exact encode_takes takes

theorem encode_code_eq_error {cause : Failure}
    (failed : encode operation.code operand = .error cause) :
    ∃ flaw, operation.Refuses operand flaw ∧ cause = .invalidOperand flaw := by
  rcases operation.takes_or_refuses operand with ⟨carried, takes⟩ | ⟨flaw, refuses⟩
  · rw [encode_takes takes] at failed
    contradiction
  · rw [encode_refuses refuses] at failed
    exact ⟨flaw, refuses, (Except.error.inj failed).symm⟩

/-- The bits of an instruction have room for its opcode and its operand. -/
theorem instruction_eq_of_bits {otherCode : UInt8} {otherCarried : Option UInt16}
    (same : (instruction code carried).bits = (instruction otherCode otherCarried).bits) :
    code = otherCode ∧ carried.getD 0 = otherCarried.getD 0 := by
  have numbers := congrArg UInt32.toNat same
  have lower := (carried.getD 0).toNat_lt
  have otherLower := (otherCarried.getD 0).toNat_lt
  rw [toNat_bits_instruction, toNat_bits_instruction] at numbers
  constructor
  · apply UInt8.toNat_inj.mp
    omega
  · apply UInt16.toNat_inj.mp
    omega

/-- What was made tells what it was made of. -/
theorem encode_inj {otherCode : UInt8} {otherOperand : Option UInt32} {other : Word}
    (made : encode code operand = .ok word) (otherMade : encode otherCode otherOperand = .ok other)
    (same : word.same other = true) : code = otherCode ∧ operand = otherOperand := by
  obtain ⟨operation, carried, rfl, takes, rfl⟩ := encode_eq_ok_iff.mp made
  obtain ⟨otherOperation, otherCarried, rfl, otherTakes, rfl⟩ := encode_eq_ok_iff.mp otherMade
  obtain ⟨sameCode, sameCarried⟩ := instruction_eq_of_bits (bits_eq_of_same same)
  have sameOperation := Opcode.code_injective sameCode
  subst sameOperation
  refine ⟨rfl, ?_⟩
  cases takes with
  | nothing without =>
    cases otherTakes with
    | nothing _ => rfl
    | operand _ asked => simp [without] at asked
  | operand value asked =>
    cases otherTakes with
    | nothing without => simp [asked] at without
    | operand otherValue _ =>
      have values : value = otherValue := sameCarried
      rw [values]

end Word

/-- An instruction word is made exactly if its code is in the table and its operand is as the table
asks. A word that is made gives back both; and although no operand and operand zero look the same,
different codes or operands never make words that are the same. -/
theorem instruction_words_decode :
    (∀ code operand, (∃ word, Word.encode code operand = .ok word) ↔
      ∃ operation : Opcode, operation.code = code ∧
        if operation.hasOperand then ∃ value, operand = some value ∧ value ≤ 0xFFFF
        else operand = none) ∧
    (∀ code operand, (∀ operation : Opcode, operation.code ≠ code) →
      Word.encode code operand = .error (.unknownOpcode code)) ∧
    (∀ (operation : Opcode) operand cause, Word.encode operation.code operand = .error cause →
      ∃ flaw, operation.Refuses operand flaw ∧ cause = .invalidOperand flaw) ∧
    (∀ code operand word, Word.encode code operand = .ok word →
      word.opcode = code ∧ word.bits = code.toUInt32 <<< 24 ||| operand.getD 0 <<< 8 ∧
      (∀ value, operand = some value →
        ∃ carried : UInt16, carried.toUInt32 = value ∧ word.operand = .ok carried) ∧
      (operand = none → word.operand = .error (.noOperand word.bits) ∧
        (Failure.noOperand word.bits).message = "cell " ++ word.hex ++ " carries no operand")) ∧
    (∀ code operand word otherCode otherOperand other, Word.encode code operand = .ok word →
      Word.encode otherCode otherOperand = .ok other → word.same other = true →
        code = otherCode ∧ operand = otherOperand) ∧
    ∀ code, (Word.instruction code none).same (.instruction code (some 0)) = true := by
  refine ⟨?_, fun _ operand unknown => Word.encode_unknown unknown operand,
    fun _ _ _ => Word.encode_code_eq_error, ?_, fun _ _ _ _ _ _ => Word.encode_inj, ?_⟩
  · intro code operand
    simp only [← Opcode.exists_takes_iff, Word.encode_eq_ok_iff]
    constructor
    · rintro ⟨word, operation, carried, known, takes, _⟩
      exact ⟨operation, known, carried, takes⟩
    · rintro ⟨operation, known, carried, takes⟩
      exact ⟨_, operation, carried, known, takes, rfl⟩
  · intro code operand word made
    obtain ⟨operation, carried, rfl, takes, rfl⟩ := Word.encode_eq_ok_iff.mp made
    cases takes with
    | nothing _ => exact ⟨rfl, rfl, by simp, fun _ => ⟨rfl, rfl⟩⟩
    | operand carried _ =>
      refine ⟨rfl, rfl, ?_, by simp⟩
      intro value given
      exact ⟨carried, Option.some.inj given, rfl⟩
  · intro code
    rw [Word.same_iff_hashKey_eq]
    rfl

/-- The greatest operand of `CALL`, an operand that `DUP` does not take, a code after the last one,
and two words of `CALL` that are not the same. -/
theorem instruction_words_decode_edges :
    (∃ word, Word.encode 0x0F (some 0xFFFF) = .ok word ∧ word.opcode = 0x0F ∧
      word.bits = 0x0FFFFF00 ∧ ∃ carried : UInt16, carried.toUInt32 = 0xFFFF ∧
        word.operand = .ok carried) ∧
    Opcode.dup.Refuses (some 0) (.unexpected .dup 0) ∧
    Word.encode 0x16 (some 0x10000) = .error (.unknownOpcode 0x16) ∧
    (Word.instruction 0x0F (some 0)).same (.instruction 0x0F (some 1)) ≠ true := by
  obtain ⟨accepts, unknown, refusals, decodes, injective, _⟩ := instruction_words_decode
  refine ⟨?_, ?_, ?_, ?_⟩
  · obtain ⟨word, made⟩ := (accepts 0x0F (some 0xFFFF)).mpr
      ⟨.call, rfl, 0xFFFF, rfl, by decide⟩
    obtain ⟨opcode, bits, operand, _⟩ := decodes _ _ _ made
    exact ⟨word, made, opcode, bits.trans (by decide), operand _ rfl⟩
  · obtain ⟨flaw, refused, same⟩ :=
      refusals .dup (some 0) (.invalidOperand (.unexpected .dup 0)) rfl
    rwa [← Failure.invalidOperand.inj same] at refused
  · apply unknown
    intro operation
    cases operation <;> decide
  · intro same
    have equal := (injective 0x0F (some 0) _ 0x0F (some 1) _ rfl rfl same).2
    exact absurd equal (by decide)

end StackMachine
