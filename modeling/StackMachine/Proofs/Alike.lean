import Mathlib.Algebra.Group.Int.Defs
import StackMachine.Proofs.FlatMachine

/-!
Words that control flow cannot tell apart. Two literals that are congruent modulo 2^32 have the same
form of 32 bits, and with it the same opcode, the same truth and the same message where they are
refused. Arithmetic leads from such literals to such literals.
-/

set_option autoImplicit false

namespace StackMachine

/-- Numbers that agree in their low half. -/
def Congruent (a b : Int64) : Prop :=
  a.toInt % 2 ^ 32 = b.toInt % 2 ^ 32

theorem congruent_iff {a b : Int64} :
    Congruent a b ↔ a.toUInt64.toUInt32 = b.toUInt64.toUInt32 := by
  have low : ∀ n : Int64, n.toInt % 2 ^ 32 = (n.toUInt64.toUInt32.toNat : Int) := by
    intro n
    have number : n.toInt = Int.bmod (n.toUInt64.toNat : Int) (2 ^ 64) :=
      BitVec.toInt_eq_toNat_bmod n.toBitVec
    have small := n.toUInt64.toNat_lt
    rw [number, UInt64.toNat_toUInt32, Int.bmod_eq_emod]
    split <;> omega
  rw [Congruent, low, low, Int.natCast_inj, UInt32.toNat_inj]

theorem Congruent.combine {operation : Opcode} {combine : Int64 → Int64 → Int64}
    (combines : Flat.Combines operation combine) {a b c d : Int64} (first : Congruent a b)
    (second : Congruent c d) : Congruent (combine a c) (combine b d) := by
  rw [congruent_iff] at first second ⊢
  cases combines <;> simp [first, second]

namespace Word

/-- Words that are the same, up to the high half of a literal. -/
inductive Alike : Word → Word → Prop
  | refl (word : Word) : Alike word word
  | literal {a b : Int64} (congruent : Congruent a b) : Alike (.literal a) (.literal b)

namespace Alike

variable {a b c d : Word}

theorem bits_eq (alike : a.Alike b) : a.bits = b.bits := by
  cases alike with
  | refl => rfl
  | literal congruent => exact congruent_iff.mp congruent

theorem opcode_eq (alike : a.Alike b) : a.opcode = b.opcode := by
  have bits := alike.bits_eq
  cases alike with
  | refl => rfl
  | literal congruent => simp only [opcode, bits]

theorem isTrue_eq (alike : a.Alike b) : a.isTrue = b.isTrue := by
  rw [isTrue, isTrue, alike.bits_eq]

/-- A literal has no operand, and is reported by its 32 bits. -/
theorem operand_eq (alike : a.Alike b) : a.operand = b.operand := by
  have bits := alike.bits_eq
  cases alike with
  | refl => rfl
  | literal congruent => simp only [operand, operand?, bits]

theorem isText_eq (alike : a.Alike b) : a.isText = b.isText := by
  cases alike <;> rfl

theorem congruent_number (alike : a.Alike b) : Congruent a.number b.number := by
  cases alike with
  | refl => rfl
  | literal congruent => exact congruent

/-- Arithmetic leads from words alike to words alike, since it carries nothing downwards. -/
theorem combine {operation : Opcode} {combine : Int64 → Int64 → Int64}
    (combines : Flat.Combines operation combine) (first : a.Alike b) (second : c.Alike d) :
    (Word.literal (combine a.number c.number)).Alike (.literal (combine b.number d.number)) :=
  .literal (first.congruent_number.combine combines second.congruent_number)

end Alike

end Word

end StackMachine
