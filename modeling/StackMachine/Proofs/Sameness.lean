import StackMachine.Proofs.Alike
import StackMachine.Proofs.Echo

/-!
Words that are the same. Sameness goes by the 32 bits of words, across their kinds, but sets texts
apart; it is an equivalence, and words are the same exactly if they are hashed by the same key. All
that is read off a word other than its number depends on its bits, and arithmetic, which works on
numbers of 64 bits, comes down to arithmetic of 32 bits on them.
-/

set_option autoImplicit false

namespace StackMachine

namespace Word

variable {a b : Word}

theorem fst_hashKey (word : Word) : word.hashKey.1 = word.bits := by
  cases word <;> rfl

theorem isSome_snd_hashKey (word : Word) : word.hashKey.2.isSome = word.isText := by
  cases word <;> rfl

theorem same_iff_hashKey_eq : a.same b = true ↔ a.hashKey = b.hashKey := by
  cases a <;> cases b <;> simp [same, hashKey, bits]

theorem bits_eq_of_same (same : a.same b = true) : a.bits = b.bits := by
  rw [← fst_hashKey, same_iff_hashKey_eq.mp same, fst_hashKey]

theorem isText_eq_of_same (same : a.same b = true) : a.isText = b.isText := by
  rw [← isSome_snd_hashKey, same_iff_hashKey_eq.mp same, isSome_snd_hashKey]

theorem same_literal_iff {x y : Int64} :
    (literal x).same (literal y) = true ↔ (literal x).bits = (literal y).bits :=
  beq_iff_eq

/-- The opcode is the first byte of an instruction, the operand the two after it. -/
theorem toNat_bits_instruction (code : UInt8) (operand : Option UInt16) :
    (instruction code operand).bits.toNat =
      code.toNat * 2 ^ 24 + (operand.getD 0).toNat * 2 ^ 8 := by
  have upper := code.toNat_lt
  have lower := (operand.getD 0).toNat_lt
  have high : (code.toUInt32 <<< 24).toNat = code.toNat <<< 24 := by
    rw [UInt32.toNat_shiftLeft, UInt8.toNat_toUInt32, show (24 : UInt32).toNat % 32 = 24 from rfl,
      Nat.shiftLeft_eq, Nat.mod_eq_of_lt (by omega)]
  have low : ((operand.getD 0).toUInt32 <<< 8).toNat = (operand.getD 0).toNat * 2 ^ 8 := by
    rw [UInt32.toNat_shiftLeft, UInt16.toNat_toUInt32, show (8 : UInt32).toNat % 32 = 8 from rfl,
      Nat.shiftLeft_eq, Nat.mod_eq_of_lt (by omega)]
  rw [bits, UInt32.toNat_or, high, low, ← Nat.shiftLeft_add_eq_or_of_lt (by omega),
    Nat.shiftLeft_eq]

/-- The opcode of every word is the first byte of its bits. -/
theorem opcode_eq_bits (word : Word) : word.opcode.toUInt32 = word.bits >>> 24 := by
  have first : ∀ bits : UInt32, (bits >>> 24).toNat = bits.toNat / 2 ^ 24 := by
    intro bits
    rw [UInt32.toNat_shiftRight, show (24 : UInt32).toNat % 32 = 24 from rfl,
      Nat.shiftRight_eq_div_pow]
  apply UInt32.toNat_inj.mp
  rw [first, UInt8.toNat_toUInt32]
  cases word with
  | instruction code operand =>
    have lower := (operand.getD 0).toNat_lt
    rw [toNat_bits_instruction, opcode]
    omega
  | literal value =>
    -- What is left of 32 bits after 24 fits in a byte, so nothing more is cut off.
    have small := (literal value).bits.toNat_lt
    rw [opcode, UInt32.toNat_toUInt8, first]
    omega
  | text payload =>
    change Opcode.strlit.code.toNat = (Opcode.strlit.code.toUInt32 <<< 24).toNat / 2 ^ 24
    decide

/-- All but its number that is read off a word depends on its bits and on its being a text. -/
theorem agree_of_same (same : a.same b = true) :
    a.hex = b.hex ∧ a.opcode = b.opcode ∧ a.isTrue = b.isTrue ∧ a.isText = b.isText := by
  have bits := bits_eq_of_same same
  have opcode : a.opcode = b.opcode := by
    apply UInt8.toNat_inj.mp
    rw [← UInt8.toNat_toUInt32, ← UInt8.toNat_toUInt32, opcode_eq_bits, opcode_eq_bits, bits]
  refine ⟨?_, opcode, ?_, isText_eq_of_same same⟩
  · rw [hex, hex, bits]
  · rw [isTrue, isTrue, bits]

end Word

/-- The operations on two words, as they work on 32 bits. They wrap around. -/
inductive Narrow : Opcode → (UInt32 → UInt32 → UInt32) → Prop
  | add : Narrow .add (· + ·)
  | sub : Narrow .sub (· - ·)
  | and : Narrow .and (· &&& ·)
  | or : Narrow .or (· ||| ·)
  | xor : Narrow .xor (· ^^^ ·)

variable {operation : Opcode} {narrow : UInt32 → UInt32 → UInt32}

/-- The low half of a result is the result of the low halves. -/
theorem Narrow.exists_combine (narrowed : Narrow operation narrow) :
    ∃ combine, Flat.Combines operation combine ∧ ∀ x y : Int64,
      (combine x y).toUInt64.toUInt32 = narrow x.toUInt64.toUInt32 y.toUInt64.toUInt32 := by
  cases narrowed with
  | add => exact ⟨_, .add, by simp⟩
  | sub => exact ⟨_, .sub, by simp⟩
  | and => exact ⟨_, .and, by simp⟩
  | or => exact ⟨_, .or, by simp⟩
  | xor => exact ⟨_, .xor, by simp⟩

theorem Session.step_combine {combine : Int64 → Int64 → Int64} {session : Session} {a b : Word}
    {rest : Stack} (combines : Flat.Combines operation combine)
    (here : session.machine.currentOpcode = operation.code)
    (stack : session.machine.data = a :: b :: rest) :
    session.step = ⟨{ session with
      machine.data := .literal (combine b.number a.number) :: rest
      machine.counter := session.machine.counter.advance }, none⟩ := by
  have real : operation.code ≠ 0 := by cases combines <;> decide
  obtain ⟨word, executed⟩ := execute_of_currentOpcode here real
  rw [step_eq_ok_iff, executed, combines.perform_eq word, Action.combineTop_move_iff]
  exact ⟨a, b, rest, stack, rfl⟩

/-- Sameness of words is an equivalence, it is sameness of what they are hashed by, and it keeps all
but the number of a word. Each operation on two words works on their bits, so operands that are the
same lead to results that are the same. -/
theorem sameness_is_sound :
    Equivalence (fun a b : Word => a.same b = true) ∧
    (∀ a b : Word, a.same b = true ↔ a.hashKey = b.hashKey) ∧
    (∀ a b : Word, a.same b = true →
      a.hex = b.hex ∧ a.opcode = b.opcode ∧ a.isTrue = b.isTrue ∧ a.isText = b.isText) ∧
    (∀ word : Word, word.opcode.toUInt32 = word.bits >>> 24) ∧
    ∀ operation narrow, Narrow operation narrow → ∃ result : Word → Word → Word,
      (∀ (session : Session) (a b : Word) (rest : Stack),
        session.machine.currentOpcode = operation.code → session.machine.data = a :: b :: rest →
          session.step = ⟨{ session with
            machine.data := result b a :: rest
            machine.counter := session.machine.counter.advance }, none⟩) ∧
      (∀ a b : Word, (result b a).bits = narrow b.bits a.bits) ∧
      ∀ a b c d : Word, a.same c = true → b.same d = true →
        (result b a).same (result d c) = true := by
  refine ⟨⟨?_, ?_, ?_⟩, ?_, ?_, Word.opcode_eq_bits, ?_⟩
  · intro word
    exact Word.same_iff_hashKey_eq.mpr rfl
  · intro a b same
    exact Word.same_iff_hashKey_eq.mpr (Word.same_iff_hashKey_eq.mp same).symm
  · intro a b c first second
    exact Word.same_iff_hashKey_eq.mpr
      ((Word.same_iff_hashKey_eq.mp first).trans (Word.same_iff_hashKey_eq.mp second))
  · intro a b
    exact Word.same_iff_hashKey_eq
  · intro a b same
    exact Word.agree_of_same same
  · intro operation narrow narrowed
    obtain ⟨combine, combines, low⟩ := narrowed.exists_combine
    have bits : ∀ a b : Word,
        (Word.literal (combine b.number a.number)).bits = narrow b.bits a.bits := by
      intro a b
      rw [← Word.bits_literal_number a, ← Word.bits_literal_number b]
      exact low b.number a.number
    refine ⟨fun b a => .literal (combine b.number a.number), ?_, bits, ?_⟩
    · intro session a b rest here stack
      exact Session.step_combine combines here stack
    · intro a b c d first second
      rw [Word.same_literal_iff, bits, bits, Word.bits_eq_of_same first,
        Word.bits_eq_of_same second]

/-- A literal and an instruction on the stack, and two literals that are the same words: `SUB`
leaves the same word in both cases. -/
theorem sameness_is_sound_sub :
    let loaded := ((Machine.fresh 1).load [.instruction Opcode.sub.code none]).1.reset
    let session (a b : Word) : Session := ⟨{ loaded with data := [a, b] }, .ofTokens [], #[]⟩
    let left (a b : Word) := (session a b).step.session.machine.data
    ∃ one other : Word, left (.literal 0x100000005) (.instruction 5 (some 0)) = [one] ∧
      left (.literal 5) (.literal 0x05000000) = [other] ∧ one.bits = 0x04FFFFFB ∧
        one.same other = true := by
  intro loaded session left
  obtain ⟨result, steps, bits, respects⟩ := sameness_is_sound.2.2.2.2 .sub _ .sub
  have current : loaded.currentOpcode = Opcode.sub.code := by decide +kernel
  clear_value loaded
  have leaves : ∀ a b : Word, left a b = [result b a] := by
    intro a b
    have stepped := steps (session a b) a b [] current rfl
    exact congrArg (·.session.machine.data) stepped
  refine ⟨_, _, leaves _ _, leaves _ _, (bits _ _).trans ?_, respects _ _ _ _ ?_ ?_⟩
  · decide
  · decide
  · decide

end StackMachine
