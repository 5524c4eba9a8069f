import StackMachine.Channel.Output
import StackMachine.Proofs.Numerals
import StackMachine.Proofs.TokenStream

/-!
What is printed can be read again. A text without blanks that is written on a line of its own is the
one token of that line. A word that is no text prints such a text, and as a token this is read as
the literal of the word's number, which has the 32 bits of the word.
-/

set_option autoImplicit false

namespace StackMachine

namespace Text

/-- A text that is one word: there is something in it, and nothing in it is blank. -/
structure IsWord (text : List Char) : Prop where
  nonempty : text ≠ []
  solid : ∀ c ∈ text, isBlank c = false

theorem IsWord.words_eq {text : List Char} (word : IsWord text) : words text = [text] := by
  have single : words (text ++ []) = text :: words [] :=
    words_append_of_solid word.nonempty word.solid (by simp)
  rw [List.append_nil] at single
  exact single

theorem isWord_of_digits (base : Nat) {digits : List Char} (nonempty : digits ≠ [])
    (all : digits.all (Numeral.isDigit base) = true) : IsWord digits := by
  refine ⟨nonempty, ?_⟩
  intro c member
  exact isBlank_of_isDigit (List.all_eq_true.mp all c member)

theorem IsWord.cons {c : Char} {text : List Char} (solid : isBlank c = false)
    (word : IsWord text) : IsWord (c :: text) := by
  refine ⟨List.cons_ne_nil c text, ?_⟩
  intro d member
  rcases List.mem_cons.mp member with rfl | later
  · exact solid
  · exact word.solid d later

end Text

namespace Numeral

theorem isWord_decimal (n : Int) : Text.IsWord (decimal n).toList := by
  have digits : Text.IsWord (Nat.toDigits 10 n.natAbs) := by
    apply Text.isWord_of_digits 10 (by simp)
    simpa using all_isDigit_toDigits (by decide) readable_decimal n.natAbs
  rw [toList_decimal, decimalDigits]
  split
  · exact digits.cons (by decide)
  · exact digits

theorem hexDigits_ne_nil (width n : Nat) : hexDigits width n ≠ [] := by
  simp [hexDigits]

theorem read?_hexDigits (width n : Nat) : read? 16 (hexDigits width n) = some n := by
  rw [read?, if_pos ⟨hexDigits_ne_nil width n, all_isDigit_hexDigits width n⟩, value_hexDigits]

end Numeral

namespace Word

variable {word : Word}

theorem toList_hexOfBits (bits : UInt32) :
    (hexOfBits bits).toList = '0' :: 'x' :: Numeral.hexDigits 8 bits.toNat := by
  rw [hexOfBits, String.toList_append, Numeral.toList_hex]
  rfl

/-- The form of 32 bits is read as their value, which is never negative in 64 bits. -/
theorem parse?_hexOfBits (bits : UInt32) :
    Numeral.parse? (hexOfBits bits) = some bits.toUInt64.toInt64 := by
  have small := bits.toNat_lt
  have value : bits.toUInt64.toInt64.toInt = bits.toNat := by
    have wide : bits.toUInt64.toInt64.toInt = Int.bmod (bits.toUInt64.toNat : Int) (2 ^ 64) :=
      BitVec.toInt_eq_toNat_bmod bits.toUInt64.toBitVec
    rw [wide, UInt32.toNat_toUInt64, Int.bmod_eq_of_le (by omega) (by omega)]
  have read : Numeral.hexadecimal? (hexOfBits bits).toList = some bits.toUInt64.toInt64 := by
    rw [toList_hexOfBits, Numeral.hexadecimal?]
    simp only [Numeral.afterHexMark?, true_or, if_true, Option.bind_some,
      Numeral.read?_hexDigits, ← value, Numeral.ofInt?_toInt]
  rw [Numeral.parse?, read]
  rfl

/-- The number of a word has the bits of the word, whether these are all of it or not. -/
theorem bits_literal_number (word : Word) : (literal word.number).bits = word.bits := by
  cases word with
  | literal value => rfl
  | instruction code operand =>
    change (bits (.instruction code operand)).toUInt64.toInt64.toUInt64.toUInt32 = _
    rw [UInt64.toUInt64_toInt64, UInt32.toUInt32_toUInt64]
  | text payload =>
    change (bits (.text payload)).toUInt64.toInt64.toUInt64.toUInt32 = _
    rw [UInt64.toUInt64_toInt64, UInt32.toUInt32_toUInt64]

theorem same_literal_number (plain : word.isText = false) :
    (literal word.number).same word = true := by
  cases word with
  | text payload => cases plain
  | literal value => exact beq_self_eq_true _
  | instruction code operand => exact beq_iff_eq.mpr (bits_literal_number _)

theorem isWord_display (plain : word.isText = false) : Text.IsWord word.display.toList := by
  cases word with
  | text payload => cases plain
  | literal value => exact Numeral.isWord_decimal value.toInt
  | instruction code operand =>
    have digits := Text.isWord_of_digits 16 (Numeral.hexDigits_ne_nil 8 _)
      (Numeral.all_isDigit_hexDigits 8 (bits (.instruction code operand)).toNat)
    change Text.IsWord (hexOfBits (bits (.instruction code operand))).toList
    rw [toList_hexOfBits]
    exact (digits.cons (by decide)).cons (by decide)

/-- What a word prints is read as the literal of its number, from decimal or from its form. -/
theorem ofToken_display (plain : word.isText = false) :
    ofToken word.display = .literal word.number := by
  cases word with
  | text payload => cases plain
  | literal value => simp only [ofToken, display, Numeral.parse?_decimal, number]
  | instruction code operand =>
    change ofToken (hexOfBits (bits (.instruction code operand))) = _
    rw [ofToken, parse?_hexOfBits]
    rfl

end Word

namespace Input

theorem toList_toUTF8 (text : String) : text.toUTF8.toList = encode text.toList := by
  have loop : ∀ (bytes : ByteArray) (place : Nat) (taken : List UInt8),
      ByteArray.toList.loop bytes place taken = taken.reverse ++ bytes.data.toList.drop place := by
    intro bytes place taken
    fun_induction ByteArray.toList.loop bytes place taken with
    | case1 place taken inside ih =>
      have below : place < bytes.data.toList.length := inside
      rw [ih, List.drop_eq_getElem_cons below]
      simp [ByteArray.get!, inside]
    | case2 place taken outside =>
      rw [List.drop_eq_nil_of_le (Nat.le_of_not_lt outside)]
      simp
  have bytes := congrArg (fun array => array.data.toList) (String.utf8Encode_toList (b := text))
  simp only [List.utf8Encode, List.toList_data_toByteArray] at bytes
  rw [String.toUTF8_eq_toByteArray, ByteArray.toList, loop, ← bytes]
  rfl

theorem answers_lineBytes {text : String} (word : Text.IsWord text.toList) (rest : List UInt8) :
    answers (Output.lineBytes text ++ rest) = .ok text :: answers rest := by
  have one : '\n' ∉ text.toList := by
    intro member
    exact absurd (word.solid '\n' member) (by decide)
  rw [Output.lineBytes, List.append_assoc, List.singleton_append, toList_toUTF8,
    answers_append (lineFeed_not_mem_encode one), lineAnswers_encode, word.words_eq]
  simp only [List.map_singleton, String.ofList_toList, List.singleton_append]

theorem answers_written {texts : List String} (words : ∀ text ∈ texts, Text.IsWord text.toList) :
    answers (Output.written none texts) = texts.map .ok := by
  rw [Output.written]
  induction texts with
  | nil => exact answers_nil
  | cons text rest ih =>
    have later : ∀ other ∈ rest, Text.IsWord other.toList :=
      fun other member => words other (List.mem_cons_of_mem text member)
    rw [List.flatMap_cons, answers_lineBytes (words text List.mem_cons_self), ih later,
      List.map_cons]

theorem reads_past_future (input : Input) (more : Nat) :
    input.reads (input.future.length + more) =
      input.future ++ List.replicate more (.error .inputExhausted) := by
  rw [reads_future, List.range_add, List.map_append, List.map_map]
  congr 1
  · apply List.ext_getElem
    · simp
    · intro place below _
      rw [List.length_map, List.length_range] at below
      simp [List.getD_eq_getElem?_getD, below]
  · rw [List.eq_replicate_iff]
    refine ⟨by simp, ?_⟩
    intro answer member
    obtain ⟨place, _, rfl⟩ := List.mem_map.mp member
    simp [List.getD_eq_getElem?_getD]

end Input

/-- Words that are no texts, printed each on a line of its own, are read from the bytes of these
lines as the literals of their numbers, in order and with none after them. Such a literal is the
same word as the one that was printed. -/
theorem printed_words_read_back (words : List Word)
    (plain : ∀ word ∈ words, word.isText = false) :
    (∀ more, ((Input.ofBytes (Output.written none (words.map Word.display))).reads
        (words.length + more)).map (Except.map Word.ofToken) =
      words.map (fun word => .ok (.literal word.number)) ++
        List.replicate more (.error .inputExhausted)) ∧
    ∀ word ∈ words, (Word.literal word.number).same word = true ∧
      (Word.literal word.number).hex = word.hex := by
  constructor
  · intro more
    have tokens : ∀ text ∈ words.map Word.display, Text.IsWord text.toList := by
      intro text member
      obtain ⟨word, present, rfl⟩ := List.mem_map.mp member
      exact Word.isWord_display (plain word present)
    have future : (Input.ofBytes (Output.written none (words.map Word.display))).future =
        words.map fun word => .ok word.display := by
      rw [Input.future_ofBytes, Input.answers_written tokens, List.map_map]
      rfl
    have reads := Input.reads_past_future (.ofBytes (Output.written none (words.map Word.display)))
      more
    rw [future, List.length_map] at reads
    rw [reads, List.map_append, List.map_map, List.map_replicate]
    congr 1
    apply List.map_congr_left
    intro word member
    exact congrArg Except.ok (Word.ofToken_display (plain word member))
  · intro word member
    refine ⟨Word.same_literal_number (plain word member), ?_⟩
    rw [Word.hex, Word.bits_literal_number, Word.hex]

/-- The least number of 64 bits and an instruction with an operand, which prints its form. Both are
read back as literals, and a third read fails. -/
theorem printed_words_read_back_least :
    let words := [Word.literal Int64.minValue, .instruction Opcode.call.code (some 0xF562)]
    (∀ word ∈ words, word.isText = false) ∧
      words.map Word.display = ["-9223372036854775808", "0x0FF56200"] ∧
      ((Input.ofBytes (Output.written none (words.map Word.display))).reads 3).map
          (Except.map Word.ofToken) =
        [.ok (.literal Int64.minValue), .ok (.literal 0x0FF56200), .error .inputExhausted] ∧
      (Word.literal 0x0FF56200).same (.instruction Opcode.call.code (some 0xF562)) = true := by
  intro words
  have plain : ∀ word ∈ words, word.isText = false := by decide
  obtain ⟨reads, same⟩ := printed_words_read_back words plain
  refine ⟨plain, by decide +kernel, reads 1, ?_⟩
  exact (same (.instruction Opcode.call.code (some 0xF562)) (by decide)).1

end StackMachine
