import StackMachine.Proofs.Echo
import StackMachine.Proofs.NumberText
import StackMachine.Proofs.Refusals

/-!
The texts that are addresses. An address is written in one to four hexadecimal digits, after an
optional mark and between blanks. The rule for its digits, that a fourth one is the segment, and the
packing of an operand are one reading: the address is the one in the operand that the digits write
as a plain number.
-/

set_option autoImplicit false

namespace StackMachine

namespace Text

variable {front core back : List Char}

theorem exists_trim (text : List Char) :
    ∃ front back, text = front ++ (trim text ++ back) ∧ front.all isBlank = true ∧
      back.all isBlank = true := by
  refine ⟨text.takeWhile isBlank, ((text.dropWhile isBlank).reverse.takeWhile isBlank).reverse,
    ?_, List.all_takeWhile, ?_⟩
  · rw [trim, ← List.reverse_append, List.takeWhile_append_dropWhile, List.reverse_reverse,
      List.takeWhile_append_dropWhile]
  · rw [List.all_reverse]
    exact List.all_takeWhile

/-- Blanks before a word are passed over, and nothing else is. -/
theorem IsWord.dropWhile_eq (word : IsWord core) (before : front.all isBlank = true) :
    (front ++ (core ++ back)).dropWhile isBlank = core ++ back := by
  rw [List.dropWhile_append_of_pos (List.all_eq_true.mp before)]
  cases core with
  | nil => exact absurd rfl word.nonempty
  | cons c rest => exact List.dropWhile_cons_of_neg (by simp [word.solid c])

theorem IsWord.reverse (word : IsWord core) : IsWord core.reverse := by
  refine ⟨by simpa using word.nonempty, ?_⟩
  intro c member
  exact word.solid c (List.mem_reverse.mp member)

theorem IsWord.trim_eq (word : IsWord core) (before : front.all isBlank = true)
    (after : back.all isBlank = true) : trim (front ++ (core ++ back)) = core := by
  have blank : back.reverse.all isBlank = true := by rwa [List.all_reverse]
  have last := @IsWord.dropWhile_eq back.reverse core.reverse [] word.reverse blank
  rw [List.append_nil] at last
  rw [trim, word.dropWhile_eq before, List.reverse_append, last, List.reverse_reverse]

end Text

namespace Numeral

/-- The digits in front count as often as the places behind them say. -/
theorem value_append (base : Nat) (front back : List Char) :
    value base (front ++ back) = base ^ back.length * value base front + value base back := by
  induction back using List.reverseRecOn with
  | nil => simp [value]
  | append_singleton back c ih =>
    rw [← List.append_assoc, value_concat, ih, value_concat, List.length_append,
      List.length_singleton, Nat.pow_succ]
    ring

theorem value_of_read? {base n : Nat} {digits : List Char} (read : read? base digits = some n) :
    value base digits = n := by
  unfold read? at read
  split at read
  · exact Option.some.inj read
  · contradiction

theorem digitValue?_toUpper (c : Char) : digitValue? c.toUpper = digitValue? c := by
  by_cases ascii : c.toNat < 128
  · -- Beyond these, no character changes with the letter case.
    have table : ∀ n < 128, digitValue? (Char.ofNat n).toUpper = digitValue? (Char.ofNat n) := by
      decide +kernel
    have row := table c.toNat ascii
    rwa [Char.ofNat_toNat] at row
  · have unchanged : c.toUpper = c := by
      apply dif_neg
      rintro ⟨_, upper⟩
      have order : c.toNat ≤ 'z'.toNat := upper
      exact ascii (Nat.lt_of_le_of_lt order (by decide))
    rw [unchanged]

theorem read?_map_toUpper (base : Nat) (digits : List Char) :
    read? base (digits.map Char.toUpper) = read? base digits := by
  have digit : isDigit base ∘ Char.toUpper = isDigit base := by
    funext c
    rw [Function.comp_apply, isDigit, digitValue?_toUpper, isDigit]
  have number : value base (digits.map Char.toUpper) = value base digits := by
    simp only [value, List.foldl_map, digitValue?_toUpper]
  simp only [read?, List.all_map, digit, number, ne_eq, List.map_eq_nil_iff]

end Numeral

namespace Address

def hexMarks : List (List Char) :=
  [[], ['0', 'x'], ['0', 'X']]

/-- A text that is an address, and the number that its digits write: there are one to four of them,
after an optional mark, and nothing else but blanks before and after. -/
inductive Literal : List Char → Nat → Prop
  | intro {front mark digits back : List Char} {n : Nat} (before : front.all Text.isBlank = true)
      (marked : mark ∈ hexMarks) (short : digits.length ≤ 4)
      (denoted : Numeral.Denotes 16 digits n) (after : back.all Text.isBlank = true) :
      Literal (front ++ (mark ++ digits ++ back)) n

variable {text digits mark : List Char} {n : Nat}

theorem hexMarks_cases (marked : mark ∈ hexMarks) :
    mark = [] ∨ mark = ['0', 'x'] ∨ mark = ['0', 'X'] := by
  simpa [hexMarks] using marked

theorem isWord_literal (marked : mark ∈ hexMarks) (read : Numeral.read? 16 digits = some n) :
    Text.IsWord (mark ++ digits) := by
  have word : Text.IsWord digits :=
    Text.isWord_of_digits 16 (Numeral.bare_of_read? read).nonempty
      (Numeral.all_isDigit_of_read? read)
  rcases hexMarks_cases marked with rfl | rfl | rfl
  · exact word
  · exact (word.cons (by decide)).cons (by decide)
  · exact (word.cons (by decide)).cons (by decide)

/-- The mark is told from the digits: it has a letter that is none of them. -/
theorem literalDigits?_append (marked : mark ∈ hexMarks) (short : digits.length ≤ 4)
    (read : Numeral.read? 16 digits = some n) : literalDigits? (mark ++ digits) = some digits := by
  have all := Numeral.all_isDigit_of_read? read
  have nonempty : digits ≠ [] := (Numeral.bare_of_read? read).nonempty
  have found : (Numeral.afterHexMark? (mark ++ digits)).getD (mark ++ digits) = digits := by
    rcases hexMarks_cases marked with rfl | rfl | rfl
    · rw [List.nil_append, Numeral.afterHexMark?_of_digits all, Option.getD_none]
    · rfl
    · rfl
  rw [literalDigits?, found]
  exact if_pos ⟨nonempty, short, all⟩

/-- Digits that are found stand after an optional mark, and fill the rest of the text. -/
theorem exists_mark (found : literalDigits? text = some digits) :
    ∃ mark ∈ hexMarks, text = mark ++ digits ∧ digits.length ≤ 4 ∧
      Numeral.read? 16 digits = some (Numeral.value 16 digits) := by
  simp only [literalDigits?] at found
  split at found
  · rename_i shape
    cases marked : Numeral.afterHexMark? text with
    | none =>
      rw [marked, Option.getD_none] at shape found
      cases found
      exact ⟨[], by decide, rfl, shape.2.1, if_pos ⟨shape.1, shape.2.2⟩⟩
    | some rest =>
      rw [marked, Option.getD_some] at shape found
      cases found
      obtain ⟨letter, rfl, known⟩ := Numeral.afterHexMark?_eq_some marked
      refine ⟨['0', letter], ?_, rfl, shape.2.1, if_pos ⟨shape.1, shape.2.2⟩⟩
      rcases known with rfl | rfl <;> decide
  · contradiction

/-- The digit of the segment counts 4096 times, since three digits follow it. -/
theorem exists_ofDigits (short : digits.length ≤ 4) :
    ∃ segment < 16, ∃ offset < 4096, ofDigits digits = ⟨.ofNat segment, .ofNat offset⟩ ∧
      Numeral.value 16 digits = 4096 * segment + offset := by
  by_cases long : 3 < digits.length
  · have one : (digits.take 1).length = 1 := by
      rw [List.length_take]
      omega
    have three : (digits.drop 1).length = 3 := by
      rw [List.length_drop]
      omega
    have whole : digits.take 1 ++ digits.drop 1 = digits := List.take_append_drop 1 digits
    refine ⟨Numeral.value 16 (digits.take 1),
      Numeral.value_lt_of_length_le_one (Nat.le_of_eq one), Numeral.value 16 (digits.drop 1),
      Numeral.value_lt_of_length_le_three (Nat.le_of_eq three), ?_, ?_⟩
    · rw [← ofDigits_append one three, whole]
    · have places := Numeral.value_append 16 (digits.take 1) (digits.drop 1)
      rwa [whole, three] at places
  · refine ⟨0, by decide, Numeral.value 16 digits,
      Numeral.value_lt_of_length_le_three (Nat.le_of_not_lt long), ?_, ?_⟩
    · simp only [ofDigits, if_neg long, List.length_nil, List.drop_zero]
      rfl
    · rw [Nat.mul_zero, Nat.zero_add]

theorem eq_unpack {address : Address} {operand : UInt16}
    (segment : address.segment.toNat = operand.toNat / 4096)
    (offset : address.offset.toNat = operand.toNat % 4096) : address = unpack operand := by
  rw [← segment_unpack] at segment
  rw [← offset_unpack] at offset
  cases address
  exact congrArg₂ Address.mk (UInt8.toNat_inj.mp segment) (UInt16.toNat_inj.mp offset)

theorem ofDigits_eq_unpack (short : digits.length ≤ 4) :
    ∃ operand : UInt16, operand.toNat = Numeral.value 16 digits ∧
      ofDigits digits = unpack operand := by
  obtain ⟨segment, upper, offset, lower, address, number⟩ := exists_ofDigits short
  have written : (UInt16.ofNat (Numeral.value 16 digits)).toNat = Numeral.value 16 digits := by
    rw [UInt16.toNat_ofNat', Nat.mod_eq_of_lt]
    omega
  refine ⟨_, written, ?_⟩
  rw [address]
  apply eq_unpack
  · rw [written, number, UInt8.toNat_ofNat']
    omega
  · rw [written, number, UInt16.toNat_ofNat']
    omega

theorem pack_unpack (operand : UInt16) : (unpack operand).pack = .ok operand := by
  have upper := operand.toNat_lt
  have segment := segment_unpack operand
  have offset := offset_unpack operand
  have fits : (unpack operand).segment.toNat < maxSegments ∧ (unpack operand).offset ≤ 0xFFF := by
    rw [UInt16.le_iff_toNat_le, segment, offset]
    simp only [maxSegments, UInt16.reduceToNat]
    omega
  rw [pack, if_pos fits]
  exact congrArg Except.ok (packed_unpack operand)

/-- A literal is read as the address in the operand that its digits write. -/
theorem Literal.parse_eq (literal : Literal text n) :
    ∃ operand : UInt16, operand.toNat = n ∧ parse (.ofList text) = .ok (unpack operand) := by
  cases literal with
  | @intro front mark digits back _ before marked short denoted after =>
    have read := (Numeral.read?_eq_some_iff (by decide)).mpr denoted
    have core := (isWord_literal marked read).trim_eq before after
    obtain ⟨operand, number, address⟩ := ofDigits_eq_unpack short
    refine ⟨operand, number.trans (Numeral.value_of_read? read),
      parse_eq_ok_iff.mpr ⟨digits, ?_, address⟩⟩
    rw [String.toList_ofList, core]
    exact literalDigits?_append marked short read

theorem exists_literal {text : String} {address : Address} (parsed : parse text = .ok address) :
    ∃ n, Literal text.toList n := by
  obtain ⟨digits, found, _⟩ := parse_eq_ok_iff.mp parsed
  obtain ⟨mark, marked, core, short, read⟩ := exists_mark found
  obtain ⟨front, back, whole, before, after⟩ := Text.exists_trim text.toList
  have denoted := (Numeral.read?_eq_some_iff (by decide)).mp read
  rw [whole, core]
  exact ⟨_, .intro before marked short denoted after⟩

theorem spells_hexDigits {shape : Char → Char}
    (recased : ∀ d < 16, (shape (Nat.digitChar d).toUpper).toUpper = (Nat.digitChar d).toUpper)
    (width n : Nat) : Spells ((Numeral.hexDigits width n).map shape) (Numeral.hex width n) := by
  have same : ∀ c ∈ Numeral.hexDigits width n, (Char.toUpper ∘ shape) c = id c := by
    intro c member
    rw [Numeral.hexDigits, List.mem_append] at member
    rcases member with zero | digit
    · rw [List.eq_of_mem_replicate zero]
      exact recased 0 (by decide)
    · obtain ⟨c, written, rfl⟩ := List.mem_map.mp digit
      obtain ⟨d, small, rfl⟩ := Numeral.mem_toDigits (by decide) written
      exact recased d small
  rw [Spells, Numeral.toList_hex, List.map_map, List.map_congr_left same, List.map_id]

theorem literal_of_spells {operand : UInt16} (marked : mark ∈ hexMarks)
    (spelled : Spells digits (Numeral.hex 4 operand.toNat)) :
    Literal (mark ++ digits) operand.toNat := by
  rw [Spells, Numeral.toList_hex] at spelled
  have four : digits.length = 4 := by
    rw [← List.length_map Char.toUpper, spelled]
    exact Numeral.length_hexDigits (by decide) operand.toNat_lt
  have read : Numeral.read? 16 digits = some operand.toNat := by
    rw [← Numeral.read?_map_toUpper, spelled, Numeral.read?_hexDigits]
  have denoted := (Numeral.read?_eq_some_iff (by decide)).mp read
  have literal := @Literal.intro [] mark digits [] _ rfl marked (Nat.le_of_eq four) denoted rfl
  rwa [List.append_nil, List.nil_append] at literal

/-- A text is read as an address exactly if it is a literal, and then as that of the operand which
its digits write as a plain number. Every operand is so written, in any letter case and with any
mark; any other text is refused as it came. -/
theorem literal_reads_as_operand :
    (∀ text : String,
      ((∃ address, parse text = .ok address) ↔ ∃ n, Literal text.toList n) ∧
      (∀ n, Literal text.toList n → ∃ operand : UInt16, operand.toNat = n ∧
        parse text = .ok (unpack operand) ∧ (unpack operand).pack = .ok operand) ∧
      ((¬ ∃ n, Literal text.toList n) → parse text = .error (.malformedAddress text))) ∧
    ∀ operand : UInt16,
      let digits := Numeral.hexDigits 4 operand.toNat
      Spells digits (Numeral.hex 4 operand.toNat) ∧
      Spells (digits.map Char.toLower) (Numeral.hex 4 operand.toNat) ∧
      ∀ mark ∈ hexMarks, ∀ spelling, Spells spelling (Numeral.hex 4 operand.toNat) →
        parse (.ofList (mark ++ spelling)) = .ok (unpack operand) := by
  refine ⟨?_, ?_⟩
  · intro text
    have reads : ∀ n, Literal text.toList n → ∃ operand : UInt16, operand.toNat = n ∧
        parse text = .ok (unpack operand) ∧ (unpack operand).pack = .ok operand := by
      intro n literal
      obtain ⟨operand, number, parsed⟩ := literal.parse_eq
      rw [String.ofList_toList] at parsed
      exact ⟨operand, number, parsed, pack_unpack operand⟩
    refine ⟨⟨?_, ?_⟩, reads, ?_⟩
    · rintro ⟨address, parsed⟩
      exact exists_literal parsed
    · rintro ⟨n, literal⟩
      obtain ⟨operand, _, parsed, _⟩ := reads n literal
      exact ⟨_, parsed⟩
    · intro other
      apply parse_eq_error_iff.mpr
      refine ⟨?_, rfl⟩
      intro address parsed
      exact other (exists_literal parsed)
  · intro operand digits
    have upper := @spells_hexDigits id (by decide) 4 operand.toNat
    rw [List.map_id] at upper
    refine ⟨upper, spells_hexDigits (by decide) 4 operand.toNat, ?_⟩
    intro mark marked spelling spelled
    obtain ⟨same, number, parsed⟩ := (literal_of_spells marked spelled).parse_eq
    rwa [UInt16.toNat_inj.mp number] at parsed

/-- Three digits between blanks that are not ASCII, five digits, which are too many, and an operand
in mixed letter case. -/
theorem literal_reads_as_operand_mixed :
    (∃ operand : UInt16, operand.toNat = 0x1A3 ∧
      parse "\u2003\u00851a3\n" = .ok (unpack operand) ∧ (unpack operand).pack = .ok operand) ∧
    parse "0x12345" = .error (.malformedAddress "0x12345") ∧
    parse (.ofList (['0', 'X'] ++ ['f', 'F', '0', 'b'])) = .ok (unpack 0xFF0B) := by
  refine ⟨?_, ?_, ?_⟩
  · apply (literal_reads_as_operand.1 "\u2003\u00851a3\n").2.1 0x1A3
    exact @Literal.intro ['\u2003', '\u0085'] [] ['1', 'a', '3'] ['\n'] _ (by decide)
      (by decide) (by decide) ⟨by decide, [1, 10, 3], by decide, by decide, by decide⟩ (by decide)
  · have unread : literalDigits? (Text.trim "0x12345".toList) = none := by decide
    apply (literal_reads_as_operand.1 "0x12345").2.2
    rw [← (literal_reads_as_operand.1 "0x12345").1]
    rintro ⟨address, parsed⟩
    obtain ⟨digits, found, _⟩ := parse_eq_ok_iff.mp parsed
    rw [unread] at found
    contradiction
  · apply (literal_reads_as_operand.2 0xFF0B).2.2 ['0', 'X'] (by decide)
    decide

end Address

end StackMachine
