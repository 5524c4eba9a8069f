import StackMachine.Proofs.Concatenation
import StackMachine.Proofs.Items
import StackMachine.Proofs.Numerals
import StackMachine.Program.Listing

/-!
Disassembly undone. The lines that a program is shown as are program text again, up to the marks
that set off an address: read in, they give the words they were made from. The words that can be
had so are those of items that can be written, and no two such programs have the same lines.
-/

set_option autoImplicit false

namespace StackMachine

/-- The characters that set off an address where it is shown, and that no literal has. -/
def isAddressMark (c : Char) : Bool :=
  c == '[' || c == ':' || c == ']'

def withoutAddressMarks (line : String) : String :=
  .ofList (line.toList.filter (!isAddressMark ·))

/-- The line of a word as program text: the address in it, if there is one, loses its marks. -/
def Word.sourceLine (word : Word) (line : String) : String :=
  if word.operand?.isSome then withoutAddressMarks line else line

def sourceLines (words : List Word) : List String :=
  List.zipWith Word.sourceLine words (disassemble words)

def sourceText (words : List Word) : String :=
  "\n".intercalate (sourceLines words)

/-- The characters by which the lines of a disassembly are told apart. -/
def lineMarks : List Char :=
  ['[', ':', ']', '"', '?']

/-- A line without marks, as that of a mnemonic or of a number is. -/
def Unmarked (line : List Char) : Prop :=
  ∀ c ∈ line, c ∉ lineMarks

theorem filter_of_unmarked {line : List Char} (plain : Unmarked line) :
    line.filter (!isAddressMark ·) = line := by
  rw [List.filter_eq_self]
  intro c member
  have unmarked := plain c member
  simp only [lineMarks, List.mem_cons, List.not_mem_nil, not_or] at unmarked
  simp [isAddressMark, unmarked]

namespace Numeral

theorem notMem_lineMarks_of_isDigit {base : Nat} {c : Char} (digit : isDigit base c = true) :
    c ∉ lineMarks := by
  have apart : lineMarks.all (fun c => (digitValue? c).isNone) = true := by decide
  intro mark
  have absent := Option.isNone_iff_eq_none.mp (List.all_eq_true.mp apart c mark)
  simp [isDigit, absent] at digit

theorem unmarked_hexDigits (width n : Nat) : Unmarked (hexDigits width n) := by
  intro c member
  exact notMem_lineMarks_of_isDigit (List.all_eq_true.mp (all_isDigit_hexDigits width n) c member)

theorem unmarked_decimal (n : Int) : Unmarked (decimalDigits n) := by
  have digits : Unmarked (Nat.toDigits 10 n.natAbs) := by
    intro c member
    have all := all_isDigit_toDigits (by decide) readable_decimal n.natAbs
    rw [List.map_id] at all
    exact notMem_lineMarks_of_isDigit (List.all_eq_true.mp all c member)
  unfold decimalDigits
  split
  · intro c member
    rcases List.mem_cons.mp member with rfl | later
    · decide
    · exact digits c later
  · exact digits

end Numeral

namespace Opcode

theorem unmarked_mnemonic (operation : Opcode) : Unmarked operation.mnemonic.toList := by
  have plain : operation.mnemonic.toList.all (· ∉ lineMarks) = true := by
    cases operation <;> decide
  intro c member
  exact of_decide_eq_true (List.all_eq_true.mp plain c member)

theorem named_mnemonic (operation : Opcode) : operation.Named operation.mnemonic.toList := by
  have all : ∀ operation ∈ all, operation.mnemonic ∈ operation.spellings ∧
      Spells operation.mnemonic.toList operation.mnemonic := by decide
  exact ⟨_, all operation (mem_all operation)⟩

theorem code_ne_lit {operation : Opcode} (other : operation ≠ .lit) :
    (operation.code == Opcode.lit.code) = false := by
  rw [beq_eq_false_iff_ne]
  exact fun same => other (code_injective same)

end Opcode

theorem head?_ne_of_unmarked {front : List Char} (plain : Unmarked front) (nonempty : front ≠ [])
    (back : List Char) {c : Char} (mark : c ∈ lineMarks) : (front ++ back).head? ≠ some c := by
  cases front with
  | nil => exact absurd rfl nonempty
  | cons d front =>
    intro head
    cases head
    exact plain c (by simp) mark

theorem withoutAddressMarks_display (name : String) (operand : UInt16)
    (plain : Unmarked name.toList) :
    withoutAddressMarks (name ++ " " ++ (Address.unpack operand).display) =
      name ++ " " ++ .ofList (Address.operandDigits operand) := by
  apply String.toList_inj.mp
  simp only [withoutAddressMarks, String.toList_ofList, String.toList_append, List.filter_append,
    Address.display, Numeral.toList_hex, filter_of_unmarked plain,
    filter_of_unmarked (Numeral.unmarked_hexDigits _ _), Address.operandDigits]
  simp [isAddressMark]

namespace Item

/-- The lines of an item, said of the item itself. -/
def lines : Item → List String
  | text payload => ["\"" ++ payload ++ "\""]
  | plain operation => [operation.mnemonic]
  | addressed operation operand =>
    [operation.mnemonic ++ " " ++ (Address.unpack operand).display]
  | literal value => [Opcode.lit.mnemonic, value.reading true]

def source : Item → List String
  | addressed operation operand =>
    [operation.mnemonic ++ " " ++ .ofList (Address.operandDigits operand)]
  | item => item.lines

/-- Whatever follows an item, its words are shown as its lines: after them, no word is read as
data any more. -/
theorem disassemble_words {item : Item} (writable : item.Writable) (rest : List Word) :
    disassemble (item.words ++ rest) = item.lines ++ disassemble rest := by
  cases item with
  | text payload => rfl
  | plain operation =>
    have other := Opcode.code_ne_lit writable.1
    simp [words, lines, disassemble, Word.readings, Word.reading, Word.startsLiteral,
      Opcode.ofCode?_code, other]
  | addressed operation operand =>
    have other := Opcode.code_ne_lit writable.ne_lit
    simp [words, lines, disassemble, Word.readings, Word.reading, Word.startsLiteral,
      Opcode.ofCode?_code, other]
  | literal value =>
    simp [words, lines, disassemble, Word.readings, Word.reading, Word.startsLiteral,
      Opcode.ofCode?_code]

theorem disassemble_words_self {item : Item} (writable : item.Writable) :
    disassemble item.words = item.lines := by
  have shown := disassemble_words writable []
  simpa [disassemble, Word.readings] using shown

theorem sourceLines_words_self {item : Item} (writable : item.Writable) :
    sourceLines item.words = item.source := by
  rw [sourceLines, disassemble_words_self writable]
  cases item with
  | text payload => rfl
  | plain operation => rfl
  | addressed operation operand =>
    have digits := withoutAddressMarks_display operation.mnemonic operand
      (Opcode.unmarked_mnemonic operation)
    simp [words, lines, source, Word.sourceLine, Word.operand?, digits]
  | literal value =>
    cases value with
    | instruction code operand => exact absurd writable id
    | literal value => rfl
    | text payload => rfl

theorem sourceLines_words {item : Item} (writable : item.Writable) (rest : List Word) :
    sourceLines (item.words ++ rest) = item.source ++ sourceLines rest := by
  have length : item.words.length = item.lines.length := by
    rw [← disassemble_words_self writable]
    exact (Word.length_readings false item.words).symm
  rw [sourceLines, disassemble_words writable, List.zipWith_append length,
    ← disassemble_words_self writable, ← sourceLines, sourceLines_words_self writable, sourceLines]

theorem datum_reading {value : Word} (datum : value.IsDatum) :
    Datum Delimited [] (value.reading true).toList value := by
  have ended : Delimited [] := by simp [Delimited]
  cases value with
  | instruction code operand => exact absurd datum id
  | literal value =>
    refine .number ?_ ended
    rw [String.ofList_toList]
    exact Numeral.parse?_decimal value
  | text payload =>
    have closed : Datum Delimited [] ('"' :: payload.toList ++ ['"'])
        (.text (.ofList payload.toList)) := .text datum
    simpa [Word.reading] using closed

theorem delimited_cons {c : Char} (space : isSpace c = true) (rest : List Char) :
    Delimited (c :: rest) := by
  simp [Delimited, space]

theorem phrase_source {item : Item} (writable : item.Writable) :
    Phrase Delimited [] ("\n".intercalate item.source).toList item.words := by
  have ended : Delimited [] := by simp [Delimited]
  cases item with
  | text payload =>
    have closed : Phrase Delimited [] ('"' :: payload.toList ++ ['"'])
        [.text (.ofList payload.toList)] := .text writable
    simpa [source, lines, words] using closed
  | plain operation =>
    have phrase : Phrase Delimited [] operation.mnemonic.toList
        [.instruction operation.code none] :=
      .plain (Opcode.named_mnemonic operation) writable ended
    simpa [source, lines, words] using phrase
  | addressed operation operand =>
    have solid : ∀ c ∈ Address.operandDigits operand, isSpace c = false := by
      intro c member
      have digit := List.all_eq_true.mp (Address.all_isDigit_operandDigits operand) c member
      exact (Numeral.plain_of_isDigit digit).1
    have phrase : Phrase Delimited []
        (operation.mnemonic.toList ++ ([' '] ++ Address.operandDigits operand))
        [.instruction operation.code (some (Address.unpack operand).packed)] :=
      .addressed (Opcode.named_mnemonic operation) writable (delimited_cons (by decide) _)
        (.blank (by decide) .nil) solid (Address.parse_operandDigits operand) ended
    rw [Address.packed_unpack] at phrase
    simpa [source, words] using phrase
  | literal value =>
    have phrase : Phrase Delimited []
        (Opcode.lit.mnemonic.toList ++ (['\n'] ++ (value.reading true).toList))
        [.instruction Opcode.lit.code none, value] :=
      .literal (Opcode.named_mnemonic .lit) (delimited_cons (by decide) _)
        (.blank (by decide) .nil) (datum_reading writable)
    simpa [source, lines, words] using phrase

theorem source_ne_nil (item : Item) : item.source ≠ [] := by
  cases item <;> simp [source, lines]

end Item

/-- Both readings of a program are those of its items, one after the other. -/
theorem lines_flatMap {items : List Item} (writable : ∀ item ∈ items, item.Writable) :
    disassemble (items.flatMap Item.words) = items.flatMap Item.lines ∧
      sourceLines (items.flatMap Item.words) = items.flatMap Item.source := by
  induction items with
  | nil => exact ⟨rfl, rfl⟩
  | cons item rest ih =>
    have first := writable item (by simp)
    obtain ⟨shown, written⟩ := ih fun other member => writable other (by simp [member])
    simp only [List.flatMap_cons, Item.disassemble_words first, Item.sourceLines_words first,
      shown, written, and_self]

theorem assembleFrom_lines {items : List Item} (writable : ∀ item ∈ items, item.Writable)
    (line : Nat) :
    assembleFrom line ("\n".intercalate (items.flatMap Item.source)).toList =
      .ok (items.flatMap Item.words) := by
  induction items generalizing line with
  | nil => exact assembleFrom_gap .nil line
  | cons item rest ih =>
    have others : ∀ item ∈ rest, item.Writable :=
      fun other member => writable other (by simp [member])
    have alone : Source Delimited ("\n".intercalate item.source).toList item.words := by
      have phrase := Item.phrase_source (writable item (by simp))
      simpa using Source.phrase .nil (by simpa using phrase) (.done .nil)
    cases rest with
    | nil => simpa using assembleFrom_source alone line
    | cons next more =>
      have follows : (next :: more).flatMap Item.source ≠ [] := by
        simp [next.source_ne_nil]
      have text : ("\n".intercalate ((item :: next :: more).flatMap Item.source)).toList =
          ("\n".intercalate item.source).toList ++
            '\n' :: ("\n".intercalate ((next :: more).flatMap Item.source)).toList := by
        rw [List.flatMap_cons, String.intercalate_append_of_ne_nil item.source_ne_nil follows]
        simp
      rw [text, assembleFrom_append alone, ih others, List.flatMap_cons]
      rfl

theorem assemble_sourceText {items : List Item} (writable : ∀ item ∈ items, item.Writable) :
    assemble (sourceText (items.flatMap Item.words)) = .ok (items.flatMap Item.words) := by
  rw [assemble_eq, sourceText, (lines_flatMap writable).2]
  exact assembleFrom_lines writable 1

/-- The program text of a line, from the line alone: a quotation stands as it is, and any other line
loses the marks of an address. -/
def plainLine (line : String) : String :=
  if line.toList.head? = some '"' then line else withoutAddressMarks line

theorem plainLine_of_unmarked {line : String} (plain : Unmarked line.toList)
    (nonempty : line.toList ≠ []) : plainLine line = line := by
  have unquoted := head?_ne_of_unmarked plain nonempty [] (c := '"') (by decide)
  rw [List.append_nil] at unquoted
  rw [plainLine, if_neg unquoted, withoutAddressMarks, filter_of_unmarked plain,
    String.ofList_toList]

theorem plainLine_quotation (payload : String) :
    plainLine ("\"" ++ payload ++ "\"") = "\"" ++ payload ++ "\"" := by
  simp [plainLine]

theorem Opcode.mnemonic_ne_nil (operation : Opcode) : operation.mnemonic.toList ≠ [] := by
  have nonempty : ∀ operation ∈ all, operation.mnemonic.toList ≠ [] := by decide
  exact nonempty operation (mem_all operation)

theorem Numeral.decimalDigits_ne_nil (n : Int) : decimalDigits n ≠ [] := by
  unfold decimalDigits
  split <;> simp

namespace Item

/-- How a line is written as program text can be seen from the line, without the word. -/
theorem source_eq_map {item : Item} (writable : item.Writable) :
    item.source = item.lines.map plainLine := by
  have mnemonic : ∀ operation : Opcode, plainLine operation.mnemonic = operation.mnemonic := by
    intro operation
    exact plainLine_of_unmarked operation.unmarked_mnemonic operation.mnemonic_ne_nil
  cases item with
  | text payload => simp [source, lines, plainLine_quotation]
  | plain operation => simp [source, lines, mnemonic]
  | addressed operation operand =>
    have unquoted := head?_ne_of_unmarked operation.unmarked_mnemonic operation.mnemonic_ne_nil
      (" " ++ (Address.unpack operand).display).toList (c := '"') (by decide)
    rw [← String.toList_append, ← String.append_assoc] at unquoted
    rw [source, lines, List.map_singleton, plainLine, if_neg unquoted,
      withoutAddressMarks_display _ _ operation.unmarked_mnemonic]
  | literal value =>
    cases value with
    | instruction code operand => exact absurd writable id
    | literal value =>
      have number : plainLine (Numeral.decimal value.toInt) = Numeral.decimal value.toInt := by
        apply plainLine_of_unmarked
        · rw [Numeral.toList_decimal]
          exact Numeral.unmarked_decimal _
        · rw [Numeral.toList_decimal]
          exact Numeral.decimalDigits_ne_nil _
      simp [source, lines, mnemonic, Word.reading, Word.display, number]
    | text payload => simp [source, lines, mnemonic, Word.reading, plainLine_quotation]

/-- No line of an item starts as the line of an unknown instruction does. -/
theorem head?_lines {item : Item} (writable : item.Writable) :
    ∀ line ∈ item.lines, line.toList.head? ≠ some '?' := by
  have unmarked : ∀ {front : List Char}, Unmarked front → front ≠ [] → ∀ back : List Char,
      (front ++ back).head? ≠ some '?' :=
    fun plain nonempty back => head?_ne_of_unmarked plain nonempty back (by decide)
  have mnemonic : ∀ (operation : Opcode) (back : List Char),
      (operation.mnemonic.toList ++ back).head? ≠ some '?' :=
    fun operation => unmarked operation.unmarked_mnemonic operation.mnemonic_ne_nil
  intro line member
  cases item with
  | text payload =>
    rw [lines, List.mem_singleton] at member
    simp [member]
  | plain operation =>
    rw [lines, List.mem_singleton] at member
    simpa [member] using mnemonic operation []
  | addressed operation operand =>
    rw [lines, List.mem_singleton] at member
    rw [member, String.append_assoc, String.toList_append]
    exact mnemonic operation _
  | literal value =>
    rw [lines, List.mem_cons, List.mem_singleton] at member
    rcases member with rfl | rfl
    · simpa using mnemonic .lit []
    · cases value with
      | instruction code operand => exact absurd writable id
      | literal value =>
        rw [Word.reading, Word.display, Numeral.toList_decimal]
        simpa using unmarked (Numeral.unmarked_decimal _) (Numeral.decimalDigits_ne_nil _) []
      | text payload => simp [Word.reading]

end Item

/-- The words that some text stands for are the words of items that can be written. -/
theorem assembled_iff {words : List Word} :
    (∃ text, assemble text = .ok words) ↔
      ∃ items : List Item, (∀ item ∈ items, item.Writable) ∧ items.flatMap Item.words = words := by
  constructor
  · rintro ⟨text, assembled⟩
    obtain ⟨items, listed, rfl⟩ := map_eq_ok_iff.mp assembled
    exact ⟨items, Item.writable_of_list (fun _ => Lexeme.closed_of_mem) listed, rfl⟩
  · rintro ⟨items, writable, rfl⟩
    exact ⟨_, assemble_sourceText writable⟩

/-- The lines of a program determine the program text that is made of them. -/
theorem sourceText_eq {items : List Item} (writable : ∀ item ∈ items, item.Writable) :
    sourceText (items.flatMap Item.words) =
      "\n".intercalate ((disassemble (items.flatMap Item.words)).map plainLine) := by
  obtain ⟨shown, written⟩ := lines_flatMap writable
  have same : items.map Item.source = items.map fun item => item.lines.map plainLine :=
    List.map_congr_left fun item member => Item.source_eq_map (writable item member)
  rw [sourceText, shown, written, List.map_flatMap, List.flatMap_def, List.flatMap_def, same]

/-- Texts stand for the words of items that can be written, and for no other words. Such words are
shown in lines that are, without the marks of addresses, a text for the same words; none of these
lines is that of an unknown instruction, and other words have other lines. -/
theorem disassembly_inverts (words : List Word) :
    ((∃ text, assemble text = .ok words) ↔
      ∃ items : List Item, (∀ item ∈ items, item.Writable) ∧ items.flatMap Item.words = words) ∧
    ((∃ text, assemble text = .ok words) →
      assemble (sourceText words) = .ok words ∧ "???" ∉ disassemble words ∧
      ∀ other, (∃ text, assemble text = .ok other) → disassemble other = disassemble words →
        other = words) := by
  refine ⟨assembled_iff, ?_⟩
  intro assembled
  obtain ⟨items, writable, rfl⟩ := assembled_iff.mp assembled
  refine ⟨assemble_sourceText writable, ?_, ?_⟩
  · rw [(lines_flatMap writable).1]
    intro refusal
    obtain ⟨item, member, line⟩ := List.mem_flatMap.mp refusal
    exact Item.head?_lines (writable item member) _ line (by decide)
  · intro other assembledOther same
    obtain ⟨others, writableOthers, rfl⟩ := assembled_iff.mp assembledOther
    have text : sourceText (others.flatMap Item.words) = sourceText (items.flatMap Item.words) := by
      rw [sourceText_eq writableOthers, sourceText_eq writable, same]
    have read := assemble_sourceText writableOthers
    rw [text, assemble_sourceText writable] at read
    exact (Except.ok.inj read).symm

/-- A literal with the bits of `LIT`, a text with an open comment in it and an operand beyond the
end of a segment come back as they were. -/
theorem disassembly_inverts_literal :
    let words := [Word.instruction Opcode.lit.code none, .literal 0x11000000, .text "(\n\\",
      .instruction Opcode.store.code (some 0xFFFF)]
    disassemble words = ["LIT", "285212672", "\"(\n\\\"", "STORE [F:FFF]"] ∧
      assemble (sourceText words) = .ok words := by
  intro words
  have items : ∃ items : List Item,
      (∀ item ∈ items, item.Writable) ∧ items.flatMap Item.words = words := by
    refine ⟨[.literal (.literal 0x11000000), .text "(\n\\", .addressed .store 0xFFFF], ?_, rfl⟩
    intro item member
    simp only [List.mem_cons, List.not_mem_nil, or_false] at member
    rcases member with rfl | rfl | rfl
    · trivial
    · simp [Item.Writable]
    · rfl
  obtain ⟨texts, inverts⟩ := disassembly_inverts words
  exact ⟨by decide +kernel, (inverts (texts.mpr items)).1⟩

end StackMachine
