import StackMachine.Program.Assembly
import StackMachine.Proofs.Lexing

/-!
The spellings of names, numbers and addresses. Whatever is read as one of them is a bare token: it
holds no blank of program text, and nothing in it starts a comment or a quotation.
-/

set_option autoImplicit false

namespace StackMachine

theorem isSpace_cases {c : Char} (space : isSpace c = true) :
    c = ' ' ∨ c = '\t' ∨ c = '\r' ∨ c = '\n' := by
  simpa [isSpace, or_assoc] using space

theorem isOpening_cases {c : Char} (opens : isOpening c = true) :
    c = '"' ∨ c = '(' ∨ c = '\\' := by
  simpa [isOpening, or_assoc] using opens

/-- The characters that are blank or with which a comment or a quotation starts. -/
def marks : List Char :=
  [' ', '\t', '\r', '\n', '"', '(', '\\']

/-- A test that no mark passes is passed by plain characters only. -/
theorem plain_of_test (test : Char → Bool) {c : Char} (passed : test c = true)
    (apart : marks.any test = false) : isSpace c = false ∧ isOpening c = false := by
  have unmarked : c ∉ marks := by
    intro member
    exact List.any_eq_false.mp apart c member passed
  constructor
  · rw [← Bool.not_eq_true]
    intro space
    apply unmarked
    rcases isSpace_cases space with rfl | rfl | rfl | rfl <;> decide
  · rw [← Bool.not_eq_true]
    intro opens
    apply unmarked
    rcases isOpening_cases opens with rfl | rfl | rfl <;> decide

theorem Bare.cons {c : Char} {name : List Char} (first : isSpace c = false ∧ isOpening c = false)
    (bare : Bare name) : Bare (c :: name) := by
  refine ⟨by simp, ?_⟩
  intro d member
  rcases List.mem_cons.mp member with rfl | later
  · exact first
  · exact bare.plain d later

/-- A name that is the given spelling up to the case of its ASCII letters. -/
def Spells (name : List Char) (spelling : String) : Prop :=
  name.map Char.toUpper = spelling.toList

instance (name : List Char) (spelling : String) : Decidable (Spells name spelling) :=
  inferInstanceAs (Decidable (name.map Char.toUpper = spelling.toList))

theorem spells_iff {name spelling : String} :
    Text.spells name spelling = true ↔ Spells name.toList spelling := by
  simp [Text.spells, Spells]

/-- The spelling decides what characters a name has. -/
theorem Spells.bare {name : List Char} {spelling : String} (spelled : Spells name spelling)
    (nonempty : spelling.toList ≠ []) (apart : marks.any (spelling.toList.contains ·) = false) :
    Bare name := by
  constructor
  · rintro rfl
    exact nonempty spelled.symm
  · intro c member
    have upper : c.toUpper ∈ spelling.toList := by
      rw [← spelled]
      exact List.mem_map_of_mem member
    -- Marks have no letter case, so the test of their upper case is the test of themselves.
    exact plain_of_test (spelling.toList.contains ·.toUpper) (by simpa using upper) apart

namespace Opcode

/-- A name of an operation, in any ASCII letter case. -/
def Named (operation : Opcode) (name : List Char) : Prop :=
  ∃ spelling ∈ operation.spellings, Spells name spelling

/-- No spelling names two operations. -/
theorem find?_spelling : ∀ operation ∈ all, ∀ spelling ∈ operation.spellings,
    (all.find? fun other => other.spellings.any (spelling.toList == ·.toList)) =
      some operation := by
  decide

theorem ofMnemonic?_eq_some_iff {name : String} {operation : Opcode} :
    ofMnemonic? name = some operation ↔ operation.Named name.toList := by
  constructor
  · intro found
    have spelled := List.find?_some found
    obtain ⟨spelling, member, spelled⟩ := List.any_eq_true.mp spelled
    exact ⟨spelling, member, spells_iff.mp spelled⟩
  · rintro ⟨spelling, member, spelled⟩
    have unique := find?_spelling operation (mem_all operation) spelling member
    rw [← spelled] at unique
    exact unique

theorem ofMnemonic_eq_ok_iff {name : String} {operation : Opcode} :
    ofMnemonic name = .ok operation ↔ operation.Named name.toList := by
  rw [← ofMnemonic?_eq_some_iff, ofMnemonic]
  split <;> simp_all

theorem Named.bare {operation : Opcode} {name : List Char} (named : operation.Named name) :
    Bare name := by
  obtain ⟨spelling, member, spelled⟩ := named
  have plain : ∀ operation ∈ all, ∀ spelling ∈ operation.spellings,
      spelling.toList ≠ [] ∧ marks.any (spelling.toList.contains ·) = false := by
    decide
  obtain ⟨nonempty, apart⟩ := plain operation (mem_all operation) spelling member
  exact spelled.bare nonempty apart

end Opcode

namespace Numeral

theorem plain_of_isDigit {base : Nat} {c : Char} (digit : isDigit base c = true) :
    isSpace c = false ∧ isOpening c = false := by
  have known : (digitValue? c).isSome = true := by
    rw [Option.isSome_iff_ne_none]
    intro absent
    simp [isDigit, absent] at digit
  exact plain_of_test (digitValue? · |>.isSome) known (by decide)

theorem bare_of_read? {base n : Nat} {digits : List Char} (read : read? base digits = some n) :
    Bare digits := by
  simp only [read?] at read
  split at read
  · rename_i shape
    refine ⟨shape.1, ?_⟩
    intro c member
    exact plain_of_isDigit (List.all_eq_true.mp shape.2 c member)
  · contradiction

theorem afterHexMark?_eq_some {text digits : List Char}
    (marked : afterHexMark? text = some digits) :
    ∃ mark, text = '0' :: mark :: digits ∧ (mark = 'x' ∨ mark = 'X') := by
  unfold afterHexMark? at marked
  split at marked
  · rename_i mark rest
    split at marked
    · rename_i known
      cases marked
      exact ⟨mark, rfl, known⟩
    · contradiction
  · contradiction

theorem bare_of_hexMark {text digits : List Char} (marked : afterHexMark? text = some digits)
    (bare : Bare digits) : Bare text := by
  obtain ⟨mark, rfl, rfl | rfl⟩ := afterHexMark?_eq_some marked
  · exact (bare.cons (by decide)).cons (by decide)
  · exact (bare.cons (by decide)).cons (by decide)

theorem bare_of_parse? {text : String} {value : Int64} (parsed : parse? text = some value) :
    Bare text.toList := by
  simp only [parse?, Option.orElse_eq_orElse, Option.orElse_eq_or, Option.or_eq_some_iff] at parsed
  rcases parsed with marked | ⟨_, unmarked⟩
  · obtain ⟨digits, found, read⟩ := Option.bind_eq_some_iff.mp marked
    obtain ⟨n, read, _⟩ := Option.bind_eq_some_iff.mp read
    exact bare_of_hexMark found (bare_of_read? read)
  · unfold decimal? at unmarked
    split at unmarked
    · rename_i digits whole
      obtain ⟨n, read, _⟩ := Option.bind_eq_some_iff.mp unmarked
      rw [whole]
      exact (bare_of_read? read).cons (by decide)
    · rename_i digits whole
      obtain ⟨n, read, _⟩ := Option.bind_eq_some_iff.mp unmarked
      rw [whole]
      exact (bare_of_read? read).cons (by decide)
    · obtain ⟨n, read, _⟩ := Option.bind_eq_some_iff.mp unmarked
      exact bare_of_read? read

/-- The digits of base ten are the ASCII ones. -/
theorem isDigit_ten_iff {c : Char} : isDigit 10 c = true ↔ '0' ≤ c ∧ c ≤ '9' := by
  unfold isDigit digitValue?
  by_cases decimal : '0' ≤ c ∧ c ≤ '9'
  · have upper : c.toNat ≤ '9'.toNat := decimal.2
    have nine : '9'.toNat = 57 := rfl
    have zero : '0'.toNat = 48 := rfl
    simp only [decimal, and_self, if_true, Option.any_some, decide_eq_true_eq, iff_true]
    omega
  · simp only [decimal, if_false, iff_false]
    split
    · simp
    · split <;> simp

theorem toUpper_of_isDigit {c : Char} (digit : isDigit 10 c = true) : c.toUpper = c := by
  have upper : c.toNat ≤ '9'.toNat := (isDigit_ten_iff.mp digit).2
  apply dif_neg
  intro small
  have letter : 'a'.toNat ≤ c.toNat := small.1
  exact absurd (Nat.le_trans letter upper) (by decide)

/-- A number starts with a decimal digit or a sign. -/
theorem parse?_of_first {c : Char} {name : List Char} (unsigned : c ≠ '+' ∧ c ≠ '-')
    (first : isDigit 10 c = false) : parse? (.ofList (c :: name)) = none := by
  have marked : c ≠ '0' := by
    rintro rfl
    exact absurd first (by decide)
  have hex : hexadecimal? (c :: name) = none := by
    simp [hexadecimal?, afterHexMark?, marked]
  have decimal : decimal? (c :: name) = none := by
    simp [decimal?, unsigned, read?, first]
  simp [parse?, hex, decimal]

/-- No number is spelled as a name that starts with a letter. -/
theorem parse?_of_spells {name rest : List Char} {spelling : String} {letter : Char}
    (spelled : Spells name spelling) (whole : spelling.toList = letter :: rest)
    (unsigned : letter ≠ '+' ∧ letter ≠ '-') (first : isDigit 10 letter = false) :
    parse? (.ofList name) = none := by
  rw [Spells, whole, List.map_eq_cons_iff] at spelled
  obtain ⟨c, later, rfl, rfl, _⟩ := spelled
  refine parse?_of_first ⟨?_, ?_⟩ ?_
  · rintro rfl
    exact unsigned.1 rfl
  · rintro rfl
    exact unsigned.2 rfl
  · rw [← Bool.not_eq_true]
    intro digit
    rw [toUpper_of_isDigit digit, digit] at first
    contradiction

theorem digit_lt (c : Char) : (digitValue? c).getD 0 < 16 := by
  have range : ∀ {low high : Char} {n : Nat}, low ≤ c ∧ c ≤ high → high.toNat < low.toNat + n →
      c.toNat - low.toNat < n := by
    intro low high n between width
    have lower : low.toNat ≤ c.toNat := between.1
    have upper : c.toNat ≤ high.toNat := between.2
    omega
  unfold digitValue?
  split
  · rename_i between
    exact Nat.lt_of_lt_of_le (range (n := 10) between (by decide)) (by decide)
  · split
    · rename_i between
      exact Nat.add_lt_add_right (range (n := 6) between (by decide)) 10
    · split
      · rename_i between
        exact Nat.add_lt_add_right (range (n := 6) between (by decide)) 10
      · decide

theorem value_lt_of_length_le_one {digits : List Char} (short : digits.length ≤ 1) :
    value 16 digits < 16 := by
  rcases digits with _ | ⟨a, _ | ⟨b, more⟩⟩
  · decide
  · simpa [value] using digit_lt a
  · simp at short

theorem value_lt_of_length_le_three {digits : List Char} (short : digits.length ≤ 3) :
    value 16 digits < 4096 := by
  rcases digits with _ | ⟨a, _ | ⟨b, _ | ⟨c, _ | ⟨d, more⟩⟩⟩⟩
  · decide
  · have first := digit_lt a
    simp only [value, List.foldl_cons, List.foldl_nil]
    omega
  · have first := digit_lt a
    have second := digit_lt b
    simp only [value, List.foldl_cons, List.foldl_nil]
    omega
  · have first := digit_lt a
    have second := digit_lt b
    have third := digit_lt c
    simp only [value, List.foldl_cons, List.foldl_nil]
    omega
  · simp only [List.length_cons] at short
    omega

end Numeral

namespace Text

theorem mem_trim {c : Char} {text : List Char} (member : c ∈ text) :
    isBlank c = true ∨ c ∈ trim text := by
  have split : ∀ {list : List Char}, c ∈ list →
      isBlank c = true ∨ c ∈ list.dropWhile isBlank := by
    intro list member
    rw [← List.takeWhile_append_dropWhile (p := isBlank) (l := list), List.mem_append] at member
    rcases member with front | back
    · exact .inl (List.all_eq_true.mp List.all_takeWhile c front)
    · exact .inr back
  rcases split member with blank | later
  · exact .inl blank
  · rcases split (List.mem_reverse.mpr later) with blank | kept
    · exact .inl blank
    · exact .inr (List.mem_reverse.mpr kept)

end Text

namespace Address

theorem literalDigits?_eq_some {text digits : List Char}
    (found : literalDigits? text = some digits) :
    Bare text ∧ digits.length ≤ 4 := by
  simp only [literalDigits?] at found
  split at found
  · rename_i shape
    cases found
    have bare : Bare ((Numeral.afterHexMark? text).getD text) := by
      refine ⟨shape.1, ?_⟩
      intro c member
      exact Numeral.plain_of_isDigit (List.all_eq_true.mp shape.2.2 c member)
    refine ⟨?_, shape.2.1⟩
    cases marked : Numeral.afterHexMark? text with
    | none => simpa [marked] using bare
    | some digits => exact Numeral.bare_of_hexMark marked (by simpa [marked] using bare)
  · contradiction

theorem parse_eq_ok_iff {text : String} {address : Address} :
    parse text = .ok address ↔
      ∃ digits, literalDigits? (Text.trim text.toList) = some digits ∧
        ofDigits digits = address := by
  rw [parse]
  split <;> simp_all

/-- An address that holds no blank of program text is a bare token. Other blanks may be in it. -/
theorem bare_of_parse {text : String} {address : Address} (parsed : parse text = .ok address)
    (solid : ∀ c ∈ text.toList, isSpace c = false) : Bare text.toList := by
  obtain ⟨digits, found, _⟩ := parse_eq_ok_iff.mp parsed
  have inner := (literalDigits?_eq_some found).1
  constructor
  · intro empty
    rw [empty] at inner
    exact inner.nonempty rfl
  · intro c member
    refine ⟨solid c member, ?_⟩
    rcases Text.mem_trim member with blank | kept
    · rw [← Bool.not_eq_true]
      intro opens
      rcases isOpening_cases opens with rfl | rfl | rfl <;> revert blank <;> decide
    · exact (inner.plain c kept).2

/-- The sixteen bits of an address: four of segment above twelve of offset. -/
def packed (address : Address) : UInt16 :=
  address.segment.toUInt16 <<< 12 ||| address.offset

theorem pack_ofDigits {digits : List Char} (short : digits.length ≤ 4) :
    (ofDigits digits).pack = .ok (ofDigits digits).packed := by
  have segment : Numeral.value 16 (if 3 < digits.length then digits.take 1 else []) < 16 := by
    apply Numeral.value_lt_of_length_le_one
    split
    · exact List.length_take_le 1 digits
    · exact Nat.zero_le 1
  have offset : Numeral.value 16
      (digits.drop (if 3 < digits.length then digits.take 1 else []).length) < 4096 := by
    apply Numeral.value_lt_of_length_le_three
    rw [List.length_drop]
    split
    · rw [List.length_take]
      omega
    · rw [List.length_nil]
      omega
  have fits : (ofDigits digits).segment.toNat < maxSegments ∧
      (ofDigits digits).offset ≤ 0xFFF := by
    rw [UInt16.le_iff_toNat_le]
    simp only [ofDigits, UInt8.toNat_ofNat', UInt16.toNat_ofNat', UInt16.reduceToNat, maxSegments]
    omega
  rw [pack, if_pos fits, packed]

theorem pack_of_parse {text : String} {address : Address} (parsed : parse text = .ok address) :
    address.pack = .ok address.packed := by
  obtain ⟨digits, found, rfl⟩ := parse_eq_ok_iff.mp parsed
  exact pack_ofDigits (literalDigits?_eq_some found).2

end Address

end StackMachine
