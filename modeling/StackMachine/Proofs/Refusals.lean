import StackMachine.Proofs.Grammar

/-!
Program text that is refused. A text is read in groups, each a quoted text or an operation with the
argument it takes. The first group that is not a phrase decides the cause, and the line of its head
or of its argument is the line of the refusal. Every text is accepted or refused in this way, and
the checks that guard the reading of tokens and the making of words never fail.
-/

set_option autoImplicit false

namespace StackMachine

/-- An argument that an operation cannot have, and why. -/
inductive Token.Unfit : Opcode → Token → Failure → Prop
  | number {spelling : String} (noTruth : ¬ Spells spelling.toList "TRUE")
      (noFalsity : ¬ Spells spelling.toList "FALSE") (unread : Numeral.parse? spelling = none) :
      Unfit .lit (.bare spelling) (.invalidOperand (.notNumber spelling))
  | address {operation : Opcode} {spelling : String} (takes : operation.hasOperand = true)
      (unread : ∀ address, Address.parse spelling ≠ .ok address) :
      Unfit operation (.bare spelling) (.malformedAddress spelling)
  | quoted {operation : Opcode} {payload : String} (takes : operation.hasOperand = true) :
      Unfit operation (.quoted payload) (.malformedAddress ("\"" ++ payload ++ "\""))

/-- A group before the rest of a text that is no phrase, what of it stands before the flaw, and the
cause. Only an argument stands behind the head of its group. -/
inductive Flawed (rest : List Char) : List Char → List Char → Failure → Prop
  | unterminated {name : String} (leads : (Token.bare name).Leads rest)
      (quote : name.toList.head? = some '"') :
      Flawed rest name.toList [] (.invalidOperand .unterminatedString)
  | unknown {name : String} (leads : (Token.bare name).Leads rest)
      (unquoted : name.toList.head? ≠ some '"')
      (nameless : ∀ operation : Opcode, ¬ operation.Named name.toList) :
      Flawed rest name.toList [] (.unknownMnemonic name)
  | lacking {operation : Opcode} {name : String} (leads : (Token.bare name).Leads rest)
      (named : operation.Named name.toList) (takes : operation.takesArgument = true)
      (blank : Separator.Gap [] rest) :
      Flawed rest name.toList [] (.invalidOperand (.missingArgument operation))
  | argument {operation : Opcode} {name : String} {between : List Char} {argument : Token}
      {cause : Failure} (head : (Token.bare name).Leads (between ++ (argument.written ++ rest)))
      (named : operation.Named name.toList)
      (inner : Separator.Gap (argument.written ++ rest) between) (leads : argument.Leads rest)
      (unfit : argument.Unfit operation cause) :
      Flawed rest (name.toList ++ (between ++ argument.written)) (name.toList ++ between) cause

/-- Program text with all that stands before its first flaw, and the cause. -/
inductive Refused : List Char → List Char → Failure → Prop
  | here {gap chars rest ahead : List Char} {cause : Failure}
      (before : Separator.Gap (chars ++ rest) gap) (flawed : Flawed rest chars ahead cause) :
      Refused (gap ++ (chars ++ rest)) (gap ++ ahead) cause
  | later {gap chars rest ahead : List Char} {words : List Word} {cause : Failure}
      (before : Separator.Gap (chars ++ rest) gap) (first : Phrase Delimited rest chars words)
      (refused : Refused rest ahead cause) :
      Refused (gap ++ (chars ++ rest)) (gap ++ (chars ++ ahead)) cause

/-- The causes that program text can be refused for. -/
def Failure.InSource : Failure → Prop
  | .unknownMnemonic _ => True
  | .malformedAddress _ => True
  | .invalidOperand (.notNumber _) => True
  | .invalidOperand (.missingArgument _) => True
  | .invalidOperand .unterminatedString => True
  | _ => False

theorem map_eq_error_iff {ε α β : Type} {f : α → β} {outcome : Except ε α} {error : ε} :
    outcome.map f = .error error ↔ outcome = .error error := by
  cases outcome <;> simp [Except.map]

theorem Address.parse_eq_error_iff {spelling : String} {cause : Failure} :
    parse spelling = .error cause ↔
      (∀ address, parse spelling ≠ .ok address) ∧ cause = .malformedAddress spelling := by
  rw [parse]
  split <;> simp [eq_comm]

namespace Item

theorem operation_eq_error_iff {name : String} {cause : Failure} :
    Item.operation name = .error cause ↔
      (name.toList.head? = some '"' ∧ cause = .invalidOperand .unterminatedString) ∨
        (name.toList.head? ≠ some '"' ∧ (∀ operation : Opcode, ¬ operation.Named name.toList) ∧
          cause = .unknownMnemonic name) := by
  rw [Item.operation]
  split
  · rename_i quote
    simp [quote, eq_comm]
  · rename_i unquoted
    simp only [unquoted, ne_eq, not_false_eq_true, true_and, false_and, false_or,
      ← Opcode.ofMnemonic?_eq_some_iff, ← Option.eq_none_iff_forall_ne_some, Opcode.ofMnemonic]
    cases Opcode.ofMnemonic? name <;> simp [eq_comm]

theorem literalWord_eq_error_iff {argument : Token} {cause : Failure} :
    literalWord argument = .error cause ↔ argument.Unfit .lit cause := by
  constructor
  · intro refused
    cases argument with
    | quoted payload => contradiction
    | bare spelling =>
      simp only [literalWord] at refused
      split at refused
      · contradiction
      · rename_i noTruth
        split at refused
        · contradiction
        · rename_i noFalsity
          split at refused
          · contradiction
          · rename_i unread
            cases refused
            exact .number (mt spells_iff.mpr noTruth) (mt spells_iff.mpr noFalsity) unread
  · intro unfit
    cases unfit with
    | number noTruth noFalsity unread =>
      simp [literalWord, mt spells_iff.mp noTruth, mt spells_iff.mp noFalsity, unread]
    | address takes _ => contradiction
    | quoted takes => contradiction

theorem operand_eq_error_iff {operation : Opcode} {argument : Token} {cause : Failure}
    (takes : operation.hasOperand = true) :
    operand argument = .error cause ↔ argument.Unfit operation cause := by
  constructor
  · intro refused
    cases argument with
    | quoted payload =>
      cases refused
      exact .quoted takes
    | bare spelling =>
      rw [operand] at refused
      cases parsed : Address.parse spelling with
      | error cause =>
        obtain ⟨unread, rfl⟩ := Address.parse_eq_error_iff.mp parsed
        rw [parsed] at refused
        cases refused
        exact .address takes unread
      | ok address =>
        -- An address that can be written fits in an operand.
        rw [parsed] at refused
        exact absurd (refused.symm.trans (Address.pack_of_parse parsed)) (by simp)
  · intro unfit
    cases unfit with
    | number => contradiction
    | quoted _ => rfl
    | @address _ spelling _ unread =>
      have refused := Address.parse_eq_error_iff.mpr ⟨unread, rfl⟩
      rw [operand, refused]
      rfl

theorem withArgument_eq_error_iff {operation : Opcode} {argument : Token} {cause : Failure}
    (takes : operation.takesArgument = true) :
    withArgument operation argument = .error cause ↔ argument.Unfit operation cause := by
  rw [withArgument]
  split
  · rename_i literal
    subst literal
    rw [map_eq_error_iff, literalWord_eq_error_iff]
  · rename_i other
    rw [map_eq_error_iff, operand_eq_error_iff]
    simpa [Opcode.takesArgument, other] using takes

theorem list_operation_error {name : String} {cause : Failure} (line : Nat) (rest : List Lexeme)
    (unnamed : Item.operation name = .error cause) :
    list (⟨.bare name, line⟩ :: rest) = .error ⟨line, cause⟩ := by
  rw [list.eq_def]
  simp [unnamed]

theorem list_lacking {name : String} {operation : Opcode} (line : Nat)
    (named : Item.operation name = .ok operation) (takes : operation.takesArgument = true) :
    list [⟨.bare name, line⟩] = .error ⟨line, .invalidOperand (.missingArgument operation)⟩ := by
  rw [list.eq_def]
  simp [named, takes]

theorem list_argument_error {name : String} {operation : Opcode} {argument : Lexeme}
    {cause : Failure} (line : Nat) (rest : List Lexeme)
    (named : Item.operation name = .ok operation) (takes : operation.takesArgument = true)
    (given : withArgument operation argument.token = .error cause) :
    list (⟨.bare name, line⟩ :: argument :: rest) = .error ⟨argument.line, cause⟩ := by
  rw [list.eq_def]
  simp [named, takes, given]

end Item

theorem Token.Unfit.takesArgument {operation : Opcode} {argument : Token} {cause : Failure}
    (unfit : argument.Unfit operation cause) : operation.takesArgument = true := by
  cases unfit with
  | number => rfl
  | address takes _ => simp [Opcode.takesArgument, takes]
  | quoted takes => simp [Opcode.takesArgument, takes]

theorem Lexeme.listFrom_bare {gap rest : List Char} {name : String}
    (before : Separator.Gap (name.toList ++ rest) gap) (leads : (Token.bare name).Leads rest)
    (line : Nat) :
    listFrom line (gap ++ (name.toList ++ rest)) =
      ⟨.bare name, line + gap.count '\n'⟩ ::
        listFrom (line + (gap ++ name.toList).count '\n') rest :=
  @listFrom_token gap rest (.bare name) before leads line

theorem assembleFrom_flawed {gap chars rest ahead : List Char} {cause : Failure}
    (flawed : Flawed rest chars ahead cause) (before : Separator.Gap (chars ++ rest) gap)
    (line : Nat) :
    assembleFrom line (gap ++ (chars ++ rest)) =
      .error ⟨line + (gap ++ ahead).count '\n', cause⟩ := by
  rw [assembleFrom, map_eq_error_iff]
  cases flawed with
  | unterminated leads quote =>
    have unnamed := Item.operation_eq_error_iff.mpr (.inl ⟨quote, rfl⟩)
    rw [Lexeme.listFrom_bare before leads, Item.list_operation_error _ _ unnamed, List.append_nil]
  | unknown leads unquoted nameless =>
    have unnamed := Item.operation_eq_error_iff.mpr (.inr ⟨unquoted, nameless, rfl⟩)
    rw [Lexeme.listFrom_bare before leads, Item.list_operation_error _ _ unnamed, List.append_nil]
  | lacking leads named takes blank =>
    have known := Item.operation_eq_ok_iff.mpr named
    rw [Lexeme.listFrom_bare before leads, Lexeme.listFrom_gap blank,
      Item.list_lacking _ known takes, List.append_nil]
  | @argument operation name between argument _ head named inner leads unfit =>
    have known := Item.operation_eq_ok_iff.mpr named
    have given := (Item.withArgument_eq_error_iff unfit.takesArgument).mpr unfit
    have text : name.toList ++ (between ++ argument.written) ++ rest =
        name.toList ++ (between ++ (argument.written ++ rest)) := by
      simp
    rw [text] at before ⊢
    rw [Lexeme.listFrom_bare before head, Lexeme.listFrom_token inner leads,
      Item.list_argument_error _ _ known unfit.takesArgument given]
    simp only [List.count_append, Nat.add_assoc]

theorem assembleFrom_refused {text ahead : List Char} {cause : Failure}
    (refused : Refused text ahead cause) (line : Nat) :
    assembleFrom line text = .error ⟨line + ahead.count '\n', cause⟩ := by
  induction refused generalizing line with
  | here before flawed => exact assembleFrom_flawed flawed before line
  | later before first _ ih =>
    rw [assembleFrom_phrase first before line, ih, map_eq_error_iff]
    simp only [List.count_append, Nat.add_assoc]

/-- A text that starts with a phrase has the flaw of what follows, or none. -/
theorem source_or_refused_phrase {gap chars rest : List Char} {words : List Word}
    (before : Separator.Gap (chars ++ rest) gap) (first : Phrase Delimited rest chars words)
    (later : (∃ more, Source Delimited rest more) ∨ ∃ ahead cause, Refused rest ahead cause) :
    (∃ more, Source Delimited (gap ++ (chars ++ rest)) more) ∨
      ∃ ahead cause, Refused (gap ++ (chars ++ rest)) ahead cause := by
  rcases later with ⟨more, source⟩ | ⟨ahead, cause, refused⟩
  · exact .inl ⟨_, .phrase before first source⟩
  · exact .inr ⟨_, cause, .later before first refused⟩

/-- Every text is written by the grammar or has a first flaw. -/
theorem source_or_refused (text : List Char) :
    (∃ words, Source Delimited text words) ∨ ∃ ahead cause, Refused text ahead cause := by
  induction length : text.length using Nat.strongRecOn generalizing text with
  | ind n ih =>
    rcases gap_or_token text with blank | ⟨gap, token, rest, rfl, before, leads⟩
    · exact .inl ⟨[], .done blank⟩
    · have shorter := leads.length_lt gap
      cases token with
      | quoted payload =>
        have first : Phrase Delimited rest (Token.quoted payload).written
            [.text (.ofList payload.toList)] := .text leads.not_mem
        exact source_or_refused_phrase before first (ih _ (by omega) rest rfl)
      | bare name =>
        cases known : Item.operation name with
        | error cause =>
          rcases Item.operation_eq_error_iff.mp known with ⟨quote, _⟩ | ⟨unquoted, nameless, _⟩
          · exact .inr ⟨_, _, .here before (.unterminated leads quote)⟩
          · exact .inr ⟨_, _, .here before (.unknown leads unquoted nameless)⟩
        | ok operation =>
          have named := Item.operation_eq_ok_iff.mp known
          cases takes : operation.takesArgument with
          | false =>
            have alone : operation ≠ .lit ∧ operation.hasOperand = false := by
              simpa [Opcode.takesArgument] using takes
            have first : Phrase Delimited rest (Token.bare name).written
                [.instruction operation.code none] := .plain named alone leads.solid.2
            exact source_or_refused_phrase before first (ih _ (by omega) rest rfl)
          | true =>
            -- The group reaches up to the next token, if there is one.
            rcases gap_or_token rest with blank | ⟨between, argument, last, rfl, inner, follows⟩
            · exact .inr ⟨_, _, .here before (.lacking leads named takes blank)⟩
            · have nearer := follows.length_lt between
              have text : (Token.bare name).written ++ (between ++ (argument.written ++ last)) =
                  name.toList ++ (between ++ argument.written) ++ last := by
                simp [Token.written]
              rw [text] at before ⊢
              cases given : Item.withArgument operation argument with
              | error cause =>
                have unfit := (Item.withArgument_eq_error_iff takes).mp given
                exact .inr ⟨_, _, .here before (.argument leads named inner follows unfit)⟩
              | ok item =>
                have first := phrase_of_argument named takes leads.solid.2 inner follows given
                exact source_or_refused_phrase before first (ih _ (by omega) last rfl)

theorem Refused.inSource {text ahead : List Char} {cause : Failure}
    (refused : Refused text ahead cause) : cause.InSource := by
  induction refused with
  | later _ _ _ ih => exact ih
  | here _ flawed =>
    cases flawed with
    | unterminated | unknown | lacking => trivial
    | argument _ _ _ _ unfit => cases unfit <;> trivial

theorem toUInt32_le (value : UInt16) : value.toUInt32 ≤ 0xFFFF := by
  have upper := value.toNat_lt
  rw [UInt32.le_iff_toNat_le, UInt16.toNat_toUInt32]
  exact Nat.le_of_lt_succ upper

theorem Word.encode_code {operation : Opcode} {operand : Option UInt16}
    (matched : operand.isSome = operation.hasOperand) :
    encode operation.code (operand.map UInt16.toUInt32) =
      .ok (.instruction operation.code operand) := by
  have known : Opcode.ofCode operation.code = .ok operation := by
    rw [Opcode.ofCode, Opcode.ofCode?_code]
  cases operand with
  | none =>
    have absent : operation.hasOperand = false := matched.symm
    simp [encode, known, absent]
  | some value =>
    have present : operation.hasOperand = true := matched.symm
    simp [encode, known, present, toUInt32_le value]

/-- The instruction words of a phrase are those that the checked making of words gives. -/
theorem Phrase.encode_eq {rest chars : List Char} {words : List Word} {code : UInt8}
    {operand : Option UInt16} (phrase : Phrase Delimited rest chars words)
    (member : .instruction code operand ∈ words) :
    Word.encode code (operand.map UInt16.toUInt32) = .ok (.instruction code operand) := by
  cases phrase with
  | text _ => simp at member
  | plain _ alone _ =>
    cases List.mem_singleton.mp member
    exact Word.encode_code alone.2.symm
  | addressed _ takes _ _ _ _ _ =>
    cases List.mem_singleton.mp member
    exact Word.encode_code takes.symm
  | literal _ _ _ given =>
    rcases List.mem_cons.mp member with head | datum
    · cases head
      exact Word.encode_code rfl
    · -- What follows `LIT` is no instruction word.
      cases List.mem_singleton.mp datum
      contradiction

/-- Every refusal names the first group that is no phrase: its cause, and the line of its head or,
if the argument is at fault, of the argument. The checks that no such cause comes from cannot fail.
-/
theorem refusal_names_first_flaw (text : String) :
    (∀ line cause, assemble text = .error ⟨line, cause⟩ ↔
      ∃ ahead, Refused text.toList ahead cause ∧ line = 1 + ahead.count '\n') ∧
    (∀ line cause, assemble text = .error ⟨line, cause⟩ → cause.InSource) ∧
    (∀ rest, Token.first? (Separator.span rest).2 = none → (Separator.span rest).2 = []) ∧
    (∀ (operation : Opcode) (operand : Option UInt16),
      operand.isSome = operation.hasOperand →
        Word.encode operation.code (operand.map UInt16.toUInt32) =
          .ok (.instruction operation.code operand)) ∧
    (∀ rest chars words, Phrase Delimited rest chars words →
      ∀ code operand, .instruction code operand ∈ words →
        Word.encode code (operand.map UInt16.toUInt32) = .ok (.instruction code operand)) ∧
    ∀ spelling address, Address.parse spelling = .ok address →
      ∃ operand, address.pack = .ok operand := by
  have exactly : ∀ line cause, assemble text = .error ⟨line, cause⟩ ↔
      ∃ ahead, Refused text.toList ahead cause ∧ line = 1 + ahead.count '\n' := by
    intro line cause
    rw [assemble_eq]
    constructor
    · intro failed
      rcases source_or_refused text.toList with ⟨words, source⟩ | ⟨ahead, other, refused⟩
      · rw [assembleFrom_source source] at failed
        contradiction
      · rw [assembleFrom_refused refused] at failed
        cases failed
        exact ⟨ahead, refused, rfl⟩
    · rintro ⟨ahead, refused, rfl⟩
      exact assembleFrom_refused refused 1
  refine ⟨exactly, ?_, fun _ => Token.span_eq_nil, fun _ _ => Word.encode_code, ?_, ?_⟩
  · intro line cause failed
    obtain ⟨ahead, refused, _⟩ := (exactly line cause).mp failed
    exact refused.inSource
  · intro rest chars words phrase code operand
    exact phrase.encode_eq
  · intro spelling address parsed
    exact ⟨_, Address.pack_of_parse parsed⟩

/-- The comment, the quoted text before the flaw and the gap before the argument all count: the
quoted argument of `SOUT` stands on the fifth line, the operation itself on the third. -/
theorem refusal_names_first_flaw_fifth_line :
    assemble "( one\n two ) \"a\nb\" SOUT\n\n \"x\"" =
        .error ⟨5, .malformedAddress "\"x\""⟩ ∧
      (Failure.malformedAddress "\"x\"").InSource := by
  have argument : Flawed [] "SOUT\n\n \"x\"".toList "SOUT\n\n ".toList
      (.malformedAddress "\"x\"") :=
    @Flawed.argument [] .sout "SOUT" "\n\n ".toList (.quoted "x") _ ⟨rfl, rfl⟩
      ⟨"SOUT", by decide, by decide⟩ (.blank rfl (.blank rfl (.blank rfl .nil)))
      (Token.leads_quoted (by decide) []) (.quoted rfl)
  have last : Refused " SOUT\n\n \"x\"".toList " SOUT\n\n ".toList (.malformedAddress "\"x\"") :=
    .here (.blank rfl .nil) argument
  have text : Phrase Delimited " SOUT\n\n \"x\"".toList "\"a\nb\"".toList [.text "a\nb"] :=
    @Phrase.text _ _ "a\nb".toList (by decide)
  have comment : Separator.Gap ("\"a\nb\"".toList ++ " SOUT\n\n \"x\"".toList)
      "( one\n two ) ".toList :=
    @Separator.Gap.comment _ " one\n two ".toList [' '] (by decide) (.blank rfl .nil)
  have refused := Refused.later comment text last
  have failed := ((refusal_names_first_flaw "( one\n two ) \"a\nb\" SOUT\n\n \"x\"").1 5 _).mpr
    ⟨_, refused, by decide +kernel⟩
  exact ⟨failed, (refusal_names_first_flaw _).2.1 _ _ failed⟩

end StackMachine
