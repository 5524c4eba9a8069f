import StackMachine.Proofs.Spellings

/-!
The grammar of program text. A program is a row of phrases with gaps before, between and after
them; a phrase is a quoted text, an operation alone, an operation with an address, or `LIT` with a
datum. Program text is accepted exactly if it is written so, and then gives the words of its
phrases in order.
-/

set_option autoImplicit false

namespace StackMachine

/-- What stands after `LIT`: a quoted text, a truth value or a number. `Follows` is what a bare
token asks of the text after it. -/
inductive Datum (Follows : List Char → Prop) (rest : List Char) : List Char → Word → Prop
  | text {payload : List Char} (closed : '"' ∉ payload) :
      Datum Follows rest ('"' :: payload ++ ['"']) (.text (.ofList payload))
  | truth {name : List Char} (spelled : Spells name "TRUE") (ended : Follows rest) :
      Datum Follows rest name .trueWord
  | falsity {name : List Char} (spelled : Spells name "FALSE") (ended : Follows rest) :
      Datum Follows rest name .falseWord
  | number {name : List Char} {value : Int64} (read : Numeral.parse? (.ofList name) = some value)
      (ended : Follows rest) : Datum Follows rest name (.literal value)

/-- One phrase before the rest of a text, and its words. -/
inductive Phrase (Follows : List Char → Prop) (rest : List Char) : List Char → List Word → Prop
  | text {payload : List Char} (closed : '"' ∉ payload) :
      Phrase Follows rest ('"' :: payload ++ ['"']) [.text (.ofList payload)]
  | plain {operation : Opcode} {name : List Char} (named : operation.Named name)
      (alone : operation ≠ .lit ∧ operation.hasOperand = false) (ended : Follows rest) :
      Phrase Follows rest name [.instruction operation.code none]
  | addressed {operation : Opcode} {name gap literal : List Char} {address : Address}
      (named : operation.Named name) (takes : operation.hasOperand = true)
      (parted : Follows (gap ++ (literal ++ rest))) (between : Separator.Gap (literal ++ rest) gap)
      (solid : ∀ c ∈ literal, isSpace c = false)
      (parsed : Address.parse (.ofList literal) = .ok address) (ended : Follows rest) :
      Phrase Follows rest (name ++ (gap ++ literal))
        [.instruction operation.code (some address.packed)]
  | literal {name gap datum : List Char} {word : Word} (named : Opcode.lit.Named name)
      (parted : Follows (gap ++ (datum ++ rest))) (between : Separator.Gap (datum ++ rest) gap)
      (given : Datum Follows rest datum word) :
      Phrase Follows rest (name ++ (gap ++ datum)) [.instruction Opcode.lit.code none, word]

/-- Program text with the words it stands for. -/
inductive Source (Follows : List Char → Prop) : List Char → List Word → Prop
  | done {gap : List Char} (blank : Separator.Gap [] gap) : Source Follows gap []
  | phrase {gap chars rest : List Char} {words more : List Word}
      (before : Separator.Gap (chars ++ rest) gap) (first : Phrase Follows rest chars words)
      (after : Source Follows rest more) : Source Follows (gap ++ (chars ++ rest)) (words ++ more)

theorem map_eq_ok_iff {ε α β : Type} {f : α → β} {outcome : Except ε α} {result : β} :
    outcome.map f = .ok result ↔ ∃ value, outcome = .ok value ∧ f value = result := by
  cases outcome <;> simp [Except.map]

namespace Item

theorem operation_eq_ok_iff {name : String} {operation : Opcode} :
    Item.operation name = .ok operation ↔ operation.Named name.toList := by
  rw [Item.operation]
  split
  · rename_i quote
    simp only [reduceCtorEq, false_iff]
    intro named
    have opens := (named.bare.plain '"' (List.mem_of_mem_head? quote)).2
    exact absurd opens (by decide)
  · exact Opcode.ofMnemonic_eq_ok_iff

theorem literalWord_bare_iff {name : String} {word : Word} :
    literalWord (.bare name) = .ok word ↔
      (Spells name.toList "TRUE" ∧ word = .trueWord) ∨
        (Spells name.toList "FALSE" ∧ word = .falseWord) ∨
          ∃ value, Numeral.parse? name = some value ∧ word = .literal value := by
  -- No bare token is two of the three, so the order in which they are tried does not matter.
  have truth : Spells name.toList "TRUE" → Numeral.parse? name = none := by
    intro spelled
    simpa using Numeral.parse?_of_spells spelled rfl (by decide) (by decide)
  have falsity : Spells name.toList "FALSE" → Numeral.parse? name = none := by
    intro spelled
    simpa using Numeral.parse?_of_spells spelled rfl (by decide) (by decide)
  have either : Spells name.toList "FALSE" → ¬ Spells name.toList "TRUE" := by
    intro spelled other
    rw [Spells, spelled] at other
    exact absurd other (by decide)
  simp only [literalWord]
  by_cases isTruth : Text.spells name "TRUE" = true
  · have spelled := spells_iff.mp isTruth
    have noFalsity : ¬ Spells name.toList "FALSE" := fun other => either other spelled
    simp [isTruth, spelled, noFalsity, truth spelled, @eq_comm _ word]
  · have noTruth := mt spells_iff.mpr isTruth
    by_cases isFalsity : Text.spells name "FALSE" = true
    · have spelled := spells_iff.mp isFalsity
      simp [isTruth, noTruth, isFalsity, spelled, falsity spelled, @eq_comm _ word]
    · have noFalsity := mt spells_iff.mpr isFalsity
      cases Numeral.parse? name <;> simp [*, @eq_comm _ word]

theorem list_plain {name : String} {operation : Opcode} (line : Nat) (rest : List Lexeme)
    (named : Item.operation name = .ok operation) (alone : operation.takesArgument = false) :
    list (⟨.bare name, line⟩ :: rest) = (list rest).map (.plain operation :: ·) := by
  rw [list.eq_def]
  simp [named, alone]

theorem list_argument {name : String} {operation : Opcode} {argument : Lexeme} {item : Item}
    (line : Nat) (rest : List Lexeme) (named : Item.operation name = .ok operation)
    (takes : operation.takesArgument = true)
    (given : withArgument operation argument.token = .ok item) :
    list (⟨.bare name, line⟩ :: argument :: rest) = (list rest).map (item :: ·) := by
  rw [list.eq_def]
  simp [named, takes, given]

/-- A row of lexemes that starts with a bare token starts with an operation, and with its argument
if it takes one. -/
theorem list_bare_eq_ok {name : String} {line : Nat} {rest : List Lexeme} {items : List Item}
    (listed : list (⟨.bare name, line⟩ :: rest) = .ok items) :
    ∃ operation : Opcode, operation.Named name.toList ∧
      ((operation.takesArgument = false ∧
          ∃ more, list rest = .ok more ∧ items = .plain operation :: more) ∨
        (operation.takesArgument = true ∧ ∃ argument later item more,
          rest = argument :: later ∧ withArgument operation argument.token = .ok item ∧
            list later = .ok more ∧ items = item :: more)) := by
  rw [list.eq_def] at listed
  simp only at listed
  split at listed
  · contradiction
  · rename_i operation named
    refine ⟨operation, operation_eq_ok_iff.mp named, ?_⟩
    split at listed
    · rename_i takes
      split at listed
      · contradiction
      · rename_i argument later
        split at listed
        · contradiction
        · rename_i item given
          obtain ⟨more, found, rfl⟩ := map_eq_ok_iff.mp listed
          exact .inr ⟨takes, argument, later, item, more, rfl, given, found, rfl⟩
    · rename_i alone
      obtain ⟨more, found, rfl⟩ := map_eq_ok_iff.mp listed
      exact .inl ⟨by simpa using alone, more, found, rfl⟩

end Item

/-- A datum is one token, and is read as its word. -/
theorem Datum.token {rest chars : List Char} {word : Word}
    (given : Datum Delimited rest chars word) :
    ∃ token : Token, token.written = chars ∧ token.Leads rest ∧
      Item.literalWord token = .ok word := by
  cases given with
  | @text payload closed =>
    exact ⟨.quoted (.ofList payload), by simp [Token.written], Token.leads_quoted closed rest, rfl⟩
  | truth spelled ended =>
    have bare : Bare chars := spelled.bare (by decide) (by decide)
    refine ⟨.bare (.ofList chars), String.toList_ofList, Token.leads_bare bare ended, ?_⟩
    rw [Item.literalWord_bare_iff, String.toList_ofList]
    exact .inl ⟨spelled, rfl⟩
  | falsity spelled ended =>
    have bare : Bare chars := spelled.bare (by decide) (by decide)
    refine ⟨.bare (.ofList chars), String.toList_ofList, Token.leads_bare bare ended, ?_⟩
    rw [Item.literalWord_bare_iff, String.toList_ofList]
    exact .inr (.inl ⟨spelled, rfl⟩)
  | @number _ value read ended =>
    have bare := Numeral.bare_of_parse? read
    rw [String.toList_ofList] at bare
    refine ⟨.bare (.ofList chars), String.toList_ofList, Token.leads_bare bare ended, ?_⟩
    rw [Item.literalWord_bare_iff]
    exact .inr (.inr ⟨value, read, rfl⟩)

theorem Token.Leads.datum {token : Token} {rest : List Char} {word : Word}
    (leads : token.Leads rest) (read : Item.literalWord token = .ok word) :
    Datum Delimited rest token.written word := by
  cases token with
  | quoted payload =>
    cases read
    have datum : Datum Delimited rest ('"' :: payload.toList ++ ['"'])
        (.text (.ofList payload.toList)) := .text leads.not_mem
    rwa [String.ofList_toList] at datum
  | bare name =>
    have ended := leads.solid.2
    rcases Item.literalWord_bare_iff.mp read with ⟨spelled, rfl⟩ | ⟨spelled, rfl⟩ |
      ⟨value, parsed, rfl⟩
    · exact .truth spelled ended
    · exact .falsity spelled ended
    · refine .number ?_ ended
      rw [Token.written, String.ofList_toList, parsed]

def assembleFrom (line : Nat) (text : List Char) : Except SourceError (List Word) :=
  (Item.list (Lexeme.listFrom line text)).map fun items => items.flatMap Item.words

theorem assemble_eq (text : String) : assemble text = assembleFrom 1 text.toList := by
  rfl

theorem assembleFrom_gap {gap : List Char} (blank : Separator.Gap [] gap) (line : Nat) :
    assembleFrom line gap = .ok [] := by
  rw [assembleFrom, Lexeme.listFrom_gap blank]
  rfl

theorem assembleFrom_item {line next : Nat} {text rest : List Char} (item : Item)
    (listed : Item.list (Lexeme.listFrom line text) =
      (Item.list (Lexeme.listFrom next rest)).map (item :: ·)) :
    assembleFrom line text = (assembleFrom next rest).map (item.words ++ ·) := by
  rw [assembleFrom, assembleFrom, listed]
  cases Item.list (Lexeme.listFrom next rest) <;> simp [Except.map]

theorem assembleFrom_argument {operation : Opcode} {name gap between rest : List Char}
    {argument : Token} {item : Item} (named : operation.Named name)
    (takes : operation.takesArgument = true)
    (parted : Delimited (between ++ (argument.written ++ rest)))
    (inner : Separator.Gap (argument.written ++ rest) between) (leads : argument.Leads rest)
    (given : Item.withArgument operation argument = .ok item)
    (before : Separator.Gap (name ++ (between ++ argument.written) ++ rest) gap) (line : Nat) :
    assembleFrom line (gap ++ (name ++ (between ++ argument.written) ++ rest)) =
      (assembleFrom (line + (gap ++ (name ++ (between ++ argument.written))).count '\n') rest).map
        (item.words ++ ·) := by
  have head := Token.leads_bare named.bare parted
  have known : Item.operation (.ofList name) = .ok operation := by
    rw [Item.operation_eq_ok_iff, String.toList_ofList]
    exact named
  have written : (Token.bare (.ofList name)).written = name := String.toList_ofList
  have text : name ++ (between ++ argument.written) ++ rest =
      (Token.bare (.ofList name)).written ++ (between ++ (argument.written ++ rest)) := by
    simp [written]
  apply assembleFrom_item
  rw [text] at before ⊢
  rw [Lexeme.listFrom_token before head, Lexeme.listFrom_token inner leads,
    Item.list_argument _ _ known takes given, written]
  simp only [List.count_append, Nat.add_assoc]

theorem assembleFrom_phrase {gap chars rest : List Char} {words : List Word}
    (first : Phrase Delimited rest chars words) (before : Separator.Gap (chars ++ rest) gap)
    (line : Nat) :
    assembleFrom line (gap ++ (chars ++ rest)) =
      (assembleFrom (line + (gap ++ chars).count '\n') rest).map (words ++ ·) := by
  cases first with
  | @text payload closed =>
    have written : (Token.quoted (.ofList payload)).written = '"' :: payload ++ ['"'] := by
      simp [Token.written]
    rw [← written] at before ⊢
    apply assembleFrom_item (.text (.ofList payload))
    rw [Lexeme.listFrom_token before (Token.leads_quoted closed rest)]
    rfl
  | @plain operation _ named alone ended =>
    have known : Item.operation (.ofList chars) = .ok operation := by
      rw [Item.operation_eq_ok_iff, String.toList_ofList]
      exact named
    have written : (Token.bare (.ofList chars)).written = chars := String.toList_ofList
    have single : operation.takesArgument = false := by
      simp [Opcode.takesArgument, alone]
    rw [← written] at before ⊢
    apply assembleFrom_item (.plain operation)
    rw [Lexeme.listFrom_token before (Token.leads_bare named.bare ended),
      Item.list_plain _ _ known single]
  | @addressed operation name between literal address named takes parted inner solid parsed ended =>
    have bare : Bare literal := by
      have bare := Address.bare_of_parse parsed
      rw [String.toList_ofList] at bare
      exact bare solid
    have written : (Token.bare (.ofList literal)).written = literal := String.toList_ofList
    have given : Item.withArgument operation (.bare (.ofList literal)) =
        .ok (.addressed operation address.packed) := by
      have other : operation ≠ .lit := by
        rintro rfl
        contradiction
      simp [Item.withArgument, other, Item.operand, parsed, Except.bind,
        Address.pack_of_parse parsed, Except.map]
    rw [← written] at before parted inner ⊢
    exact assembleFrom_argument named (by simp [Opcode.takesArgument, takes]) parted inner
      (Token.leads_bare bare ended) given before line
  | @literal name between datum word named parted inner given =>
    obtain ⟨token, rfl, leads, read⟩ := given.token
    have made : Item.withArgument .lit token = .ok (.literal word) := by
      simp [Item.withArgument, read, Except.map]
    exact assembleFrom_argument named rfl parted inner leads made before line

/-- What is written by the grammar is accepted. -/
theorem assembleFrom_source {text : List Char} {words : List Word}
    (source : Source Delimited text words) (line : Nat) :
    assembleFrom line text = .ok words := by
  induction source generalizing line with
  | done blank => exact assembleFrom_gap blank line
  | phrase before first after ih =>
    rw [assembleFrom_phrase first before line, ih]
    rfl

theorem Token.Leads.length_lt {token : Token} {rest : List Char} (leads : token.Leads rest)
    (gap : List Char) : rest.length < (gap ++ (token.written ++ rest)).length := by
  have positive := List.length_pos_iff.mpr (Token.written_ne_nil leads.2)
  simp only [List.length_append]
  omega

theorem phrase_of_argument {operation : Opcode} {name between rest : List Char} {argument : Token}
    {item : Item} (named : operation.Named name) (takes : operation.takesArgument = true)
    (parted : Delimited (between ++ (argument.written ++ rest)))
    (inner : Separator.Gap (argument.written ++ rest) between) (leads : argument.Leads rest)
    (given : Item.withArgument operation argument = .ok item) :
    Phrase Delimited rest (name ++ (between ++ argument.written)) item.words := by
  rw [Item.withArgument] at given
  by_cases literal : operation = .lit
  · subst literal
    rw [if_pos rfl] at given
    obtain ⟨word, read, rfl⟩ := map_eq_ok_iff.mp given
    exact .literal named parted inner (leads.datum read)
  · have operand : operation.hasOperand = true := by
      simpa [Opcode.takesArgument, literal] using takes
    rw [if_neg literal] at given
    obtain ⟨packed, read, rfl⟩ := map_eq_ok_iff.mp given
    cases argument with
    | quoted payload => simp [Item.operand] at read
    | bare spelling =>
      rw [Item.operand] at read
      cases parsed : Address.parse spelling with
      | error cause => simp [parsed, Except.bind] at read
      | ok address =>
        have fits := Address.pack_of_parse parsed
        simp only [parsed, Except.bind, fits, Except.ok.injEq] at read
        subst read
        refine .addressed named operand parted inner leads.solid.1 ?_ leads.solid.2
        rw [Token.written, String.ofList_toList, parsed]

/-- What is accepted is written by the grammar. -/
theorem source_of_list {line : Nat} {text : List Char} {items : List Item}
    (listed : Item.list (Lexeme.listFrom line text) = .ok items) :
    Source Delimited text (items.flatMap Item.words) := by
  induction length : text.length using Nat.strongRecOn generalizing line text items with
  | ind n ih =>
    rcases gap_or_token text with blank | ⟨gap, token, rest, rfl, before, leads⟩
    · rw [Lexeme.listFrom_gap blank, Item.list] at listed
      cases listed
      exact .done blank
    · rw [Lexeme.listFrom_token before leads] at listed
      have shorter := leads.length_lt gap
      cases token with
      | quoted payload =>
        obtain ⟨more, found, rfl⟩ := map_eq_ok_iff.mp listed
        have first : Phrase Delimited rest ('"' :: payload.toList ++ ['"'])
            [.text (.ofList payload.toList)] := .text leads.not_mem
        rw [String.ofList_toList] at first
        exact .phrase before first (ih _ (by omega) found rfl)
      | bare name =>
        obtain ⟨operation, named, ⟨alone, more, found, rfl⟩ |
          ⟨takes, argument, later, item, more, parts, given, found, rfl⟩⟩ :=
            Item.list_bare_eq_ok listed
        · have single : operation ≠ .lit ∧ operation.hasOperand = false := by
            simpa [Opcode.takesArgument] using alone
          have first : Phrase Delimited rest name.toList [.instruction operation.code none] :=
            .plain named single leads.solid.2
          exact .phrase before first (ih _ (by omega) found rfl)
        · -- The argument is the next token, so two tokens are read off at once.
          rcases gap_or_token rest with blank | ⟨between, token, last, rfl, inner, follows⟩
          · rw [Lexeme.listFrom_gap blank] at parts
            contradiction
          · rw [Lexeme.listFrom_token inner follows] at parts
            cases parts
            have nearer := follows.length_lt between
            have first := phrase_of_argument named takes leads.solid.2 inner follows given
            have text : (Token.bare name).written ++ (between ++ (token.written ++ last)) =
                name.toList ++ (between ++ token.written) ++ last := by
              simp [Token.written]
            rw [text] at before ⊢
            exact .phrase before first (ih _ (by omega) found rfl)

/-- Program text is accepted exactly if it is written by the grammar, in which a bare token goes on
up to a blank or to the end of the text. -/
theorem assemble_eq_ok_iff (text : String) (words : List Word) :
    assemble text = .ok words ↔ Source Delimited text.toList words := by
  constructor
  · intro assembled
    obtain ⟨items, listed, rfl⟩ := map_eq_ok_iff.mp assembled
    exact source_of_list listed
  · intro source
    rw [assemble_eq]
    exact assembleFrom_source source 1

/-- Bare tokens cannot touch: with nothing asked of what follows them the grammar would hold texts
that are refused. -/
theorem not_assemble_eq_ok_iff :
    ¬ ∀ (text : String) (words : List Word),
      assemble text = .ok words ↔ Source (fun _ => True) text.toList words := by
  intro accepts
  have dup : Phrase (fun _ => True) "DROP".toList "DUP".toList [.instruction 0x08 none] :=
    @Phrase.plain _ _ .dup _ ⟨"DUP", by decide, by decide⟩ (by decide) trivial
  have drop : Phrase (fun _ => True) [] "DROP".toList [.instruction 0x07 none] :=
    @Phrase.plain _ _ .drop _ ⟨"DROP", by decide, by decide⟩ (by decide) trivial
  have last : Source (fun _ => True) "DROP".toList [.instruction 0x07 none] :=
    .phrase .nil drop (.done .nil)
  have touching : Source (fun _ => True) "DUPDROP".toList
      [.instruction 0x08 none, .instruction 0x07 none] :=
    .phrase .nil dup last
  have assembled := (accepts _ _).mpr touching
  have single : Lexeme.list "DUPDROP" = [⟨.bare "DUPDROP", 1⟩] := by
    decide +kernel
  have refused : Item.list [⟨.bare "DUPDROP", 1⟩] =
      .error ⟨1, .unknownMnemonic "DUPDROP"⟩ := by
    rfl
  rw [assemble, single, refused] at assembled
  contradiction

end StackMachine
