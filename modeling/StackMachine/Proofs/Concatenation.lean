import StackMachine.Proofs.Grammar

/-!
Program texts one after the other. A text that is accepted leaves no comment, no quotation and no
argument open, so a line feed after it is a blank, and what stands after the line feed is read as
it is read alone, except that its lines are counted on from those before it.
-/

set_option autoImplicit false

namespace StackMachine

namespace Separator

theorem EndsLine.append {text : List Char} (ended : EndsLine text) (back : List Char) :
    EndsLine (text ++ '\n' :: back) := by
  rcases ended with rfl | ⟨more, rfl⟩ | ⟨more, rfl⟩
  · exact .inr (.inl ⟨back, rfl⟩)
  · exact .inr (.inl ⟨more ++ '\n' :: back, rfl⟩)
  · exact .inr (.inr ⟨more ++ '\n' :: back, rfl⟩)

theorem Gap.append {gap rest : List Char} (before : Gap rest gap) (back : List Char) :
    Gap (rest ++ '\n' :: back) gap := by
  induction before with
  | nil => exact .nil
  | blank space _ ih => exact .blank space ih
  | comment unclosed _ ih => exact .comment unclosed ih
  | line oneLine ended _ ih =>
    refine .line oneLine ?_ ih
    have longer := ended.append back
    rwa [List.append_assoc] at longer

theorem Gap.trans {first second rest : List Char} (before : Gap (second ++ rest) first)
    (after : Gap rest second) : Gap rest (first ++ second) := by
  induction before with
  | nil => exact after
  | blank space _ ih => exact .blank space ih
  | @comment body more unclosed _ ih =>
    have joined := Gap.comment unclosed ih
    simpa using joined
  | @line body more oneLine ended _ ih =>
    rw [← List.append_assoc] at ended
    have joined := Gap.line oneLine ended ih
    simpa using joined

/-- The gap at the end of a text and the line feed after it are a gap before what comes next. -/
theorem Gap.newline {gap : List Char} (blank : Gap [] gap) (back : List Char) :
    Gap back (gap ++ ['\n']) := by
  have before : Gap (['\n'] ++ back) gap := blank.append back
  exact before.trans (.blank (by decide) .nil)

end Separator

theorem Delimited.append {rest : List Char} (ended : Delimited rest) (back : List Char) :
    Delimited (rest ++ '\n' :: back) := by
  cases rest with
  | nil =>
    intro c head
    cases head
    decide
  | cons c rest => exact ended

theorem Datum.append {rest chars : List Char} {word : Word}
    (given : Datum Delimited rest chars word) (back : List Char) :
    Datum Delimited (rest ++ '\n' :: back) chars word := by
  cases given with
  | text closed => exact .text closed
  | truth spelled ended => exact .truth spelled (ended.append back)
  | falsity spelled ended => exact .falsity spelled (ended.append back)
  | number read ended => exact .number read (ended.append back)

/-- A phrase stays one if the text after it goes on with a new line. -/
theorem Phrase.append {rest chars : List Char} {words : List Word}
    (first : Phrase Delimited rest chars words) (back : List Char) :
    Phrase Delimited (rest ++ '\n' :: back) chars words := by
  cases first with
  | text closed => exact .text closed
  | plain named alone ended => exact .plain named alone (ended.append back)
  | addressed named takes parted between solid parsed ended =>
    have apart := parted.append back
    have inner := between.append back
    simp only [List.append_assoc] at apart inner
    exact .addressed named takes apart inner solid parsed (ended.append back)
  | literal named parted between given =>
    have apart := parted.append back
    have inner := between.append back
    simp only [List.append_assoc] at apart inner
    exact .literal named apart inner (given.append back)

theorem Lexeme.listFrom_gap_append {gap back : List Char} (before : Separator.Gap back gap)
    (line : Nat) : listFrom line (gap ++ back) = listFrom (line + gap.count '\n') back := by
  rcases gap_or_token back with blank | ⟨between, token, rest, rfl, inner, leads⟩
  · have whole : Separator.Gap [] (gap ++ back) := by
      have before : Separator.Gap (back ++ []) gap := by rwa [List.append_nil]
      exact before.trans blank
    rw [listFrom_gap blank, listFrom_gap whole]
  · have whole := before.trans inner
    rw [← List.append_assoc, listFrom_token whole leads, listFrom_token inner leads]
    simp only [List.count_append, Nat.add_assoc]

/-- What stands in a new line after an accepted text is read after it. -/
theorem assembleFrom_append {front : List Char} {words : List Word}
    (source : Source Delimited front words) (back : List Char) (line : Nat) :
    assembleFrom line (front ++ '\n' :: back) =
      (assembleFrom (line + front.count '\n' + 1) back).map (words ++ ·) := by
  induction source generalizing line with
  | @done gap blank =>
    have text : gap ++ '\n' :: back = (gap ++ ['\n']) ++ back := by simp
    rw [text, assembleFrom, Lexeme.listFrom_gap_append (blank.newline back)]
    rw [List.count_append, List.count_singleton_self, ← Nat.add_assoc, ← assembleFrom]
    cases assembleFrom (line + gap.count '\n' + 1) back <;> rfl
  | @phrase gap chars rest words more before first after ih =>
    have longer := before.append back
    rw [List.append_assoc] at longer
    have text : gap ++ (chars ++ rest) ++ '\n' :: back =
        gap ++ (chars ++ (rest ++ '\n' :: back)) := by simp
    rw [text, assembleFrom_phrase (first.append back) longer, ih]
    have count : line + (gap ++ chars).count '\n' + rest.count '\n' + 1 =
        line + (gap ++ (chars ++ rest)).count '\n' + 1 := by
      simp only [List.count_append]
      omega
    rw [count]
    cases assembleFrom (line + (gap ++ (chars ++ rest)).count '\n' + 1) back with
    | error _ => rfl
    | ok last => simp [Except.map]

/-- The same lexeme further down. -/
def Lexeme.moved (lines : Nat) (lexeme : Lexeme) : Lexeme :=
  ⟨lexeme.token, lexeme.line + lines⟩

def SourceError.moved (lines : Nat) (error : SourceError) : SourceError :=
  ⟨error.line + lines, error.cause⟩

theorem Lexeme.listFrom_add (line lines : Nat) (text : List Char) :
    listFrom (line + lines) text = (listFrom line text).map (moved lines) := by
  induction length : text.length using Nat.strongRecOn generalizing line text with
  | ind n ih =>
    rcases gap_or_token text with blank | ⟨gap, token, rest, rfl, before, leads⟩
    · rw [listFrom_gap blank, listFrom_gap blank]
      rfl
    · have shorter := leads.length_lt gap
      have later := ih rest.length (by omega) (line + (gap ++ token.written).count '\n') rest rfl
      rw [listFrom_token before leads, listFrom_token before leads, List.map_cons, ← later, moved]
      rw [Nat.add_right_comm line lines, Nat.add_right_comm line lines]

/-- Lines serve for messages only: an item does not depend on where it stands. -/
theorem Item.list_moved (lines : Nat) (lexemes : List Lexeme) :
    list (lexemes.map (Lexeme.moved lines)) =
      (list lexemes).mapError (SourceError.moved lines) := by
  have through : ∀ (outcome : Except SourceError (List Item)) (item : Item),
      (outcome.mapError (SourceError.moved lines)).map (item :: ·) =
        (outcome.map (item :: ·)).mapError (SourceError.moved lines) := by
    intro outcome item
    cases outcome <;> rfl
  fun_induction list lexemes with
  | case1 => rfl
  | case2 payload line rest ih =>
    rw [← through, ← ih]
    rfl
  | case3 name line rest cause named =>
    rw [List.map_cons, Lexeme.moved, list.eq_def]
    simp only [named]
    rfl
  | case4 name line operation named takes =>
    rw [List.map_cons, Lexeme.moved, list.eq_def]
    simp only [named, takes, if_true, List.map_nil]
    rfl
  | case5 name line operation named takes argument rest cause given =>
    rw [List.map_cons, Lexeme.moved, list.eq_def]
    simp only [named, takes, if_true, List.map_cons, Lexeme.moved, given]
    rfl
  | case6 name line operation named takes argument rest item given ih =>
    rw [← through, ← ih]
    exact list_argument _ _ named takes given
  | case7 name line rest operation named alone ih =>
    rw [← through, ← ih]
    exact list_plain _ _ named (by simpa using alone)

/-- A text that starts further down is read in the same way, its faults further down. -/
theorem assembleFrom_add (line lines : Nat) (text : List Char) :
    assembleFrom (line + lines) text =
      (assembleFrom line text).mapError (SourceError.moved lines) := by
  rw [assembleFrom, assembleFrom, Lexeme.listFrom_add, Item.list_moved]
  cases Item.list (Lexeme.listFrom line text) <;> rfl

/-- If a text is accepted, a second text in a new line after it is read as it is read alone: its
words follow, or its fault is met, as many lines further down as the first text takes up. -/
theorem assemble_append (first second : String) (words : List Word)
    (accepted : assemble first = .ok words) :
    (∀ more, assemble second = .ok more →
        assemble (first ++ "\n" ++ second) = .ok (words ++ more)) ∧
      ∀ line cause, assemble second = .error ⟨line, cause⟩ →
        assemble (first ++ "\n" ++ second) =
          .error ⟨line + 1 + first.toList.count '\n', cause⟩ := by
  obtain ⟨items, listed, rfl⟩ := map_eq_ok_iff.mp accepted
  have source := source_of_list listed
  have text : (first ++ "\n" ++ second).toList = first.toList ++ '\n' :: second.toList := by
    simp
  have joined : assemble (first ++ "\n" ++ second) =
      ((assemble second).mapError (SourceError.moved (first.toList.count '\n' + 1))).map
        (items.flatMap Item.words ++ ·) := by
    rw [assemble_eq, assemble_eq, text, assembleFrom_append source, Nat.add_assoc,
      assembleFrom_add]
  rw [joined]
  constructor
  · intro more assembled
    rw [assembled]
    rfl
  · intro line cause refused
    have count : line + 1 + first.toList.count '\n' = line + (first.toList.count '\n' + 1) := by
      omega
    rw [refused, count]
    rfl

/-- A comment in the last line of the first text ends with the line feed after it. -/
theorem assemble_append_comment :
    assemble ("DUP\n\\ copied" ++ "\n" ++ "DROP") =
        .ok ([.instruction 0x08 none] ++ [.instruction 0x07 none]) ∧
      assemble ("DUP\n\\ copied" ++ "\n" ++ "COPY") =
        .error ⟨1 + 1 + 1, .unknownMnemonic "COPY"⟩ := by
  have dup : Lexeme.list "DUP\n\\ copied" = [⟨.bare "DUP", 1⟩] := by decide +kernel
  have drop : Lexeme.list "DROP" = [⟨.bare "DROP", 1⟩] := by decide +kernel
  have copy : Lexeme.list "COPY" = [⟨.bare "COPY", 1⟩] := by decide +kernel
  have accepted : assemble "DUP\n\\ copied" = .ok [.instruction 0x08 none] := by
    rw [assemble, dup]
    rfl
  constructor
  · apply (assemble_append _ "DROP" _ accepted).1
    rw [assemble, drop]
    rfl
  · apply (assemble_append _ "COPY" _ accepted).2
    rw [assemble, copy]
    rfl

end StackMachine
