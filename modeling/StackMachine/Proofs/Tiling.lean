import StackMachine.Proofs.Concatenation
import StackMachine.Proofs.TokenStream

/-!
Text cut up without loss. Every text is a row of gaps and tokens in turn: each gap is as long as it
can be, each token stands there as it is written, and nothing is left over. A text can be cut in one
such way only. Its lexemes are the tokens of the cut, each on the line that the text before it leads
to, whether lines are counted on from token to token or each time in all the bytes before it.
-/

set_option autoImplicit false

namespace StackMachine

namespace Separator

variable {gap rest : List Char}

/-- A gap before the rest of a text that is as long as it can be: every other gap at the front of
the same text is a part of it. -/
structure Longest (rest gap : List Char) : Prop where
  passed : Gap rest gap
  longest : ∀ other later, gap ++ rest = other ++ later → Gap later other → other <+: gap

/-- A gap is the longest one exactly if neither a blank nor a comment follows it. -/
theorem longest_iff : Longest rest gap ↔ Gap rest gap ∧ first? rest = none := by
  constructor
  · intro longest
    have whole := span_append rest
    have further : Gap (span rest).2 (gap ++ (span rest).1) := by
      apply Gap.trans _ (gap_span rest)
      rw [whole]
      exact longest.passed
    have part : gap ++ (span rest).1 <+: gap := by
      apply longest.longest _ (span rest).2 _ further
      rw [List.append_assoc, whole]
    have short := part.length_le
    have empty : (span rest).1 = [] := by
      apply List.eq_nil_of_length_eq_zero
      rw [List.length_append] at short
      omega
    rw [empty, List.nil_append] at whole
    have stops := first?_span rest
    rw [whole] at stops
    exact ⟨longest.passed, stops⟩
  · intro ⟨passed, stops⟩
    refine ⟨passed, ?_⟩
    intro other later same before
    -- The other gap goes on with all that can be passed over after it, and so becomes this one.
    have whole := span_append later
    have further : Gap (span later).2 (other ++ (span later).1) := by
      apply Gap.trans _ (gap_span later)
      rw [whole]
      exact before
    have one := passed.span stops
    have two := further.span (first?_span later)
    rw [List.append_assoc, whole, ← same, one] at two
    exact ⟨(span later).1, (congrArg Prod.fst two).symm⟩

theorem Longest.span (longest : Longest rest gap) : Separator.span (gap ++ rest) = (gap, rest) := by
  obtain ⟨passed, stops⟩ := longest_iff.mp longest
  exact passed.span stops

end Separator

namespace Token

/-- How a token stands before the rest of a text. A bare one has characters and no blank among them,
it goes up to a blank or to the end, and it opens no quotation that is closed later. A quoted one
has no quotation mark inside. -/
def Stands : Token → List Char → Prop
  | bare name, rest => name.toList ≠ [] ∧ (∀ c ∈ name.toList, isSpace c = false) ∧
      Delimited rest ∧ ∀ tail, name.toList = '"' :: tail → '"' ∉ tail ++ rest
  | quoted payload, _ => '"' ∉ payload.toList

theorem Leads.stands {token : Token} {rest : List Char} (leads : token.Leads rest) :
    token.Stands rest := by
  cases token with
  | quoted payload => exact leads.not_mem
  | bare name =>
    have nonempty : name.toList ≠ [] := written_ne_nil leads.2
    refine ⟨nonempty, leads.solid.1, leads.solid.2, ?_⟩
    intro tail opened closed
    have found := leads.2
    rw [written, opened, List.cons_append] at found
    simp [first?, isSpace, closed] at found

theorem Stands.first?_eq {token : Token} {rest : List Char} (stands : token.Stands rest) :
    first? (token.written ++ rest) = some (token, rest) := by
  cases token with
  | quoted payload =>
    have leads := leads_quoted stands rest
    rw [String.ofList_toList] at leads
    exact leads.2
  | bare name =>
    obtain ⟨nonempty, solid, ended, unquoted⟩ := stands
    cases spelled : name.toList with
    | nil => exact absurd spelled nonempty
    | cons c tail =>
      rw [spelled] at solid unquoted
      have first : isSpace c = false := solid c (by simp)
      have cut := ended.cut fun d member => solid d (List.mem_cons_of_mem c member)
      have opens : ¬ (c = '"' ∧ '"' ∈ tail ++ rest) := by
        rintro ⟨rfl, closed⟩
        exact unquoted tail rfl closed
      rw [written, spelled, List.cons_append, first?, if_neg (by simp [first]), if_neg opens,
        cut.1, cut.2, ← spelled, String.ofList_toList]

end Token

structure Piece where
  gap : List Char
  token : Token
deriving DecidableEq

def Piece.written (piece : Piece) : List Char :=
  piece.gap ++ piece.token.written

/-- A text cut into pieces and a last gap. -/
inductive Tiling : List Char → List Piece → List Char → Prop
  | last {gap : List Char} (longest : Separator.Longest [] gap) : Tiling gap [] gap
  | piece {gap rest last : List Char} {token : Token} {pieces : List Piece}
      (longest : Separator.Longest (token.written ++ rest) gap) (stands : token.Stands rest)
      (after : Tiling rest pieces last) :
      Tiling (gap ++ (token.written ++ rest)) (⟨gap, token⟩ :: pieces) last

namespace Tiling

variable {text last : List Char} {pieces : List Piece}

theorem eq_append (tiling : Tiling text pieces last) :
    text = pieces.flatMap Piece.written ++ last := by
  induction tiling with
  | last _ => rfl
  | piece _ _ _ ih =>
    rw [ih, List.flatMap_cons, Piece.written]
    simp only [List.append_assoc]

/-- Every text can be cut up. -/
theorem exists_tiling (text : List Char) : ∃ pieces last, Tiling text pieces last := by
  induction length : text.length using Nat.strongRecOn generalizing text with
  | ind n ih =>
    rcases gap_or_token text with blank | ⟨gap, token, rest, rfl, before, leads⟩
    · exact ⟨[], text, .last (Separator.longest_iff.mpr ⟨blank, rfl⟩)⟩
    · have shorter := leads.length_lt gap
      obtain ⟨pieces, last, after⟩ := ih rest.length (by omega) rest rfl
      have longest := Separator.longest_iff.mpr ⟨before, leads.1⟩
      exact ⟨⟨gap, token⟩ :: pieces, last, .piece longest leads.stands after⟩

/-- The gap and the token at the front of a text are determined by the text. -/
theorem unique (tiling : Tiling text pieces last) {other : List Char} {others : List Piece}
    {ending : List Char} (same : other = text) (tiled : Tiling other others ending) :
    others = pieces ∧ ending = last := by
  induction tiling generalizing other others ending with
  | @last gap longest =>
    have passed := longest.span
    rw [List.append_nil] at passed
    cases tiled with
    | last _ => exact ⟨rfl, same⟩
    | piece otherLongest stands _ =>
      have nonempty := Token.written_ne_nil stands.first?_eq
      rw [← same, otherLongest.span] at passed
      simp [nonempty] at passed
  | @piece gap rest last token pieces longest stands after ih =>
    have passed := longest.span
    have found := stands.first?_eq
    cases tiled with
    | @last otherGap otherLongest =>
      have otherPassed := otherLongest.span
      have nonempty := Token.written_ne_nil found
      rw [List.append_nil, same, passed] at otherPassed
      simp [nonempty] at otherPassed
    | @piece otherGap otherRest _ otherToken _ otherLongest otherStands otherAfter =>
      have otherFound := otherStands.first?_eq
      rw [← same, otherLongest.span] at passed
      obtain ⟨sameGap, sameText⟩ := Prod.mk.inj passed
      rw [sameText, found] at otherFound
      obtain ⟨sameToken, sameRest⟩ := Prod.mk.inj (Option.some.inj otherFound)
      obtain ⟨samePieces, sameEnding⟩ := ih sameRest.symm otherAfter
      rw [sameGap, sameToken, samePieces]
      exact ⟨rfl, sameEnding⟩

end Tiling

namespace Piece

/-- The tokens of pieces that stand after some text, each on the line that all the text before it
leads to. -/
def lexemes (before : List Char) : List Piece → List Lexeme
  | [] => []
  | piece :: rest =>
    ⟨piece.token, 1 + (before ++ piece.gap).count '\n'⟩ :: lexemes (before ++ piece.written) rest

theorem length_lexemes (before : List Char) (pieces : List Piece) :
    (lexemes before pieces).length = pieces.length := by
  induction pieces generalizing before with
  | nil => rfl
  | cons piece rest ih => rw [lexemes, List.length_cons, ih, List.length_cons]

theorem getElem?_lexemes (before : List Char) (front : List Piece) (piece : Piece)
    (back : List Piece) :
    (lexemes before (front ++ piece :: back))[front.length]? =
      some ⟨piece.token, 1 + (before ++ (front.flatMap written ++ piece.gap)).count '\n'⟩ := by
  induction front generalizing before with
  | nil => simp [lexemes]
  | cons first front ih =>
    rw [List.cons_append, lexemes, List.length_cons, List.getElem?_cons_succ, ih,
      List.flatMap_cons]
    simp only [List.append_assoc]

theorem le_line_of_mem {before : List Char} {pieces : List Piece} {lexeme : Lexeme}
    (member : lexeme ∈ lexemes before pieces) : 1 + before.count '\n' ≤ lexeme.line := by
  induction pieces generalizing before with
  | nil => simp [lexemes] at member
  | cons piece rest ih =>
    rw [lexemes, List.mem_cons] at member
    rcases member with rfl | later
    · simp only [List.count_append]
      omega
    · have bound := ih later
      rw [List.count_append] at bound
      omega

theorem pairwise_lexemes (before : List Char) (pieces : List Piece) :
    (lexemes before pieces).Pairwise fun a b => a.line ≤ b.line := by
  induction pieces generalizing before with
  | nil => exact .nil
  | cons piece rest ih =>
    refine List.pairwise_cons.mpr ⟨?_, ih _⟩
    intro lexeme member
    have bound := le_line_of_mem member
    rw [written, ← List.append_assoc, List.count_append] at bound
    show 1 + (before ++ piece.gap).count '\n' ≤ lexeme.line
    omega

end Piece

theorem Input.count_encode (text : List Char) :
    (encode text).count lineFeed = text.count '\n' := by
  induction text with
  | nil => rfl
  | cons c text ih =>
    have first : (String.utf8EncodeChar c).count lineFeed = [c].count '\n' := by
      by_cases feed : c = '\n'
      · subst feed
        decide
      · rw [List.count_eq_zero_of_not_mem (mt (eq_of_lineFeed_mem c) feed),
          List.count_eq_zero_of_not_mem (by simpa using Ne.symm feed)]
    change (String.utf8EncodeChar c ++ encode text).count lineFeed = ([c] ++ text).count '\n'
    rw [List.count_append, List.count_append, first, ih]

namespace Lexeme

/-- The line on which the rest of a text starts, counted in the bytes of the text before it. -/
def lineOf (text rest : List Char) : Nat :=
  let consumed := (Input.encode text).length - (Input.encode rest).length
  ((Input.encode text).take consumed).count lineFeed + 1

/-- The lexemes of the rest of a text, one round for each: what can be passed over is, and then the
text has ended or a token must start. `none` if there is a place where none does. -/
def scan? (text rest : List Char) : Option (List Lexeme) :=
  let left := (Separator.span rest).2
  if left = [] then some []
  else
    match _found : Token.first? left with
    | none => none
    | some (token, later) => (scan? text later).map (⟨token, lineOf text left⟩ :: ·)
termination_by rest.length
decreasing_by
  exact Nat.lt_of_lt_of_le (Token.length_lt_of_first? _found) (Separator.length_span_le rest)

variable {before rest last : List Char} {pieces : List Piece}

theorem lineOf_append (before rest : List Char) :
    lineOf (before ++ rest) rest = 1 + before.count '\n' := by
  have bytes : Input.encode (before ++ rest) = Input.encode before ++ Input.encode rest :=
    List.flatMap_append
  rw [lineOf, bytes, List.length_append, Nat.add_sub_cancel, List.take_left, Input.count_encode,
    Nat.add_comm]

theorem scan?_of_nil {text : List Char} (ended : (Separator.span rest).2 = []) :
    scan? text rest = some [] := by
  rw [scan?]
  exact if_pos ended

theorem scan?_of_some {text later : List Char} {token : Token}
    (found : Token.first? (Separator.span rest).2 = some (token, later)) :
    scan? text rest =
      (scan? text later).map (⟨token, lineOf text (Separator.span rest).2⟩ :: ·) := by
  have nonempty : (Separator.span rest).2 ≠ [] := by
    intro ended
    rw [ended] at found
    contradiction
  rw [scan?, if_neg nonempty]
  split <;> simp_all

theorem listFrom_tiling (tiling : Tiling rest pieces last) (before : List Char) :
    listFrom (1 + before.count '\n') rest = Piece.lexemes before pieces := by
  induction tiling generalizing before with
  | last longest => exact listFrom_gap longest.passed _
  | @piece gap rest last token pieces longest stands after ih =>
    have leads : token.Leads rest := ⟨(Separator.longest_iff.mp longest).2, stands.first?_eq⟩
    have later := ih (before ++ (gap ++ token.written))
    rw [List.count_append, ← Nat.add_assoc] at later
    rw [listFrom_token longest.passed leads, later, Piece.lexemes, List.count_append,
      ← Nat.add_assoc]
    rfl

/-- Each round finds a token or the end, and counts the lines that were counted before. -/
theorem scan?_tiling (tiling : Tiling rest pieces last) (before : List Char) :
    scan? (before ++ rest) rest = some (Piece.lexemes before pieces) := by
  induction tiling generalizing before with
  | @last gap longest =>
    have passed := longest.span
    rw [List.append_nil] at passed
    exact scan?_of_nil (by rw [passed])
  | @piece gap rest last token pieces longest stands after ih =>
    have passed := longest.span
    have found : Token.first? (Separator.span (gap ++ (token.written ++ rest))).2 =
        some (token, rest) := by
      rw [passed]
      exact stands.first?_eq
    have later := ih (before ++ (gap ++ token.written))
    have line := lineOf_append (before ++ gap) (token.written ++ rest)
    have text : before ++ (gap ++ token.written) ++ rest =
        before ++ (gap ++ (token.written ++ rest)) := by simp
    rw [text] at later
    rw [List.append_assoc] at line
    rw [scan?_of_some found, later, passed, line]
    rfl

end Lexeme

/-- Reading lexemes never fails and loses nothing. The text is cut, in one way only, into gaps that
are as long as they can be and tokens; the lexemes are these tokens in order, each on line 1 plus
the number of line feeds before it. -/
theorem text_cut_without_loss (text : String) :
    Lexeme.scan? text.toList text.toList = some (Lexeme.list text) ∧
    (∃ pieces last, Tiling text.toList pieces last ∧
      text.toList = pieces.flatMap Piece.written ++ last ∧
      (∀ others ending, Tiling text.toList others ending → others = pieces ∧ ending = last) ∧
      (Lexeme.list text).length = pieces.length ∧
      ∀ front piece back, pieces = front ++ piece :: back →
        (Lexeme.list text)[front.length]? = some
          ⟨piece.token, 1 + (front.flatMap Piece.written ++ piece.gap).count '\n'⟩) ∧
    (Lexeme.list text).Pairwise (fun a b => a.line ≤ b.line) ∧
    ∀ rest token later, Token.first? (Separator.span rest).2 = some (token, later) →
      later.length < rest.length := by
  obtain ⟨pieces, last, tiling⟩ := Tiling.exists_tiling text.toList
  have lexemes : Lexeme.list text = Piece.lexemes [] pieces := Lexeme.listFrom_tiling tiling []
  rw [lexemes]
  refine ⟨Lexeme.scan?_tiling tiling [], ⟨pieces, last, tiling, tiling.eq_append, ?_, ?_, ?_⟩,
    Piece.pairwise_lexemes [] pieces, ?_⟩
  · intro others ending tiled
    exact tiling.unique rfl tiled
  · exact Piece.length_lexemes [] pieces
  · intro front piece back split
    rw [split]
    exact Piece.getElem?_lexemes [] front piece back
  · intro rest token later found
    exact Nat.lt_of_lt_of_le (Token.length_lt_of_first? found) (Separator.length_span_le rest)

/-- A comment over two lines, a backslash before a carriage return that ends no line, a quotation
with a line feed in it and a parenthesis that is not closed. -/
theorem text_cut_without_loss_open :
    let text := "( a\n)DUP \\x\r\"p\nq\"(z"
    let pieces : List Piece := [⟨"( a\n)".toList, .bare "DUP"⟩, ⟨[' '], .bare "\\x"⟩,
      ⟨['\r'], .quoted "p\nq"⟩, ⟨[], .bare "(z"⟩]
    Tiling text.toList pieces [] ∧ Lexeme.scan? text.toList text.toList = some (Lexeme.list text) ∧
      (Lexeme.list text).length = 4 ∧ (Lexeme.list text)[1]? = some ⟨.bare "\\x", 2⟩ ∧
      (Lexeme.list text)[3]? = some ⟨.bare "(z", 3⟩ := by
  intro text pieces
  have parenthesis : Tiling "(z".toList _ [] :=
    @Tiling.piece [] [] [] (.bare "(z") [] (Separator.longest_iff.mpr ⟨.nil, rfl⟩)
      ⟨by decide, by simp [isSpace], by simp [Delimited], by simp⟩
      (.last (Separator.longest_iff.mpr ⟨.nil, rfl⟩))
  have quotation := @Tiling.piece ['\r'] _ _ (.quoted "p\nq") _
    (Separator.longest_iff.mpr ⟨.blank rfl .nil, rfl⟩)
    (show '"' ∉ "p\nq".toList by decide) parenthesis
  have backslash := @Tiling.piece [' '] _ _ (.bare "\\x") _
    (Separator.longest_iff.mpr ⟨.blank rfl .nil, rfl⟩)
    ⟨by decide, by simp [isSpace], by simp [Delimited, isSpace], by simp⟩ quotation
  have comment := @Tiling.piece "( a\n)".toList _ _ (.bare "DUP") _
    (Separator.longest_iff.mpr ⟨@Separator.Gap.comment _ " a\n".toList [] (by decide) .nil, rfl⟩)
    ⟨by decide, by simp [isSpace], by simp [Delimited, isSpace], by simp⟩ backslash
  have tiling : Tiling text.toList pieces [] := by
    convert comment using 1
    decide
  obtain ⟨scanned, ⟨found, last, _, _, unique, length, tokens⟩, _⟩ := text_cut_without_loss text
  obtain ⟨rfl, _⟩ := unique pieces [] tiling
  exact ⟨tiling, scanned, length, tokens [_] _ _ rfl, tokens [_, _, _] _ _ rfl⟩

end StackMachine
