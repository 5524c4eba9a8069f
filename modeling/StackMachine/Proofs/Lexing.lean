import StackMachine.Program.Lexeme

/-!
Lexemes and the text they stand in. A text is a row of tokens with gaps before, between and after
them, and the lexemes of a text are its tokens, each with the line that the gaps lead to.
-/

set_option autoImplicit false

namespace StackMachine

namespace Cut

variable {α : Type} [DecidableEq α]

theorem cut_append {mark : α} {front : List α} (absent : mark ∉ front) (back : List α) :
    before mark (front ++ mark :: back) = front ∧ after mark (front ++ mark :: back) = back := by
  have passed : ∀ a ∈ front, decide (a ≠ mark) = true := by
    intro a member
    simp only [ne_eq, decide_not, Bool.not_eq_true', decide_eq_false_iff_not]
    rintro rfl
    exact absent member
  rw [before, after, List.takeWhile_append_of_pos passed, List.dropWhile_append_of_pos passed]
  simp

end Cut

namespace Separator

/-- Where a comment that runs to the end of its line can end. -/
def EndsLine (text : List Char) : Prop :=
  text = [] ∨ (∃ rest, text = '\n' :: rest) ∨ ∃ rest, text = '\r' :: '\n' :: rest

/-- A gap: blanks and comments, one after the other, before the rest of a text. A comment stands in
parentheses, or goes from a backslash to the end of its line. -/
inductive Gap (rest : List Char) : List Char → Prop
  | nil : Gap rest []
  | blank {c : Char} {more : List Char} (space : isSpace c = true) (after : Gap rest more) :
      Gap rest (c :: more)
  | comment {body more : List Char} (unclosed : ')' ∉ body) (after : Gap rest more) :
      Gap rest ('(' :: body ++ ')' :: more)
  | line {body more : List Char} (oneLine : '\r' ∉ body ∧ '\n' ∉ body)
      (ended : EndsLine (more ++ rest)) (after : Gap rest more) : Gap rest ('\\' :: body ++ more)

theorem atLineEnd_iff {text : List Char} : atLineEnd text = true ↔ EndsLine text := by
  unfold atLineEnd EndsLine
  split <;> simp_all

theorem isLineEnd_iff {c : Char} : isLineEnd c = true ↔ c = '\r' ∨ c = '\n' := by
  simp [isLineEnd]

theorem line_cut {body rest : List Char} (oneLine : '\r' ∉ body ∧ '\n' ∉ body)
    (ended : EndsLine rest) :
    (body ++ rest).takeWhile (!isLineEnd ·) = body ∧
      (body ++ rest).dropWhile (!isLineEnd ·) = rest := by
  have passed : ∀ c ∈ body, (!isLineEnd c) = true := by
    intro c member
    rw [Bool.not_eq_true', ← Bool.not_eq_true, isLineEnd_iff]
    rintro (rfl | rfl)
    · exact oneLine.1 member
    · exact oneLine.2 member
  rw [List.takeWhile_append_of_pos passed, List.dropWhile_append_of_pos passed]
  rcases ended with rfl | ⟨more, rfl⟩ | ⟨more, rfl⟩ <;> simp [isLineEnd]

theorem span_of_none {text : List Char} (found : first? text = none) : span text = ([], text) := by
  rw [span]
  split <;> simp_all

theorem span_of_some {text taken rest : List Char} (found : first? text = some (taken, rest)) :
    span text = (taken ++ (span rest).1, (span rest).2) := by
  rw [span]
  split <;> simp_all

/-- What is passed over is a gap. -/
theorem gap_span (text : List Char) : Gap (span text).2 (span text).1 := by
  fun_induction span text with
  | case1 => exact .nil
  | case2 text taken rest found ih =>
    have whole := span_append rest
    cases text with
    | nil => simp [first?] at found
    | cons c text =>
      simp only [first?] at found
      split at found
      · rename_i space
        obtain ⟨rfl, rfl⟩ := found
        exact .blank space ih
      · split at found
        · obtain ⟨rfl, rfl⟩ := found
          have comment := Gap.comment (Cut.mark_not_mem_before ')' text) ih
          simpa using comment
        · split at found
          · rename_i ended
            obtain ⟨rfl, rfl⟩ := found
            have stops : ∀ {c : Char}, isLineEnd c = true →
                c ∉ text.takeWhile (!isLineEnd ·) := by
              intro c lineEnd member
              have passed := List.all_eq_true.mp List.all_takeWhile c member
              simp [lineEnd] at passed
            refine Gap.line ⟨stops rfl, stops rfl⟩ ?_ ih
            rw [whole]
            exact atLineEnd_iff.mp ended.2
          · contradiction

/-- Nothing more could be passed over. -/
theorem first?_span (text : List Char) : first? (span text).2 = none := by
  fun_induction span text with
  | case1 text found => exact found
  | case2 text taken rest found ih => exact ih

/-- A gap is passed over whole, and nothing after it that is neither blank nor comment. -/
theorem Gap.span {gap rest : List Char} (before : Gap rest gap) (stops : first? rest = none) :
    span (gap ++ rest) = (gap, rest) := by
  induction before with
  | nil => exact span_of_none stops
  | @blank c more space after ih =>
    have found : first? (c :: more ++ rest) = some ([c], more ++ rest) := by
      simp [first?, space]
    rw [span_of_some found, ih]
    rfl
  | @comment body more unclosed after ih =>
    have found : first? ('(' :: body ++ ')' :: more ++ rest) =
        some ('(' :: body ++ [')'], more ++ rest) := by
      have text : '(' :: body ++ ')' :: more ++ rest = '(' :: (body ++ ')' :: (more ++ rest)) := by
        simp
      rw [text]
      simp only [first?, Cut.cut_append unclosed]
      simp [isSpace]
    rw [span_of_some found, ih]
    simp
  | @line body more oneLine ended after ih =>
    have cut := line_cut oneLine ended
    have found : first? ('\\' :: body ++ more ++ rest) = some ('\\' :: body, more ++ rest) := by
      have text : '\\' :: body ++ more ++ rest = '\\' :: (body ++ (more ++ rest)) := by simp
      rw [text]
      simp only [first?, cut, atLineEnd_iff.mpr ended]
      simp [isSpace]
    rw [span_of_some found, ih]

end Separator

/-- A bare token goes on up to a blank or to the end of the text. -/
def Delimited (rest : List Char) : Prop :=
  ∀ c ∈ rest.head?, isSpace c = true

theorem Delimited.cut {solid rest : List Char} (ended : Delimited rest)
    (plain : ∀ c ∈ solid, isSpace c = false) :
    (solid ++ rest).takeWhile (!isSpace ·) = solid ∧
      (solid ++ rest).dropWhile (!isSpace ·) = rest := by
  have passed : ∀ c ∈ solid, (!isSpace c) = true := by
    intro c member
    rw [plain c member]
    rfl
  rw [List.takeWhile_append_of_pos passed, List.dropWhile_append_of_pos passed]
  cases rest with
  | nil => simp
  | cons c rest => simp [ended c (by simp)]

/-- The characters with which a comment or a quotation starts. -/
def isOpening (c : Char) : Bool :=
  c == '"' || c == '(' || c == '\\'

/-- A row of characters that is one bare token wherever it stands. -/
structure Bare (name : List Char) : Prop where
  nonempty : name ≠ []
  plain : ∀ c ∈ name, isSpace c = false ∧ isOpening c = false

namespace Token

/-- A token that is read as itself before the rest of a text. -/
def Leads (token : Token) (rest : List Char) : Prop :=
  Separator.first? (token.written ++ rest) = none ∧
    first? (token.written ++ rest) = some (token, rest)

theorem leads_quoted {payload : List Char} (closed : '"' ∉ payload) (rest : List Char) :
    (quoted (.ofList payload)).Leads rest := by
  have text : (quoted (.ofList payload)).written ++ rest = '"' :: (payload ++ '"' :: rest) := by
    simp [written]
  rw [Leads, text]
  constructor
  · simp [Separator.first?, isSpace]
  · simp only [first?, Cut.cut_append closed]
    simp [isSpace]

theorem leads_bare {name rest : List Char} (bare : Bare name) (ended : Delimited rest) :
    (Token.bare (.ofList name)).Leads rest := by
  obtain ⟨nonempty, plain⟩ := bare
  cases name with
  | nil => exact absurd rfl nonempty
  | cons c name =>
    have text : (Token.bare (.ofList (c :: name))).written ++ rest = c :: (name ++ rest) := by
      simp [written]
    have first := (plain c (by simp)).1
    have opens := (plain c (by simp)).2
    simp only [isOpening, Bool.or_eq_false_iff, beq_eq_false_iff_ne] at opens
    have cut := ended.cut fun d member => (plain d (List.mem_cons_of_mem c member)).1
    rw [Leads, text]
    constructor
    · simp [Separator.first?, first, opens.1.2, opens.2]
    · simp only [first?, first, opens.1.1, cut]
      simp

theorem Leads.not_mem {payload : String} {rest : List Char} (leads : (quoted payload).Leads rest) :
    '"' ∉ payload.toList := by
  obtain ⟨_, found⟩ := leads
  have text : (quoted payload).written ++ rest = '"' :: (payload.toList ++ '"' :: rest) := by
    simp [written]
  rw [text] at found
  simp only [first?, isSpace] at found
  simp at found
  rw [← found.1, String.toList_ofList]
  exact Cut.mark_not_mem_before _ _

theorem Leads.solid {name : String} {rest : List Char} (leads : (bare name).Leads rest) :
    (∀ c ∈ name.toList, isSpace c = false) ∧ Delimited rest := by
  obtain ⟨_, found⟩ := leads
  cases whole : (bare name).written ++ rest with
  | nil => simp [whole, first?] at found
  | cons c text =>
    rw [whole] at found
    simp only [first?] at found
    split at found
    · contradiction
    · rename_i first
      split at found
      · simp at found
      · simp only [Option.some.injEq, Prod.mk.injEq, bare.injEq] at found
        obtain ⟨rfl, rfl⟩ := found
        constructor
        · intro d member
          rw [String.toList_ofList, List.mem_cons] at member
          rcases member with rfl | member
          · simpa using first
          · simpa using List.all_eq_true.mp List.all_takeWhile d member
        · intro d head
          have stopped := List.head?_dropWhile_not (!isSpace ·) text
          rw [Option.mem_def.mp head] at stopped
          simpa using stopped

end Token

/-- Where no token starts and nothing can be passed over, nothing is left. -/
theorem Token.span_eq_nil {text : List Char} (found : first? (Separator.span text).2 = none) :
    (Separator.span text).2 = [] := by
  have stops := Separator.first?_span text
  cases left : (Separator.span text).2 with
  | nil => rfl
  | cons c rest =>
    rw [left] at found stops
    cases space : isSpace c with
    | true => simp [Separator.first?, space] at stops
    | false =>
      simp only [Token.first?, space, Bool.false_eq_true, if_false] at found
      split at found <;> contradiction

/-- Every text is a gap alone, or a gap and a token before the rest of the text. -/
theorem gap_or_token (text : List Char) :
    Separator.Gap [] text ∨ ∃ gap token rest, text = gap ++ (Token.written token ++ rest) ∧
      Separator.Gap (token.written ++ rest) gap ∧ token.Leads rest := by
  have whole := Separator.span_append text
  have gap := Separator.gap_span text
  have stops := Separator.first?_span text
  cases found : Token.first? (Separator.span text).2 with
  | none =>
    have ended := Token.span_eq_nil found
    left
    rw [ended, List.append_nil] at whole
    rw [ended, whole] at gap
    exact gap
  | some result =>
    obtain ⟨token, rest⟩ := result
    have written := Token.first?_append found
    rw [← written] at gap stops found
    refine .inr ⟨(Separator.span text).1, token, rest, ?_, gap, stops, found⟩
    rw [written, whole]

namespace Lexeme

theorem listFrom_of_none {text : List Char} (line : Nat)
    (found : Token.first? (Separator.span text).2 = none) : listFrom line text = [] := by
  rw [listFrom]
  split <;> simp_all

theorem listFrom_of_some {text rest : List Char} {token : Token} (line : Nat)
    (found : Token.first? (Separator.span text).2 = some (token, rest)) :
    listFrom line text =
      ⟨token, line + (Separator.span text).1.count '\n'⟩ ::
        listFrom (line + (Separator.span text).1.count '\n' + token.written.count '\n') rest := by
  rw [listFrom]
  split <;> simp_all

theorem listFrom_gap {gap : List Char} (blank : Separator.Gap [] gap) (line : Nat) :
    listFrom line gap = [] := by
  have passed := blank.span rfl
  rw [List.append_nil] at passed
  apply listFrom_of_none
  rw [passed]
  rfl

/-- The token after the first gap is the first lexeme, on the line that the gap leads to. -/
theorem listFrom_token {gap rest : List Char} {token : Token}
    (before : Separator.Gap (token.written ++ rest) gap) (leads : token.Leads rest) (line : Nat) :
    listFrom line (gap ++ (token.written ++ rest)) =
      ⟨token, line + gap.count '\n'⟩ ::
        listFrom (line + (gap ++ token.written).count '\n') rest := by
  have passed := before.span leads.1
  have found : Token.first? (Separator.span (gap ++ (token.written ++ rest))).2 =
      some (token, rest) := by
    rw [passed]
    exact leads.2
  rw [listFrom_of_some line found, passed, List.count_append, Nat.add_assoc]

end Lexeme

end StackMachine
