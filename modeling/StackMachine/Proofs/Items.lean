import StackMachine.Proofs.Grammar

/-!
The items that program text can have, and where their words stand. A text holds no quote, an
operation has an operand exactly if the table asks for one, and the word after `LIT` is a number or
a text. The words of a program are those of its items, one item after the other.
-/

set_option autoImplicit false

namespace StackMachine

theorem Opcode.code_injective {a b : Opcode} (same : a.code = b.code) : a = b := by
  have known := ofCode?_code a
  rw [same, ofCode?_code] at known
  exact (Option.some.inj known).symm

/-- A quotation ends at the first quote, so there is none inside it. -/
def Token.Closed : Token → Prop
  | bare _ => True
  | quoted payload => '"' ∉ payload.toList

theorem Lexeme.closed_of_mem {line : Nat} {text : List Char} {lexeme : Lexeme}
    (member : lexeme ∈ listFrom line text) : lexeme.token.Closed := by
  induction length : text.length using Nat.strongRecOn generalizing line text with
  | ind n ih =>
    rcases gap_or_token text with blank | ⟨gap, token, rest, rfl, before, leads⟩
    · rw [listFrom_gap blank] at member
      contradiction
    · rw [listFrom_token before leads, List.mem_cons] at member
      rcases member with rfl | later
      · cases token with
        | bare name => trivial
        | quoted payload => exact leads.not_mem
      · have shorter := leads.length_lt gap
        exact ih rest.length (by omega) later rfl

/-- A word that can be written after `LIT`. -/
def Word.IsDatum : Word → Prop
  | .instruction _ _ => False
  | .literal _ => True
  | .text payload => '"' ∉ payload.toList

namespace Item

def Writable : Item → Prop
  | text payload => '"' ∉ payload.toList
  | plain operation => operation ≠ .lit ∧ operation.hasOperand = false
  | addressed operation _ => operation.hasOperand = true
  | literal value => value.IsDatum

theorem Writable.ne_lit {operation : Opcode} {operand : UInt16}
    (writable : (addressed operation operand).Writable) : operation ≠ .lit := by
  rintro rfl
  contradiction

theorem isDatum_of_literalWord {token : Token} {word : Word} (closed : token.Closed)
    (read : literalWord token = .ok word) : word.IsDatum := by
  cases token with
  | quoted payload =>
    cases read
    exact closed
  | bare name =>
    rcases literalWord_bare_iff.mp read with ⟨_, rfl⟩ | ⟨_, rfl⟩ | ⟨value, _, rfl⟩ <;> trivial

theorem writable_of_withArgument {operation : Opcode} {argument : Token} {item : Item}
    (closed : argument.Closed) (takes : operation.takesArgument = true)
    (given : withArgument operation argument = .ok item) : item.Writable := by
  rw [withArgument] at given
  by_cases literal : operation = .lit
  · rw [if_pos literal] at given
    obtain ⟨word, read, rfl⟩ := map_eq_ok_iff.mp given
    exact isDatum_of_literalWord closed read
  · rw [if_neg literal] at given
    obtain ⟨operand, _, rfl⟩ := map_eq_ok_iff.mp given
    have known : operation.hasOperand = true := by
      simpa [Opcode.takesArgument, literal] using takes
    exact known

theorem writable_of_list {lexemes : List Lexeme} {items : List Item}
    (closed : ∀ lexeme ∈ lexemes, lexeme.token.Closed) (listed : list lexemes = .ok items) :
    ∀ item ∈ items, item.Writable := by
  induction length : lexemes.length using Nat.strongRecOn generalizing lexemes items with
  | ind n ih =>
    rcases lexemes with _ | ⟨⟨name | payload, line⟩, rest⟩
    · cases listed
      simp
    · obtain ⟨operation, _, ⟨alone, more, found, rfl⟩ |
        ⟨takes, argument, later, item, more, rfl, given, found, rfl⟩⟩ := list_bare_eq_ok listed
      · have single : operation ≠ .lit ∧ operation.hasOperand = false := by
          simpa [Opcode.takesArgument] using alone
        have others := ih rest.length (by simp [← length])
          (fun lexeme member => closed lexeme (by simp [member])) found rfl
        exact List.forall_mem_cons.mpr ⟨single, others⟩
      · have others := ih later.length (by simp only [← length, List.length_cons]; omega)
          (fun lexeme member => closed lexeme (by simp [member])) found rfl
        have first := writable_of_withArgument (closed argument (by simp)) takes given
        exact List.forall_mem_cons.mpr ⟨first, others⟩
    · obtain ⟨more, found, rfl⟩ := map_eq_ok_iff.mp listed
      have others := ih rest.length (by simp [← length])
        (fun lexeme member => closed lexeme (by simp [member])) found rfl
      have first : '"' ∉ payload.toList := closed ⟨.quoted payload, line⟩ (by simp)
      exact List.forall_mem_cons.mpr ⟨first, others⟩

end Item

end StackMachine
