import StackMachine.Proofs.Actions

/-!
Operations, each with the move after its effect: what an operation needs to succeed, and the session
it then leaves. A failure is one of the effect, unless a jump misses its cell.
-/

set_option autoImplicit false

namespace StackMachine.Action

variable {session later : Session} {word : Word} {operation : Opcode} {cause : Failure}

/-- An operation: its effect, and the move after it. -/
def perform (word : Word) (operation : Opcode) : Action Unit :=
  effect word operation >>= move

/-- Moving fails only where it jumps beyond the segments of the counter. -/
theorem move_eq_error_iff {flow : Flow} :
    move flow session = .error cause later ↔
      ∃ target, flow = .jump target ∧
        target.isCellOf session.machine.counter.segments = false ∧
        cause = .outOfBounds target ∧ later = session := by
  cases flow <;> simp [move]

theorem effect_eq_error (failed : perform word operation session = .error cause later)
    (found : ∀ address, cause ≠ .outOfBounds address) :
    effect word operation session = .error cause later := by
  simp only [perform, bind_eq_error_iff, move_eq_error_iff] at failed
  rcases failed with failed | ⟨_, _, _, target, _, _, missed, _⟩
  · exact failed
  · exact absurd missed (found target)

theorem perform_nop_iff :
    perform word .nop session = .ok () later ↔
      later = { session with machine.counter := session.machine.counter.advance } := by
  simp [perform, effect, move, eq_comm]

theorem perform_store_iff :
    perform word .store session = .ok () later ↔
      ∃ operand value rest memory, word.operand? = some operand ∧
        (Address.unpack operand).isCellOf session.machine.segmentCount = true ∧
        session.machine.data = value :: rest ∧
        session.machine.memory.set (.unpack operand) value = .ok memory ∧
        later = { session with
          machine.memory := memory
          machine.data := rest
          machine.counter := session.machine.counter.advance } := by
  simp only [perform, effect, bind_assoc, pure_bind, move, bind_eq_ok_iff, operandCell_eq_ok_iff,
    popData_eq_ok_iff, writeCell_eq_ok_iff, advance_apply]
  grind

theorem combineTop_move_iff {combine : Int64 → Int64 → Int64} :
    (combineTop combine >>= move) session = .ok () later ↔
      ∃ a b rest, session.machine.data = a :: b :: rest ∧
        later = { session with
          machine.data := .literal (combine b.number a.number) :: rest
          machine.counter := session.machine.counter.advance } := by
  simp only [combineTop, bind_assoc, pure_bind, move, bind_eq_ok_iff, popData_eq_ok_iff,
    pushData_apply, advance_apply]
  grind

theorem perform_rstore_iff :
    perform word .rstore session = .ok () later ↔
      ∃ value rest, session.machine.data = value :: rest ∧
        later = { session with
          machine.data := rest
          machine.returns := value :: session.machine.returns
          machine.counter := session.machine.counter.advance } := by
  simp only [perform, effect, bind_assoc, pure_bind, move, bind_eq_ok_iff, popData_eq_ok_iff,
    pushReturn_apply, advance_apply]
  grind

theorem perform_fetch_iff :
    perform word .fetch session = .ok () later ↔
      ∃ operand value, word.operand? = some operand ∧
        (Address.unpack operand).isCellOf session.machine.segmentCount = true ∧
        session.machine.memory.get? (.unpack operand) = some value ∧
        later = { session with
          machine.data := value :: session.machine.data
          machine.counter := session.machine.counter.advance } := by
  simp only [perform, effect, bind_assoc, pure_bind, move, bind_eq_ok_iff, operandCell_eq_ok_iff,
    readCell_eq_ok_iff, pushData_apply, advance_apply]
  grind

theorem perform_drop_iff :
    perform word .drop session = .ok () later ↔
      ∃ value rest, session.machine.data = value :: rest ∧
        later = { session with
          machine.data := rest
          machine.counter := session.machine.counter.advance } := by
  simp only [perform, effect, bind_assoc, pure_bind, move, bind_eq_ok_iff, popData_eq_ok_iff,
    advance_apply]
  grind

theorem perform_dup_iff :
    perform word .dup session = .ok () later ↔
      ∃ value rest, session.machine.data = value :: rest ∧
        later = { session with
          machine.data := value :: value :: rest
          machine.counter := session.machine.counter.advance } := by
  simp only [perform, effect, bind_assoc, pure_bind, move, bind_eq_ok_iff, peekData_eq_ok_iff,
    pushData_apply, advance_apply]
  rcases stack : session.machine.data with _ | ⟨value, rest⟩ <;> grind

theorem perform_over_iff :
    perform word .overCopy session = .ok () later ↔
      ∃ a b rest, session.machine.data = a :: b :: rest ∧
        later = { session with
          machine.data := b :: a :: b :: rest
          machine.counter := session.machine.counter.advance } := by
  simp only [perform, effect, bind_assoc, pure_bind, move, bind_eq_ok_iff, peekData_eq_ok_iff,
    pushData_apply, advance_apply]
  rcases stack : session.machine.data with _ | ⟨a, _ | ⟨b, rest⟩⟩ <;> grind

theorem perform_rfetch_iff :
    perform word .rfetch session = .ok () later ↔
      ∃ value rest, session.machine.returns = value :: rest ∧
        later = { session with
          machine.data := value :: session.machine.data
          machine.returns := rest
          machine.counter := session.machine.counter.advance } := by
  simp only [perform, effect, bind_assoc, pure_bind, move, bind_eq_ok_iff, popReturn_eq_ok_iff,
    pushData_apply, advance_apply]
  grind

theorem perform_swap_iff :
    perform word .swap session = .ok () later ↔
      ∃ a b rest, session.machine.data = a :: b :: rest ∧
        later = { session with
          machine.data := b :: a :: rest
          machine.counter := session.machine.counter.advance } := by
  simp only [perform, effect, bind_assoc, pure_bind, move, bind_eq_ok_iff, popData_eq_ok_iff,
    pushData_apply, advance_apply]
  grind

/-- The target of a branch counts only where the branch is taken. -/
theorem perform_branchIf_iff :
    perform word .branchIf session = .ok () later ↔
      ∃ operand condition rest, word.operand? = some operand ∧
        session.machine.data = condition :: rest ∧
        (condition.isTrue = true ∧
            (Address.unpack operand).isCellOf session.machine.counter.segments = true ∧
            later = { session with
              machine.data := rest
              machine.counter.position := .unpack operand } ∨
          condition.isTrue = false ∧
            later = { session with
              machine.data := rest
              machine.counter := session.machine.counter.advance }) := by
  simp only [perform, effect, bind_assoc, pure_bind, move, bind_eq_ok_iff, check_eq_ok_iff,
    Word.operand_eq_ok_iff, popData_eq_ok_iff]
  constructor
  · rintro ⟨operand, _, ⟨carried, rfl⟩, condition, _, ⟨rest, stack, rfl⟩, done⟩
    refine ⟨operand, condition, rest, carried, stack, ?_⟩
    cases truth : condition.isTrue <;> simp [truth] at done
    · exact Or.inr ⟨rfl, done.symm⟩
    · exact Or.inl ⟨rfl, done⟩
  · rintro ⟨operand, condition, rest, carried, stack, done⟩
    refine ⟨operand, _, ⟨carried, rfl⟩, condition, _, ⟨rest, stack, rfl⟩, ?_⟩
    rcases done with ⟨truth, inside, rfl⟩ | ⟨untruth, rfl⟩
    · simp [truth, inside]
    · simp [untruth]

theorem perform_call_iff :
    perform word .call session = .ok () later ↔
      ∃ operand, word.operand? = some operand ∧
        (Address.unpack operand).isCellOf session.machine.counter.segments = true ∧
        later = { session with machine.counter.position := .unpack operand } := by
  simp only [perform, effect, bind_assoc, pure_bind, move, bind_eq_ok_iff, check_eq_ok_iff,
    Word.operand_eq_ok_iff, jump_eq_ok_iff]
  grind

theorem perform_exit_iff :
    perform word .exit session = .ok () later ↔
      later = { session with machine.running := false } := by
  simp [perform, effect, move, eq_comm]

theorem perform_lit_iff :
    perform word .lit session = .ok () later ↔
      ∃ value, session.machine.memory.get? session.machine.counter.next = some value ∧
        later = { session with
          machine.data := value :: session.machine.data
          machine.counter := session.machine.counter.advance.advance } := by
  simp only [perform, effect, bind_assoc, pure_bind, move, bind_eq_ok_iff, nextPosition_apply,
    readCell_eq_ok_iff, pushData_apply, advance_apply]
  grind

theorem perform_cout_iff :
    perform word .cout session = .ok () later ↔
      ∃ value rest, session.machine.data = value :: rest ∧
        later = { session with
          machine.data := rest
          machine.counter := session.machine.counter.advance
          output := session.output.push value.display } := by
  simp only [perform, effect, bind_assoc, pure_bind, move, bind_eq_ok_iff, popData_eq_ok_iff,
    emit_apply, advance_apply]
  grind

theorem perform_cin_iff :
    perform word .cin session = .ok () later ↔
      ∃ token rest, session.input.read = (.ok token, rest) ∧
        later = { session with
          machine.data := .ofToken token :: session.machine.data
          machine.counter := session.machine.counter.advance
          input := rest } := by
  simp only [perform, effect, bind_assoc, pure_bind, move, bind_eq_ok_iff, takeToken_eq_ok_iff,
    pushData_apply, advance_apply]
  grind

/-- A text that the counter comes to is passed over. -/
theorem perform_strlit_iff :
    perform word .strlit session = .ok () later ↔
      (word.isText = true ∨
        ∃ operand payload, word.operand? = some operand ∧
          (Address.unpack operand).isCellOf session.machine.segmentCount = true ∧
          session.machine.memory.get? (.unpack operand) = some (.text payload)) ∧
      later = { session with machine.counter := session.machine.counter.advance } := by
  cases text : word.isText with
  | true => simp [perform, effect, move, text, @eq_comm _ later]
  | false =>
    simp only [perform, effect, text, Bool.false_eq_true, if_false, false_or, bind_assoc, pure_bind,
      move, bind_eq_ok_iff,
      operandText_eq_ok_iff, advance_apply]
    grind

theorem perform_sout_iff :
    perform word .sout session = .ok () later ↔
      ∃ operand payload, word.operand? = some operand ∧
        (Address.unpack operand).isCellOf session.machine.segmentCount = true ∧
        session.machine.memory.get? (.unpack operand) = some (.text payload) ∧
        later = { session with
          machine.counter := session.machine.counter.advance
          output := session.output.push payload } := by
  simp only [perform, effect, bind_assoc, pure_bind, move, bind_eq_ok_iff, operandText_eq_ok_iff,
    emit_apply, advance_apply]
  grind

end StackMachine.Action
