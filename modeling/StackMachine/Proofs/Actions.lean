import StackMachine.Machine.Execution

/-!
Actions taken apart. A sequence of actions succeeds if each of its parts does, and fails where the
first of them fails; for each part this says when it succeeds, and what it leaves behind.
-/

set_option autoImplicit false

namespace StackMachine

theorem Word.operand_eq_ok_iff {word : Word} {operand : UInt16} :
    word.operand = .ok operand ↔ word.operand? = some operand := by
  unfold Word.operand
  cases word.operand? <;> simp

theorem Word.operand_eq_error_iff {word : Word} {cause : Failure} :
    word.operand = .error cause ↔ word.operand? = none ∧ cause = .noOperand word.bits := by
  unfold Word.operand
  cases word.operand? <;> simp [eq_comm]

theorem Address.cellOf_eq_error_iff {address : Address} {segments : UInt8} {cause : Failure} :
    address.cellOf segments = .error cause ↔
      address.isCellOf segments = false ∧ cause = .outOfBounds address := by
  unfold Address.cellOf
  by_cases inside : address.isCellOf segments <;> simp [inside, eq_comm]

namespace Action

variable {α β : Type} {session later left : Session} {cause : Failure}

@[simp] theorem bind_eq_ok_iff {first : Action α} {next : α → Action β} {value : β} :
    (first >>= next) session = .ok value later ↔
      ∃ found between,
        first session = .ok found between ∧ next found between = .ok value later := by
  change EStateM.bind first next session = _ ↔ _
  unfold EStateM.bind
  cases first session <;> simp [and_assoc]

@[simp] theorem bind_eq_error_iff {first : Action α} {next : α → Action β} :
    (first >>= next) session = .error cause left ↔
      first session = .error cause left ∨
        ∃ found between, first session = .ok found between ∧
          next found between = .error cause left := by
  change EStateM.bind first next session = _ ↔ _
  unfold EStateM.bind
  cases first session <;> simp [and_assoc]

theorem bind_of_ok {first : Action α} {next : α → Action β} {found : α}
    (done : first session = .ok found later) : (first >>= next) session = next found later := by
  change EStateM.bind first next session = _
  simp only [EStateM.bind, done]

theorem bind_of_error {first : Action α} {next : α → Action β}
    (failed : first session = .error cause left) :
    (first >>= next) session = .error cause left := by
  change EStateM.bind first next session = _
  simp only [EStateM.bind, failed]

@[simp] theorem pure_apply (value : α) : (pure value : Action α) session = .ok value session := rfl

@[simp] theorem throw_apply : (throw cause : Action α) session = .error cause session := rfl

@[simp] theorem check_eq_ok_iff {outcome : Except Failure α} {value : α} :
    check outcome session = .ok value later ↔ outcome = .ok value ∧ later = session := by
  unfold check
  cases outcome <;> simp [eq_comm]

@[simp] theorem check_eq_error_iff {outcome : Except Failure α} :
    check outcome session = .error cause left ↔ outcome = .error cause ∧ left = session := by
  unfold check
  cases outcome <;> simp [eq_comm]

@[simp] theorem popData_eq_ok_iff {word : Word} :
    popData session = .ok word later ↔
      ∃ rest, session.machine.data = word :: rest ∧
        later = { session with machine.data := rest } := by
  unfold popData
  cases session.machine.data <;> simp [Stack.pop, and_assoc, eq_comm]

@[simp] theorem popData_eq_error_iff :
    popData session = .error cause left ↔
      session.machine.data = [] ∧ cause = .underflow .data ∧ left = session := by
  unfold popData
  cases session.machine.data <;> simp [Stack.pop, eq_comm]

@[simp] theorem popReturn_eq_ok_iff {word : Word} :
    popReturn session = .ok word later ↔
      ∃ rest, session.machine.returns = word :: rest ∧
        later = { session with machine.returns := rest } := by
  unfold popReturn
  cases session.machine.returns <;> simp [Stack.pop, and_assoc, eq_comm]

@[simp] theorem popReturn_eq_error_iff :
    popReturn session = .error cause left ↔
      session.machine.returns = [] ∧ cause = .underflow .returns ∧ left = session := by
  unfold popReturn
  cases session.machine.returns <;> simp [Stack.pop, eq_comm]

@[simp] theorem peekData_eq_ok_iff {depth : Nat} {word : Word} :
    peekData depth session = .ok word later ↔
      session.machine.data[depth]? = some word ∧ later = session := by
  unfold peekData Stack.peek
  cases session.machine.data[depth]? <;> simp

@[simp] theorem peekData_eq_error_iff {depth : Nat} :
    peekData depth session = .error cause left ↔
      session.machine.data[depth]? = none ∧ cause = .underflow .data ∧ left = session := by
  unfold peekData Stack.peek
  cases session.machine.data[depth]? <;> simp [@eq_comm _ cause]

@[simp] theorem pushData_apply (word : Word) :
    pushData word session =
      .ok () { session with machine.data := word :: session.machine.data } := rfl

@[simp] theorem pushReturn_apply (word : Word) :
    pushReturn word session =
      .ok () { session with machine.returns := word :: session.machine.returns } := rfl

@[simp] theorem position_apply : position session = .ok session.machine.counter.position session :=
  rfl

@[simp] theorem nextPosition_apply :
    nextPosition session = .ok session.machine.counter.next session := rfl

@[simp] theorem advance_apply :
    advance session = .ok () { session with machine.counter := session.machine.counter.advance } :=
  rfl

@[simp] theorem halt_apply : halt session = .ok () { session with machine.running := false } := rfl

@[simp] theorem emit_apply (text : String) :
    emit text session = .ok () { session with output := session.output.push text } := rfl

@[simp] theorem jump_eq_ok_iff {target : Address} {value : Unit} :
    jump target session = .ok value later ↔
      target.isCellOf session.machine.counter.segments ∧
        later = { session with machine.counter.position := target } := by
  unfold jump Counter.jump Address.cellOf
  by_cases inside : target.isCellOf session.machine.counter.segments <;> simp [inside, eq_comm]

@[simp] theorem jump_eq_error_iff {target : Address} :
    jump target session = .error cause left ↔
      target.isCellOf session.machine.counter.segments = false ∧
        cause = .outOfBounds target ∧ left = session := by
  unfold jump Counter.jump Address.cellOf
  by_cases inside : target.isCellOf session.machine.counter.segments <;> simp [inside, eq_comm]

@[simp] theorem readCell_eq_ok_iff {address : Address} {word : Word} :
    readCell address session = .ok word later ↔
      session.machine.memory.get? address = some word ∧ later = session := by
  unfold readCell Memory.get
  cases session.machine.memory.get? address <;> simp

@[simp] theorem readCell_eq_error_iff {address : Address} :
    readCell address session = .error cause left ↔
      session.machine.memory.get? address = none ∧
        cause = .outOfBounds address ∧ left = session := by
  unfold readCell Memory.get
  cases session.machine.memory.get? address <;> simp [@eq_comm _ cause]

@[simp] theorem writeCell_eq_ok_iff {address : Address} {word : Word} {value : Unit} :
    writeCell address word session = .ok value later ↔
      ∃ memory, session.machine.memory.set address word = .ok memory ∧
        later = { session with machine.memory := memory } := by
  unfold writeCell
  cases session.machine.memory.set address word <;> simp [eq_comm]

@[simp] theorem writeCell_eq_error_iff {address : Address} {word : Word} :
    writeCell address word session = .error cause left ↔
      session.machine.memory.get? address = none ∧
        cause = .outOfBounds address ∧ left = session := by
  unfold writeCell Memory.set
  cases session.machine.memory.get? address <;> simp [eq_comm]

@[simp] theorem operandCell_eq_ok_iff {word : Word} {address : Address} :
    operandCell word session = .ok address later ↔
      ∃ operand, word.operand? = some operand ∧ .unpack operand = address ∧
        (Address.unpack operand).isCellOf session.machine.segmentCount ∧ later = session := by
  unfold operandCell Word.operand
  cases word.operand? with
  | none => simp [Except.bind]
  | some operand =>
    by_cases inside : (Address.unpack operand).isCellOf session.machine.segmentCount <;>
      simp [Except.bind, Address.cellOf, inside]

@[simp] theorem operandCell_eq_error_iff {word : Word} :
    operandCell word session = .error cause left ↔
      (word.operand? = none ∧ cause = .noOperand word.bits ∨
        ∃ operand, word.operand? = some operand ∧
          (Address.unpack operand).isCellOf session.machine.segmentCount = false ∧
          cause = .outOfBounds (.unpack operand)) ∧ left = session := by
  unfold operandCell Word.operand
  cases word.operand? with
  | none => simp [Except.bind, @eq_comm _ cause]
  | some operand => simp [Except.bind, Address.cellOf_eq_error_iff]

@[simp] theorem takeToken_eq_ok_iff {token : String} :
    takeToken session = .ok token later ↔
      ∃ rest, session.input.read = (.ok token, rest) ∧ later = { session with input := rest } := by
  unfold takeToken
  rcases session.input.read with ⟨result, rest⟩
  cases result <;> simp [and_assoc, eq_comm]

@[simp] theorem takeToken_eq_error_iff :
    takeToken session = .error cause left ↔
      ∃ rest, session.input.read = (.error cause, rest) ∧
        left = { session with input := rest } := by
  unfold takeToken
  rcases session.input.read with ⟨result, rest⟩
  cases result <;> simp [and_assoc, eq_comm]

/-- Only a text in the cell of an operand can be taken from there. -/
@[simp] theorem operandText_eq_ok_iff {word : Word} {payload : String} :
    operandText word session = .ok payload later ↔
      ∃ operand, word.operand? = some operand ∧
        (Address.unpack operand).isCellOf session.machine.segmentCount ∧
        session.machine.memory.get? (.unpack operand) = some (.text payload) ∧
        later = session := by
  unfold operandText
  constructor
  · intro taken
    simp only [bind_eq_ok_iff, operandCell_eq_ok_iff, readCell_eq_ok_iff] at taken
    obtain ⟨_, _, ⟨operand, carried, rfl, inside, rfl⟩, word, _, ⟨stored, rfl⟩, taken⟩ := taken
    cases word <;> simp at taken
    obtain ⟨rfl, rfl⟩ := taken
    exact ⟨operand, carried, inside, stored, rfl⟩
  · rintro ⟨operand, carried, inside, stored, rfl⟩
    simp only [bind_eq_ok_iff, operandCell_eq_ok_iff, readCell_eq_ok_iff]
    exact ⟨_, _, ⟨operand, carried, rfl, inside, rfl⟩, _, _, ⟨stored, rfl⟩, rfl⟩

@[simp] theorem operandText_eq_error_iff {word : Word} :
    operandText word session = .error cause left ↔
      operandCell word session = .error cause left ∨
        ∃ operand, word.operand? = some operand ∧
          (Address.unpack operand).isCellOf session.machine.segmentCount ∧ left = session ∧
          (session.machine.memory.get? (.unpack operand) = none ∧
              cause = .outOfBounds (.unpack operand) ∨
            ∃ other, session.machine.memory.get? (.unpack operand) = some other ∧
              other.isText = false ∧
              cause = .invalidOperand (.notText (.unpack operand) other.bits)) := by
  unfold operandText
  rw [bind_eq_error_iff]
  refine or_congr Iff.rfl ?_
  constructor
  · intro failed
    simp only [bind_eq_error_iff, operandCell_eq_ok_iff, readCell_eq_ok_iff,
      readCell_eq_error_iff] at failed
    obtain ⟨_, _, ⟨operand, carried, rfl, inside, rfl⟩, failed⟩ := failed
    rcases failed with ⟨missing, rfl, rfl⟩ | ⟨other, _, ⟨stored, rfl⟩, failed⟩
    · exact ⟨operand, carried, inside, rfl, Or.inl ⟨missing, rfl⟩⟩
    · cases other <;> simp at failed <;> obtain ⟨rfl, rfl⟩ := failed <;>
        exact ⟨operand, carried, inside, rfl, Or.inr ⟨_, stored, rfl, rfl⟩⟩
  · rintro ⟨operand, carried, inside, rfl, failed⟩
    simp only [bind_eq_error_iff, operandCell_eq_ok_iff, readCell_eq_ok_iff,
      readCell_eq_error_iff]
    refine ⟨_, _, ⟨operand, carried, rfl, inside, rfl⟩, ?_⟩
    rcases failed with ⟨missing, rfl⟩ | ⟨other, stored, plain, rfl⟩
    · exact Or.inl ⟨missing, rfl, rfl⟩
    · refine Or.inr ⟨other, _, ⟨stored, rfl⟩, ?_⟩
      cases other with
      | text payload => cases plain
      | instruction code operand => rfl
      | literal value => rfl

end Action

end StackMachine
