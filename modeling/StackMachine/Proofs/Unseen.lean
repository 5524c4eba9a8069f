import StackMachine.Proofs.Lockstep

/-!
What an instruction cannot see: how many cells have been filled, and, unless it takes input, which
input there is. Sessions that differ in nothing else stay so from step to step.
-/

set_option autoImplicit false

namespace StackMachine

/-- The same session with another count of filled cells and another input. -/
def Session.outside (session : Session) (filled : Nat) (input : Input) : Session :=
  { session with machine.filled := filled, input := input }

/-- An action that neither sees nor changes the count of filled cells and the input. -/
def Action.Blind {α : Type} (action : Action α) : Prop :=
  ∀ (session : Session) (filled : Nat) (input : Input),
    action (session.outside filled input) =
      match action session with
      | .ok value later => .ok value (later.outside filled input)
      | .error cause left => .error cause (left.outside filled input)

namespace Action

variable {α : Type} {action : Action α} {session later : Session}

/-- Since it cannot change them, a blind action leaves both as they are. -/
theorem Blind.ok (blind : Blind action) {value : α} (done : action session = .ok value later) :
    later.machine.filled = session.machine.filled ∧ later.input = session.input := by
  have same := blind session session.machine.filled session.input
  rw [show session.outside session.machine.filled session.input = session from rfl, done] at same
  have later_eq := (EStateM.Result.ok.inj same).2
  rw [later_eq]
  exact ⟨rfl, rfl⟩

theorem Blind.error (blind : Blind action) {cause : Failure}
    (failed : action session = .error cause later) :
    later.machine.filled = session.machine.filled ∧ later.input = session.input := by
  have same := blind session session.machine.filled session.input
  rw [show session.outside session.machine.filled session.input = session from rfl, failed] at same
  have later_eq := (EStateM.Result.error.inj same).2
  rw [later_eq]
  exact ⟨rfl, rfl⟩

theorem blind_check (outcome : Except Failure α) : Blind (check outcome) := by
  intro session filled input
  cases outcome <;> rfl

theorem blind_popData : Blind popData := by
  intro session filled input
  simp only [popData, Session.outside]
  cases session.machine.data.pop .data <;> rfl

theorem blind_popReturn : Blind popReturn := by
  intro session filled input
  simp only [popReturn, Session.outside]
  cases session.machine.returns.pop .returns <;> rfl

theorem blind_jump (target : Address) : Blind (jump target) := by
  intro session filled input
  simp only [jump, Session.outside]
  cases session.machine.counter.jump target <;> rfl

theorem blind_writeCell (address : Address) (word : Word) : Blind (writeCell address word) := by
  intro session filled input
  simp only [writeCell, Session.outside]
  cases session.machine.memory.set address word <;> rfl

theorem blind_peekData (depth : Nat) : Blind (peekData depth) := by
  intro session
  exact blind_check (session.machine.data.peek .data depth) session

theorem blind_readCell (address : Address) : Blind (readCell address) := by
  intro session
  exact blind_check (session.machine.memory.get address) session

theorem blind_operandCell (word : Word) : Blind (operandCell word) := by
  intro session
  exact blind_check (word.operand.bind fun operand =>
    (Address.unpack operand).cellOf session.machine.segmentCount) session

end Action

namespace Pairing

/-- Sessions that differ only in the count of filled cells and in the input, where counts and inputs
belong together in some way. -/
def unseen (counts : Nat → Nat → Prop) (inputs : Input → Input → Prop) : Pairing where
  sessions one other := ∃ filled input, other = one.outside filled input ∧
    counts one.machine.filled filled ∧ inputs one.input input
  words := Eq
  excused _ := False

variable {counts : Nat → Nat → Prop} {inputs : Input → Input → Prop}

theorem agree_of_blind {α : Type} {action : Action α} (blind : action.Blind) :
    (unseen counts inputs).Agree Eq action action := by
  rintro one _ ⟨filled, input, rfl, count, source⟩
  rw [blind one filled input]
  cases outcome : action one with
  | ok value later =>
    obtain ⟨sameFilled, sameInput⟩ := blind.ok outcome
    exact .ok rfl ⟨filled, input, rfl, sameFilled ▸ count, sameInput ▸ source⟩
  | error cause left =>
    obtain ⟨sameFilled, sameInput⟩ := blind.error outcome
    exact .error ⟨filled, input, rfl, sameFilled ▸ count, sameInput ▸ source⟩

/-- Taking effect is blind, but for the taking of input. -/
theorem effects_unseen : (unseen counts inputs).Effects where
  refl _ := rfl
  alike same := same ▸ .refl _
  combine _ first second := by rw [first, second]; rfl
  popData := agree_of_blind Action.blind_popData
  pushData same := same ▸ agree_of_blind fun _ _ _ => rfl
  peekData depth := agree_of_blind (Action.blind_peekData depth)
  popReturn := agree_of_blind Action.blind_popReturn
  pushReturn same := same ▸ agree_of_blind fun _ _ _ => rfl
  readCell address := agree_of_blind (Action.blind_readCell address)
  writeCell address _ _ same := same ▸ agree_of_blind (Action.blind_writeCell address _)
  operandCell same := same ▸ agree_of_blind (Action.blind_operandCell _)
  emit _ := agree_of_blind fun _ _ _ => rfl

theorem move_unseen (flow : Flow) :
    (unseen counts inputs).Agree Eq (Action.move flow) (Action.move flow) := by
  cases flow with
  | next => exact agree_of_blind fun _ _ _ => rfl
  | skip => exact agree_of_blind fun _ _ _ => rfl
  | jump target => exact agree_of_blind (Action.blind_jump target)
  | halt => exact agree_of_blind fun _ _ _ => rfl

theorem step_unseen {one other : Session} (paired : (unseen counts inputs).sessions one other)
    (reads : one.machine.currentOpcode = Opcode.cin.code →
      (unseen counts inputs).Outcomes Eq (Action.takeToken one) (Action.takeToken other)) :
    (unseen counts inputs).Reports one.step other.step := by
  have outside := paired
  obtain ⟨filled, input, rfl, _⟩ := outside
  have stepped := effects_unseen.step paired rfl rfl
    (fun _ _ _ same => same ▸ agree_of_blind fun _ _ _ => rfl) (fun _ => rfl) reads
    (fun _ _ enacted => move_unseen _ _ _ enacted) (agree_of_blind fun _ _ _ => rfl)
  rcases stepped with ⟨_, _, excused⟩ | reports
  · exact excused.elim
  · exact reports

theorem agree_takeToken_unseen
    (same : ∀ {one other : Input}, inputs one other →
      one.read.1 = other.read.1 ∧ inputs one.read.2 other.read.2) :
    (unseen counts inputs).Agree Eq Action.takeToken Action.takeToken := by
  rintro one _ ⟨filled, input, rfl, count, source⟩
  obtain ⟨result, rest⟩ := same source
  simp only [Action.takeToken, Session.outside]
  generalize one.input.read = first at result rest
  generalize input.read = second at result rest
  obtain ⟨outcome, after⟩ := first
  obtain ⟨alsoOutcome, alsoAfter⟩ := second
  cases result
  cases outcome with
  | ok token => exact .ok rfl ⟨filled, alsoAfter, rfl, count, rest⟩
  | error cause => exact .error ⟨filled, alsoAfter, rfl, count, rest⟩

theorem running_unseen {one other : Session} (paired : (unseen counts inputs).sessions one other) :
    one.machine.running = other.machine.running := by
  obtain ⟨_, _, rfl, _⟩ := paired
  rfl

theorem continue?_unseen
    (reads : (unseen counts inputs).Agree Eq Action.takeToken Action.takeToken) (fuel : Nat)
    {one other : Session} (paired : (unseen counts inputs).sessions one other) :
    Option.Rel (unseen counts inputs).Reports (Session.continue? fuel one)
      (Session.continue? fuel other) := by
  have ends := continue?_of_step (P := fun _ => True) running_unseen
    (fun paired _ => .inr (step_unseen paired fun _ => reads _ _ paired)) fuel paired
    fun _ _ => trivial
  rcases ends with ⟨_, _, _, _, excused⟩ | related
  · exact excused.elim
  · exact related

end Pairing

/-- A step that takes no input is the same step whatever is outside of it. -/
theorem Session.step_outside {session : Session}
    (silent : session.machine.currentOpcode ≠ Opcode.cin.code) (filled : Nat) (input : Input) :
    (session.outside filled input).step =
        ⟨session.step.session.outside filled input, session.step.fault?⟩ ∧
      session.step.session.machine.filled = session.machine.filled ∧
      session.step.session.input = session.input := by
  let counts (before after : Nat) : Prop := before = session.machine.filled ∧ after = filled
  let inputs (before after : Input) : Prop := before = session.input ∧ after = input
  have paired : (Pairing.unseen counts inputs).sessions session (session.outside filled input) :=
    ⟨filled, input, rfl, ⟨rfl, rfl⟩, rfl, rfl⟩
  obtain ⟨sameFault, count, source, same, ⟨sameFilled, rfl⟩, sameInput, rfl⟩ :=
    Pairing.step_unseen paired fun reading => absurd reading silent
  refine ⟨?_, sameFilled, sameInput⟩
  generalize (session.outside count source).step = report at sameFault same ⊢
  obtain ⟨left, fault?⟩ := report
  dsimp only at same sameFault
  rw [same, sameFault]

end StackMachine
