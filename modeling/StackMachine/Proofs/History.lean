import StackMachine.Proofs.Unseen

/-!
What is left of the past. Clearing makes a machine as it was when it was built, whatever happened to
it; resetting does so but for memory and the count of filled cells. A run starts from the first
cell, and of the machine it sees memory and the stacks only.
-/

set_option autoImplicit false

namespace StackMachine

theorem Memory.Whole.clear_eq {memory : Memory} {segments : UInt8}
    (whole : memory.Whole segments) : memory.clear = (Machine.fresh segments).memory := by
  unfold Memory.clear Machine.fresh
  congr 1
  apply Array.ext
  · rw [Array.size_map, Array.size_replicate, whole.count]
  · intro segment below _
    rw [Array.size_map] at below
    rw [Array.getElem_map, Array.getElem_replicate, Array.map_const',
      whole.length _ (Array.getElem_mem below)]

namespace Machine

variable {machine : Machine} {segments : UInt8}

theorem Sound.rewind_eq (sound : machine.Sound segments) :
    machine.counter.rewind = .new segments := by
  rw [Counter.rewind, sound.counter]
  rfl

theorem Sound.clear_eq (sound : machine.Sound segments) :
    machine.clear = Machine.fresh segments := by
  rw [Machine.clear, Machine.reset, sound.memory.clear_eq, sound.rewind_eq]
  rfl

theorem Sound.reset_eq (sound : machine.Sound segments) :
    machine.reset =
      { Machine.fresh segments with memory := machine.memory, filled := machine.filled } := by
  rw [Machine.reset, sound.rewind_eq]
  rfl

theorem Reachable.exists_new (reached : machine.Reachable segments) :
    Machine.new segments = .ok (fresh segments) := by
  induction reached with
  | new built =>
    obtain ⟨positive, few, _⟩ := new_eq_ok_iff.mp built
    exact new_eq_ok_iff.mpr ⟨positive, few, rfl⟩
  | place _ _ _ ih => exact ih
  | load _ _ ih => exact ih
  | step _ ih => exact ih
  | run _ _ ih => exact ih
  | reset _ ih => exact ih
  | clear _ ih => exact ih

end Machine

/-- Runs that ended in the same way and left the same. How many cells were filled may differ. -/
structure Report.Matches (one other : Report) : Prop where
  fault? : one.fault? = other.fault?
  output : one.session.output = other.session.output
  input : one.session.input = other.session.input
  memory : one.session.machine.memory = other.session.machine.memory
  data : one.session.machine.data = other.session.machine.data
  returns : one.session.machine.returns = other.session.machine.returns
  counter : one.session.machine.counter = other.session.machine.counter

/-- Machines with the same memory and the same stacks are started in the same way, wherever they
stood and however many cells were filled. -/
theorem Session.run?_matches {one other : Machine} (memory : one.memory = other.memory)
    (data : one.data = other.data) (returns : one.returns = other.returns)
    (segments : one.counter.segments = other.counter.segments) (input : Input)
    (output : Array String) (fuel : Nat) :
    Option.Rel Report.Matches (Session.run? fuel ⟨one, input, output⟩)
      (Session.run? fuel ⟨other, input, output⟩) := by
  have started : (⟨other.start, input, output⟩ : Session) =
      (⟨one.start, input, output⟩ : Session).outside other.filled input := by
    have counter : other.counter.rewind = one.counter.rewind := by
      rw [Counter.rewind, Counter.rewind, segments]
    rw [Machine.start, Machine.start, Session.outside, memory, data, returns, counter]
  have paired : (Pairing.unseen (fun _ _ => True) Eq).sessions
      ⟨one.start, input, output⟩ ⟨other.start, input, output⟩ :=
    ⟨other.filled, input, started, trivial, rfl⟩
  have reads : ∀ {one other : Input}, one = other →
      one.read.1 = other.read.1 ∧ one.read.2 = other.read.2 := by
    rintro one _ rfl
    exact ⟨rfl, rfl⟩
  have related := Pairing.continue?_unseen (Pairing.agree_takeToken_unseen reads) fuel paired
  rw [Session.run?, Session.run?]
  generalize Session.continue? fuel _ = first at related ⊢
  generalize Session.continue? fuel _ = second at related ⊢
  cases related with
  | none => exact .none
  | @some a b reports =>
    obtain ⟨same, _, _, later, _, sameInput⟩ := reports
    refine .some ⟨same, ?_, ?_, ?_, ?_, ?_, ?_⟩
    · rw [later]; rfl
    · rw [later]; exact sameInput
    · rw [later]; rfl
    · rw [later]; rfl
    · rw [later]; rfl
    · rw [later]; rfl

/-- The past of a machine does not show. Clearing makes it equal to the machine that was built, and
resetting leaves only memory and the count of filled cells; a run depends on segments, memory,
stacks and input alone. -/
theorem history_forgotten (segments : UInt8) (machine : Machine)
    (reached : machine.Reachable segments) :
    ∃ built, Machine.new segments = .ok built ∧ machine.clear = built ∧
      machine.reset = { built with memory := machine.memory, filled := machine.filled } ∧
      ∀ other : Machine, other.counter.segments = segments → other.memory = machine.memory →
        other.data = machine.data → other.returns = machine.returns →
        ∀ (input : Input) (output : Array String) (fuel : Nat),
          Option.Rel Report.Matches (Session.run? fuel ⟨machine, input, output⟩)
            (Session.run? fuel ⟨other, input, output⟩) := by
  have sound := reached.sound
  refine ⟨_, reached.exists_new, sound.clear_eq, sound.reset_eq, ?_⟩
  intro other count memory data returns input output fuel
  exact Session.run?_matches memory.symm data.symm returns.symm (sound.counter.trans count.symm)
    input output fuel

/-- A machine that has faulted for want of a word to drop. Cleared, it is the machine that was
built; run again, it does the same as a machine with its memory and its stacks that stands
elsewhere. -/
theorem history_forgotten_fault :
    let program := [Word.instruction Opcode.drop.code none]
    let session : Session := ⟨((Machine.fresh 1).load program).1.reset, .ofTokens [], #[]⟩
    let machine := session.step.session.machine
    session.step.fault?.isSome = true ∧ machine.clear = Machine.fresh 1 ∧
      Option.Rel Report.Matches (Session.run? 3 ⟨machine, .ofTokens [], #[]⟩)
        (Session.run? 3 ⟨{ machine with counter.position := ⟨0, 7⟩, filled := 0, running := true },
          .ofTokens [], #[]⟩) := by
  intro program session machine
  have reached : machine.Reachable 1 :=
    .step (.reset (.load _ (.new (Machine.new_eq_ok_iff.mpr ⟨by decide, by decide, rfl⟩))))
  have faulted : session.step.fault?.isSome = true := by decide +kernel
  obtain ⟨built, new, cleared, _, runs⟩ := history_forgotten 1 machine reached
  obtain ⟨_, _, rfl⟩ := Machine.new_eq_ok_iff.mp new
  refine ⟨faulted, cleared, ?_⟩
  have counter : machine.counter.segments = 1 := reached.sound.counter
  clear_value machine
  exact runs { machine with counter.position := ⟨0, 7⟩, filled := 0, running := true } counter rfl
    rfl rfl (.ofTokens []) #[] 3

end StackMachine
