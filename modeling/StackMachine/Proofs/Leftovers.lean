import StackMachine.Proofs.Lockstep

/-!
Words left over on the stacks. A program works on the tops of its stacks only, so words that lie
below are still there when it ends, and all else is as it would be without them. Only a program that
reaches for a word that is not there could find one of them instead.
-/

set_option autoImplicit false

namespace StackMachine

/-- The same session with more words at the bottom of both stacks, the oldest of them first. -/
def Session.onto (session : Session) (data returns : List Word) : Session :=
  { session with
    machine.data := session.machine.data ++ data.reverse
    machine.returns := session.machine.returns ++ returns.reverse }

theorem Session.bottomUp_onto (session : Session) (data returns : List Word) :
    (session.onto data returns).machine.data.bottomUp = data ++ session.machine.data.bottomUp ∧
      (session.onto data returns).machine.returns.bottomUp =
        returns ++ session.machine.returns.bottomUp := by
  simp [onto, Stack.bottomUp]

namespace Pairing

/-- A session belongs to the same session on top of other words. A first side that runs out of
words is excused. -/
def leftovers (data returns : List Word) : Pairing where
  sessions one other := other = one.onto data returns
  words := Eq
  excused cause := ∃ name, cause = .underflow name

variable {data returns : List Word}

theorem agree_popData_leftovers :
    (leftovers data returns).Agree Eq Action.popData Action.popData := by
  rintro one _ rfl
  unfold Action.popData Session.onto
  cases one.machine.data with
  | nil => exact .excused ⟨_, rfl⟩
  | cons word rest => exact .ok rfl rfl

theorem agree_popReturn_leftovers :
    (leftovers data returns).Agree Eq Action.popReturn Action.popReturn := by
  rintro one _ rfl
  unfold Action.popReturn Session.onto
  cases one.machine.returns with
  | nil => exact .excused ⟨_, rfl⟩
  | cons word rest => exact .ok rfl rfl

theorem agree_peekData_leftovers (depth : Nat) :
    (leftovers data returns).Agree Eq (Action.peekData depth) (Action.peekData depth) := by
  rintro one _ rfl
  unfold Action.peekData Stack.peek
  cases found : one.machine.data[depth]? with
  | none => exact .excused ⟨_, rfl⟩
  | some word =>
    have below : (one.machine.data ++ data.reverse)[depth]? = some word := by
      rw [List.getElem?_append_left (List.getElem?_eq_some_iff.mp found).1, found]
    simp only [Session.onto, below]
    exact .ok rfl rfl

/-- What does not touch the stacks is done in the same way above other words. -/
theorem agree_leftovers {α : Type} {action : Action α}
    (apart : ∀ session : Session, action (session.onto data returns) =
      match action session with
      | .ok value later => .ok value (later.onto data returns)
      | .error cause left => .error cause (left.onto data returns)) :
    (leftovers data returns).Agree Eq action action := by
  rintro one _ rfl
  rw [apart one]
  cases action one with
  | ok value later => exact .ok rfl rfl
  | error cause left => exact .error rfl

theorem kept_leftovers : (leftovers data returns).Kept where
  running paired := by rw [paired]; rfl
  opcode paired := by rw [paired]; rfl
  segments paired := by rw [paired]; rfl
  refl _ := rfl
  alike same := same ▸ .refl _
  combine _ first second := by rw [first, second]; rfl
  position := agree_leftovers fun _ => rfl
  nextPosition := agree_leftovers fun _ => rfl
  advance := agree_leftovers fun _ => rfl
  jump target := agree_leftovers fun session => by
    simp only [Action.jump, Session.onto]
    cases session.machine.counter.jump target <;> rfl
  halt := agree_leftovers fun _ => rfl
  popData := agree_popData_leftovers
  pushData same := same ▸ agree_leftovers fun _ => rfl
  peekData := agree_peekData_leftovers
  popReturn := agree_popReturn_leftovers
  pushReturn same := same ▸ agree_leftovers fun _ => rfl
  readCell address := agree_leftovers fun session => by
    simp only [Action.readCell, Session.onto]
    cases session.machine.memory.get address <;> rfl
  writeCell address _ _ same := same ▸ agree_leftovers fun session => by
    simp only [Action.writeCell, Session.onto]
    cases session.machine.memory.set address _ <;> rfl
  takeToken := agree_leftovers fun session => by
    simp only [Action.takeToken, Session.onto]
    rcases session.input.read with ⟨_ | _, rest⟩ <;> rfl
  emit text := agree_leftovers fun _ => rfl

end Pairing

/-- A run that ends without running out of words ends in the same way on top of other words, after
as many steps, and leaves these words where they were. -/
theorem run_onto (session : Session) (data returns : List Word) (fuel : Nat) (report : Report)
    (ended : session.run? fuel = some report)
    (enough : ∀ fault name, report.fault? = some fault → fault.cause ≠ .underflow name) :
    (session.onto data returns).run? fuel =
      some ⟨report.session.onto data returns, report.fault?⟩ := by
  have kept : (Pairing.leftovers data returns).Kept := Pairing.kept_leftovers
  have prints : (Pairing.leftovers data returns).Prints := by
    intro a b same
    obtain rfl : a = b := same
    exact kept.emit _
  have started : (Pairing.leftovers data returns).sessions
      { session with machine := session.machine.start }
      { session.onto data returns with machine := (session.onto data returns).machine.start } := rfl
  have ends := kept.continue? prints fuel started
  rw [Session.run?] at ended ⊢
  rw [ended] at ends
  rcases ends with ⟨_, same, fault, faulted, name, underflow⟩ | related
  · cases same
    exact absurd underflow (enough fault name faulted)
  · generalize Session.continue? fuel _ = outcome at related ⊢
    cases related with
    | @some _ other reports =>
      obtain ⟨left, fault?⟩ := other
      obtain ⟨same, rfl⟩ := reports
      cases same
      rfl

/-- A program that prints a number and exits, run above a word on each stack. -/
theorem run_onto_cout :
    let program := [Word.instruction Opcode.lit.code none, .literal 7,
      .instruction Opcode.cout.code none, .instruction Opcode.exit.code none]
    let session : Session := ⟨((Machine.fresh 1).load program).1, .ofTokens [], #[]⟩
    ∃ report, (session.onto [.nop] [.falseWord]).run? 3 = some report ∧ report.fault? = none ∧
      report.session.output = #["7"] ∧ report.session.machine.data.bottomUp = [.nop] ∧
      report.session.machine.returns.bottomUp = [.falseWord] := by
  intro program session
  have alone : (session.run? 3).map (fun report => (report.fault?, report.session.output,
      report.session.machine.data, report.session.machine.returns)) =
        some (none, #["7"], [], []) := by
    decide +kernel
  obtain ⟨report, ended, parts⟩ := Option.map_eq_some_iff.mp alone
  simp only [Prod.mk.injEq] at parts
  obtain ⟨halted, printed, data, returns⟩ := parts
  have above := run_onto session [.nop] [.falseWord] 3 report ended (by simp [halted])
  obtain ⟨below, belowReturns⟩ := report.session.bottomUp_onto [.nop] [.falseWord]
  refine ⟨_, above, halted, printed, ?_, ?_⟩
  · rw [below, data]
    rfl
  · rw [belowReturns, returns]
    rfl

end StackMachine
