import StackMachine.Proofs.Actions

/-!
Where the counter goes. Taking effect leaves the counter where it is, and the move after it goes on
by one cell or by two, to a target, or nowhere where it halts. Seen apart, the two halves of an
instruction show from which cells a step goes on.
-/

set_option autoImplicit false

namespace StackMachine

namespace Action

theorem counter_of_effect {session later : Session} {word : Word} {operation : Opcode} {flow : Flow}
    (done : effect word operation session = .ok flow later) :
    later.machine.counter = session.machine.counter := by
  cases operation
  case strlit =>
    cases text : word.isText <;> simp [effect, text, -bind_pure_comp] at done <;> grind
  all_goals
    simp [effect, combineTop, -bind_pure_comp] at done
    grind

theorem enact_eq {session : Session} {word : Word} {operation : Opcode}
    (found : session.machine.memory.get? session.machine.counter.position = some word)
    (known : word.opcode = operation.code) : enact session = effect word operation session := by
  unfold enact
  rw [bind_of_ok position_apply, bind_of_ok (readCell_eq_ok_iff.mpr ⟨found, rfl⟩)]
  refine bind_of_ok (check_eq_ok_iff.mpr ⟨?_, rfl⟩)
  rw [known, Opcode.ofCode, Opcode.ofCode?_code]

theorem counter_of_enact {session later : Session} {flow : Flow}
    (done : enact session = .ok flow later) :
    later.machine.counter = session.machine.counter := by
  simp only [enact, bind_eq_ok_iff, position_apply, readCell_eq_ok_iff, check_eq_ok_iff] at done
  obtain ⟨_, _, here, word, _, ⟨_, rfl⟩, operation, _, ⟨_, rfl⟩, done⟩ := done
  cases here
  exact counter_of_effect done

end Action

namespace Session

/-- The cells that the counter goes on from in the next step. `LIT` looks at the cell after its own,
and then goes on from both. -/
def goesOnFrom (session : Session) : List Address :=
  match Action.enact session with
  | .ok .next _ => [session.machine.counter.position]
  | .ok .skip _ => [session.machine.counter.position, session.machine.counter.next]
  | _ => []

theorem goesOnFrom_of_next {session later : Session}
    (enacted : Action.enact session = .ok .next later) :
    session.goesOnFrom = [later.machine.counter.position] := by
  rw [goesOnFrom, enacted, Action.counter_of_enact enacted]

theorem goesOnFrom_of_skip {session later : Session}
    (enacted : Action.enact session = .ok .skip later) :
    session.goesOnFrom = [later.machine.counter.position, later.machine.counter.next] := by
  rw [goesOnFrom, enacted, Action.counter_of_enact enacted]

/-- The sessions of a run in which an instruction is executed, in order. The last of them may be the
one in which the run faults. -/
def trace : Nat → Session → List Session
  | fuel, session =>
    if session.machine.running then
      match fuel with
      | 0 => []
      | fuel + 1 =>
        match session.step with
        | ⟨next, none⟩ => session :: trace fuel next
        | ⟨_, some _⟩ => [session]
    else []

variable {fuel : Nat} {session : Session}

theorem continue?_of_halted (halted : session.machine.running = false) :
    continue? fuel session = some ⟨session, none⟩ := by
  unfold continue?
  simp [halted]

theorem trace_of_halted (halted : session.machine.running = false) : trace fuel session = [] := by
  unfold trace
  simp [halted]

theorem continue?_succ (running : session.machine.running = true) :
    continue? (fuel + 1) session =
      match session.step with
      | ⟨next, none⟩ => continue? fuel next
      | ⟨left, some fault⟩ => some ⟨left, some fault⟩ :=
  (continue?.eq_def (fuel + 1) session).trans (if_pos running)

theorem trace_succ (running : session.machine.running = true) :
    trace (fuel + 1) session =
      match session.step with
      | ⟨next, none⟩ => session :: trace fuel next
      | ⟨_, some _⟩ => [session] :=
  (trace.eq_def (fuel + 1) session).trans (if_pos running)

theorem continue?_zero (running : session.machine.running = true) : continue? 0 session = none := by
  rw [continue?, if_pos running]

end Session

end StackMachine
