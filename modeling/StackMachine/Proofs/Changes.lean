import StackMachine.Proofs.Actions

/-!
What a step can change. A step is made of a few kinds of change to a session, and a property that
each of them keeps is kept by every step, whether the step succeeds or faults, and by every run.
-/

set_option autoImplicit false

namespace StackMachine

/-- A property of sessions that no change an instruction can make destroys. A jump goes to a cell
of the counter's segments, and a write to a cell of memory. -/
structure Session.Closed (P : Session → Prop) : Prop where
  data : ∀ {session : Session} (stack : Stack), P session → P { session with machine.data := stack }
  returns : ∀ {session : Session} (stack : Stack),
    P session → P { session with machine.returns := stack }
  advance : ∀ {session : Session},
    P session → P { session with machine.counter := session.machine.counter.advance }
  jump : ∀ {session : Session} {target : Address},
    target.isCellOf session.machine.counter.segments = true →
    P session → P { session with machine.counter.position := target }
  halt : ∀ {session : Session}, P session → P { session with machine.running := false }
  write : ∀ {session : Session} {address : Address} {word : Word} {memory : Memory},
    session.machine.memory.set address word = .ok memory →
    P session → P { session with machine.memory := memory }
  input : ∀ {session : Session} (input : Input), P session → P { session with input := input }
  output : ∀ {session : Session} (output : Array String),
    P session → P { session with output := output }

namespace Action

variable {α β : Type} {P : Session → Prop}

/-- The session that an action leaves, also where it fails. -/
def left : EStateM.Result Failure Session α → Session
  | .ok _ session => session
  | .error _ session => session

def Keeps (P : Session → Prop) (action : Action α) : Prop :=
  ∀ session, P session → P (left (action session))

theorem Keeps.bind {first : Action α} {next : α → Action β} (firstKeeps : Keeps P first)
    (nextKeeps : ∀ value, Keeps P (next value)) : Keeps P (first >>= next) := by
  intro session holds
  have between := firstKeeps session holds
  change P (left (EStateM.bind first next session))
  unfold EStateM.bind
  cases outcome : first session with
  | ok value middle =>
    rw [outcome] at between
    exact nextKeeps value middle between
  | error cause failed =>
    rw [outcome] at between
    exact between

theorem keeps_pure (value : α) : Keeps P (pure value) :=
  fun _ holds => holds

theorem keeps_check (outcome : Except Failure α) : Keeps P (check outcome) := by
  intro session holds
  cases outcome <;> exact holds

theorem keeps_readCell (address : Address) : Keeps P (readCell address) := by
  intro session
  exact keeps_check _ session

theorem keeps_operandCell (word : Word) : Keeps P (operandCell word) := by
  intro session
  exact keeps_check _ session

theorem keeps_peekData (depth : Nat) : Keeps P (peekData depth) := by
  intro session
  exact keeps_check _ session

theorem keeps_operandText (word : Word) : Keeps P (operandText word) := by
  refine (keeps_operandCell word).bind fun address => (keeps_readCell address).bind fun found => ?_
  intro session holds
  cases found <;> exact holds

end Action

namespace Session.Closed

open StackMachine.Action

variable {P : Session → Prop}

theorem popData (closed : Closed P) : Keeps P popData := by
  intro session holds
  unfold Action.popData
  cases session.machine.data with
  | nil => exact holds
  | cons word rest => exact closed.data rest holds

theorem popReturn (closed : Closed P) : Keeps P popReturn := by
  intro session holds
  unfold Action.popReturn
  cases session.machine.returns with
  | nil => exact holds
  | cons word rest => exact closed.returns rest holds

theorem pushData (closed : Closed P) (word : Word) : Keeps P (pushData word) :=
  fun _ holds => closed.data _ holds

theorem pushReturn (closed : Closed P) (word : Word) : Keeps P (pushReturn word) :=
  fun _ holds => closed.returns _ holds

theorem moveOn (closed : Closed P) : Keeps P Action.advance :=
  fun _ holds => closed.advance holds

theorem jumpTo (closed : Closed P) (target : Address) : Keeps P (Action.jump target) := by
  intro session holds
  unfold Action.jump Counter.jump Address.cellOf
  by_cases inside : target.isCellOf session.machine.counter.segments
  · simpa [left, inside] using closed.jump inside holds
  · simpa [left, inside] using holds

theorem writeCell (closed : Closed P) (address : Address) (word : Word) :
    Keeps P (writeCell address word) := by
  intro session holds
  unfold Action.writeCell
  cases done : session.machine.memory.set address word with
  | ok memory => exact closed.write done holds
  | error cause => exact holds

theorem emit (closed : Closed P) (text : String) : Keeps P (emit text) :=
  fun _ holds => closed.output _ holds

theorem takeToken (closed : Closed P) : Keeps P takeToken := by
  intro session holds
  unfold Action.takeToken
  rcases session.input.read with ⟨result, rest⟩
  cases result <;> exact closed.input rest holds

theorem combineTop (closed : Closed P) (combine : Int64 → Int64 → Int64) :
    Keeps P (combineTop combine) :=
  closed.popData.bind fun _ => closed.popData.bind fun _ =>
    (closed.pushData _).bind fun _ => keeps_pure _

/-- No operation does more than the changes above. -/
theorem effect (closed : Closed P) (word : Word) (operation : Opcode) :
    Keeps P (effect word operation) := by
  cases operation with
  | nop => exact keeps_pure _
  | store =>
    exact (keeps_operandCell word).bind fun _ => closed.popData.bind fun _ =>
      (closed.writeCell _ _).bind fun _ => keeps_pure _
  | add => exact closed.combineTop _
  | sub => exact closed.combineTop _
  | rstore => exact closed.popData.bind fun _ => (closed.pushReturn _).bind fun _ => keeps_pure _
  | fetch =>
    exact (keeps_operandCell word).bind fun _ => (keeps_readCell _).bind fun _ =>
      (closed.pushData _).bind fun _ => keeps_pure _
  | and => exact closed.combineTop _
  | drop => exact closed.popData.bind fun _ => keeps_pure _
  | dup => exact (keeps_peekData 0).bind fun _ => (closed.pushData _).bind fun _ => keeps_pure _
  | or => exact closed.combineTop _
  | overCopy =>
    exact (keeps_peekData 1).bind fun _ => (closed.pushData _).bind fun _ => keeps_pure _
  | rfetch => exact closed.popReturn.bind fun _ => (closed.pushData _).bind fun _ => keeps_pure _
  | swap =>
    exact closed.popData.bind fun _ => closed.popData.bind fun _ =>
      (closed.pushData _).bind fun _ => (closed.pushData _).bind fun _ => keeps_pure _
  | xor => exact closed.combineTop _
  | branchIf =>
    exact (keeps_check word.operand).bind fun _ => closed.popData.bind fun _ => keeps_pure _
  | call => exact (keeps_check word.operand).bind fun _ => keeps_pure _
  | exit => exact keeps_pure _
  | lit =>
    exact Keeps.bind (fun _ holds => holds) fun next => (keeps_readCell next).bind fun _ =>
      (closed.pushData _).bind fun _ => keeps_pure _
  | cout => exact closed.popData.bind fun _ => (closed.emit _).bind fun _ => keeps_pure _
  | cin => exact closed.takeToken.bind fun _ => (closed.pushData _).bind fun _ => keeps_pure _
  | strlit =>
    unfold Action.effect
    cases word.isText with
    | true => exact keeps_pure _
    | false => exact (keeps_operandText word).bind fun _ => keeps_pure _
  | sout =>
    exact (keeps_operandText word).bind fun _ => (closed.emit _).bind fun _ => keeps_pure _

theorem move (closed : Closed P) (flow : Flow) : Keeps P (move flow) := by
  cases flow with
  | next => exact closed.moveOn
  | skip => exact closed.moveOn.bind fun _ => closed.moveOn
  | jump target => exact closed.jumpTo target
  | halt => exact fun _ holds => closed.halt holds

theorem enact (closed : Closed P) : Keeps P enact :=
  Keeps.bind (fun _ holds => holds) fun here => (keeps_readCell here).bind fun word =>
    (keeps_check _).bind fun operation => closed.effect word operation

theorem execute (closed : Closed P) : Keeps P execute :=
  closed.enact.bind closed.move

theorem step (closed : Closed P) {session : Session} (holds : P session) :
    P session.step.session := by
  have kept := closed.execute session holds
  unfold Session.step
  cases outcome : Action.execute session with
  | ok value next =>
    rw [outcome] at kept
    exact kept
  | error cause failed =>
    rw [outcome] at kept
    exact closed.halt kept

theorem continue? (closed : Closed P) {fuel : Nat} {session : Session} {report : Report}
    (ended : Session.continue? fuel session = some report) (holds : P session) :
    P report.session := by
  induction fuel generalizing session with
  | zero =>
    unfold Session.continue? at ended
    split at ended
    · cases ended
    · cases ended
      exact holds
  | succ fuel ih =>
    have stepped := closed.step holds
    unfold Session.continue? at ended
    split at ended
    · dsimp only at ended
      split at ended
      · rename_i next outcome
        rw [outcome] at stepped
        exact ih ended stepped
      · rename_i failed fault outcome
        cases ended
        rw [outcome] at stepped
        exact stepped
    · cases ended
      exact holds

end Session.Closed

end StackMachine
