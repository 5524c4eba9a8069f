import StackMachine.Proofs.Faults
import StackMachine.Proofs.Items
import StackMachine.Proofs.Reading

/-!
What a fault leaves, and where a run ends. A step that faults has touched the data stack at most,
and that only where it took words off before the failure showed. So a run that faults ends where the
fault says; a run that does not ends at an `EXIT`, and no further step leads away from there.
-/

set_option autoImplicit false

namespace StackMachine

namespace Session

def Starves (session : Session) (word : Word) : Prop :=
  (∃ operation ∈ [Opcode.add, .sub, .and, .or, .xor, .swap], word.opcode = operation.code) ∧
    session.machine.data.length = 1

/-- A branch is taken, and its target lies outside of memory. -/
def Strays (session : Session) (word : Word) : Prop :=
  ∃ operand condition rest, word = .instruction Opcode.branchIf.code (some operand) ∧
    session.machine.data = condition :: rest ∧ condition.isTrue = true ∧
    (Address.unpack operand).isCellOf session.machine.segmentCount = false

variable {session left next : Session} {segments : UInt8} {word : Word} {operation : Opcode}
  {cause : Failure} {fault : Fault}

/-- An operation that is abandoned has changed the data stack and the input at most. -/
theorem abandoned_eq (session : Session) (word : Word) (operation : Opcode) :
    session.abandoned word operation = { session with
      machine.data := (session.abandoned word operation).machine.data
      input := (session.abandoned word operation).input } := by
  cases operation with
  | branchIf =>
    simp only [abandoned]
    split <;> rfl
  | _ => rfl

/-- Of a queue, nothing is lost: what is refused is a read from an empty one. -/
theorem input_abandoned {tokens : List String} (queue : session.input = .ofTokens tokens)
    (lacking : session.lack word operation = some cause) :
    (session.abandoned word operation).input = session.input := by
  cases operation with
  | branchIf =>
    simp only [abandoned]
    split <;> rfl
  | cin =>
    cases tokens with
    | nil => rw [abandoned, queue, Input.read_ofTokens_nil]
    | cons token rest =>
      rw [lack, Lack.token, queue, Input.future_ofTokens] at lacking
      cases lacking
  | _ => rfl

theorem not_strays_of_code (known : word.opcode = operation.code) (other : operation ≠ .branchIf) :
    ¬ session.Strays word := by
  rintro ⟨operand, _, _, rfl, _⟩
  exact other (Opcode.code_injective known.symm)

theorem not_starves_of_code (known : word.opcode = operation.code)
    (other : operation ∉ [Opcode.add, .sub, .and, .or, .xor, .swap]) :
    ¬ session.Starves word := by
  rintro ⟨⟨named, member, code⟩, _⟩
  rw [known] at code
  exact other (Opcode.code_injective code ▸ member)

/-- What a failure leaves of the data stack: it is as it was but in two cases. -/
structure Spares (session : Session) (word : Word) (data : Stack) : Prop where
  starved : session.Starves word → data = []
  strayed : session.Strays word → data = session.machine.data.tail
  otherwise : ¬ session.Starves word → ¬ session.Strays word → data = session.machine.data

/-- A stack that is as it was is what neither case leaves. -/
theorem spares_same (fed : ¬ session.Starves word) (straight : ¬ session.Strays word) :
    session.Spares word session.machine.data where
  starved starved := absurd starved fed
  strayed strayed := absurd strayed straight
  otherwise _ _ := rfl

theorem spares_of_two (known : word.opcode = operation.code)
    (two : operation ∈ [Opcode.add, .sub, .and, .or, .xor, .swap])
    (lacking : Lack.words .data 2 session.machine.data = some cause) :
    session.Spares word [] := by
  have straight : ¬ session.Strays word := by
    apply not_strays_of_code known
    rintro rfl
    exact absurd two (by decide)
  have short : session.machine.data.length < 2 := by
    by_contra enough
    rw [Lack.words, if_neg enough] at lacking
    cases lacking
  refine ⟨fun _ => rfl, fun strayed => absurd strayed straight, ?_⟩
  intro fed _
  have apart : session.machine.data.length ≠ 1 := fun one => fed ⟨⟨operation, two, known⟩, one⟩
  exact (List.eq_nil_of_length_eq_zero (by omega)).symm

/-- A branch that fails with an operand has taken a word off the stack, or found none there. -/
theorem spares_of_branch (known : word.opcode = Opcode.branchIf.code)
    (lacking : session.lack word .branchIf = some cause) :
    session.Spares word (session.abandoned word .branchIf).machine.data := by
  have fed : ¬ session.Starves word := not_starves_of_code known (by decide)
  cases carried : word.operand? with
  | none =>
    have straight : ¬ session.Strays word := by
      rintro ⟨operand, _, _, rfl, _⟩
      cases carried
    simpa [abandoned, carried] using spares_same fed straight
  | some operand =>
    have tail : (session.abandoned word .branchIf).machine.data = session.machine.data.tail := by
      simp [abandoned, carried]
    rw [tail]
    refine ⟨fun starved => absurd starved fed, fun _ => rfl, ?_⟩
    intro _ straight
    rcases stack : session.machine.data with _ | ⟨condition, rest⟩
    · rfl
    · -- Operand and condition are there, so what is lacking is the target: the branch strays.
      have missed : condition.isTrue = true ∧
          (Address.unpack operand).isCellOf session.machine.segmentCount = false := by
        simp [lack, Lack.operand, Lack.words, Lack.cell, carried, stack] at lacking
        exact ⟨lacking.1, lacking.2.1⟩
      exfalso
      apply straight
      refine ⟨operand, condition, rest, ?_, stack, missed⟩
      rw [← known]
      exact Word.eq_instruction carried

theorem spares_abandoned (known : word.opcode = operation.code)
    (lacking : session.lack word operation = some cause) :
    session.Spares word (session.abandoned word operation).machine.data := by
  cases operation with
  | add | sub | and | or | xor | swap => exact spares_of_two known (by decide) lacking
  | branchIf => exact spares_of_branch known lacking
  | _ => exact spares_same (not_starves_of_code known (by decide)) (not_strays_of_code known nofun)

/-- A step that faults either finds no operation for the word, or abandons the one it finds. -/
theorem step_faulted_cases (sound : session.machine.Sound segments)
    (found : session.machine.memory.get? session.machine.counter.position = some word)
    (stepped : session.step = ⟨left, some fault⟩) :
    fault.opcode = word.opcode ∧ fault.location = session.machine.counter.position ∧
      (Opcode.ofCode? word.opcode = none ∧ left = { session with machine.running := false } ∨
        ∃ operation, word.opcode = operation.code ∧
          session.lack word operation = some fault.cause ∧
          left = { session.abandoned word operation with machine.running := false }) := by
  have current : session.machine.currentOpcode = word.opcode := by
    simp [Machine.currentOpcode, found]
  have executed := failure?_execute sound found
  unfold step at stepped
  cases outcome : Action.execute session with
  | ok value later => simp [outcome] at stepped
  | error cause failed =>
    rw [outcome] at stepped executed
    cases stepped
    obtain ⟨_, obstructed, parts⟩ := Option.map_eq_some_iff.mp executed.symm
    obtain ⟨rfl, rfl⟩ := Prod.mk.inj parts
    refine ⟨current, rfl, ?_⟩
    cases known : Opcode.ofCode? word.opcode with
    | none => exact .inl ⟨rfl, rfl⟩
    | some operation =>
      rw [obstacle_of_known known] at obstructed
      exact .inr ⟨operation, (Opcode.code_of_ofCode? known).symm, obstructed, rfl⟩

theorem step_faulted (sound : session.machine.Sound segments)
    (found : session.machine.memory.get? session.machine.counter.position = some word)
    (stepped : session.step = ⟨left, some fault⟩) :
    left = { session with
      machine.running := false
      machine.data := left.machine.data
      input := left.input } ∧
    session.Spares word left.machine.data ∧
    ∀ tokens, session.input = .ofTokens tokens → left.input = session.input := by
  obtain ⟨_, _, ⟨unknown, rfl⟩ | ⟨operation, known, lacking, rfl⟩⟩ :=
    step_faulted_cases sound found stepped
  · have named : ∀ operation : Opcode, word.opcode ≠ operation.code := by
      intro operation same
      rw [same, Opcode.ofCode?_code] at unknown
      cases unknown
    refine ⟨rfl, spares_same ?_ ?_, fun _ _ => rfl⟩
    · rintro ⟨⟨operation, _, same⟩, _⟩
      exact named operation same
    · rintro ⟨_, _, _, rfl, _⟩
      exact named .branchIf rfl
  · refine ⟨?_, spares_abandoned known lacking, fun _ queue => input_abandoned queue lacking⟩
    rw [abandoned_eq]

theorem step_exit (sound : session.machine.Sound segments)
    (exits : session.machine.currentOpcode = Opcode.exit.code) :
    session.step = ⟨{ session with machine.running := false }, none⟩ := by
  obtain ⟨word, found, current⟩ := sound.fetch
  rw [step_eq_ok_iff, Action.execute_eq found, ← current, exits, Opcode.ofCode?_code]
  rfl

end Session

/-- Nothing but `EXIT` halts. -/
theorem Flat.Step.running_cases {segments : Nat} {flat after : Flat}
    (stepped : Flat.Step segments flat after) :
    flat.Executes .exit ∨ after.running = flat.running := by
  cases stepped with
  | exit here => exact .inl here
  | _ => exact .inr rfl

namespace Session

variable {session left next : Session} {segments : UInt8}

theorem running_of_step (sound : session.machine.Sound segments)
    (stepped : session.step = ⟨next, none⟩)
    (other : session.machine.currentOpcode ≠ Opcode.exit.code) :
    next.machine.running = session.machine.running := by
  obtain ⟨word, found, current⟩ := sound.fetch
  rcases ((flat_step_iff sound).mpr ⟨next, stepped, rfl⟩).running_cases with exits | same
  · rw [flat_executes_iff sound found, ← current] at exits
    exact absurd exits other
  · exact same

end Session

/-- Where a run has ended: halted at an `EXIT`, or where its fault says. -/
def Report.Stands (report : Report) : Prop :=
  match report.fault? with
  | none =>
    report.session.machine.running = false ∧
      report.session.machine.currentOpcode = Opcode.exit.code
  | some fault =>
    report.session.machine.counter.position = fault.location ∧
      report.session.machine.currentOpcode = fault.opcode

namespace Session

variable {session left next : Session} {segments : UInt8} {fuel : Nat} {report : Report}

theorem stands_of_fault {fault : Fault} (sound : session.machine.Sound segments)
    (stepped : session.step = ⟨left, some fault⟩) : Report.Stands ⟨left, some fault⟩ := by
  obtain ⟨word, found, current⟩ := sound.fetch
  obtain ⟨opcode, location, _⟩ := step_faulted_cases sound found stepped
  obtain ⟨kept, _⟩ := step_faulted sound found stepped
  have same : left.machine.currentOpcode = session.machine.currentOpcode := by
    rw [kept]
    rfl
  have position : left.machine.counter.position = session.machine.counter.position := by
    rw [kept]
  exact ⟨position.trans location.symm, same.trans (current.trans opcode.symm)⟩

/-- A run that ends comes, step by step, to an `EXIT` or to a fault. -/
theorem continue?_induction {P : Nat → Session → Report → Prop}
    (exit : ∀ {fuel : Nat} {session : Session}, session.machine.Sound segments →
      session.machine.running = true → session.machine.currentOpcode = Opcode.exit.code →
      P (fuel + 1) session ⟨{ session with machine.running := false }, none⟩)
    (fault : ∀ {fuel : Nat} {session left : Session} {fault : Fault},
      session.machine.Sound segments → session.machine.running = true →
      session.step = ⟨left, some fault⟩ → P (fuel + 1) session ⟨left, some fault⟩)
    (step : ∀ {fuel : Nat} {session next : Session} {report : Report},
      session.machine.running = true → session.machine.currentOpcode ≠ Opcode.exit.code →
      session.step = ⟨next, none⟩ → P fuel next report → P (fuel + 1) session report)
    (sound : session.machine.Sound segments) (running : session.machine.running = true)
    (ended : session.continue? fuel = some report) : P fuel session report := by
  fun_induction Session.continue? fuel session with
  | case1 => cases ended
  | case2 session _ fuel next stepped ih =>
    by_cases exits : session.machine.currentOpcode = Opcode.exit.code
    · rw [step_exit sound exits] at stepped
      cases stepped
      rw [continue?_of_halted rfl] at ended
      cases ended
      exact exit sound running exits
    · have kept := (closed_sound segments).step sound
      rw [stepped] at kept
      have going := (running_of_step sound stepped exits).trans running
      exact step running exits stepped (ih kept going ended)
  | case3 session _ fuel left cause stepped =>
    cases ended
    exact fault sound running stepped
  | case4 fuel session halted => exact absurd running halted

theorem stands_of_continue? (sound : session.machine.Sound segments)
    (running : session.machine.running = true) (ended : session.continue? fuel = some report) :
    report.Stands :=
  continue?_induction (P := fun _ _ report => report.Stands) (fun _ _ exits => ⟨rfl, exits⟩)
    (fun sound _ stepped => stands_of_fault sound stepped) (fun _ _ _ stands => stands) sound
    running ended

/-- A run ends without a fault if and only if it comes to an `EXIT`. -/
theorem fault?_eq_none_iff (sound : session.machine.Sound segments)
    (running : session.machine.running = true) (ended : session.continue? fuel = some report) :
    report.fault? = none ↔
      ∃ earlier ∈ session.trace fuel, earlier.machine.currentOpcode = Opcode.exit.code := by
  refine continue?_induction (P := fun fuel session report => report.fault? = none ↔
    ∃ earlier ∈ session.trace fuel, earlier.machine.currentOpcode = Opcode.exit.code)
    ?_ ?_ ?_ sound running ended
  · intro fuel session sound running exits
    rw [trace_succ running, step_exit sound exits]
    exact ⟨fun _ => ⟨session, List.mem_cons_self, exits⟩, fun _ => rfl⟩
  · intro fuel session left fault sound running stepped
    have other : session.machine.currentOpcode ≠ Opcode.exit.code := by
      intro exits
      rw [step_exit sound exits] at stepped
      cases stepped
    rw [trace_succ running, stepped]
    simp [other]
  · intro fuel session next report running other stepped same
    rw [same, trace_succ running, stepped]
    simp [other]

/-- A machine that has halted at an `EXIT` stays as it is. -/
theorem steps?_exited (sound : session.machine.Sound segments)
    (halted : session.machine.running = false)
    (exits : session.machine.currentOpcode = Opcode.exit.code) (count : Nat) :
    session.steps? count = some session := by
  have same : { session with machine.running := false } = session := by rw [← halted]
  induction count with
  | zero => rfl
  | succ count ih =>
    rw [steps?_succ, step_exit sound exits, same]
    exact ⟨session, rfl, ih⟩

end Session

/-- A step that faults halts the machine and leaves all else as it was, but for words that it took
off the data stack in two cases. So a run that faults ends on the word that its fault names; one
that does not ends on an `EXIT`, and further steps change nothing. -/
theorem faults_spare_state (segments : UInt8) :
    (∀ (session left : Session) (fault : Fault) (tokens : List String),
      session.Occurs segments → session.input = .ofTokens tokens →
      session.step = ⟨left, some fault⟩ →
      ∃ word, session.machine.memory.get session.machine.counter.position = .ok word ∧
        left = { session with machine.running := false, machine.data := left.machine.data } ∧
        (session.Starves word → left.machine.data = []) ∧
        (session.Strays word → left.machine.data = session.machine.data.tail) ∧
        (¬ session.Starves word → ¬ session.Strays word →
          left.machine.data = session.machine.data)) ∧
    ∀ (session : Session) (fuel : Nat) (report : Report), session.machine.Reachable segments →
      session.run? fuel = some report →
      ∃ word,
        report.session.machine.memory.get report.session.machine.counter.position = .ok word ∧
        (∀ fault, report.fault? = some fault →
          report.session.machine.counter.position = fault.location ∧
            word.opcode = fault.opcode) ∧
        (report.fault? = none →
          word.opcode = 0x10 ∧ ∀ count, report.session.steps? count = some report.session) := by
  constructor
  · intro session left fault tokens occurs queue stepped
    obtain ⟨word, found, _⟩ := occurs.sound.fetch
    obtain ⟨kept, spares, unread⟩ := Session.step_faulted occurs.sound found stepped
    rw [unread tokens queue] at kept
    exact ⟨word, by simp [Memory.get, found], kept, spares.starved, spares.strayed,
      spares.otherwise⟩
  · intro session fuel report reached ended
    have stands := Session.stands_of_continue? reached.sound.start rfl ended
    have sound := (Session.closed_sound segments).continue? ended reached.sound.start
    obtain ⟨word, found, current⟩ := sound.fetch
    refine ⟨word, by simp [Memory.get, found], ?_, ?_⟩
    · intro fault faulted
      rw [Report.Stands, faulted, current] at stands
      exact stands
    · intro finished
      rw [Report.Stands, finished] at stands
      obtain ⟨halted, exits⟩ := stands
      exact ⟨current.symm.trans exits, Session.steps?_exited sound halted exits⟩

/-- An addition that finds a single word takes it and faults. A run that comes to it ends there. -/
theorem faults_spare_state_add :
    let program := [Word.instruction Opcode.lit.code none, .literal 5,
      .instruction Opcode.add.code none]
    let loaded : Session := ⟨((Machine.fresh 1).load program).1.reset, .ofTokens ["7"], #[]⟩
    let session := loaded.step.session
    session.machine.data = [.literal 5] ∧
      (∃ left fault, session.step = ⟨left, some fault⟩ ∧ left.machine.data = []) ∧
      ∃ report, loaded.run? 3 = some report ∧ report.fault?.isSome = true ∧
        report.session.machine.counter.position = ⟨0, 2⟩ := by
  intro program loaded session
  have reached : loaded.machine.Reachable 1 :=
    .reset (.load _ (.new (Machine.new_eq_ok_iff.mpr ⟨by decide, by decide, rfl⟩)))
  have before : session.machine.data = [.literal 5] ∧ session.input = .ofTokens ["7"] ∧
      session.machine.memory.get session.machine.counter.position =
        .ok (.instruction Opcode.add.code none) := by
    decide +kernel
  obtain ⟨steps, runs⟩ := faults_spare_state 1
  refine ⟨before.1, ?_, ?_⟩
  · have faulted : session.step.fault? = some ⟨2, ⟨0, 2⟩, .underflow .data⟩ := by decide +kernel
    obtain ⟨word, here, _, starved, _⟩ := steps session session.step.session _ ["7"]
      (.inl (.step reached)) before.2.1 (by rw [← faulted])
    refine ⟨_, _, by rw [← faulted], starved ?_⟩
    obtain rfl : _ = word := Except.ok.inj (before.2.2.symm.trans here)
    exact ⟨⟨.add, by decide, rfl⟩, by rw [before.1]; rfl⟩
  · have ends : (loaded.run? 3).map Report.fault? =
        some (some ⟨2, ⟨0, 2⟩, .underflow .data⟩) := by
      decide +kernel
    obtain ⟨report, ended, faulted⟩ := Option.map_eq_some_iff.mp ends
    obtain ⟨_, _, stands, _⟩ := runs loaded 3 report reached ended
    exact ⟨report, ended, by rw [faulted]; rfl, (stands _ faulted).1⟩

end StackMachine
