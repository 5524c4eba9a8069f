import StackMachine.Proofs.Unseen

/-!
What a run takes from a queue of tokens. Only `CIN` takes input, and it takes one token. So a run
takes as many tokens as it executes `CIN`, and does the same on every queue that starts with these:
it neither looks ahead in its input nor loses a token of it.
-/

set_option autoImplicit false

namespace StackMachine

namespace Action

variable {session left : Session} {word : Word} {operation : Opcode}

theorem eq_cin_of_inputExhausted
    (failed : perform word operation session = .error .inputExhausted left) : operation = .cin := by
  have failed := effect_eq_error failed (by simp)
  cases operation
  case cin => rfl
  case strlit => cases text : word.isText <;> simp [effect, text, -bind_pure_comp] at failed
  all_goals simp [effect, combineTop, Word.operand_eq_error_iff, -bind_pure_comp] at failed

end Action

namespace Input

theorem read_ofTokens_nil : (ofTokens []).read = (.error .inputExhausted, ofTokens []) := by
  rw [ofTokens, read]

theorem read_ofTokens_cons (token : String) (rest : List String) :
    (ofTokens (token :: rest)).read = (.ok token, ofTokens rest) := by
  rw [ofTokens, read]
  rfl

end Input

namespace Session

def reads (session : Session) : Bool :=
  session.machine.currentOpcode == Opcode.cin.code

def withInput (session : Session) (input : Input) : Session :=
  { session with input }

variable {session : Session} {tokens : List String}

/-- `CIN` puts the token it has read on the data stack, as a number or as a text. -/
theorem step_cin (reading : session.machine.currentOpcode = Opcode.cin.code) :
    session.step =
      match session.input.read with
      | (.ok token, rest) =>
        ⟨{ session with
          machine.data := .ofToken token :: session.machine.data
          machine.counter := session.machine.counter.advance
          input := rest }, none⟩
      | (.error cause, rest) =>
        ⟨{ session with machine.running := false, input := rest },
          some ⟨Opcode.cin.code, session.machine.counter.position, cause⟩⟩ := by
  obtain ⟨word, executed⟩ := execute_of_currentOpcode reading (by decide)
  unfold step
  rw [executed, reading]
  rcases taken : session.input.read with ⟨cause | token, rest⟩
  · have failed : Action.perform word .cin session =
        .error cause { session with input := rest } :=
      Action.bind_of_error (Action.bind_of_error
        (Action.takeToken_eq_error_iff.mpr ⟨rest, taken, rfl⟩))
    rw [failed]
  · have done : Action.perform word .cin session = .ok () _ :=
      Action.perform_cin_iff.mpr ⟨token, rest, taken, rfl⟩
    rw [done]

theorem reads_of_inputExhausted {fault : Fault} (faulted : session.step.fault? = some fault)
    (exhausted : fault.cause = .inputExhausted) : session.reads = true := by
  obtain ⟨left, failed, _⟩ := step_eq_fault_iff.mp faulted
  rw [exhausted] at failed
  cases found : session.machine.memory.get? session.machine.counter.position with
  | none =>
    simp only [Action.execute, Action.enact, bind_assoc] at failed
    rw [Action.bind_of_ok Action.position_apply, Action.bind_of_error
      (Action.readCell_eq_error_iff.mpr ⟨found, rfl, rfl⟩)] at failed
    cases failed
  | some word =>
    rw [Action.execute_eq found] at failed
    cases known : Opcode.ofCode? word.opcode with
    | none => simp [known] at failed
    | some operation =>
      rw [known] at failed
      obtain rfl := Action.eq_cin_of_inputExhausted failed
      have code := Opcode.code_of_ofCode? known
      simp [reads, Machine.currentOpcode, found, code]

/-- A step on a queue takes one token for `CIN` and none for all else, and would do the same with
any other tokens behind. If `CIN` finds the queue empty, the step faults. -/
theorem step_takes (queue : session.input = .ofTokens tokens) :
    (∃ taken rest, tokens = taken ++ rest ∧ taken.length = (if session.reads then 1 else 0) ∧
      session.step.session.input = .ofTokens rest ∧
      (∀ fault, session.step.fault? = some fault →
        session.reads = false ∧ fault.cause ≠ .inputExhausted) ∧
      ∀ others, (session.withInput (.ofTokens (taken ++ others))).step =
        ⟨session.step.session.withInput (.ofTokens others), session.step.fault?⟩) ∨
    session.reads = true ∧ tokens = [] ∧
      session.step = ⟨{ session with machine.running := false, input := .ofTokens [] },
        some ⟨Opcode.cin.code, session.machine.counter.position, .inputExhausted⟩⟩ := by
  cases reading : session.reads with
  | false =>
    have silent : session.machine.currentOpcode ≠ Opcode.cin.code := by
      simpa [reads] using reading
    left
    refine ⟨[], tokens, rfl, rfl, ?_, ?_, ?_⟩
    · rw [(step_outside silent 0 session.input).2.2, queue]
    · intro fault faulted
      refine ⟨rfl, ?_⟩
      intro exhausted
      rw [reads_of_inputExhausted faulted exhausted] at reading
      cases reading
    · intro others
      have same := step_outside silent session.machine.filled (.ofTokens others)
      have kept : session.step.session.outside session.machine.filled (.ofTokens others) =
          session.step.session.withInput (.ofTokens others) := by
        rw [outside, ← same.2.1]
        rfl
      rw [kept] at same
      exact same.1
  | true =>
    have current : session.machine.currentOpcode = Opcode.cin.code := by
      simpa [reads] using reading
    have stepped := step_cin current
    rw [queue] at stepped
    cases tokens with
    | nil =>
      right
      rw [Input.read_ofTokens_nil] at stepped
      exact ⟨rfl, rfl, stepped⟩
    | cons token rest =>
      left
      rw [Input.read_ofTokens_cons] at stepped
      refine ⟨[token], rest, rfl, rfl, ?_, ?_, ?_⟩
      · rw [stepped]
      · rw [stepped]
        intro fault faulted
        cases faulted
      · intro others
        have again := step_cin (show (session.withInput
          (.ofTokens (token :: others))).machine.currentOpcode = Opcode.cin.code from current)
        have taken : (session.withInput (.ofTokens (token :: others))).input.read =
            (.ok token, .ofTokens others) := Input.read_ofTokens_cons token others
        rw [taken] at again
        rw [stepped]
        exact again

/-- What one step takes, a run takes step by step: a front of the queue, one token for each `CIN`.
Any other tokens may stand behind that front. -/
theorem continue?_takes {fuel : Nat} {report : Report} (queue : session.input = .ofTokens tokens)
    (ended : session.continue? fuel = some report)
    (enough : ∀ fault, report.fault? = some fault → fault.cause ≠ .inputExhausted) :
    ∃ taken rest, tokens = taken ++ rest ∧ taken.length = (session.trace fuel).countP reads ∧
      report.session.input = .ofTokens rest ∧
      ∀ others, (session.withInput (.ofTokens (taken ++ others))).continue? fuel =
        some ⟨report.session.withInput (.ofTokens others), report.fault?⟩ := by
  fun_induction Session.continue? fuel session generalizing tokens with
  | case1 => cases ended
  | case2 session running fuel next stepped ih =>
    rcases step_takes queue with ⟨taken, rest, rfl, count, left, _, same⟩ | ⟨_, _, failed⟩
    · rw [stepped] at left same
      obtain ⟨more, unread, rfl, counts, last, again⟩ := ih left ended
      -- What this step takes stands in front of what the rest of the run takes.
      refine ⟨taken ++ more, unread, ?_, ?_, last, ?_⟩
      · rw [List.append_assoc]
      · rw [trace_succ running, stepped, List.length_append, count, counts, List.countP_cons,
          Nat.add_comm]
      · intro others
        have going : (session.withInput (.ofTokens (taken ++ more ++ others))).machine.running =
          true := running
        rw [continue?_succ going, List.append_assoc, same (more ++ others)]
        exact again others
    · rw [stepped] at failed
      cases failed
  | case3 session running fuel left fault stepped =>
    cases ended
    rcases step_takes queue with ⟨taken, rest, rfl, count, left, silent, same⟩ | ⟨_, _, failed⟩
    · rw [stepped] at left same silent
      refine ⟨taken, rest, rfl, ?_, left, ?_⟩
      · rw [trace_succ running, stepped, count]
        exact List.countP_singleton.symm
      · intro others
        have going : (session.withInput (.ofTokens (taken ++ others))).machine.running = true :=
          running
        rw [continue?_succ going, same others]
    · rw [stepped] at failed
      cases failed
      exact absurd rfl (enough _ rfl)
  | case4 fuel session halted =>
    cases ended
    have resting : session.machine.running = false := by simpa using halted
    refine ⟨[], tokens, rfl, ?_, queue, ?_⟩
    · rw [trace_of_halted resting]
      rfl
    · intro others
      exact continue?_of_halted resting

def readsWell (session : Session) : Bool :=
  session.reads && session.step.fault?.isNone

/-- A run that runs out of input has taken the whole queue, and faults at a `CIN`. -/
theorem continue?_exhausts {fuel : Nat} {report : Report} {fault : Fault}
    (queue : session.input = .ofTokens tokens) (ended : session.continue? fuel = some report)
    (faulted : report.fault? = some fault) (exhausted : fault.cause = .inputExhausted) :
    report.session.input = .ofTokens [] ∧ fault.opcode = Opcode.cin.code ∧
      (session.trace fuel).countP readsWell = tokens.length := by
  fun_induction Session.continue? fuel session generalizing tokens with
  | case1 => cases ended
  | case2 session running fuel next stepped ih =>
    rcases step_takes queue with ⟨taken, rest, rfl, count, left, _, _⟩ | ⟨_, _, failed⟩
    · rw [stepped] at left
      obtain ⟨empty, opcode, counts⟩ := ih left ended
      refine ⟨empty, opcode, ?_⟩
      have well : session.readsWell = session.reads := by simp [readsWell, stepped]
      rw [trace_succ running, stepped, List.length_append, count, ← counts, List.countP_cons, well,
        Nat.add_comm]
    · rw [stepped] at failed
      cases failed
  | case3 session running fuel left other stepped =>
    cases ended
    cases faulted
    rcases step_takes queue with ⟨_, _, _, _, _, silent, _⟩ | ⟨_, rfl, failed⟩
    · rw [stepped] at silent
      exact absurd exhausted (silent fault rfl).2
    · have ill : session.readsWell = false := by simp [readsWell, stepped]
      rw [stepped] at failed
      cases failed
      refine ⟨rfl, rfl, ?_⟩
      rw [trace_succ running, stepped]
      exact List.countP_eq_zero.mpr (by simp [ill])
  | case4 fuel session halted =>
    cases ended
    cases faulted

end Session

/-- A run takes a front of its queue, one token for each `CIN` it executes, and does the same on any
queue with this front. If it runs out of tokens, then at a `CIN`, and earlier ones have taken all of
them. -/
theorem run_takes (machine : Machine) (tokens : List String) (output : Array String) (fuel : Nat)
    (report : Report)
    (ended : Session.run? fuel ⟨machine, .ofTokens tokens, output⟩ = some report) :
    ((∀ fault, report.fault? = some fault → fault.cause ≠ .inputExhausted) →
      ∃ taken rest, tokens = taken ++ rest ∧ report.session.input = .ofTokens rest ∧
        taken.length =
          (Session.trace fuel ⟨machine.start, .ofTokens tokens, output⟩).countP Session.reads ∧
        ∀ others, Session.run? fuel ⟨machine, .ofTokens (taken ++ others), output⟩ =
          some ⟨{ report.session with input := .ofTokens others }, report.fault?⟩) ∧
    ∀ fault, report.fault? = some fault → fault.cause = .inputExhausted →
      report.session.input = .ofTokens [] ∧ fault.opcode = 0x13 ∧
        (Session.trace fuel ⟨machine.start, .ofTokens tokens, output⟩).countP Session.readsWell =
          tokens.length := by
  constructor
  · intro enough
    obtain ⟨taken, rest, split, count, left, again⟩ :=
      Session.continue?_takes rfl ended enough
    exact ⟨taken, rest, split, left, count, again⟩
  · intro fault faulted exhausted
    exact Session.continue?_exhausts rfl ended faulted exhausted

/-- A program that reads two tokens and prints the second. Of three tokens it takes two, and on a
queue that starts with these it prints the same and leaves what stands behind them. -/
theorem run_takes_two :
    let program := [Word.instruction Opcode.cin.code none, .instruction Opcode.cin.code none,
      .instruction Opcode.cout.code none, .instruction Opcode.exit.code none]
    let machine := ((Machine.fresh 1).load program).1
    ∃ report, Session.run? 4 ⟨machine, .ofTokens ["a", "12", "z"], #[]⟩ = some report ∧
      report.session.output = #["12"] ∧
      Session.run? 4 ⟨machine, .ofTokens ["a", "12"], #[]⟩ =
        some ⟨{ report.session with input := .ofTokens [] }, report.fault?⟩ := by
  intro program machine
  have ends : (Session.run? 4 ⟨machine, .ofTokens ["a", "12", "z"], #[]⟩).map
      (fun report => (report.fault?, report.session.output)) = some (none, #["12"]) := by
    decide +kernel
  have count : (Session.trace 4 ⟨machine.start, .ofTokens ["a", "12", "z"], #[]⟩).countP
      Session.reads = 2 := by
    decide +kernel
  obtain ⟨report, ended, parts⟩ := Option.map_eq_some_iff.mp ends
  simp only [Prod.mk.injEq] at parts
  obtain ⟨taken, rest, split, _, length, again⟩ :=
    (run_takes machine _ #[] 4 report ended).1 (by simp [parts.1])
  have front : taken = ["a", "12"] := by
    have twice : (taken ++ rest).take 2 = taken := List.take_left' (length.trans count)
    rw [← split] at twice
    exact twice.symm
  refine ⟨report, ended, parts.2, ?_⟩
  have replayed := again []
  rw [front, List.append_nil] at replayed
  exact replayed

end StackMachine
