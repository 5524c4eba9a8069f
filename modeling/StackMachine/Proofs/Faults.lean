import StackMachine.Proofs.Reachable
import StackMachine.Proofs.TokenStream

/-!
When a step faults. An operation looks in a fixed order for what it needs, and fails for the first
that is not there: an operand, the cell that the operand names, a text in that cell, words on a
stack or a token of input. Where it fails it leaves behind what it had done by then, which is
little.
-/

set_option autoImplicit false

namespace StackMachine

namespace Lack

def operand (word : Word) : Option Failure :=
  if word.operand?.isNone then some (.noOperand word.bits) else none

def cell (memory : Memory) (word : Word) : Option Failure :=
  word.operand?.bind fun operand =>
    if (Address.unpack operand).isCellOf memory.segmentCount then none
    else some (.outOfBounds (.unpack operand))

def text (memory : Memory) (word : Word) : Option Failure :=
  word.operand?.bind fun operand => (memory.get? (.unpack operand)).bind fun found =>
    if found.isText then none else some (.invalidOperand (.notText (.unpack operand) found.bits))

def words (name : StackName) (count : Nat) (stack : Stack) : Option Failure :=
  if stack.length < count then some (.underflow name) else none

/-- What comes next in the input is not a token. -/
def token (input : Input) : Option Failure :=
  match input.future with
  | .ok _ :: _ => none
  | _ => some .inputExhausted

end Lack

namespace Session

/-- What an operation lacks: of the failures in its row, the first that applies. -/
def lack (session : Session) (word : Word) : Opcode → Option Failure
  | .nop | .exit | .lit => none
  | .store =>
    Lack.operand word <|> Lack.cell session.machine.memory word <|>
      Lack.words .data 1 session.machine.data
  | .fetch | .call => Lack.operand word <|> Lack.cell session.machine.memory word
  | .sout =>
    Lack.operand word <|> Lack.cell session.machine.memory word <|>
      Lack.text session.machine.memory word
  | .strlit =>
    if word.isText then none
    else
      Lack.operand word <|> Lack.cell session.machine.memory word <|>
        Lack.text session.machine.memory word
  | .branchIf =>
    Lack.operand word <|> Lack.words .data 1 session.machine.data <|>
      if session.machine.data.head?.any Word.isTrue then Lack.cell session.machine.memory word
      else none
  | .add | .sub | .and | .or | .xor | .swap | .overCopy => Lack.words .data 2 session.machine.data
  | .dup | .drop | .rstore | .cout => Lack.words .data 1 session.machine.data
  | .rfetch => Lack.words .returns 1 session.machine.returns
  | .cin => Lack.token session.input

/-- What keeps a word from being executed. Codes after that of `SOUT` belong to no operation. -/
def obstacle (session : Session) (word : Word) : Option Failure :=
  if 0x15 < word.opcode then some (.unknownOpcode word.opcode)
  else (Opcode.ofCode? word.opcode).bind (session.lack word)

/-- What is left where an operation lacks something. Words that it took off the data stack are gone,
and so is a line of input that is no text. -/
def abandoned (session : Session) (word : Word) : Opcode → Session
  | .add | .sub | .and | .or | .xor | .swap => { session with machine.data := [] }
  | .branchIf =>
    if word.operand?.isSome then { session with machine.data := session.machine.data.tail }
    else session
  | .cin => { session with input := session.input.read.2 }
  | _ => session

end Session

namespace Action

variable {α β : Type} {session : Session} {word : Word} {segments : UInt8}

/-- How an action failed and what it left, if it failed. -/
def failure? : EStateM.Result Failure Session α → Option (Failure × Session)
  | .ok _ _ => none
  | .error cause left => some (cause, left)

/-- The cell of an operand is looked for first, and then what follows may fail. -/
theorem failure?_operandCell_bind {next : Address → Action β} {lack : Option Failure}
    (follows : ∀ operand, word.operand? = some operand →
      (Address.unpack operand).isCellOf session.machine.segmentCount = true →
      failure? (next (.unpack operand) session) = lack.map (·, session)) :
    failure? ((operandCell word >>= next) session) =
      (Lack.operand word <|> Lack.cell session.machine.memory word <|> lack).map
        (·, session) := by
  have count : session.machine.segmentCount = session.machine.memory.segmentCount := rfl
  cases carried : word.operand? with
  | none =>
    rw [bind_of_error (operandCell_eq_error_iff.mpr ⟨.inl ⟨carried, rfl⟩, rfl⟩)]
    simp [Lack.operand, carried, failure?]
  | some operand =>
    cases inside : (Address.unpack operand).isCellOf session.machine.segmentCount with
    | false =>
      rw [bind_of_error (operandCell_eq_error_iff.mpr ⟨.inr ⟨operand, carried, inside, rfl⟩, rfl⟩)]
      simp [Lack.operand, Lack.cell, carried, ← count, inside, failure?]
    | true =>
      rw [bind_of_ok (operandCell_eq_ok_iff.mpr ⟨operand, carried, rfl, inside, rfl⟩),
        follows operand carried inside]
      simp [Lack.operand, Lack.cell, carried, ← count, inside]

/-- In a whole memory there is a word in the cell that the operand names. -/
theorem failure?_operandText_bind (whole : session.machine.memory.Whole segments)
    {next : String → Action β} (follows : ∀ payload, failure? (next payload session) = none) :
    failure? ((operandText word >>= next) session) =
      (Lack.operand word <|> Lack.cell session.machine.memory word <|>
        Lack.text session.machine.memory word).map (·, session) := by
  rw [operandText, bind_assoc]
  apply failure?_operandCell_bind
  intro operand carried inside
  rw [Machine.segmentCount, whole.segmentCount_eq] at inside
  obtain ⟨found, stored⟩ := whole.get?_isCellOf inside
  rw [bind_assoc, bind_of_ok (readCell_eq_ok_iff.mpr ⟨stored, rfl⟩)]
  cases found with
  | text payload => simpa [Lack.text, carried, stored, Word.isText] using follows payload
  | instruction code found =>
    rw [bind_of_error throw_apply]
    simp [Lack.text, carried, stored, Word.isText, failure?]
  | literal value =>
    rw [bind_of_error throw_apply]
    simp [Lack.text, carried, stored, Word.isText, failure?]

/-- A branch looks for its operand, and for the cell of it only when it goes there. -/
theorem failure?_operand_bind {next : UInt16 → Action β} {lack : Option Failure} {left : Session}
    (follows : ∀ operand, word.operand? = some operand →
      failure? (next operand session) = lack.map (·, left)) :
    failure? ((check word.operand >>= next) session) =
      (Lack.operand word <|> lack).map (·, if word.operand?.isSome then left else session) := by
  cases carried : word.operand? with
  | none =>
    have missing := Word.operand_eq_error_iff.mpr ⟨carried, rfl⟩
    rw [bind_of_error (check_eq_error_iff.mpr ⟨missing, rfl⟩)]
    simp [Lack.operand, carried, failure?]
  | some operand =>
    have present := Word.operand_eq_ok_iff.mpr carried
    rw [bind_of_ok (check_eq_ok_iff.mpr ⟨present, rfl⟩), follows operand carried]
    simp [Lack.operand, carried]

/-- The counter has the segments of memory, so that a jump misses a cell where memory does. -/
theorem failure?_jump (sound : session.machine.Sound segments) {operand : UInt16}
    (carried : word.operand? = some operand) :
    failure? (jump (.unpack operand) session) =
      (Lack.cell session.machine.memory word).map (·, session) := by
  have same : session.machine.counter.segments = session.machine.memory.segmentCount :=
    sound.counter.trans sound.segmentCount_eq.symm
  cases inside : (Address.unpack operand).isCellOf session.machine.memory.segmentCount with
  | true =>
    have jumped : jump (.unpack operand) session =
        .ok () { session with machine.counter.position := .unpack operand } :=
      jump_eq_ok_iff.mpr ⟨same ▸ inside, rfl⟩
    rw [jumped]
    simp [Lack.cell, carried, inside, failure?]
  | false =>
    rw [jump_eq_error_iff.mpr ⟨same ▸ inside, rfl, rfl⟩]
    simp [Lack.cell, carried, inside, failure?]

/-- The condition of a branch is taken off the stack before the target is looked at. -/
theorem failure?_branch (sound : session.machine.Sound segments) {operand : UInt16}
    (carried : word.operand? = some operand) :
    failure? ((popData >>= fun condition =>
        move (if condition.isTrue then .jump (.unpack operand) else .next)) session) =
      (Lack.words .data 1 session.machine.data <|>
        if session.machine.data.head?.any Word.isTrue then Lack.cell session.machine.memory word
        else none).map (·, { session with machine.data := session.machine.data.tail }) := by
  rcases stack : session.machine.data with _ | ⟨condition, rest⟩
  · have same : { session with machine.data := [] } = session := by rw [← stack]
    rw [bind_of_error (popData_eq_error_iff.mpr ⟨stack, rfl, rfl⟩)]
    simp [Lack.words, failure?, same]
  · have popped : popData session = .ok condition { session with machine.data := rest } :=
      popData_eq_ok_iff.mpr ⟨rest, stack, rfl⟩
    rw [bind_of_ok popped]
    cases truth : condition.isTrue with
    | false => simp [Lack.words, failure?, move, truth]
    | true =>
      have jumped := failure?_jump ((Session.closed_sound segments).data rest sound) carried
      simpa [Lack.words, move, truth] using jumped

theorem failure?_takeToken_bind {next : String → Action β}
    (follows : ∀ token later, failure? (next token later) = none) :
    failure? ((takeToken >>= next) session) =
      (Lack.token session.input).map (·, { session with input := session.input.read.2 }) := by
  have first := session.input.read_future.1
  rcases taken : session.input.read with ⟨cause | token, rest⟩
  · rw [bind_of_error (takeToken_eq_error_iff.mpr ⟨rest, taken, rfl⟩), Input.cause_of_read taken]
    rw [taken] at first
    cases future : session.input.future with
    | nil => simp [Lack.token, future, failure?]
    | cons answer later =>
      have refused : .error cause = answer := by simpa [future] using first
      simp [Lack.token, future, failure?, ← refused]
  · rw [bind_of_ok (takeToken_eq_ok_iff.mpr ⟨rest, taken, rfl⟩), follows]
    rw [taken] at first
    cases future : session.input.future with
    | nil =>
      rw [future] at first
      cases first
    | cons answer later =>
      have given : .ok token = answer := by simpa [future] using first
      simp [Lack.token, future, ← given]

/-- An operation fails exactly if it lacks something, and then it is abandoned. -/
theorem failure?_perform (sound : session.machine.Sound segments) (word : Word)
    (operation : Opcode) :
    failure? (perform word operation session) =
      (session.lack word operation).map (·, session.abandoned word operation) := by
  cases operation with
  | nop | exit => rfl
  | add | sub | and | or | xor | swap | overCopy | dup | drop | rstore | cout =>
    obtain ⟨⟨memory, data, returns, counter, filled, running⟩, input, output⟩ := session
    rcases data with _ | ⟨a, _ | ⟨b, rest⟩⟩ <;> rfl
  | rfetch =>
    obtain ⟨⟨memory, data, returns, counter, filled, running⟩, input, output⟩ := session
    cases returns <;> rfl
  | store =>
    simp only [perform, effect, bind_assoc]
    apply failure?_operandCell_bind
    intro operand carried inside
    rw [sound.segmentCount_eq] at inside
    rcases stack : session.machine.data with _ | ⟨value, rest⟩
    · rw [bind_of_error (popData_eq_error_iff.mpr ⟨stack, rfl, rfl⟩)]
      rfl
    · obtain ⟨memory, written⟩ := sound.memory.exists_set inside value
      have popped : popData session = .ok value { session with machine.data := rest } :=
        popData_eq_ok_iff.mpr ⟨rest, stack, rfl⟩
      have stored : writeCell (.unpack operand) value { session with machine.data := rest } =
          .ok () { session with machine.data := rest, machine.memory := memory } :=
        writeCell_eq_ok_iff.mpr ⟨memory, written, rfl⟩
      rw [bind_of_ok popped, bind_of_ok stored]
      rfl
  | fetch =>
    have fails : failure? (perform word .fetch session) =
        (Lack.operand word <|> Lack.cell session.machine.memory word <|> none).map
          (·, session) := by
      simp only [perform, effect, bind_assoc]
      apply failure?_operandCell_bind
      intro operand carried inside
      rw [sound.segmentCount_eq] at inside
      obtain ⟨value, stored⟩ := sound.memory.get?_isCellOf inside
      rw [bind_of_ok (readCell_eq_ok_iff.mpr ⟨stored, rfl⟩)]
      rfl
    simpa [Session.lack, Session.abandoned] using fails
  | call =>
    have fails : failure? (perform word .call session) =
        (Lack.operand word <|> Lack.cell session.machine.memory word).map
          (·, if word.operand?.isSome then session else session) := by
      simp only [perform, effect, bind_assoc]
      exact failure?_operand_bind fun _ carried => failure?_jump sound carried
    rw [ite_self] at fails
    exact fails
  | branchIf =>
    simp only [perform, effect, bind_assoc]
    exact failure?_operand_bind fun _ carried => failure?_branch sound carried
  | lit =>
    obtain ⟨value, stored⟩ := sound.memory.get?_isCellOf
      (Counter.isCellOf_next sound.counter sound.position)
    simp only [perform, effect, bind_assoc]
    rw [bind_of_ok nextPosition_apply, bind_of_ok (readCell_eq_ok_iff.mpr ⟨stored, rfl⟩)]
    rfl
  | cin =>
    simp only [perform, effect, bind_assoc]
    exact failure?_takeToken_bind fun _ _ => rfl
  | strlit =>
    simp only [perform, effect, Session.lack]
    cases word.isText with
    | true => rfl
    | false =>
      simp only [Bool.false_eq_true, if_false, bind_assoc]
      exact failure?_operandText_bind sound.memory fun _ => rfl
  | sout =>
    simp only [perform, effect, bind_assoc]
    exact failure?_operandText_bind sound.memory fun _ => rfl

end Action

namespace Opcode

theorem codes_eq : all.map code = (List.range 0x16).map UInt8.ofNat := by
  decide

/-- The codes of the operations are the numbers up to 0x15. -/
theorem ofCode?_eq_none_iff {code : UInt8} : ofCode? code = none ↔ 0x15 < code := by
  have bound : (0x15 : UInt8).toNat = 21 := by decide
  rw [UInt8.lt_iff_toNat_lt, bound]
  constructor
  · intro unknown
    by_contra low
    have member : code ∈ all.map Opcode.code := by
      rw [codes_eq]
      refine List.mem_map.mpr ⟨code.toNat, List.mem_range.mpr (by omega), UInt8.ofNat_toNat⟩
    obtain ⟨operation, _, rfl⟩ := List.mem_map.mp member
    rw [ofCode?_code] at unknown
    cases unknown
  · intro high
    cases known : ofCode? code with
    | none => rfl
    | some operation =>
      have low : ∀ operation ∈ all, operation.code.toNat ≤ 21 := by decide
      have small := low operation (mem_all operation)
      rw [code_of_ofCode? known] at small
      omega

end Opcode

namespace Session

variable {session : Session} {segments : UInt8} {word : Word}

theorem obstacle_of_known {operation : Opcode}
    (known : Opcode.ofCode? word.opcode = some operation) :
    session.obstacle word = session.lack word operation := by
  have low : ¬ 0x15 < word.opcode := by
    rw [← Opcode.ofCode?_eq_none_iff, known]
    simp
  rw [obstacle, if_neg low, known]
  rfl

/-- Executing the word under the counter fails exactly if there is an obstacle to it. -/
theorem failure?_execute (sound : session.machine.Sound segments)
    (found : session.machine.memory.get? session.machine.counter.position = some word) :
    Action.failure? (Action.execute session) = (session.obstacle word).map
      (·, (Opcode.ofCode? word.opcode).elim session (session.abandoned word)) := by
  rw [Action.execute_eq found]
  cases known : Opcode.ofCode? word.opcode with
  | none =>
    rw [obstacle, if_pos (Opcode.ofCode?_eq_none_iff.mp known)]
    rfl
  | some operation =>
    rw [obstacle_of_known known]
    exact Action.failure?_perform sound word operation

theorem fault?_step (session : Session) :
    session.step.fault? = (Action.failure? (Action.execute session)).map fun failed =>
      ⟨session.machine.currentOpcode, session.machine.counter.position, failed.1⟩ := by
  unfold step
  cases Action.execute session <;> rfl

end Session

/-- A step faults if and only if there is an obstacle to executing the word under the counter, which
is always there: it may have no operation, or the operation may lack something. The fault names the
first thing that is lacking, the opcode of the word and where it stands. -/
theorem step_faults_at_obstacle (segments : UInt8) (session : Session)
    (occurs : session.Occurs segments) :
    ∃ word, session.machine.memory.get session.machine.counter.position = .ok word ∧
      session.step.fault? = (session.obstacle word).map fun cause =>
        ⟨word.opcode, session.machine.counter.position, cause⟩ := by
  have sound := occurs.sound
  obtain ⟨word, found, current⟩ := sound.fetch
  refine ⟨word, by simp [Memory.get, found], ?_⟩
  rw [Session.fault?_step, Session.failure?_execute sound found, current, Option.map_map]
  rfl

/-- A store to segment 15 of a machine that has one segment, with nothing on the data stack: two
things are lacking, and the fault names the cell, which is looked for first. -/
theorem step_faults_at_obstacle_store :
    let word := Word.instruction Opcode.store.code (some 0xF000)
    let session : Session := ⟨((Machine.fresh 1).load [word]).1.reset, .ofTokens [], #[]⟩
    session.Occurs 1 ∧ Lack.words .data 1 session.machine.data = some (.underflow .data) ∧
      session.step.fault? = some ⟨0x01, .zero, .outOfBounds ⟨15, 0⟩⟩ := by
  intro word session
  have occurs : session.Occurs 1 :=
    Or.inl (.reset (.load _ (.new (Machine.new_eq_ok_iff.mpr ⟨by decide, by decide, rfl⟩))))
  have here : session.machine.memory.get session.machine.counter.position = .ok word := by
    decide +kernel
  have obstacle : session.obstacle word = some (.outOfBounds ⟨15, 0⟩) := by decide +kernel
  obtain ⟨found, stored, fault⟩ := step_faults_at_obstacle 1 session occurs
  obtain rfl : word = found := Except.ok.inj (here.symm.trans stored)
  rw [obstacle] at fault
  exact ⟨occurs, rfl, fault⟩

end StackMachine
