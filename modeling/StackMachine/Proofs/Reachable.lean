import StackMachine.Proofs.Cells
import StackMachine.Proofs.Changes
import StackMachine.Proofs.Operations

/-!
The machines that can come about. Whatever is loaded and run, memory stays whole, the counter stays
on a cell, and so every word that execution asks for on its own account is there: what a program
can miss is only a cell that it names itself.
-/

set_option autoImplicit false

namespace StackMachine

namespace Machine

def fresh (segments : UInt8) : Machine where
  memory := ⟨Array.replicate segments.toNat (Array.replicate segmentSize Word.nop)⟩
  data := []
  returns := []
  counter := .new segments
  filled := 0
  running := false

theorem new_eq_ok_iff {segments : UInt8} {machine : Machine} :
    Machine.new segments = .ok machine ↔
      1 ≤ segments.toNat ∧ segments.toNat ≤ maxSegments ∧ machine = fresh segments := by
  unfold Machine.new Memory.new
  by_cases none : segments = 0
  · simp [none, Except.map]
  · have positive : 1 ≤ segments.toNat :=
      Nat.pos_of_ne_zero fun zero => none (UInt8.toNat_inj.mp zero)
    by_cases few : segments.toNat ≤ maxSegments
    · simp [none, positive, few, Nat.not_lt.mpr few, Except.map, fresh, eq_comm]
    · simp [none, few, Nat.lt_of_not_le few, Except.map]

/-- A machine all of whose parts agree on the number of segments. -/
structure Sound (machine : Machine) (segments : UInt8) : Prop where
  position : machine.counter.position.isCellOf segments = true
  counter : machine.counter.segments = segments
  memory : machine.memory.Whole segments
  filled : machine.filled ≤ segments.toNat * segmentSize

/-- The machines that some operations lead to, from a fresh one on. Steps and runs may be given any
input. A word that finds no room leaves the machine as it was. -/
inductive Reachable (segments : UInt8) : Machine → Prop
  | new {machine : Machine} (built : Machine.new segments = .ok machine) :
      Reachable segments machine
  | place {machine next : Machine} (word : Word) (before : Reachable segments machine)
      (placed : machine.place word = .ok next) : Reachable segments next
  | load {machine : Machine} (words : List Word) (before : Reachable segments machine) :
      Reachable segments (machine.load words).1
  | step {session : Session} (before : Reachable segments session.machine) :
      Reachable segments session.step.session.machine
  | run {session : Session} {fuel : Nat} {report : Report}
      (before : Reachable segments session.machine) (ended : session.run? fuel = some report) :
      Reachable segments report.session.machine
  | reset {machine : Machine} (before : Reachable segments machine) :
      Reachable segments machine.reset
  | clear {machine : Machine} (before : Reachable segments machine) :
      Reachable segments machine.clear

theorem Sound.segmentCount_eq {machine : Machine} {segments : UInt8}
    (sound : machine.Sound segments) : machine.segmentCount = segments :=
  sound.memory.segmentCount_eq

theorem Sound.positive {machine : Machine} {segments : UInt8} (sound : machine.Sound segments) :
    0 < segments.toNat :=
  Nat.zero_lt_of_lt (Address.isCellOf_iff.mp sound.position).1

theorem Sound.fresh {segments : UInt8} (positive : 1 ≤ segments.toNat) :
    (fresh segments).Sound segments :=
  ⟨Address.isCellOf_zero positive, rfl, .replicate segments, Nat.zero_le _⟩

theorem Sound.rewind {machine : Machine} {segments : UInt8} (sound : machine.Sound segments) :
    machine.counter.rewind.position.isCellOf segments = true :=
  Address.isCellOf_zero sound.positive

/-- A word is placed if there is room for it and the counter stands on a cell. -/
theorem place_eq_ok_iff {machine next : Machine} {word : Word} :
    machine.place word = .ok next ↔ machine.filled < machine.memory.size ∧
      ∃ memory, machine.memory.set machine.counter.position word = .ok memory ∧
        next = { machine with
          memory, counter := machine.counter.advance, filled := machine.filled + 1 } := by
  unfold place
  by_cases full : machine.memory.size ≤ machine.filled
  · simp [full, Nat.not_lt.mpr full]
  · rw [if_neg full]
    cases machine.memory.set machine.counter.position word with
    | error cause => simp [Except.map]
    | ok memory => simp [Except.map, Nat.lt_of_not_le full, @eq_comm _ next]

/-- The one operation that counts: it stops before the count passes the number of cells. -/
theorem Sound.place {machine next : Machine} {segments : UInt8} {word : Word}
    (sound : machine.Sound segments) (placed : machine.place word = .ok next) :
    next.Sound segments := by
  obtain ⟨room, memory, written, rfl⟩ := place_eq_ok_iff.mp placed
  rw [sound.memory.size_eq] at room
  exact ⟨Counter.isCellOf_next sound.counter sound.position, sound.counter,
    sound.memory.set written, room⟩

theorem running_of_place {machine next : Machine} {word : Word}
    (placed : machine.place word = .ok next) : next.running = machine.running := by
  obtain ⟨_, memory, _, rfl⟩ := place_eq_ok_iff.mp placed
  rfl

/-- What placing one word keeps, loading many keeps. -/
theorem load_induction {P : Machine → Prop}
    (kept : ∀ {machine next : Machine} {word : Word},
      machine.place word = .ok next → P machine → P next)
    (machine : Machine) (words : List Word) (holds : P machine) : P (machine.load words).1 := by
  induction words generalizing machine with
  | nil => exact holds
  | cons word rest ih =>
    unfold load
    cases placed : machine.place word with
    | error cause => exact holds
    | ok next => exact ih next (kept placed holds)

theorem Sound.start {machine : Machine} {segments : UInt8} (sound : machine.Sound segments) :
    machine.start.Sound segments :=
  ⟨sound.rewind, sound.counter, sound.memory, sound.filled⟩

theorem Sound.reset {machine : Machine} {segments : UInt8} (sound : machine.Sound segments) :
    machine.reset.Sound segments :=
  ⟨sound.rewind, sound.counter, sound.memory, sound.filled⟩

theorem Sound.clear {machine : Machine} {segments : UInt8} (sound : machine.Sound segments) :
    machine.clear.Sound segments :=
  ⟨sound.rewind, sound.counter, sound.memory.clear, Nat.zero_le _⟩

end Machine

namespace Session

theorem closed_sound (segments : UInt8) :
    Closed fun session => session.machine.Sound segments where
  data _ sound := ⟨sound.position, sound.counter, sound.memory, sound.filled⟩
  returns _ sound := ⟨sound.position, sound.counter, sound.memory, sound.filled⟩
  advance sound :=
    ⟨Counter.isCellOf_next sound.counter sound.position, sound.counter, sound.memory, sound.filled⟩
  jump inside sound := ⟨sound.counter ▸ inside, sound.counter, sound.memory, sound.filled⟩
  halt sound := ⟨sound.position, sound.counter, sound.memory, sound.filled⟩
  write done sound := ⟨sound.position, sound.counter, sound.memory.set done, sound.filled⟩
  input _ sound := sound
  output _ sound := sound

theorem closed_halted : Closed fun session => session.machine.running = false where
  data _ halted := halted
  returns _ halted := halted
  advance halted := halted
  jump _ halted := halted
  halt _ := rfl
  write _ halted := halted
  input _ halted := halted
  output _ halted := halted

theorem running_of_fault {session failed : Session} {fault : Fault}
    (stepped : session.step = ⟨failed, some fault⟩) : failed.machine.running = false := by
  unfold step at stepped
  split at stepped
  · simp at stepped
  · simp only [Report.mk.injEq] at stepped
    rw [← stepped.1]

/-- A run ends halted, by a fault or by the program. -/
theorem running_of_continue? {fuel : Nat} {session : Session} {report : Report}
    (ended : continue? fuel session = some report) : report.session.machine.running = false := by
  induction fuel generalizing session with
  | zero =>
    unfold continue? at ended
    split at ended
    · cases ended
    · rename_i halted
      cases ended
      simpa using halted
  | succ fuel ih =>
    unfold continue? at ended
    split at ended
    · dsimp only at ended
      split at ended
      · exact ih ended
      · rename_i failed fault stepped
        cases ended
        exact running_of_fault stepped
    · rename_i halted
      cases ended
      simpa using halted

/-- The sessions of a run: the one it starts with, and the one after each step. -/
inductive Underway (segments : UInt8) : Session → Prop
  | start {session : Session} (rested : session.machine.Reachable segments) :
      Underway segments { session with machine := session.machine.start }
  | step {session next : Session} (before : Underway segments session)
      (running : session.machine.running = true) (stepped : session.step = ⟨next, none⟩) :
      Underway segments next

/-- A session in which an instruction can be executed, alone or in a run. -/
def Occurs (segments : UInt8) (session : Session) : Prop :=
  session.machine.Reachable segments ∨ session.Underway segments

end Session

theorem Machine.Reachable.sound {machine : Machine} {segments : UInt8}
    (reached : machine.Reachable segments) : machine.Sound segments := by
  induction reached with
  | new built =>
    obtain ⟨positive, _, rfl⟩ := new_eq_ok_iff.mp built
    exact .fresh positive
  | place word _ placed ih => exact ih.place placed
  | load words _ ih =>
    exact load_induction (P := fun machine => machine.Sound segments)
      (fun placed sound => sound.place placed) _ words ih
  | step _ ih => exact (Session.closed_sound segments).step ih
  | run _ ended ih => exact (Session.closed_sound segments).continue? ended ih.start
  | reset _ ih => exact ih.reset
  | clear _ ih => exact ih.clear

theorem Machine.Reachable.halted {machine : Machine} {segments : UInt8}
    (reached : machine.Reachable segments) : machine.running = false := by
  induction reached with
  | new built =>
    obtain ⟨_, _, rfl⟩ := new_eq_ok_iff.mp built
    rfl
  | place word _ placed ih => rw [running_of_place placed, ih]
  | load words _ ih =>
    exact load_induction (P := fun machine => machine.running = false)
      (fun placed halted => (running_of_place placed).trans halted) _ words ih
  | step _ ih => exact Session.closed_halted.step ih
  | run _ ended _ => exact Session.running_of_continue? ended
  | reset => rfl
  | clear => rfl

theorem Session.Underway.sound {session : Session} {segments : UInt8}
    (underway : session.Underway segments) : session.machine.Sound segments := by
  induction underway with
  | start rested => exact rested.sound.start
  | step _ _ stepped ih =>
    have kept := (closed_sound segments).step ih
    rwa [stepped] at kept

theorem Session.Occurs.sound {session : Session} {segments : UInt8}
    (occurs : session.Occurs segments) : session.machine.Sound segments :=
  occurs.elim Machine.Reachable.sound Underway.sound

/-- A position on a cell is far from the ends of its two number types. -/
theorem Address.no_overflow {address : Address} {segments : UInt8}
    (inside : address.isCellOf segments = true) :
    (address.offset + 1).toNat = address.offset.toNat + 1 ∧
      (address.segment + 1).toNat = address.segment.toNat + 1 := by
  obtain ⟨segment, offset⟩ := isCellOf_iff.mp inside
  have upper := segments.toNat_lt
  simp only [segmentSize] at offset
  rw [UInt16.toNat_add, UInt8.toNat_add]
  simp only [UInt16.toNat_one, UInt8.toNat_one]
  omega

theorem Input.cause_of_read {input rest : Input} {cause : Failure}
    (failed : input.read = (.error cause, rest)) : cause = .inputExhausted := by
  fun_induction Input.read input with
  | case1 token pending unread => simp at failed
  | case2 => simp_all
  | case3 byte bytes tail tokens line ih => exact ih failed
  | case4 byte bytes tail line => simp_all

namespace Action

variable {session later : Session} {segments : UInt8} {word : Word} {operation : Opcode}
  {address : Address}

/-- Of the cells that an operation reads or writes, only that of an operand can be missing. -/
theorem operand_of_missed (sound : session.machine.Sound segments)
    (failed : effect word operation session = .error (.outOfBounds address) later) :
    operation.hasOperand = true ∧ ∃ operand, word.operand? = some operand ∧
      address = .unpack operand := by
  cases operation
  case store =>
    simp only [effect, bind_eq_error_iff, operandCell_eq_error_iff, reduceCtorEq, and_false,
      Failure.outOfBounds.injEq, false_or, operandCell_eq_ok_iff, popData_eq_error_iff, false_and,
      popData_eq_ok_iff, writeCell_eq_error_iff, writeCell_eq_ok_iff, pure_apply, exists_false,
      or_false] at failed
    rcases failed with ⟨⟨operand, carried, _, rfl⟩, _⟩ |
      ⟨_, _, ⟨operand, carried, rfl, _⟩, _, _, _, _, rfl, _⟩ <;>
      exact ⟨rfl, operand, carried, rfl⟩
  case fetch =>
    simp only [effect, bind_eq_error_iff, operandCell_eq_error_iff, reduceCtorEq, and_false,
      Failure.outOfBounds.injEq, false_or, operandCell_eq_ok_iff, readCell_eq_error_iff,
      readCell_eq_ok_iff, pushData_apply, pure_apply, exists_false, or_self, or_false] at failed
    rcases failed with ⟨⟨operand, carried, _, rfl⟩, _⟩ |
      ⟨_, _, ⟨operand, carried, rfl, _⟩, _, rfl, _⟩ <;>
      exact ⟨rfl, operand, carried, rfl⟩
  case lit =>
    simp only [effect, bind_eq_error_iff, nextPosition_apply, reduceCtorEq,
      EStateM.Result.ok.injEq, readCell_eq_error_iff, readCell_eq_ok_iff, pushData_apply,
      pure_apply, and_false, exists_false, or_self, or_false, false_or] at failed
    obtain ⟨_, _, ⟨rfl, rfl⟩, missing, _⟩ := failed
    have inside := Counter.isCellOf_next sound.counter sound.position
    obtain ⟨word, found⟩ := sound.memory.get?_isCellOf inside
    rw [missing] at found
    cases found
  case cin =>
    simp only [effect, bind_eq_error_iff, takeToken_eq_error_iff, pushData_apply, reduceCtorEq,
      pure_apply, and_false, exists_false, or_self, or_false] at failed
    obtain ⟨rest, failed, _⟩ := failed
    cases Input.cause_of_read failed
  case strlit =>
    cases text : word.isText <;> simp [effect, text, -bind_pure_comp] at failed
    rcases failed with ⟨⟨operand, carried, _, rfl⟩, _⟩ | ⟨operand, carried, _, _, _, rfl⟩ <;>
      exact ⟨rfl, operand, carried, rfl⟩
  case sout =>
    simp only [effect, bind_eq_error_iff, operandText_eq_error_iff, operandCell_eq_error_iff,
      reduceCtorEq, and_false, Failure.outOfBounds.injEq, false_or, exists_const, or_false,
      emit_apply, pure_apply, exists_false, or_self] at failed
    rcases failed with ⟨⟨operand, carried, _, rfl⟩, _⟩ | ⟨operand, carried, _, _, _, rfl⟩ <;>
      exact ⟨rfl, operand, carried, rfl⟩
  -- The other operations read and write no cell.
  all_goals simp [effect, combineTop, Word.operand_eq_error_iff, -bind_pure_comp] at failed

theorem operand_of_jump (done : effect word operation session = .ok (.jump address) later) :
    operation.hasOperand = true ∧ ∃ operand, word.operand? = some operand ∧
      address = .unpack operand := by
  cases operation
  case branchIf =>
    simp only [effect, bind_eq_ok_iff, check_eq_ok_iff, Word.operand_eq_ok_iff, pure_apply,
      EStateM.Result.ok.injEq] at done
    obtain ⟨operand, _, ⟨carried, _⟩, condition, _, _, flow, _⟩ := done
    cases truth : condition.isTrue <;> simp [truth] at flow
    exact ⟨rfl, operand, carried, flow.symm⟩
  case call =>
    simp only [effect, bind_eq_ok_iff, check_eq_ok_iff, Word.operand_eq_ok_iff, pure_apply,
      EStateM.Result.ok.injEq, Flow.jump.injEq] at done
    obtain ⟨operand, _, ⟨carried, _⟩, target, _⟩ := done
    exact ⟨rfl, operand, carried, target.symm⟩
  case strlit => cases text : word.isText <;> simp [effect, text, -bind_pure_comp] at done
  all_goals simp [effect, combineTop, -bind_pure_comp] at done

theorem operand_of_outOfBounds (sound : session.machine.Sound segments)
    (failed : perform word operation session = .error (.outOfBounds address) later) :
    operation.hasOperand = true ∧ ∃ operand, word.operand? = some operand ∧
      address = .unpack operand := by
  simp only [perform, bind_eq_error_iff, move_eq_error_iff] at failed
  rcases failed with missed | ⟨_, _, jumped, target, rfl, _, missed, _⟩
  · exact operand_of_missed sound missed
  · cases missed
    exact operand_of_jump jumped

end Action

theorem Session.step_eq_fault_iff {session : Session} {fault : Fault} :
    session.step.fault? = some fault ↔
      ∃ left, Action.execute session = .error fault.cause left ∧
        fault.opcode = session.machine.currentOpcode ∧
        fault.location = session.machine.counter.position := by
  unfold step
  cases Action.execute session with
  | ok value next => simp
  | error cause left =>
    obtain ⟨opcode, location, reason⟩ := fault
    simp only [Option.some.injEq, Fault.mk.injEq, EStateM.Result.error.injEq]
    constructor
    · rintro ⟨rfl, rfl, rfl⟩
      exact ⟨left, ⟨rfl, rfl⟩, rfl, rfl⟩
    · rintro ⟨_, ⟨rfl, _⟩, rfl, rfl⟩
      exact ⟨rfl, rfl, rfl⟩

theorem Machine.Sound.fetch {machine : Machine} {segments : UInt8}
    (sound : machine.Sound segments) :
    ∃ word, machine.memory.get? machine.counter.position = some word ∧
      machine.currentOpcode = word.opcode := by
  obtain ⟨word, found⟩ := sound.memory.get?_isCellOf sound.position
  exact ⟨word, found, by simp [currentOpcode, found]⟩

theorem Action.execute_eq {session : Session} {word : Word}
    (found : session.machine.memory.get? session.machine.counter.position = some word) :
    execute session =
      match Opcode.ofCode? word.opcode with
      | some operation => perform word operation session
      | none => .error (.unknownOpcode word.opcode) session := by
  simp only [execute, enact, bind_assoc]
  rw [bind_of_ok position_apply, bind_of_ok (readCell_eq_ok_iff.mpr ⟨found, rfl⟩)]
  cases known : Opcode.ofCode? word.opcode with
  | none => exact bind_of_error (check_eq_error_iff.mpr ⟨by simp [Opcode.ofCode, known], rfl⟩)
  | some operation =>
    exact bind_of_ok (check_eq_ok_iff.mpr ⟨by simp [Opcode.ofCode, known], rfl⟩)

/-- The opcode under the counter tells what is executed, unless it is that of no word at all. -/
theorem Session.execute_of_currentOpcode {session : Session} {operation : Opcode}
    (current : session.machine.currentOpcode = operation.code) (real : operation.code ≠ 0) :
    ∃ word, Action.execute session = Action.perform word operation session := by
  cases found : session.machine.memory.get? session.machine.counter.position with
  | none =>
    rw [Machine.currentOpcode, found] at current
    exact absurd current.symm real
  | some word =>
    have opcode : word.opcode = operation.code := by
      rw [← current, Machine.currentOpcode, found]
    refine ⟨word, ?_⟩
    rw [Action.execute_eq found, opcode, Opcode.ofCode?_code]

theorem Word.eq_instruction {word : Word} {operand : UInt16}
    (carried : word.operand? = some operand) : word = .instruction word.opcode (some operand) := by
  cases word with
  | instruction code found =>
    simp only [operand?] at carried
    rw [carried]
    rfl
  | literal value => cases carried
  | text payload => cases carried

/-- A step that misses a cell was told where to look by the operand of the word it executed. -/
theorem Session.operand_of_fault {session : Session} {segments : UInt8} {word : Word}
    {fault : Fault} {address : Address} (sound : session.machine.Sound segments)
    (found : session.machine.memory.get? session.machine.counter.position = some word)
    (faulted : session.step.fault? = some fault) (missed : fault.cause = .outOfBounds address) :
    ∃ operation ∈ [Opcode.store, .fetch, .branchIf, .call, .strlit, .sout], ∃ operand,
      word = .instruction operation.code (some operand) ∧ fault.opcode = operation.code ∧
        address = .unpack operand := by
  obtain ⟨left, failed, opcode, _⟩ := step_eq_fault_iff.mp faulted
  have current : session.machine.currentOpcode = word.opcode := by
    simp [Machine.currentOpcode, found]
  rw [missed, Action.execute_eq found] at failed
  cases known : Opcode.ofCode? word.opcode with
  | none => simp [known] at failed
  | some operation =>
    rw [known] at failed
    obtain ⟨takes, operand, carried, rfl⟩ := Action.operand_of_outOfBounds sound failed
    have code := Opcode.code_of_ofCode? known
    refine ⟨operation, ?_, operand, ?_, ?_, rfl⟩
    · revert takes
      cases operation <;> decide
    · rw [code]
      exact Word.eq_instruction carried
    · rw [opcode, current, code]

/-- Every machine that comes about is sound, and halted between operations; while a run is underway
it is sound before every step. So the counter does not overflow, the words that it fetches are
there, and a step misses no cell but one that an operand names. -/
theorem sound_of_reachable (segments : UInt8)
    (few : 1 ≤ segments.toNat ∧ segments.toNat ≤ maxSegments) :
    (∃ machine, Machine.new segments = .ok machine ∧ machine.Reachable segments) ∧
    (∀ machine : Machine, machine.Reachable segments →
      machine.Sound segments ∧ machine.running = false) ∧
    (∀ session : Session, session.Underway segments → session.machine.Sound segments) ∧
    ∀ session : Session, session.Occurs segments →
      (∀ address ∈ [session.machine.counter.position, session.machine.counter.next],
        (address.offset + 1).toNat = address.offset.toNat + 1 ∧
          (address.segment + 1).toNat = address.segment.toNat + 1) ∧
      ∃ word ahead,
        session.machine.memory.get session.machine.counter.position = .ok word ∧
        session.machine.memory.get session.machine.counter.next = .ok ahead ∧
        session.machine.currentOpcode = word.opcode ∧
        ∀ fault address, session.step.fault? = some fault → fault.cause = .outOfBounds address →
          ∃ operation ∈ [Opcode.store, .fetch, .branchIf, .call, .strlit, .sout], ∃ operand,
            word = .instruction operation.code (some operand) ∧ fault.opcode = operation.code ∧
              address = .unpack operand := by
  refine ⟨?_, ?_, ?_, ?_⟩
  · have built := Machine.new_eq_ok_iff.mpr ⟨few.1, few.2, rfl⟩
    exact ⟨_, built, .new built⟩
  · intro machine reached
    exact ⟨reached.sound, reached.halted⟩
  · intro session underway
    exact underway.sound
  · intro session occurs
    have sound := occurs.sound
    have inside := Counter.isCellOf_next sound.counter sound.position
    obtain ⟨word, found, current⟩ := sound.fetch
    obtain ⟨ahead, foundAhead⟩ := sound.memory.get?_isCellOf inside
    refine ⟨?_, word, ahead, ?_, ?_, current, ?_⟩
    · intro address member
      simp only [List.mem_cons, List.not_mem_nil, or_false] at member
      rcases member with rfl | rfl
      · exact Address.no_overflow sound.position
      · exact Address.no_overflow inside
    · simp [Memory.get, found]
    · simp [Memory.get, foundAhead]
    · intro fault address faulted missed
      exact Session.operand_of_fault sound found faulted missed

/-- A fresh machine that is given a write to segment 15: it stays sound, and the step that executes
the write faults with the address it was given. -/
theorem sound_of_reachable_store :
    let program := [Word.instruction Opcode.store.code (some 0xF000)]
    let session : Session := ⟨((Machine.fresh 1).load program).1.reset, .ofTokens [], #[]⟩
    session.machine.Sound 1 ∧ session.machine.running = false ∧
      ∃ fault, session.step.fault? = some fault ∧ fault.cause = .outOfBounds (.unpack 0xF000) ∧
        ∃ operation ∈ [Opcode.store, .fetch, .branchIf, .call, .strlit, .sout],
          fault.opcode = operation.code := by
  intro program session
  obtain ⟨_, machines, _, steps⟩ := sound_of_reachable 1 ⟨by decide, by decide⟩
  have reached : session.machine.Reachable 1 :=
    .reset (.load _ (.new (Machine.new_eq_ok_iff.mpr ⟨by decide, by decide, rfl⟩)))
  have faulted : session.step.fault? = some ⟨1, .zero, .outOfBounds (.unpack 0xF000)⟩ := by
    decide +kernel
  obtain ⟨_, word, ahead, _, _, _, missing⟩ := steps session (Or.inl reached)
  obtain ⟨operation, member, _, _, code, _⟩ := missing _ _ faulted rfl
  exact ⟨(machines _ reached).1, (machines _ reached).2, _, faulted, rfl, operation, member, code⟩

end StackMachine
