import StackMachine.Proofs.Loading
import StackMachine.Proofs.Lockstep

/-!
More memory. A program that keeps to its segments does the same in a machine that has more of them.
The two machines differ in what they take for a cell, and in where the counter goes from the last
cell of the smaller one. As long as no step goes on from there and none misses a cell, they stay
together, and the segments that only the larger one has stay empty.
-/

set_option autoImplicit false

namespace StackMachine

def Address.lastOf (segments : UInt8) : Address :=
  ⟨segments - 1, 1023⟩

namespace Address

variable {address : Address} {few many : UInt8}

theorem isCellOf_mono (order : few.toNat ≤ many.toNat) (inside : address.isCellOf few = true) :
    address.isCellOf many = true := by
  obtain ⟨segment, offset⟩ := isCellOf_iff.mp inside
  exact isCellOf_iff.mpr ⟨Nat.lt_of_lt_of_le segment order, offset⟩

theorem eq_lastOf (offset : address.offset.toNat = 1023)
    (segment : address.segment.toNat + 1 = few.toNat) : address = lastOf few := by
  have upper := few.toNat_lt
  have last : (few - 1).toNat = few.toNat - 1 := by
    rw [UInt8.toNat_sub]
    simp only [UInt8.toNat_one]
    omega
  have sameSegment : address.segment = few - 1 := UInt8.toNat_inj.mp (by omega)
  have sameOffset : address.offset = 1023 := UInt16.toNat_inj.mp offset
  rw [lastOf, ← sameSegment, ← sameOffset]

end Address

/-- From every cell but the last, the counter goes on in the same way where there are more
segments. -/
theorem Counter.next_widened {one other : Counter} {few many : UInt8}
    (order : few.toNat ≤ many.toNat) (small : one.segments = few) (large : other.segments = many)
    (same : one.position = other.position) (inside : one.position.isCellOf few = true)
    (short : one.position ≠ .lastOf few) : one.next = other.next := by
  obtain ⟨segment, offset⟩ := Address.isCellOf_iff.mp inside
  simp only [segmentSize] at offset
  have more : segmentSize ≤ one.position.offset.toNat + 1 →
      one.position.segment.toNat + 1 < few.toNat := by
    intro ended
    simp only [segmentSize] at ended
    apply Nat.lt_of_not_le
    intro last
    exact short (Address.eq_lastOf (by omega) (by omega))
  have together := other.next_cases
  rw [← same, large] at together
  rcases one.next_cases with ⟨within, moved⟩ | ⟨ended, _, moved⟩ | ⟨ended, last, _⟩
  · rcases together with ⟨_, alsoMoved⟩ | ⟨ended, _⟩ | ⟨ended, _⟩
    · rw [moved, alsoMoved]
    · omega
    · omega
  · have := more ended
    rcases together with ⟨within, _⟩ | ⟨_, _, alsoMoved⟩ | ⟨_, last, _⟩
    · omega
    · rw [moved, alsoMoved]
    · omega
  · have := more ended
    rw [small] at last
    omega

/-- Machines of few and of many segments that hold the same in the few. The others are empty. -/
structure Machine.Widened (few many : UInt8) (one other : Machine) : Prop where
  position : one.counter.position = other.counter.position
  inside : one.counter.position.isCellOf few = true
  counter : one.counter.segments = few
  otherCounter : other.counter.segments = many
  memory : one.memory.Whole few
  otherMemory : other.memory.Whole many
  cells : ∀ address : Address, address.isCellOf few = true →
    other.memory.get? address = one.memory.get? address
  empty : ∀ address : Address, address.isCellOf many = true → address.isCellOf few = false →
    other.memory.get? address = some .nop
  data : one.data = other.data
  returns : one.returns = other.returns
  running : one.running = other.running

structure Session.Widened (few many : UInt8) (one other : Session) : Prop where
  machine : one.machine.Widened few many other.machine
  input : one.input = other.input
  output : one.output = other.output

namespace Machine.Widened

variable {few many : UInt8} {one other : Machine}

theorem get?_eq_some (widened : one.Widened few many other) {address : Address} {word : Word}
    (found : one.memory.get? address = some word) : other.memory.get? address = some word := by
  have inside := widened.memory.isSome_get? address
  rw [found] at inside
  rw [widened.cells address inside.symm, found]

theorem currentOpcode_eq (widened : one.Widened few many other) :
    one.currentOpcode = other.currentOpcode := by
  rw [currentOpcode, currentOpcode, ← widened.position, widened.cells _ widened.inside]

theorem set (widened : one.Widened few many other) {address : Address} {word : Word}
    {memory : Memory} (done : one.memory.set address word = .ok memory) :
    ∃ wider, other.memory.set address word = .ok wider ∧
      { one with memory }.Widened few many { other with memory := wider } := by
  have inside : address.isCellOf few = true := by
    rw [← widened.memory.isSome_get? address]
    unfold Memory.set at done
    split at done
    · assumption
    · cases done
  have present : (other.memory.get? address).isSome = true := by
    rw [widened.cells address inside, widened.memory.isSome_get?, inside]
  obtain ⟨wider, redone⟩ : ∃ wider, other.memory.set address word = .ok wider := by
    simp [Memory.set, present]
  refine ⟨wider, redone, { widened with
    memory := widened.memory.set done
    otherMemory := widened.otherMemory.set redone
    cells := ?_
    empty := ?_ }⟩
  · intro place within
    rw [Memory.get?_set done, Memory.get?_set redone, widened.cells place within]
  · intro place within beyond
    have apart : place ≠ address := by
      rintro rfl
      rw [inside] at beyond
      cases beyond
    rw [Memory.get?_set redone, if_neg apart, widened.empty place within beyond]

end Machine.Widened

namespace Pairing

/-- Sessions of few and of many segments that hold the same. A first side that misses a cell is
excused. -/
def widened (few many : UInt8) : Pairing where
  sessions := Session.Widened few many
  words := Eq
  excused cause := ∃ address, cause = .outOfBounds address

variable {few many : UInt8}

theorem agree_popData_widened :
    (widened few many).Agree Eq Action.popData Action.popData := by
  rintro one other ⟨machine, input, output⟩
  unfold Action.popData
  rw [← machine.data]
  cases one.machine.data with
  | nil => exact .error ⟨machine, input, output⟩
  | cons word rest => exact .ok rfl ⟨{ machine with data := rfl }, input, output⟩

theorem agree_popReturn_widened :
    (widened few many).Agree Eq Action.popReturn Action.popReturn := by
  rintro one other ⟨machine, input, output⟩
  unfold Action.popReturn
  rw [← machine.returns]
  cases one.machine.returns with
  | nil => exact .error ⟨machine, input, output⟩
  | cons word rest => exact .ok rfl ⟨{ machine with returns := rfl }, input, output⟩

theorem agree_peekData_widened (depth : Nat) :
    (widened few many).Agree Eq (Action.peekData depth) (Action.peekData depth) := by
  rintro one other ⟨machine, input, output⟩
  unfold Action.peekData
  rw [← machine.data]
  exact agree_check _ _ one other ⟨machine, input, output⟩

theorem agree_readCell_widened (address : Address) :
    (widened few many).Agree Eq (Action.readCell address) (Action.readCell address) := by
  rintro one other ⟨machine, input, output⟩
  unfold Action.readCell Memory.get
  cases found : one.machine.memory.get? address with
  | none => exact .excused ⟨address, rfl⟩
  | some word =>
    rw [machine.get?_eq_some found]
    exact .ok rfl ⟨machine, input, output⟩

theorem agree_writeCell_widened (address : Address) (word : Word) :
    (widened few many).Agree Eq (Action.writeCell address word)
      (Action.writeCell address word) := by
  rintro one other ⟨machine, input, output⟩
  unfold Action.writeCell
  cases done : one.machine.memory.set address word with
  | error cause =>
    refine .excused ⟨address, ?_⟩
    unfold Memory.set at done
    split at done
    · cases done
    · exact (Except.error.inj done).symm
  | ok memory =>
    obtain ⟨wider, redone, after⟩ := machine.set done
    rw [redone]
    exact .ok rfl ⟨after, input, output⟩

theorem agree_operandCell_widened (order : few.toNat ≤ many.toNat) (word : Word) :
    (widened few many).Agree Eq (Action.operandCell word) (Action.operandCell word) := by
  rintro one other ⟨machine, input, output⟩
  unfold Action.operandCell
  rw [Machine.segmentCount, Machine.segmentCount, machine.memory.segmentCount_eq,
    machine.otherMemory.segmentCount_eq]
  cases word.operand with
  | error cause => exact .error ⟨machine, input, output⟩
  | ok operand =>
    cases inside : (Address.unpack operand).isCellOf few with
    | false =>
      simp only [Except.bind, Address.cellOf, inside, Bool.false_eq_true, if_false]
      exact .excused ⟨_, rfl⟩
    | true =>
      simp only [Except.bind, Address.cellOf, inside, Address.isCellOf_mono order inside, if_true]
      exact .ok rfl ⟨machine, input, output⟩

theorem agree_takeToken_widened :
    (widened few many).Agree Eq Action.takeToken Action.takeToken := by
  rintro one other ⟨machine, input, output⟩
  unfold Action.takeToken
  rw [← input]
  rcases one.input.read with ⟨cause | token, rest⟩
  · exact .error ⟨{ machine with }, rfl, output⟩
  · exact .ok rfl ⟨{ machine with }, rfl, output⟩

theorem agree_jump_widened (order : few.toNat ≤ many.toNat) (target : Address) :
    (widened few many).Agree Eq (Action.jump target) (Action.jump target) := by
  rintro one other ⟨machine, input, output⟩
  unfold Action.jump Counter.jump
  rw [machine.counter, machine.otherCounter]
  cases inside : target.isCellOf few with
  | false =>
    simp only [Address.cellOf, inside, Bool.false_eq_true, if_false]
    exact .excused ⟨_, rfl⟩
  | true =>
    simp only [Address.cellOf, inside, Address.isCellOf_mono order inside, if_true]
    exact .ok rfl ⟨{ machine with
      position := rfl
      inside := inside
      counter := rfl
      otherCounter := rfl }, input, output⟩

theorem agree_halt_widened : (widened few many).Agree Eq Action.halt Action.halt :=
  fun _ _ paired => .ok rfl ⟨{ paired.machine with running := rfl }, paired.input, paired.output⟩

/-- What an instruction does to stacks and cells, it does in both. -/
theorem effects_widened (order : few.toNat ≤ many.toNat) : (widened few many).Effects where
  refl _ := rfl
  alike same := same ▸ .refl _
  combine _ first second := by rw [first, second]; rfl
  popData := agree_popData_widened
  pushData same _ _ paired := .ok rfl ⟨{ paired.machine with
    data := by rw [same, paired.machine.data] }, paired.input, paired.output⟩
  peekData := agree_peekData_widened
  popReturn := agree_popReturn_widened
  pushReturn same _ _ paired := .ok rfl ⟨{ paired.machine with
    returns := by rw [same, paired.machine.returns] }, paired.input, paired.output⟩
  readCell := agree_readCell_widened
  writeCell address _ _ same := same ▸ agree_writeCell_widened address _
  operandCell same := same ▸ agree_operandCell_widened order _
  emit text _ _ paired := .ok rfl ⟨{ paired.machine with }, paired.input, by rw [paired.output]⟩

theorem advance_widened (order : few.toNat ≤ many.toNat) {one other : Session}
    (paired : one.Widened few many other)
    (short : one.machine.counter.position ≠ .lastOf few) :
    ({ one with machine.counter := one.machine.counter.advance } : Session).Widened few many
      { other with machine.counter := other.machine.counter.advance } := by
  have machine := paired.machine
  have next := Counter.next_widened order machine.counter machine.otherCounter machine.position
    machine.inside short
  exact ⟨{ machine with
    position := next
    inside := Counter.isCellOf_next machine.counter machine.inside }, paired.input, paired.output⟩

end Pairing

namespace Session

variable {few many : UInt8} {one other : Session}

/-- `LIT` always finds the word after it, and goes on from both its cells. -/
theorem goesOnFrom_lit (sound : one.machine.memory.Whole few)
    (counter : one.machine.counter.segments = few)
    (inside : one.machine.counter.position.isCellOf few = true)
    (current : one.machine.currentOpcode = Opcode.lit.code) :
    one.goesOnFrom = [one.machine.counter.position, one.machine.counter.next] := by
  obtain ⟨word, found⟩ := sound.get?_isCellOf inside
  obtain ⟨ahead, foundAhead⟩ := sound.get?_isCellOf (Counter.isCellOf_next counter inside)
  have opcode : word.opcode = Opcode.lit.code := by
    rw [← current, Machine.currentOpcode, found]
  have enacted : Action.enact one = .ok .skip
      { one with machine.data := ahead :: one.machine.data } := by
    rw [Action.enact_eq found opcode, Action.effect, Action.bind_of_ok Action.nextPosition_apply,
      Action.bind_of_ok (Action.readCell_eq_ok_iff.mpr ⟨foundAhead, rfl⟩)]
    rfl
  rw [goesOnFrom_of_skip enacted]

/-- A step that does not go on from the last cell of the smaller machine is the same step in the
larger one, unless it misses a cell. -/
theorem Widened.step (order : few.toNat ≤ many.toNat) (widened : one.Widened few many other)
    (short : .lastOf few ∉ one.goesOnFrom) :
    (Pairing.widened few many).Excuses one.step ∨
      (Pairing.widened few many).Reports one.step other.step := by
  have machine := widened.machine
  have effects := Pairing.effects_widened order
  refine effects.step widened machine.position machine.currentOpcode_eq ?_ ?_ ?_ ?_
    Pairing.agree_halt_widened
  · intro _ a b same
    exact same ▸ effects.emit _
  · intro current
    rw [goesOnFrom_lit machine.memory machine.counter machine.inside current] at short
    exact Counter.next_widened order machine.counter machine.otherCounter machine.position
      machine.inside (List.ne_of_not_mem_cons short).symm
  · intro _
    exact Pairing.agree_takeToken_widened one other widened
  · intro flow later left enacted _ enactedPair
    cases flow with
    | next =>
      rw [goesOnFrom_of_next enacted] at short
      have elsewhere := (List.ne_of_not_mem_cons short).symm
      exact .ok rfl (Pairing.advance_widened order enactedPair elsewhere)
    | skip =>
      -- The counter goes on twice, and must not stand on the last cell either time.
      rw [goesOnFrom_of_skip enacted] at short
      have elsewhere := (List.ne_of_not_mem_cons short).symm
      have between := (List.ne_of_not_mem_cons (List.not_mem_of_not_mem_cons short)).symm
      exact .ok rfl (Pairing.advance_widened order
        (Pairing.advance_widened order enactedPair elsewhere) between)
    | jump target => exact Pairing.agree_jump_widened order target later left enactedPair
    | halt => exact Pairing.agree_halt_widened later left enactedPair

end Session

/-- The same program, loaded into a fresh machine of few segments and into one of many. -/
theorem Machine.widened_load {few many : UInt8} (positive : 1 ≤ few.toNat)
    (order : few.toNat ≤ many.toNat) {words : List Word}
    (fits : words.length ≤ few.toNat * segmentSize) :
    ((fresh few).load words).1.start.Widened few many ((fresh many).load words).1.start := by
  have alsoPositive := Nat.le_trans positive order
  have alsoFits := Nat.le_trans fits (Nat.mul_le_mul_right segmentSize order)
  obtain ⟨small, loaded, sound, _⟩ := exists_load_fresh positive fits
  obtain ⟨large, alsoLoaded, alsoSound, _⟩ := exists_load_fresh alsoPositive alsoFits
  have unused := stacks_load (fresh few) words
  have alsoUnused := stacks_load (fresh many) words
  have cells : ∀ address : Address, address.isCellOf few = true →
      ((fresh many).load words).1.memory.get? address =
        ((fresh few).load words).1.memory.get? address := by
    intro address inside
    rw [get?_load_fresh positive fits inside,
      get?_load_fresh alsoPositive alsoFits (Address.isCellOf_mono order inside)]
  have empty : ∀ address : Address, address.isCellOf many = true → address.isCellOf few = false →
      ((fresh many).load words).1.memory.get? address = some .nop := by
    intro address inside beyond
    -- The words fit into the few segments, so they end before the others.
    have late : words.length ≤ address.index := by
      have outside :
          ¬ (address.segment.toNat < few.toNat ∧ address.offset.toNat < segmentSize) := by
        rw [← Address.isCellOf_iff, beyond]
        exact Bool.false_ne_true
      have offset := (Address.isCellOf_iff.mp inside).2
      have segment : few.toNat ≤ address.segment.toNat := by omega
      have below := Nat.mul_le_mul_right segmentSize segment
      unfold Address.index
      omega
    rw [get?_load_fresh alsoPositive alsoFits inside, List.getElem?_eq_none late, Option.getD_none]
  rw [loaded] at unused cells ⊢
  rw [alsoLoaded] at alsoUnused cells empty ⊢
  exact {
    position := rfl
    inside := sound.rewind
    counter := sound.counter
    otherCounter := alsoSound.counter
    memory := sound.memory
    otherMemory := alsoSound.memory
    cells := cells
    empty := empty
    data := unused.1.trans alsoUnused.1.symm
    returns := unused.2.trans alsoUnused.2.symm
    running := rfl }

/-- If a run ends without missing a cell, and none of its steps goes on from the last cell, then
with more segments it ends in the same way. It leaves the same in the cells that both machines have,
and nothing in the others. -/
theorem run_widened (few many : UInt8) (order : few.toNat ≤ many.toNat) (small large : Machine)
    (built : Machine.new few = .ok small) (alsoBuilt : Machine.new many = .ok large)
    (words : List Word) (fits : words.length ≤ 1024 * few.toNat) (input : Input)
    (output : Array String) (fuel : Nat) (report : Report)
    (ended : Session.run? fuel ⟨(small.load words).1, input, output⟩ = some report)
    (found : ∀ fault address, report.fault? = some fault → fault.cause ≠ .outOfBounds address)
    (short : ∀ session ∈ Session.trace fuel ⟨(small.load words).1.start, input, output⟩,
      .lastOf few ∉ session.goesOnFrom) :
    (small.load words).2 = .ok () ∧ (large.load words).2 = .ok () ∧
      ∃ other, Session.run? fuel ⟨(large.load words).1, input, output⟩ = some other ∧
        other.fault? = report.fault? ∧
        other.session.output = report.session.output ∧
        other.session.input = report.session.input ∧
        other.session.machine.data = report.session.machine.data ∧
        other.session.machine.returns = report.session.machine.returns ∧
        other.session.machine.counter.position = report.session.machine.counter.position ∧
        (∀ address : Address, address.isCellOf few = true →
          other.session.machine.memory.get? address =
            report.session.machine.memory.get? address) ∧
        ∀ address : Address, address.isCellOf many = true → address.isCellOf few = false →
          other.session.machine.memory.get? address = some .nop := by
  obtain ⟨positive, _, rfl⟩ := Machine.new_eq_ok_iff.mp built
  obtain ⟨_, _, rfl⟩ := Machine.new_eq_ok_iff.mp alsoBuilt
  rw [Nat.mul_comm] at fits
  have alsoFits := Nat.le_trans fits (Nat.mul_le_mul_right segmentSize order)
  obtain ⟨_, loaded, _⟩ := Machine.exists_load_fresh positive fits
  obtain ⟨_, alsoLoaded, _⟩ :=
    Machine.exists_load_fresh (Nat.le_trans positive order) alsoFits
  have started : (Pairing.widened few many).sessions
      ⟨((Machine.fresh few).load words).1.start, input, output⟩
      ⟨((Machine.fresh many).load words).1.start, input, output⟩ :=
    ⟨Machine.widened_load positive order fits, rfl, rfl⟩
  have running : ∀ {one other : Session}, (Pairing.widened few many).sessions one other →
      one.machine.running = other.machine.running := fun paired => paired.machine.running
  have ends := Pairing.continue?_of_step running (Session.Widened.step order) fuel started short
  rw [Session.run?] at ended
  rw [ended] at ends
  refine ⟨by rw [loaded], by rw [alsoLoaded], ?_⟩
  rcases ends with ⟨_, same, fault, faulted, address, missed⟩ | related
  · cases same
    exact absurd missed (found fault address faulted)
  · rw [Session.run?]
    generalize Session.continue? fuel _ = outcome at related ⊢
    cases related with
    | @some _ other reports =>
      obtain ⟨same, machine, sameInput, sameOutput⟩ := reports
      exact ⟨other, rfl, same.symm, sameOutput.symm, sameInput.symm, machine.data.symm,
        machine.returns.symm, machine.position.symm, machine.cells, machine.empty⟩

/-- A program that writes `EXIT` into the last cell of one segment and jumps there. Its run ends on
that cell and does not go on from it, so in two segments it ends there, too. -/
theorem run_widened_last :
    let words := [Word.instruction Opcode.lit.code none, .instruction Opcode.exit.code none,
      .instruction Opcode.store.code (some 0x3FF), .instruction Opcode.call.code (some 0x3FF)]
    ∃ other, Session.run? 4 ⟨((Machine.fresh 2).load words).1, .ofTokens [], #[]⟩ = some other ∧
      other.fault? = none ∧ other.session.machine.counter.position = .lastOf 1 ∧
      other.session.machine.memory.get? ⟨1, 0⟩ = some .nop := by
  intro words
  have alone : (Session.run? 4 ⟨((Machine.fresh 1).load words).1, .ofTokens [], #[]⟩).map
      (fun report => (report.fault?, report.session.machine.counter.position)) =
        some (none, .lastOf 1) := by
    decide +kernel
  have short : (Session.trace 4 ⟨((Machine.fresh 1).load words).1.start, .ofTokens [], #[]⟩).all
      (fun session => session.goesOnFrom.all (· ≠ .lastOf 1)) = true := by
    decide +kernel
  obtain ⟨report, ended, parts⟩ := Option.map_eq_some_iff.mp alone
  simp only [Prod.mk.injEq] at parts
  obtain ⟨halted, position⟩ := parts
  obtain ⟨_, _, other, alsoEnded, same, _, _, _, _, samePosition, _, empty⟩ :=
    run_widened 1 2 (by decide) _ _ (Machine.new_eq_ok_iff.mpr ⟨by decide, by decide, rfl⟩)
      (Machine.new_eq_ok_iff.mpr ⟨by decide, by decide, rfl⟩) words (by decide) (.ofTokens []) #[]
      4 report ended (by simp [halted]) (by
        intro session member last
        have elsewhere := List.all_eq_true.mp (List.all_eq_true.mp short session member) _ last
        simp at elsewhere)
  exact ⟨other, alsoEnded, same.trans halted, samePosition.trans position,
    empty _ (by decide) (by decide)⟩

end StackMachine
