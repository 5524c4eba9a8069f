import Mathlib.Data.List.Forall2
import StackMachine.Proofs.Lockstep

/-!
Only the low halves of literals steer a program. Two machines whose cells and stacks hold words
alike stay so, step by step, and meet the same faults at the same places. The one thing that shows
the high half of a literal is its decimal form, where a program prints it.
-/

set_option autoImplicit false

namespace StackMachine

/-- Machines that stand at the same cell, with words alike in memory and on both stacks. -/
structure Machine.Alike (one other : Machine) : Prop where
  counter : one.counter = other.counter
  segments : one.segmentCount = other.segmentCount
  running : one.running = other.running
  cells : ∀ address : Address,
    Option.Rel Word.Alike (one.memory.get? address) (other.memory.get? address)
  data : List.Forall₂ Word.Alike one.data other.data
  returns : List.Forall₂ Word.Alike one.returns other.returns

/-- Two outputs that have gone on from two others by as many texts, related one by one. -/
def Continues (printed : String → String → Prop) (first second one other : Array String) : Prop :=
  ∃ texts others, one.toList = first.toList ++ texts ∧ other.toList = second.toList ++ others ∧
    List.Forall₂ printed texts others

theorem Continues.push {printed : String → String → Prop} {first second one other : Array String}
    (before : Continues printed first second one other) {text word : String}
    (related : printed text word) :
    Continues printed first second (one.push text) (other.push word) := by
  obtain ⟨texts, others, left, right, each⟩ := before
  refine ⟨texts ++ [text], others ++ [word], ?_, ?_, ?_⟩
  · rw [Array.toList_push, left, List.append_assoc]
  · rw [Array.toList_push, right, List.append_assoc]
  · exact List.rel_append each (.cons related .nil)

theorem Memory.segments_set {memory written : Memory} {address : Address} {word : Word}
    (done : memory.set address word = .ok written) :
    written.segmentCount = memory.segmentCount ∧ written.size = memory.size := by
  unfold Memory.set at done
  split at done
  · cases done
    simp [segmentCount, size]
  · contradiction

theorem Memory.set_alike {one other : Memory}
    (cells : ∀ address : Address, Option.Rel Word.Alike (one.get? address) (other.get? address))
    {a b : Word} (alike : a.Alike b) (address : Address) :
    (∃ left right, one.set address a = .ok left ∧ other.set address b = .ok right ∧
        ∀ place : Address, Option.Rel Word.Alike (left.get? place) (right.get? place)) ∨
      one.set address a = .error (.outOfBounds address) ∧
        other.set address b = .error (.outOfBounds address) := by
  have present : (one.get? address).isSome = (other.get? address).isSome := by
    have here := cells address
    generalize one.get? address = found at here
    generalize other.get? address = mate at here
    cases here <;> rfl
  cases known : (other.get? address).isSome with
  | true =>
    have first : ∃ left, one.set address a = .ok left := by simp [Memory.set, present, known]
    have second : ∃ right, other.set address b = .ok right := by simp [Memory.set, known]
    obtain ⟨left, first⟩ := first
    obtain ⟨right, second⟩ := second
    refine .inl ⟨left, right, first, second, ?_⟩
    intro place
    rw [get?_set first, get?_set second]
    split
    · exact .some alike
    · exact cells place
  | false => exact .inr ⟨by simp [Memory.set, present, known], by simp [Memory.set, known]⟩

theorem Word.Alike.getElem? {one other : List Word} (each : List.Forall₂ Word.Alike one other)
    (depth : Nat) : Option.Rel Word.Alike one[depth]? other[depth]? := by
  induction each generalizing depth with
  | nil => exact .none
  | cons first _ ih =>
    cases depth with
    | zero => exact .some first
    | succ depth => exact ih depth

structure Session.Alike (one other : Session) : Prop where
  machine : one.machine.Alike other.machine
  input : one.input = other.input

namespace Pairing

/-- Sessions alike belong together, with outputs that have gone on from two given ones by texts
that belong together. -/
def lowHalves (printed : String → String → Prop) (first second : Array String) : Pairing where
  sessions one other := one.Alike other ∧ Continues printed first second one.output other.output
  words := Word.Alike
  excused _ := False

variable {printed : String → String → Prop} {first second : Array String}

theorem agree_popData_lowHalves :
    (lowHalves printed first second).Agree Word.Alike Action.popData Action.popData := by
  rintro one other ⟨⟨machine, input⟩, output⟩
  have data := machine.data
  unfold Action.popData
  generalize one.machine.data = stack at data
  generalize other.machine.data = mate at data
  cases data with
  | nil => exact .error ⟨⟨machine, input⟩, output⟩
  | cons same rest => exact .ok same ⟨⟨{ machine with data := rest }, input⟩, output⟩

theorem agree_popReturn_lowHalves :
    (lowHalves printed first second).Agree Word.Alike Action.popReturn Action.popReturn := by
  rintro one other ⟨⟨machine, input⟩, output⟩
  have returns := machine.returns
  unfold Action.popReturn
  generalize one.machine.returns = stack at returns
  generalize other.machine.returns = mate at returns
  cases returns with
  | nil => exact .error ⟨⟨machine, input⟩, output⟩
  | cons same rest => exact .ok same ⟨⟨{ machine with returns := rest }, input⟩, output⟩

theorem outcomes_lookup_lowHalves {one other : Session} {left right : Option Word}
    {cause : Failure} (paired : (lowHalves printed first second).sessions one other) :
    Option.Rel Word.Alike left right → (lowHalves printed first second).Outcomes Word.Alike
      (Action.check (match left with | some word => .ok word | none => .error cause) one)
      (Action.check (match right with | some word => .ok word | none => .error cause) other) := by
  intro found
  cases found with
  | none => exact .error paired
  | some same => exact .ok same paired

theorem agree_writeCell_lowHalves (address : Address) {a b : Word} (alike : a.Alike b) :
    (lowHalves printed first second).Agree Eq (Action.writeCell address a)
      (Action.writeCell address b) := by
  rintro one other ⟨⟨machine, input⟩, output⟩
  unfold Action.writeCell
  rcases Memory.set_alike machine.cells alike address with
    ⟨left, right, written, rewritten, cells⟩ | ⟨missing, gone⟩
  · have segments : left.segmentCount = right.segmentCount := by
      rw [(Memory.segments_set written).1, (Memory.segments_set rewritten).1]
      exact machine.segments
    simp only [written, rewritten]
    exact .ok rfl ⟨⟨{ machine with segments, cells }, input⟩, output⟩
  · simp only [missing, gone]
    exact .error ⟨⟨machine, input⟩, output⟩

theorem agree_jump_lowHalves (target : Address) :
    (lowHalves printed first second).Agree Eq (Action.jump target) (Action.jump target) := by
  rintro one other ⟨⟨machine, input⟩, output⟩
  unfold Action.jump
  rw [machine.counter]
  cases other.machine.counter.jump target with
  | ok counter => exact .ok rfl ⟨⟨{ machine with counter := rfl }, input⟩, output⟩
  | error cause => exact .error ⟨⟨machine, input⟩, output⟩

theorem agree_takeToken_lowHalves :
    (lowHalves printed first second).Agree Eq Action.takeToken Action.takeToken := by
  rintro one other ⟨⟨machine, input⟩, output⟩
  unfold Action.takeToken
  rw [input]
  rcases other.input.read with ⟨token | cause, rest⟩
  · exact .error ⟨⟨{ machine with }, rfl⟩, output⟩
  · exact .ok rfl ⟨⟨{ machine with }, rfl⟩, output⟩

/-- Control flow does not see the high halves of literals. -/
theorem kept_lowHalves (equal : ∀ text : String, printed text text) :
    (lowHalves printed first second).Kept where
  running paired := paired.1.machine.running
  opcode {one other} paired := by
    have found := paired.1.machine.cells one.machine.counter.position
    unfold Machine.currentOpcode
    rw [← paired.1.machine.counter]
    generalize one.machine.memory.get? one.machine.counter.position = word at found
    generalize other.machine.memory.get? one.machine.counter.position = mate at found
    cases found with
    | none => rfl
    | some same => exact same.opcode_eq
  segments paired := paired.1.machine.segments
  refl := .refl
  alike same := same
  combine combines same others := same.combine combines others
  position _ _ paired := .ok (congrArg Counter.position paired.1.machine.counter) paired
  nextPosition _ _ paired := .ok (congrArg Counter.next paired.1.machine.counter) paired
  advance _ _ paired := .ok rfl ⟨⟨{ paired.1.machine with
    counter := congrArg Counter.advance paired.1.machine.counter }, paired.1.input⟩, paired.2⟩
  jump := agree_jump_lowHalves
  halt _ _ paired := .ok rfl ⟨⟨{ paired.1.machine with running := rfl }, paired.1.input⟩, paired.2⟩
  popData := agree_popData_lowHalves
  pushData same _ _ paired := .ok rfl ⟨⟨{ paired.1.machine with
    data := .cons same paired.1.machine.data }, paired.1.input⟩, paired.2⟩
  peekData depth _ _ paired :=
    outcomes_lookup_lowHalves paired (Word.Alike.getElem? paired.1.machine.data depth)
  popReturn := agree_popReturn_lowHalves
  pushReturn same _ _ paired := .ok rfl ⟨⟨{ paired.1.machine with
    returns := .cons same paired.1.machine.returns }, paired.1.input⟩, paired.2⟩
  readCell address _ _ paired :=
    outcomes_lookup_lowHalves paired (paired.1.machine.cells address)
  writeCell address _ _ same := agree_writeCell_lowHalves address same
  takeToken := agree_takeToken_lowHalves
  emit text _ _ paired := .ok rfl ⟨⟨{ paired.1.machine with }, paired.1.input⟩,
    paired.2.push (equal text)⟩

end Pairing

/-- Texts that are equal, or the decimal forms of two numbers that agree in their low half. -/
def Decimals (text other : String) : Prop :=
  text = other ∨ ∃ a b : Int64, Congruent a b ∧ text = Numeral.decimal a.toInt ∧
    other = Numeral.decimal b.toInt

theorem Word.Alike.display {a b : Word} (alike : a.Alike b) : Decimals a.display b.display := by
  cases alike with
  | refl => exact .inl rfl
  | literal congruent => exact .inr ⟨_, _, congruent, rfl, rfl⟩

theorem Pairing.prints_lowHalves {first second : Array String} :
    (lowHalves Decimals first second).Prints := by
  intro a b same one other paired
  exact .ok rfl ⟨⟨{ paired.1.machine with }, paired.1.input⟩, paired.2.push same.display⟩

namespace Session

/-- The next steps of two sessions emit the same, unless both print a literal with `COUT`: then
each emits the decimal form of its own. -/
def EmitAlike (one other : Session) : Prop :=
  ∃ texts others, one.step.session.output.toList = one.output.toList ++ texts ∧
    other.step.session.output.toList = other.output.toList ++ others ∧
    (texts = others ∨ ∃ a b : Int64, Congruent a b ∧
      one.machine.currentOpcode = Opcode.cout.code ∧
      one.machine.data.head? = some (.literal a) ∧ other.machine.data.head? = some (.literal b) ∧
      texts = [Numeral.decimal a.toInt] ∧ others = [Numeral.decimal b.toInt])

theorem output_step_cout {session : Session}
    (printing : session.machine.currentOpcode = Opcode.cout.code) :
    session.step.session.output =
      match session.machine.data with
      | [] => session.output
      | value :: _ => session.output.push value.display := by
  obtain ⟨word, executed⟩ := execute_of_currentOpcode printing (by decide)
  unfold step
  rw [executed]
  cases stack : session.machine.data with
  | nil =>
    have failed : Action.perform word .cout session = .error (.underflow .data) session :=
      Action.bind_of_error (Action.bind_of_error
        (Action.popData_eq_error_iff.mpr ⟨stack, rfl, rfl⟩))
    rw [failed]
  | cons value rest =>
    have done : Action.perform word .cout session = .ok () _ :=
      Action.perform_cout_iff.mpr ⟨value, rest, stack, rfl⟩
    rw [done]

variable {one other : Session}

/-- Where a literal is printed, both its halves show. -/
theorem Alike.emit_of_cout (alike : one.Alike other)
    (printing : one.machine.currentOpcode = Opcode.cout.code)
    (reprinting : other.machine.currentOpcode = Opcode.cout.code) : one.EmitAlike other := by
  have emitted := output_step_cout printing
  have reemitted := output_step_cout reprinting
  have data := alike.machine.data
  generalize left : one.machine.data = stack at data emitted
  generalize right : other.machine.data = mate at data reemitted
  cases data with
  | nil => exact ⟨[], [], by simp [emitted], by simp [reemitted], .inl rfl⟩
  | @cons a b _ _ same _ =>
    refine ⟨[a.display], [b.display], by simp [emitted], by simp [reemitted], ?_⟩
    cases same with
    | refl => exact .inl rfl
    | literal congruent =>
      exact .inr ⟨_, _, congruent, printing, by simp [left], by simp [right], rfl, rfl⟩

/-- Sessions alike take a step in the same way, and emit the same in it, up to the high half of a
literal that is printed. -/
theorem Alike.step (alike : one.Alike other) :
    one.step.fault? = other.step.fault? ∧ one.step.session.Alike other.step.session ∧
      one.EmitAlike other := by
  have begun {printed : String → String → Prop} :
      (Pairing.lowHalves printed one.output other.output).sessions one other :=
    ⟨alike, [], [], by simp, by simp, .nil⟩
  by_cases printing : one.machine.currentOpcode = Opcode.cout.code
  · have kept : (Pairing.lowHalves Decimals one.output other.output).Kept :=
      Pairing.kept_lowHalves fun _ => .inl rfl
    have reprinting := (kept.opcode begun).symm.trans printing
    rcases kept.step begun fun _ => Pairing.prints_lowHalves with ⟨_, _, excused⟩ | ⟨same, later⟩
    · exact excused.elim
    · exact ⟨same, later.1, alike.emit_of_cout printing reprinting⟩
  · -- Nothing but `COUT` tells words alike apart, so here both outputs grow by equal texts.
    have kept : (Pairing.lowHalves Eq one.output other.output).Kept :=
      Pairing.kept_lowHalves fun _ => rfl
    rcases kept.step begun fun current => absurd current printing with
      ⟨_, _, excused⟩ | ⟨same, later, texts, others, left, right, each⟩
    · exact excused.elim
    · exact ⟨same, later, texts, others, left, right, .inl (List.forall₂_eq_eq_eq ▸ each)⟩

end Session

theorem Machine.Alike.of_reachable {segments : UInt8} {first second : Machine}
    (reached : first.Reachable segments) (alsoReached : second.Reachable segments)
    (position : first.counter.position = second.counter.position)
    (cells : ∀ address : Address,
      Option.Rel Word.Alike (first.memory.get? address) (second.memory.get? address))
    (data : List.Forall₂ Word.Alike first.data second.data)
    (returns : List.Forall₂ Word.Alike first.returns second.returns) : first.Alike second where
  counter := by
    have bounds := reached.sound.counter.trans alsoReached.sound.counter.symm
    generalize first.counter = counter at position bounds
    obtain ⟨here, limit⟩ := counter
    cases position
    cases bounds
    rfl
  segments := reached.sound.segmentCount_eq.trans alsoReached.sound.segmentCount_eq.symm
  running := reached.halted.trans alsoReached.halted.symm
  cells := cells
  data := data
  returns := returns

theorem Machine.Alike.start {one other : Machine} (alike : one.Alike other) :
    one.start.Alike other.start :=
  { alike with counter := congrArg Counter.rewind alike.counter, running := rfl }

theorem Machine.Alike.reset {one other : Machine} (alike : one.Alike other) :
    one.reset.Alike other.reset where
  counter := congrArg Counter.rewind alike.counter
  segments := alike.segments
  running := rfl
  cells := alike.cells
  data := .nil
  returns := .nil

theorem Machine.Alike.load {one other : Machine} (alike : one.Alike other)
    (filled : one.filled = other.filled) (size : one.memory.size = other.memory.size)
    {words others : List Word} (each : List.Forall₂ Word.Alike words others) :
    (one.load words).1.Alike (other.load others).1 := by
  induction each generalizing one other with
  | nil => exact alike
  | @cons a b _ _ same _ ih =>
    unfold Machine.load Machine.place
    rw [filled, size]
    by_cases full : other.memory.size ≤ other.filled
    · simpa only [if_pos full] using alike
    · rw [if_neg full, if_neg full, alike.counter]
      rcases Memory.set_alike alike.cells same other.counter.position with
        ⟨left, right, written, rewritten, cells⟩ | ⟨missing, gone⟩
      · have first := Memory.segments_set written
        have second := Memory.segments_set rewritten
        rw [written, rewritten]
        refine ih ?_ rfl (first.2.trans (size.trans second.2.symm))
        exact { alike with
          counter := rfl
          segments := first.1.trans (alike.segments.trans second.1.symm)
          cells := cells }
      · rw [missing, gone]
        exact alike

theorem Machine.Alike.refl (machine : Machine) : machine.Alike machine where
  counter := rfl
  segments := rfl
  running := rfl
  cells address := by
    cases machine.memory.get? address with
    | none => exact .none
    | some word => exact .some (.refl word)
  data := List.forall₂_same.mpr fun word _ => .refl word
  returns := List.forall₂_same.mpr fun word _ => .refl word

/-- Control flow depends on the low halves of literals only. Two machines that stand at the same
cell and hold words alike go through the same steps and faults, and emit the same but for the high
halves of literals that `COUT` prints. -/
theorem lowHalves_steer (segments : UInt8) (first second : Machine)
    (reached : first.Reachable segments) (alsoReached : second.Reachable segments)
    (position : first.counter.position = second.counter.position)
    (cells : ∀ address : Address,
      Option.Rel Word.Alike (first.memory.get? address) (second.memory.get? address))
    (data : List.Forall₂ Word.Alike first.data second.data)
    (returns : List.Forall₂ Word.Alike first.returns second.returns)
    (input : Input) (output : Array String) :
    (∀ ready ∈ [id, Machine.start], ∀ count,
      Option.Rel (fun one other : Session => one.Alike other ∧
          one.step.fault? = other.step.fault? ∧ one.step.session.Alike other.step.session ∧
          one.EmitAlike other)
        (Session.steps? count ⟨ready first, input, output⟩)
        (Session.steps? count ⟨ready second, input, output⟩)) ∧
    ∀ fuel, Option.Rel (fun left right : Report => left.fault? = right.fault? ∧
        left.session.Alike right.session ∧
        Continues Decimals output output left.session.output right.session.output)
      (Session.run? fuel ⟨first, input, output⟩) (Session.run? fuel ⟨second, input, output⟩) := by
  have alike := Machine.Alike.of_reachable reached alsoReached position cells data returns
  have kept : (Pairing.lowHalves Decimals output output).Kept :=
    Pairing.kept_lowHalves fun _ => .inl rfl
  have begun {one other : Machine} (alike : one.Alike other) :
      (Pairing.lowHalves Decimals output output).sessions
        ⟨one, input, output⟩ ⟨other, input, output⟩ :=
    ⟨⟨alike, rfl⟩, [], [], by simp, by simp, .nil⟩
  constructor
  · intro ready member count
    have both : (ready first).Alike (ready second) := by
      simp only [List.mem_cons, List.not_mem_nil, or_false] at member
      rcases member with rfl | rfl
      · exact alike
      · exact alike.start
    have together := kept.steps? Pairing.prints_lowHalves (fun _ => id) count (begun both)
    generalize Session.steps? count _ = one at together ⊢
    generalize Session.steps? count _ = other at together ⊢
    cases together with
    | none => exact .none
    | some here => exact .some ⟨here.1, here.1.step⟩
  · intro fuel
    rcases kept.continue? Pairing.prints_lowHalves fuel (begun alike.start) with
      ⟨_, _, _, _, excused⟩ | together
    · exact excused.elim
    · exact together

/-- Two programs that print a number and exit. The numbers agree in their low half. -/
theorem lowHalves_steer_cout :
    let program (value : Int64) := [Word.instruction Opcode.lit.code none, .literal value,
      .instruction Opcode.cout.code none, .instruction Opcode.exit.code none]
    let session (value : Int64) : Session :=
      ⟨((Machine.fresh 1).load (program value)).1.reset, .ofTokens [], #[]⟩
    ∃ left right, (session 5).run? 3 = some left ∧ (session 0x100000005).run? 3 = some right ∧
      left.fault? = right.fault? ∧ left.session.Alike right.session ∧
      left.session.output = #["5"] ∧ right.session.output = #["4294967301"] := by
  intro program session
  have reached (value : Int64) : (session value).machine.Reachable 1 :=
    .reset (.load _ (.new (Machine.new_eq_ok_iff.mpr ⟨by decide, by decide, rfl⟩)))
  have words : List.Forall₂ Word.Alike (program 5) (program 0x100000005) :=
    have congruent : Congruent 5 0x100000005 := congruent_iff.mpr (by decide)
    .cons (.refl _) (.cons (.literal congruent) (.cons (.refl _) (.cons (.refl _) .nil)))
  have alike : (session 5).machine.Alike (session 0x100000005).machine :=
    ((Machine.Alike.refl (Machine.fresh 1)).load rfl rfl words).reset
  obtain ⟨_, runs⟩ := lowHalves_steer 1 (session 5).machine (session 0x100000005).machine
    (reached _) (reached _) (congrArg Counter.position alike.counter) alike.cells alike.data
    alike.returns (.ofTokens []) #[]
  have ends : ((session 5).run? 3).map (·.session.output) = some #["5"] := by decide +kernel
  have others : ((session 0x100000005).run? 3).map (·.session.output) = some #["4294967301"] := by
    decide +kernel
  obtain ⟨left, ended, printed⟩ := Option.map_eq_some_iff.mp ends
  obtain ⟨right, endedToo, printedToo⟩ := Option.map_eq_some_iff.mp others
  have related := runs 3
  rw [show Session.run? 3 ⟨(session 5).machine, .ofTokens [], #[]⟩ = some left from ended,
    show Session.run? 3 ⟨(session 0x100000005).machine, .ofTokens [], #[]⟩ = some right
      from endedToo] at related
  cases related with
  | some both => exact ⟨left, right, ended, endedToo, both.1, both.2.1, printed, printedToo⟩

end StackMachine
