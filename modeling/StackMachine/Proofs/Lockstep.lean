import StackMachine.Proofs.Alike
import StackMachine.Proofs.Flow

/-!
Two sessions side by side. A pairing says which sessions and which words belong together. If each
elementary action, done on both sides of a pair, leaves a pair again, then so does each step and
each run, and both sides end alike: with the same fault, or without one.
-/

set_option autoImplicit false

namespace StackMachine

/-- What belongs together, and the causes at which the first side of a pair may fail while nothing
is asked of the second. -/
structure Pairing where
  sessions : Session → Session → Prop
  words : Word → Word → Prop
  excused : Failure → Prop

theorem Opcode.code_of_ofCode {code : UInt8} {operation : Opcode}
    (known : ofCode code = .ok operation) : operation.code = code := by
  unfold ofCode at known
  split at known
  · rename_i found
    cases known
    exact code_of_ofCode? found
  · contradiction

namespace Pairing

variable {α β : Type}

/-- Both sides succeed, with values that belong together, or both fail for the same reason. -/
inductive Outcomes (pairing : Pairing) (values : α → α → Prop) :
    EStateM.Result Failure Session α → EStateM.Result Failure Session α → Prop
  | ok {a b : α} {one other : Session} (same : values a b) (paired : pairing.sessions one other) :
      Outcomes pairing values (.ok a one) (.ok b other)
  | error {cause : Failure} {one other : Session} (paired : pairing.sessions one other) :
      Outcomes pairing values (.error cause one) (.error cause other)
  | excused {cause : Failure} {one : Session} {outcome : EStateM.Result Failure Session α}
      (allowed : pairing.excused cause) : Outcomes pairing values (.error cause one) outcome

/-- Done on the two sides of any pair, the two actions have outcomes that belong together. -/
def Agree (pairing : Pairing) (values : α → α → Prop) (first second : Action α) : Prop :=
  ∀ one other, pairing.sessions one other → pairing.Outcomes values (first one) (second other)

variable {pairing : Pairing}

theorem Outcomes.bind {values : α → α → Prop} {results : β → β → Prop} {first second : Action α}
    {next after : α → Action β} {one other : Session}
    (done : pairing.Outcomes values (first one) (second other))
    (follow : ∀ {a b : α} {later left : Session}, first one = .ok a later →
      second other = .ok b left → values a b → pairing.sessions later left →
      pairing.Outcomes results (next a later) (after b left)) :
    pairing.Outcomes results ((first >>= next) one) ((second >>= after) other) := by
  change pairing.Outcomes results (EStateM.bind first next one) (EStateM.bind second after other)
  unfold EStateM.bind
  generalize left : first one = outcome at done
  generalize right : second other = result at done
  cases done with
  | ok same paired => exact follow left right same paired
  | error paired => exact .error paired
  | excused allowed => exact .excused allowed

theorem Agree.bind {values : α → α → Prop} {results : β → β → Prop} {first second : Action α}
    {next after : α → Action β} (agree : pairing.Agree values first second)
    (follow : ∀ {a b : α}, values a b → pairing.Agree results (next a) (after b)) :
    pairing.Agree results (first >>= next) (second >>= after) := by
  intro one other paired
  exact (agree one other paired).bind fun _ _ same later => follow same _ _ later

/-- What belongs together in value only, such as a check, leaves the pair alone. -/
theorem agree_check (pairing : Pairing) (outcome : Except Failure α) :
    pairing.Agree Eq (Action.check outcome) (Action.check outcome) := by
  intro one other paired
  cases outcome with
  | ok value => exact .ok rfl paired
  | error cause => exact .error paired

/-- A pairing that the elementary actions keep. Words that belong together are alike, and so are
the results of arithmetic on them. -/
structure Kept (pairing : Pairing) : Prop where
  running : ∀ {one other : Session}, pairing.sessions one other →
    one.machine.running = other.machine.running
  opcode : ∀ {one other : Session}, pairing.sessions one other →
    one.machine.currentOpcode = other.machine.currentOpcode
  segments : ∀ {one other : Session}, pairing.sessions one other →
    one.machine.segmentCount = other.machine.segmentCount
  refl : ∀ word : Word, pairing.words word word
  alike : ∀ {a b : Word}, pairing.words a b → a.Alike b
  combine : ∀ {operation : Opcode} {combine : Int64 → Int64 → Int64} {a b c d : Word},
    Flat.Combines operation combine → pairing.words a b → pairing.words c d →
    pairing.words (.literal (combine a.number c.number)) (.literal (combine b.number d.number))
  position : pairing.Agree Eq Action.position Action.position
  nextPosition : pairing.Agree Eq Action.nextPosition Action.nextPosition
  advance : pairing.Agree Eq Action.advance Action.advance
  jump : ∀ target : Address, pairing.Agree Eq (Action.jump target) (Action.jump target)
  halt : pairing.Agree Eq Action.halt Action.halt
  popData : pairing.Agree pairing.words Action.popData Action.popData
  pushData : ∀ {a b : Word}, pairing.words a b →
    pairing.Agree Eq (Action.pushData a) (Action.pushData b)
  peekData : ∀ depth : Nat,
    pairing.Agree pairing.words (Action.peekData depth) (Action.peekData depth)
  popReturn : pairing.Agree pairing.words Action.popReturn Action.popReturn
  pushReturn : ∀ {a b : Word}, pairing.words a b →
    pairing.Agree Eq (Action.pushReturn a) (Action.pushReturn b)
  readCell : ∀ address : Address,
    pairing.Agree pairing.words (Action.readCell address) (Action.readCell address)
  writeCell : ∀ (address : Address) {a b : Word}, pairing.words a b →
    pairing.Agree Eq (Action.writeCell address a) (Action.writeCell address b)
  takeToken : pairing.Agree Eq Action.takeToken Action.takeToken
  emit : ∀ text : String, pairing.Agree Eq (Action.emit text) (Action.emit text)

/-- Printing two words that belong together keeps a pair, too. -/
def Prints (pairing : Pairing) : Prop :=
  ∀ {a b : Word}, pairing.words a b →
    pairing.Agree Eq (Action.emit a.display) (Action.emit b.display)

/-- A pairing that is kept by all that an instruction does before the counter moves, but for looking
ahead and for taking input. -/
structure Effects (pairing : Pairing) : Prop where
  refl : ∀ word : Word, pairing.words word word
  alike : ∀ {a b : Word}, pairing.words a b → a.Alike b
  combine : ∀ {operation : Opcode} {combine : Int64 → Int64 → Int64} {a b c d : Word},
    Flat.Combines operation combine → pairing.words a b → pairing.words c d →
    pairing.words (.literal (combine a.number c.number)) (.literal (combine b.number d.number))
  popData : pairing.Agree pairing.words Action.popData Action.popData
  pushData : ∀ {a b : Word}, pairing.words a b →
    pairing.Agree Eq (Action.pushData a) (Action.pushData b)
  peekData : ∀ depth : Nat,
    pairing.Agree pairing.words (Action.peekData depth) (Action.peekData depth)
  popReturn : pairing.Agree pairing.words Action.popReturn Action.popReturn
  pushReturn : ∀ {a b : Word}, pairing.words a b →
    pairing.Agree Eq (Action.pushReturn a) (Action.pushReturn b)
  readCell : ∀ address : Address,
    pairing.Agree pairing.words (Action.readCell address) (Action.readCell address)
  writeCell : ∀ (address : Address) {a b : Word}, pairing.words a b →
    pairing.Agree Eq (Action.writeCell address a) (Action.writeCell address b)
  operandCell : ∀ {a b : Word}, pairing.words a b →
    pairing.Agree Eq (Action.operandCell a) (Action.operandCell b)
  emit : ∀ text : String, pairing.Agree Eq (Action.emit text) (Action.emit text)

namespace Effects

theorem done (pairing : Pairing) (flow : Flow) :
    pairing.Agree Eq (pure flow : Action Flow) (pure flow) :=
  fun _ _ paired => .ok rfl paired

theorem operandText (effects : pairing.Effects) {a b : Word} (same : pairing.words a b) :
    pairing.Agree Eq (Action.operandText a) (Action.operandText b) := by
  refine (effects.operandCell same).bind ?_
  rintro address _ rfl
  refine (effects.readCell address).bind ?_
  intro found other same
  have bits := (effects.alike same).bits_eq
  intro one left paired
  cases effects.alike same with
  | refl =>
    cases found with
    | instruction code operand => exact .error paired
    | literal value => exact .error paired
    | text payload => exact .ok rfl paired
  | literal congruent =>
    dsimp only
    rw [bits]
    exact .error paired

theorem combineTop (effects : pairing.Effects) {operation : Opcode}
    {combine : Int64 → Int64 → Int64} (combines : Flat.Combines operation combine) :
    pairing.Agree Eq (Action.combineTop combine) (Action.combineTop combine) :=
  effects.popData.bind fun first => effects.popData.bind fun second =>
    (effects.pushData (effects.combine combines second first)).bind fun _ => done pairing _

/-- The effect of an operation keeps every pair. Only `COUT` shows more of a word than its 32 bits,
only `LIT` looks ahead, and only `CIN` takes input. -/
theorem effect (effects : pairing.Effects) {one other : Session}
    (paired : pairing.sessions one other) {a b : Word} (same : pairing.words a b)
    (operation : Opcode) (prints : operation = .cout → pairing.Prints)
    (looks : operation = .lit → one.machine.counter.next = other.machine.counter.next)
    (reads : operation = .cin →
      pairing.Outcomes Eq (Action.takeToken one) (Action.takeToken other)) :
    pairing.Outcomes Eq (Action.effect a operation one) (Action.effect b operation other) := by
  have alike := effects.alike same
  cases operation with
  | nop => exact done pairing _ _ _ paired
  | store =>
    refine (effects.operandCell same).bind ?_ _ _ paired
    rintro address _ rfl
    exact effects.popData.bind fun value => (effects.writeCell address value).bind fun _ =>
      done pairing _
  | add => exact effects.combineTop .add _ _ paired
  | sub => exact effects.combineTop .sub _ _ paired
  | rstore =>
    refine effects.popData.bind (fun value => ?_) _ _ paired
    exact (effects.pushReturn value).bind fun _ => done pairing _
  | fetch =>
    refine (effects.operandCell same).bind ?_ _ _ paired
    rintro address _ rfl
    exact (effects.readCell address).bind fun value => (effects.pushData value).bind fun _ =>
      done pairing _
  | and => exact effects.combineTop .and _ _ paired
  | drop => exact effects.popData.bind (fun _ => done pairing _) _ _ paired
  | dup =>
    refine (effects.peekData 0).bind (fun value => ?_) _ _ paired
    exact (effects.pushData value).bind fun _ => done pairing _
  | or => exact effects.combineTop .or _ _ paired
  | overCopy =>
    refine (effects.peekData 1).bind (fun value => ?_) _ _ paired
    exact (effects.pushData value).bind fun _ => done pairing _
  | rfetch =>
    refine effects.popReturn.bind (fun value => ?_) _ _ paired
    exact (effects.pushData value).bind fun _ => done pairing _
  | swap =>
    refine effects.popData.bind (fun first => effects.popData.bind fun second => ?_) _ _ paired
    exact (effects.pushData first).bind fun _ => (effects.pushData second).bind fun _ =>
      done pairing _
  | xor => exact effects.combineTop .xor _ _ paired
  | branchIf =>
    unfold Action.effect
    rw [alike.operand_eq]
    refine (agree_check pairing b.operand).bind ?_ _ _ paired
    rintro operand _ rfl
    refine effects.popData.bind ?_
    intro condition other value
    rw [(effects.alike value).isTrue_eq]
    exact done pairing _
  | call =>
    unfold Action.effect
    rw [alike.operand_eq]
    refine (agree_check pairing b.operand).bind ?_ _ _ paired
    rintro operand _ rfl
    exact done pairing _
  | exit => exact done pairing _ _ _ paired
  | lit =>
    have ahead : pairing.Outcomes Eq (Action.nextPosition one) (Action.nextPosition other) :=
      .ok (looks rfl) paired
    refine ahead.bind ?_
    rintro next _ _ _ _ _ rfl later
    refine (effects.readCell next).bind (fun value => ?_) _ _ later
    exact (effects.pushData value).bind fun _ => done pairing _
  | cout =>
    refine effects.popData.bind (fun value => ?_) _ _ paired
    exact (prints rfl value).bind fun _ => done pairing _
  | cin =>
    refine (reads rfl).bind ?_
    rintro token _ _ _ _ _ rfl later
    exact (effects.pushData (effects.refl _)).bind (fun _ => done pairing _) _ _ later
  | strlit =>
    unfold Action.effect
    rw [alike.isText_eq]
    cases b.isText with
    | true => exact done pairing _ _ _ paired
    | false => exact (effects.operandText same).bind (fun _ => done pairing _) _ _ paired
  | sout =>
    refine (effects.operandText same).bind ?_ _ _ paired
    rintro text _ rfl
    exact (effects.emit text).bind fun _ => done pairing _

/-- Enacting the word under the counter keeps a pair, if printing, looking ahead and taking input do
where the word does so. -/
theorem enact (effects : pairing.Effects) {one other : Session}
    (paired : pairing.sessions one other)
    (located : one.machine.counter.position = other.machine.counter.position)
    (prints : one.machine.currentOpcode = Opcode.cout.code → pairing.Prints)
    (looks : one.machine.currentOpcode = Opcode.lit.code →
      one.machine.counter.next = other.machine.counter.next)
    (reads : one.machine.currentOpcode = Opcode.cin.code →
      pairing.Outcomes Eq (Action.takeToken one) (Action.takeToken other)) :
    pairing.Outcomes Eq (Action.enact one) (Action.enact other) := by
  have here : pairing.Outcomes Eq (Action.position one) (Action.position other) :=
    .ok located paired
  refine here.bind ?_
  intro _ _ _ _ found refound _ _
  cases found
  cases refound
  rw [← located]
  refine (effects.readCell _ one other paired).bind ?_
  intro word mate later left fetched refetched same _
  obtain ⟨stored, unchanged⟩ := Action.readCell_eq_ok_iff.mp fetched
  obtain ⟨_, alsoUnchanged⟩ := Action.readCell_eq_ok_iff.mp refetched
  rw [unchanged, alsoUnchanged, ← (effects.alike same).opcode_eq]
  refine (agree_check pairing (Opcode.ofCode word.opcode) _ _ paired).bind ?_
  intro operation _ after rest checked rechecked agreed _
  obtain ⟨known, kept⟩ := Action.check_eq_ok_iff.mp checked
  obtain ⟨_, alsoKept⟩ := Action.check_eq_ok_iff.mp rechecked
  rw [kept, alsoKept, ← agreed]
  have current : one.machine.currentOpcode = operation.code := by
    rw [Opcode.code_of_ofCode known, Machine.currentOpcode, stored]
  refine effects.effect paired same operation ?_ ?_ ?_
  · rintro rfl
    exact prints current
  · rintro rfl
    exact looks current
  · rintro rfl
    exact reads current

end Effects

/-- Two reports that belong together: the same fault, if any, and a pair of sessions. -/
def Reports (pairing : Pairing) (one other : Report) : Prop :=
  one.fault? = other.fault? ∧ pairing.sessions one.session other.session

def Excuses (pairing : Pairing) (report : Report) : Prop :=
  ∃ fault, report.fault? = some fault ∧ pairing.excused fault.cause

/-- A step keeps a pair, if enacting the word under the counter does and the move after it. -/
theorem Effects.step (effects : pairing.Effects) {one other : Session}
    (paired : pairing.sessions one other)
    (located : one.machine.counter.position = other.machine.counter.position)
    (opcode : one.machine.currentOpcode = other.machine.currentOpcode)
    (prints : one.machine.currentOpcode = Opcode.cout.code → pairing.Prints)
    (looks : one.machine.currentOpcode = Opcode.lit.code →
      one.machine.counter.next = other.machine.counter.next)
    (reads : one.machine.currentOpcode = Opcode.cin.code →
      pairing.Outcomes Eq (Action.takeToken one) (Action.takeToken other))
    (moves : ∀ {flow : Flow} {later left : Session}, Action.enact one = .ok flow later →
      Action.enact other = .ok flow left → pairing.sessions later left →
      pairing.Outcomes Eq (Action.move flow later) (Action.move flow left))
    (halt : pairing.Agree Eq Action.halt Action.halt) :
    pairing.Excuses one.step ∨ pairing.Reports one.step other.step := by
  have executed : pairing.Outcomes Eq (Action.execute one) (Action.execute other) := by
    unfold Action.execute
    refine (effects.enact paired located prints looks reads).bind ?_
    rintro flow _ later left enacted reenacted rfl enactedPair
    exact moves enacted reenacted enactedPair
  unfold Session.step
  generalize Action.execute one = outcome at executed
  generalize Action.execute other = result at executed
  cases executed with
  | ok _ later => exact .inr ⟨rfl, later⟩
  | error left =>
    have halted := halt _ _ left
    refine .inr ⟨?_, ?_⟩
    · simp only [opcode, located]
    · cases halted with
      | ok _ rest => exact rest
  | excused allowed => exact .inl ⟨_, rfl, allowed⟩

/-- What one step keeps, a run of any length keeps. The steps of the first side may be ones of which
something is known. -/
theorem continue?_of_step {P : Session → Prop}
    (running : ∀ {one other : Session}, pairing.sessions one other →
      one.machine.running = other.machine.running)
    (stepped : ∀ {one other : Session}, pairing.sessions one other → P one →
      pairing.Excuses one.step ∨ pairing.Reports one.step other.step)
    (fuel : Nat) {one other : Session} (paired : pairing.sessions one other)
    (each : ∀ session ∈ one.trace fuel, P session) :
    (∃ report, Session.continue? fuel one = some report ∧ pairing.Excuses report) ∨
      Option.Rel pairing.Reports (Session.continue? fuel one) (Session.continue? fuel other) := by
  induction fuel generalizing one other with
  | zero =>
    cases going : one.machine.running with
    | false =>
      rw [Session.continue?_of_halted going,
        Session.continue?_of_halted (running paired ▸ going)]
      exact .inr (.some ⟨rfl, paired⟩)
    | true =>
      rw [Session.continue?_zero going, Session.continue?_zero (running paired ▸ going)]
      exact .inr .none
  | succ fuel ih =>
    cases going : one.machine.running with
    | false =>
      rw [Session.continue?_of_halted going,
        Session.continue?_of_halted (running paired ▸ going)]
      exact .inr (.some ⟨rfl, paired⟩)
    | true =>
      have kept : P one → _ := stepped paired
      rw [Session.trace_succ going] at each
      rw [Session.continue?_succ going, Session.continue?_succ (running paired ▸ going)]
      generalize one.step = first at kept each ⊢
      generalize other.step = second at kept ⊢
      obtain ⟨next, fault?⟩ := first
      obtain ⟨after, otherFault?⟩ := second
      cases fault? with
      | none =>
        simp only [List.mem_cons, forall_eq_or_imp] at each
        rcases kept each.1 with ⟨fault, faulted, allowed⟩ | ⟨same, later⟩
        · cases faulted
        · cases same
          exact ih later each.2
      | some fault =>
        simp only [List.mem_singleton, forall_eq] at each
        rcases kept each with excused | ⟨same, later⟩
        · exact .inl ⟨_, rfl, excused⟩
        · cases same
          exact .inr (.some ⟨rfl, later⟩)

namespace Kept

theorem operandCell (kept : pairing.Kept) {a b : Word} (same : pairing.words a b) :
    pairing.Agree Eq (Action.operandCell a) (Action.operandCell b) := by
  intro one other paired
  have checked := agree_check pairing (b.operand.bind fun operand =>
    (Address.unpack operand).cellOf other.machine.segmentCount) one other paired
  unfold Action.operandCell
  rw [(kept.alike same).operand_eq, kept.segments paired]
  exact checked

theorem effects (kept : pairing.Kept) : pairing.Effects :=
  { kept with operandCell := kept.operandCell }

theorem move (kept : pairing.Kept) (flow : Flow) :
    pairing.Agree Eq (Action.move flow) (Action.move flow) := by
  cases flow with
  | next => exact kept.advance
  | skip => exact kept.advance.bind fun _ => kept.advance
  | jump target => exact kept.jump target
  | halt => exact kept.halt

theorem step (kept : pairing.Kept) {one other : Session} (paired : pairing.sessions one other)
    (prints : one.machine.currentOpcode = Opcode.cout.code → pairing.Prints) :
    pairing.Excuses one.step ∨ pairing.Reports one.step other.step := by
  have located : one.machine.counter.position = other.machine.counter.position := by
    have positions := kept.position one other paired
    cases positions with
    | ok same _ => exact same
  have ahead : one.machine.counter.next = other.machine.counter.next := by
    have positions := kept.nextPosition one other paired
    cases positions with
    | ok same _ => exact same
  refine kept.effects.step paired located (kept.opcode paired) prints (fun _ => ahead) ?_ ?_
    kept.halt
  · intro _
    exact kept.takeToken one other paired
  · intro flow later left _ _ enacted
    exact kept.move flow later left enacted

/-- A run on the one side is a run on the other, of as many steps and with the same end. -/
theorem continue? (kept : pairing.Kept) (prints : pairing.Prints) (fuel : Nat)
    {one other : Session} (paired : pairing.sessions one other) :
    (∃ report, Session.continue? fuel one = some report ∧ pairing.Excuses report) ∨
      Option.Rel pairing.Reports (Session.continue? fuel one) (Session.continue? fuel other) :=
  continue?_of_step (P := fun _ => True) kept.running
    (fun paired _ => kept.step paired fun _ => prints) fuel paired fun _ _ => trivial

/-- As long as nothing is excused, both sides take any number of steps together. -/
theorem steps? (kept : pairing.Kept) (prints : pairing.Prints)
    (strict : ∀ cause, ¬ pairing.excused cause) (count : Nat) {one other : Session}
    (paired : pairing.sessions one other) :
    Option.Rel pairing.sessions (one.steps? count) (other.steps? count) := by
  induction count generalizing one other with
  | zero => exact .some paired
  | succ count ih =>
    have stepped := kept.step paired fun _ => prints
    unfold Session.steps?
    generalize one.step = first at stepped
    generalize other.step = second at stepped
    obtain ⟨next, fault?⟩ := first
    obtain ⟨after, otherFault?⟩ := second
    rcases stepped with ⟨fault, _, allowed⟩ | ⟨same, later⟩
    · exact absurd allowed (strict _)
    · cases same
      cases fault? with
      | none => exact ih later
      | some fault => exact .none

end Kept

end Pairing

end StackMachine
