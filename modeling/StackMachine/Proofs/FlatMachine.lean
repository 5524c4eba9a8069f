import StackMachine.Proofs.Reachable

/-!
The flat machine. Its memory is one row of cells, its program counter is a number, and its rules are
the instruction table. The machine with segments is this machine, seen through the numbers of its
addresses: step by step both do the same, and where the one cannot go on the other cannot either.
-/

set_option autoImplicit false

namespace StackMachine

/-- A machine at work whose cells are numbered from zero on. -/
structure Flat where
  cells : List Word
  pc : Nat
  data : Stack
  returns : Stack
  running : Bool
  input : Input
  output : Array String
deriving DecidableEq

namespace Flat

/-- So many cells on from the program counter, where the last cell is followed by the first. -/
def ahead (flat : Flat) (count : Nat) : Nat :=
  (flat.pc + count) % flat.cells.length

def next (flat : Flat) : Flat :=
  { flat with pc := flat.ahead 1 }

def Reads (flat : Flat) (word : Word) : Prop :=
  flat.cells[flat.pc]? = some word

def Executes (flat : Flat) (operation : Opcode) : Prop :=
  ∃ word, flat.Reads word ∧ word.opcode = operation.code

/-- An operand names a cell by a segment in its upper four bits and an offset in the other twelve.
It names none if there is no such segment, or if the offset lies beyond the end of a segment. -/
def Names (segments : Nat) (operand : UInt16) (cell : Nat) : Prop :=
  operand.toNat >>> 12 < segments ∧ operand.toNat &&& 0xFFF < 1024 ∧
    cell = 1024 * (operand.toNat >>> 12) + (operand.toNat &&& 0xFFF)

/-- The operations on two numbers of 64 bits, which wrap around. -/
inductive Combines : Opcode → (Int64 → Int64 → Int64) → Prop
  | add : Combines .add (· + ·)
  | sub : Combines .sub (· - ·)
  | and : Combines .and (· &&& ·)
  | or : Combines .or (· ||| ·)
  | xor : Combines .xor (· ^^^ ·)

/-- The instruction table. A stack is written with its top first. -/
inductive Step (segments : Nat) (flat : Flat) : Flat → Prop
  | nop (here : flat.Executes .nop) : Step segments flat flat.next
  | store {operand : UInt16} {cell : Nat} {value : Word} {rest : Stack}
      (here : flat.Reads (.instruction Opcode.store.code (some operand)))
      (named : Names segments operand cell) (stack : flat.data = value :: rest) :
      Step segments flat { flat.next with cells := flat.cells.set cell value, data := rest }
  | combine {operation : Opcode} {combine : Int64 → Int64 → Int64} {a b : Word} {rest : Stack}
      (here : flat.Executes operation) (combines : Combines operation combine)
      (stack : flat.data = a :: b :: rest) :
      Step segments flat { flat.next with data := .literal (combine b.number a.number) :: rest }
  | rstore {value : Word} {rest : Stack} (here : flat.Executes .rstore)
      (stack : flat.data = value :: rest) :
      Step segments flat { flat.next with data := rest, returns := value :: flat.returns }
  | fetch {operand : UInt16} {cell : Nat} {value : Word}
      (here : flat.Reads (.instruction Opcode.fetch.code (some operand)))
      (named : Names segments operand cell) (stored : flat.cells[cell]? = some value) :
      Step segments flat { flat.next with data := value :: flat.data }
  | drop {value : Word} {rest : Stack} (here : flat.Executes .drop)
      (stack : flat.data = value :: rest) : Step segments flat { flat.next with data := rest }
  | dup {value : Word} {rest : Stack} (here : flat.Executes .dup)
      (stack : flat.data = value :: rest) :
      Step segments flat { flat.next with data := value :: value :: rest }
  | overCopy {a b : Word} {rest : Stack} (here : flat.Executes .overCopy)
      (stack : flat.data = a :: b :: rest) :
      Step segments flat { flat.next with data := b :: a :: b :: rest }
  | rfetch {value : Word} {rest : Stack} (here : flat.Executes .rfetch)
      (stack : flat.returns = value :: rest) :
      Step segments flat { flat.next with data := value :: flat.data, returns := rest }
  | swap {a b : Word} {rest : Stack} (here : flat.Executes .swap)
      (stack : flat.data = a :: b :: rest) :
      Step segments flat { flat.next with data := b :: a :: rest }
  | branch {operand : UInt16} {cell : Nat} {condition : Word} {rest : Stack}
      (here : flat.Reads (.instruction Opcode.branchIf.code (some operand)))
      (stack : flat.data = condition :: rest) (truth : condition.isTrue = true)
      (named : Names segments operand cell) :
      Step segments flat { flat with pc := cell, data := rest }
  | pass {operand : UInt16} {condition : Word} {rest : Stack}
      (here : flat.Reads (.instruction Opcode.branchIf.code (some operand)))
      (stack : flat.data = condition :: rest) (untruth : condition.isTrue = false) :
      Step segments flat { flat.next with data := rest }
  | call {operand : UInt16} {cell : Nat}
      (here : flat.Reads (.instruction Opcode.call.code (some operand)))
      (named : Names segments operand cell) : Step segments flat { flat with pc := cell }
  | exit (here : flat.Executes .exit) : Step segments flat { flat with running := false }
  | lit {value : Word} (here : flat.Executes .lit)
      (stored : flat.cells[flat.ahead 1]? = some value) :
      Step segments flat { flat with pc := flat.ahead 2, data := value :: flat.data }
  | cout {value : Word} {rest : Stack} (here : flat.Executes .cout)
      (stack : flat.data = value :: rest) :
      Step segments flat { flat.next with data := rest, output := flat.output.push value.display }
  | cin {token : String} {rest : Input} (here : flat.Executes .cin)
      (taken : flat.input.read = (.ok token, rest)) :
      Step segments flat { flat.next with data := .ofToken token :: flat.data, input := rest }
  | text {payload : String} (here : flat.Reads (.text payload)) : Step segments flat flat.next
  | strlit {operand : UInt16} {cell : Nat} {payload : String}
      (here : flat.Reads (.instruction Opcode.strlit.code (some operand)))
      (named : Names segments operand cell) (stored : flat.cells[cell]? = some (.text payload)) :
      Step segments flat flat.next
  | sout {operand : UInt16} {cell : Nat} {payload : String}
      (here : flat.Reads (.instruction Opcode.sout.code (some operand)))
      (named : Names segments operand cell) (stored : flat.cells[cell]? = some (.text payload)) :
      Step segments flat { flat.next with output := flat.output.push payload }

inductive Run (segments : Nat) : Nat → Flat → Flat → Prop
  | refl (flat : Flat) : Run segments 0 flat flat
  | step {count : Nat} {flat middle last : Flat} (first : Step segments flat middle)
      (rest : Run segments count middle last) : Run segments (count + 1) flat last

theorem names_iff {segments : UInt8} {operand : UInt16} {cell : Nat} :
    Names segments.toNat operand cell ↔
      (Address.unpack operand).isCellOf segments = true ∧
        cell = (Address.unpack operand).index := by
  have segment : operand.toNat >>> 12 = operand.toNat / 4096 := Nat.shiftRight_eq_div_pow _ 12
  have offset : operand.toNat &&& 0xFFF = operand.toNat % 4096 :=
    Nat.and_two_pow_sub_one_eq_mod operand.toNat 12
  rw [Names, segment, offset, Address.isCellOf_iff, Address.index, Address.segment_unpack,
    Address.offset_unpack, and_assoc, segmentSize, Nat.mul_comm]

theorem Combines.perform_eq {operation : Opcode} {combine : Int64 → Int64 → Int64}
    (combines : Combines operation combine) (word : Word) :
    Action.perform word operation = Action.combineTop combine >>= Action.move := by
  cases combines <;> rfl

theorem Step.congr {segments : Nat} {flat after same : Flat} (stepped : Step segments flat after)
    (equal : after = same) : Step segments flat same :=
  equal ▸ stepped

end Flat

namespace Session

def flat (session : Session) : Flat where
  cells := session.machine.memory.row
  pc := session.machine.counter.position.index
  data := session.machine.data
  returns := session.machine.returns
  running := session.machine.running
  input := session.input
  output := session.output

/-- The session after so many steps; none if one of them faults. -/
def steps? : Nat → Session → Option Session
  | 0, session => some session
  | count + 1, session =>
    match session.step with
    | ⟨next, none⟩ => steps? count next
    | ⟨_, some _⟩ => none

variable {session later : Session} {segments : UInt8}

theorem flat_reads_iff (sound : session.machine.Sound segments) {word : Word} :
    session.flat.Reads word ↔
      session.machine.memory.get? session.machine.counter.position = some word := by
  have inside := (Address.isCellOf_iff.mp sound.position).2
  rw [← sound.memory.row_index inside]
  rfl

theorem flat_executes_iff (sound : session.machine.Sound segments) {word : Word}
    (found : session.machine.memory.get? session.machine.counter.position = some word)
    {operation : Opcode} : session.flat.Executes operation ↔ word.opcode = operation.code := by
  constructor
  · rintro ⟨other, reads, code⟩
    rw [flat_reads_iff sound, found, Option.some.injEq] at reads
    rw [reads, code]
  · intro code
    exact ⟨word, (flat_reads_iff sound).mpr found, code⟩

theorem flat_reads_instruction_iff (sound : session.machine.Sound segments) {word : Word}
    (found : session.machine.memory.get? session.machine.counter.position = some word)
    {code : UInt8} {operand : UInt16} :
    session.flat.Reads (.instruction code (some operand)) ↔
      word.opcode = code ∧ word.operand? = some operand := by
  rw [flat_reads_iff sound, found, Option.some.injEq]
  constructor
  · rintro rfl
    exact ⟨rfl, rfl⟩
  · rintro ⟨rfl, carried⟩
    exact Word.eq_instruction carried

theorem flat_next (sound : session.machine.Sound segments) :
    session.flat.next =
      ({ session with machine.counter := session.machine.counter.advance } : Session).flat := by
  have number := Counter.index_next sound.counter sound.position
  rw [← sound.memory.length_row] at number
  simp only [Flat.next, Flat.ahead, flat, Counter.position_advance, number]

theorem flat_ahead_one (sound : session.machine.Sound segments) :
    session.flat.ahead 1 = session.machine.counter.next.index :=
  congrArg Flat.pc (flat_next sound)

theorem flat_ahead_two (sound : session.machine.Sound segments) :
    session.flat.ahead 2 = session.machine.counter.advance.advance.position.index := by
  have first := Counter.index_next sound.counter sound.position
  have second : session.machine.counter.advance.next.index =
      (session.machine.counter.advance.position.index + 1) % (segments.toNat * segmentSize) :=
    Counter.index_next sound.counter (Counter.isCellOf_next sound.counter sound.position)
  rw [Counter.position_advance, first, Nat.mod_add_mod, ← sound.memory.length_row] at second
  rw [Counter.position_advance, second]
  rfl

theorem flat_cell (sound : session.machine.Sound segments) {address : Address}
    (inside : address.isCellOf segments = true) :
    session.flat.cells[address.index]? = session.machine.memory.get? address :=
  sound.memory.row_index (Address.isCellOf_iff.mp inside).2

/-- What an operation does to a session is what the instruction table says of the flat machine. -/
theorem flat_step_of_perform (sound : session.machine.Sound segments) {word : Word}
    (found : session.machine.memory.get? session.machine.counter.position = some word)
    {operation : Opcode} (code : word.opcode = operation.code)
    (done : Action.perform word operation session = .ok () later) :
    Flat.Step segments.toNat session.flat later.flat := by
  have here := (flat_executes_iff sound found).mpr code
  have reads : ∀ {operand : UInt16}, word.operand? = some operand →
      session.flat.Reads (.instruction operation.code (some operand)) :=
    fun carried => (flat_reads_instruction_iff sound found).mpr ⟨code, carried⟩
  have named : ∀ {operand : UInt16}, (Address.unpack operand).isCellOf segments = true →
      Flat.Names segments.toNat operand (Address.unpack operand).index :=
    fun inside => Flat.names_iff.mpr ⟨inside, rfl⟩
  have next := flat_next sound
  have count := sound.segmentCount_eq
  have combined : ∀ {combine : Int64 → Int64 → Int64}, Flat.Combines operation combine →
      (Action.combineTop combine >>= Action.move) session = .ok () later →
        Flat.Step segments.toNat session.flat later.flat := by
    intro combine combines done
    obtain ⟨a, b, rest, stack, rfl⟩ := Action.combineTop_move_iff.mp done
    exact (Flat.Step.combine here combines stack).congr (by rw [next]; rfl)
  cases operation with
  | nop =>
    obtain rfl := Action.perform_nop_iff.mp done
    exact (Flat.Step.nop here).congr next
  | store =>
    obtain ⟨operand, value, rest, memory, carried, inside, stack, written, rfl⟩ :=
      Action.perform_store_iff.mp done
    rw [count] at inside
    have cells : session.flat.cells.set (Address.unpack operand).index value = memory.row :=
      (sound.memory.row_set inside written).symm
    exact (Flat.Step.store (reads carried) (named inside) stack).congr (by rw [next, cells]; rfl)
  | add => exact combined .add done
  | sub => exact combined .sub done
  | rstore =>
    obtain ⟨value, rest, stack, rfl⟩ := Action.perform_rstore_iff.mp done
    exact (Flat.Step.rstore here stack).congr (by rw [next]; rfl)
  | fetch =>
    obtain ⟨operand, value, carried, inside, stored, rfl⟩ := Action.perform_fetch_iff.mp done
    rw [count] at inside
    rw [← flat_cell sound inside] at stored
    exact (Flat.Step.fetch (reads carried) (named inside) stored).congr (by rw [next]; rfl)
  | and => exact combined .and done
  | drop =>
    obtain ⟨value, rest, stack, rfl⟩ := Action.perform_drop_iff.mp done
    exact (Flat.Step.drop here stack).congr (by rw [next]; rfl)
  | dup =>
    obtain ⟨value, rest, stack, rfl⟩ := Action.perform_dup_iff.mp done
    exact (Flat.Step.dup here stack).congr (by rw [next]; rfl)
  | or => exact combined .or done
  | overCopy =>
    obtain ⟨a, b, rest, stack, rfl⟩ := Action.perform_over_iff.mp done
    exact (Flat.Step.overCopy here stack).congr (by rw [next]; rfl)
  | rfetch =>
    obtain ⟨value, rest, stack, rfl⟩ := Action.perform_rfetch_iff.mp done
    exact (Flat.Step.rfetch here stack).congr (by rw [next]; rfl)
  | swap =>
    obtain ⟨a, b, rest, stack, rfl⟩ := Action.perform_swap_iff.mp done
    exact (Flat.Step.swap here stack).congr (by rw [next]; rfl)
  | xor => exact combined .xor done
  | branchIf =>
    obtain ⟨operand, condition, rest, carried, stack, taken⟩ := Action.perform_branchIf_iff.mp done
    rcases taken with ⟨truth, inside, rfl⟩ | ⟨untruth, rfl⟩
    · rw [sound.counter] at inside
      exact (Flat.Step.branch (reads carried) stack truth (named inside)).congr rfl
    · exact (Flat.Step.pass (reads carried) stack untruth).congr (by rw [next]; rfl)
  | call =>
    obtain ⟨operand, carried, inside, rfl⟩ := Action.perform_call_iff.mp done
    rw [sound.counter] at inside
    exact (Flat.Step.call (reads carried) (named inside)).congr rfl
  | exit =>
    obtain rfl := Action.perform_exit_iff.mp done
    exact (Flat.Step.exit here).congr rfl
  | lit =>
    obtain ⟨value, stored, rfl⟩ := Action.perform_lit_iff.mp done
    have inside := Counter.isCellOf_next sound.counter sound.position
    rw [← flat_cell sound inside, ← flat_ahead_one sound] at stored
    exact (Flat.Step.lit here stored).congr (by rw [flat_ahead_two sound]; rfl)
  | cout =>
    obtain ⟨value, rest, stack, rfl⟩ := Action.perform_cout_iff.mp done
    exact (Flat.Step.cout here stack).congr (by rw [next]; rfl)
  | cin =>
    obtain ⟨token, rest, taken, rfl⟩ := Action.perform_cin_iff.mp done
    exact (Flat.Step.cin here taken).congr (by rw [next]; rfl)
  | strlit =>
    obtain ⟨text | ⟨operand, payload, carried, inside, stored⟩, rfl⟩ :=
      Action.perform_strlit_iff.mp done
    · cases word with
      | text payload => exact (Flat.Step.text ((flat_reads_iff sound).mpr found)).congr next
      | instruction code operand => cases text
      | literal value => cases text
    · rw [count] at inside
      rw [← flat_cell sound inside] at stored
      exact (Flat.Step.strlit (reads carried) (named inside) stored).congr next
  | sout =>
    obtain ⟨operand, payload, carried, inside, stored, rfl⟩ := Action.perform_sout_iff.mp done
    rw [count] at inside
    rw [← flat_cell sound inside] at stored
    exact (Flat.Step.sout (reads carried) (named inside) stored).congr (by rw [next]; rfl)

/-- The other way round: whatever the instruction table allows, the session can do. -/
theorem perform_of_flat_step (sound : session.machine.Sound segments) {word : Word}
    (found : session.machine.memory.get? session.machine.counter.position = some word)
    {flat : Flat} (stepped : Flat.Step segments.toNat session.flat flat) :
    ∃ operation later, word.opcode = operation.code ∧
      Action.perform word operation session = .ok () later ∧ later.flat = flat := by
  have reads : ∀ {code : UInt8} {operand : UInt16},
      session.flat.Reads (.instruction code (some operand)) ↔
        word.opcode = code ∧ word.operand? = some operand :=
    flat_reads_instruction_iff sound found
  have executes : ∀ {operation : Opcode},
      session.flat.Executes operation ↔ word.opcode = operation.code :=
    flat_executes_iff sound found
  have next := flat_next sound
  have count := sound.segmentCount_eq
  cases stepped with
  | nop here =>
    exact ⟨.nop, _, executes.mp here, Action.perform_nop_iff.mpr rfl, next.symm⟩
  | @store operand cell value rest here named stack =>
    obtain ⟨code, carried⟩ := reads.mp here
    obtain ⟨inside, rfl⟩ := Flat.names_iff.mp named
    obtain ⟨memory, written⟩ := sound.memory.exists_set inside value
    have cells : session.flat.cells.set (Address.unpack operand).index value = memory.row :=
      (sound.memory.row_set inside written).symm
    exact ⟨.store, _, code, Action.perform_store_iff.mpr
      ⟨operand, value, rest, memory, carried, count ▸ inside, stack, written, rfl⟩,
      by rw [next, cells]; rfl⟩
  | @combine operation combine a b rest here combines stack =>
    have done : (Action.combineTop combine >>= Action.move) session = .ok () _ :=
      Action.combineTop_move_iff.mpr ⟨a, b, rest, stack, rfl⟩
    rw [← combines.perform_eq word] at done
    exact ⟨operation, _, executes.mp here, done, by rw [next]; rfl⟩
  | rstore here stack =>
    exact ⟨.rstore, _, executes.mp here, Action.perform_rstore_iff.mpr ⟨_, _, stack, rfl⟩,
      by rw [next]; rfl⟩
  | fetch here named stored =>
    obtain ⟨code, carried⟩ := reads.mp here
    obtain ⟨inside, rfl⟩ := Flat.names_iff.mp named
    rw [flat_cell sound inside] at stored
    exact ⟨.fetch, _, code,
      Action.perform_fetch_iff.mpr ⟨_, _, carried, count ▸ inside, stored, rfl⟩,
      by rw [next]; rfl⟩
  | drop here stack =>
    exact ⟨.drop, _, executes.mp here, Action.perform_drop_iff.mpr ⟨_, _, stack, rfl⟩,
      by rw [next]; rfl⟩
  | dup here stack =>
    exact ⟨.dup, _, executes.mp here, Action.perform_dup_iff.mpr ⟨_, _, stack, rfl⟩,
      by rw [next]; rfl⟩
  | overCopy here stack =>
    exact ⟨.overCopy, _, executes.mp here, Action.perform_over_iff.mpr ⟨_, _, _, stack, rfl⟩,
      by rw [next]; rfl⟩
  | rfetch here stack =>
    exact ⟨.rfetch, _, executes.mp here, Action.perform_rfetch_iff.mpr ⟨_, _, stack, rfl⟩,
      by rw [next]; rfl⟩
  | swap here stack =>
    exact ⟨.swap, _, executes.mp here, Action.perform_swap_iff.mpr ⟨_, _, _, stack, rfl⟩,
      by rw [next]; rfl⟩
  | branch here stack truth named =>
    obtain ⟨code, carried⟩ := reads.mp here
    obtain ⟨inside, rfl⟩ := Flat.names_iff.mp named
    exact ⟨.branchIf, _, code, Action.perform_branchIf_iff.mpr
      ⟨_, _, _, carried, stack, Or.inl ⟨truth, sound.counter ▸ inside, rfl⟩⟩, rfl⟩
  | pass here stack untruth =>
    obtain ⟨code, carried⟩ := reads.mp here
    exact ⟨.branchIf, _, code, Action.perform_branchIf_iff.mpr
      ⟨_, _, _, carried, stack, Or.inr ⟨untruth, rfl⟩⟩, by rw [next]; rfl⟩
  | call here named =>
    obtain ⟨code, carried⟩ := reads.mp here
    obtain ⟨inside, rfl⟩ := Flat.names_iff.mp named
    exact ⟨.call, _, code,
      Action.perform_call_iff.mpr ⟨_, carried, sound.counter ▸ inside, rfl⟩, rfl⟩
  | exit here =>
    exact ⟨.exit, _, executes.mp here, Action.perform_exit_iff.mpr rfl, rfl⟩
  | lit here stored =>
    have inside := Counter.isCellOf_next sound.counter sound.position
    rw [flat_ahead_one sound, flat_cell sound inside] at stored
    exact ⟨.lit, _, executes.mp here, Action.perform_lit_iff.mpr ⟨_, stored, rfl⟩,
      by rw [flat_ahead_two sound]; rfl⟩
  | cout here stack =>
    exact ⟨.cout, _, executes.mp here, Action.perform_cout_iff.mpr ⟨_, _, stack, rfl⟩,
      by rw [next]; rfl⟩
  | cin here taken =>
    exact ⟨.cin, _, executes.mp here, Action.perform_cin_iff.mpr ⟨_, _, taken, rfl⟩,
      by rw [next]; rfl⟩
  | text here =>
    rw [flat_reads_iff sound, found, Option.some.injEq] at here
    subst here
    exact ⟨.strlit, _, rfl, Action.perform_strlit_iff.mpr ⟨Or.inl rfl, rfl⟩, next.symm⟩
  | strlit here named stored =>
    obtain ⟨code, carried⟩ := reads.mp here
    obtain ⟨inside, rfl⟩ := Flat.names_iff.mp named
    rw [flat_cell sound inside] at stored
    exact ⟨.strlit, _, code, Action.perform_strlit_iff.mpr
      ⟨Or.inr ⟨_, _, carried, count ▸ inside, stored⟩, rfl⟩, next.symm⟩
  | sout here named stored =>
    obtain ⟨code, carried⟩ := reads.mp here
    obtain ⟨inside, rfl⟩ := Flat.names_iff.mp named
    rw [flat_cell sound inside] at stored
    exact ⟨.sout, _, code,
      Action.perform_sout_iff.mpr ⟨_, _, carried, count ▸ inside, stored, rfl⟩, by rw [next]; rfl⟩

theorem step_eq_ok_iff : session.step = ⟨later, none⟩ ↔ Action.execute session = .ok () later := by
  unfold step
  cases Action.execute session <;> simp

/-- One step of the one machine is one step of the other. -/
theorem flat_step_iff (sound : session.machine.Sound segments) {flat : Flat} :
    Flat.Step segments.toNat session.flat flat ↔
      ∃ later, session.step = ⟨later, none⟩ ∧ later.flat = flat := by
  obtain ⟨word, found, _⟩ := sound.fetch
  constructor
  · intro stepped
    obtain ⟨operation, later, code, done, same⟩ := perform_of_flat_step sound found stepped
    refine ⟨later, step_eq_ok_iff.mpr ?_, same⟩
    rw [Action.execute_eq found, code, Opcode.ofCode?_code]
    exact done
  · rintro ⟨later, stepped, rfl⟩
    have done := step_eq_ok_iff.mp stepped
    rw [Action.execute_eq found] at done
    cases known : Opcode.ofCode? word.opcode with
    | none => simp [known] at done
    | some operation =>
      rw [known] at done
      exact flat_step_of_perform sound found (Opcode.code_of_ofCode? known).symm done

theorem steps?_succ {count : Nat} :
    session.steps? (count + 1) = some later ↔
      ∃ next, session.step = ⟨next, none⟩ ∧ next.steps? count = some later := by
  rcases stepped : session.step with ⟨next, _ | fault⟩ <;> simp [steps?, stepped]

theorem sound_of_steps? {count : Nat} (sound : session.machine.Sound segments)
    (reached : session.steps? count = some later) : later.machine.Sound segments := by
  induction count generalizing session with
  | zero =>
    cases reached
    exact sound
  | succ count ih =>
    obtain ⟨next, stepped, rest⟩ := steps?_succ.mp reached
    have kept := (closed_sound segments).step sound
    rw [stepped] at kept
    exact ih kept rest

/-- However many steps are taken, both machines take them together. -/
theorem flat_run_iff (sound : session.machine.Sound segments) {count : Nat} {flat : Flat} :
    Flat.Run segments.toNat count session.flat flat ↔
      ∃ later, session.steps? count = some later ∧ later.flat = flat := by
  induction count generalizing session with
  | zero =>
    constructor
    · intro run
      cases run
      exact ⟨session, rfl, rfl⟩
    · rintro ⟨later, reached, rfl⟩
      cases reached
      exact .refl _
  | succ count ih =>
    have kept : ∀ {next : Session}, session.step = ⟨next, none⟩ → next.machine.Sound segments := by
      intro next stepped
      have kept := (closed_sound segments).step sound
      rwa [stepped] at kept
    constructor
    · intro run
      cases run with
      | step first rest =>
        obtain ⟨next, stepped, rfl⟩ := (flat_step_iff sound).mp first
        obtain ⟨later, reached, same⟩ := (ih (kept stepped)).mp rest
        exact ⟨later, steps?_succ.mpr ⟨next, stepped, reached⟩, same⟩
    · rintro ⟨later, reached, same⟩
      obtain ⟨next, stepped, rest⟩ := steps?_succ.mp reached
      exact .step ((flat_step_iff sound).mpr ⟨next, stepped, rfl⟩)
        ((ih (kept stepped)).mpr ⟨later, rest, same⟩)

/-- An operation that goes to the cell of its operand succeeds only if there is that cell. -/
theorem isCellOf_of_step (sound : session.machine.Sound segments) {operation : Opcode}
    {operand : UInt16} (reads : session.flat.Reads (.instruction operation.code (some operand)))
    (uses : operation ∈ [Opcode.store, .fetch, .sout, .call] ∨
      operation = .branchIf ∧ ∃ condition rest,
        session.flat.data = condition :: rest ∧ condition.isTrue = true)
    (stepped : session.step = ⟨later, none⟩) :
    (Address.unpack operand).isCellOf segments = true := by
  have found := (flat_reads_iff sound).mp reads
  have done := step_eq_ok_iff.mp stepped
  rw [Action.execute_eq found, Word.opcode, Opcode.ofCode?_code] at done
  have carried : ∀ {other : UInt16},
      (Word.instruction operation.code (some operand)).operand? = some other → other = operand :=
    fun same => (Option.some.inj same).symm
  simp only [List.mem_cons, List.not_mem_nil, or_false] at uses
  rcases uses with (rfl | rfl | rfl | rfl) | ⟨rfl, condition, rest, stack, truth⟩
  · obtain ⟨other, _, _, _, same, inside, _⟩ := Action.perform_store_iff.mp done
    rwa [carried same, sound.segmentCount_eq] at inside
  · obtain ⟨other, _, same, inside, _⟩ := Action.perform_fetch_iff.mp done
    rwa [carried same, sound.segmentCount_eq] at inside
  · obtain ⟨other, _, same, inside, _⟩ := Action.perform_sout_iff.mp done
    rwa [carried same, sound.segmentCount_eq] at inside
  · obtain ⟨other, same, inside, _⟩ := Action.perform_call_iff.mp done
    rwa [carried same, sound.counter] at inside
  · obtain ⟨other, top, _, same, known, taken⟩ := Action.perform_branchIf_iff.mp done
    have top : top = condition := by
      rw [show session.flat.data = session.machine.data from rfl, known] at stack
      exact (List.cons.inj stack).1
    subst top
    rcases taken with ⟨_, inside, _⟩ | ⟨untruth, _⟩
    · rwa [carried same, sound.counter] at inside
    · rw [truth] at untruth
      cases untruth

end Session

/-- The machine with segments, wherever it stands and however many steps it takes, is the flat
machine of so many cells: what the one reaches without a fault, the other reaches, and nothing
else. An operand that names no cell makes the step fault, and is never taken for another cell. -/
theorem flat_simulation (segments : UInt8) (session : Session) (occurs : session.Occurs segments)
    (count : Nat) :
    (∀ flat : Flat, (∃ later, session.steps? count = some later ∧ later.flat = flat) ↔
      Flat.Run segments.toNat count session.flat flat) ∧
    ∀ later : Session, session.steps? count = some later →
      later.flat.cells.length = 1024 * segments.toNat ∧
      later.flat.pc < 1024 * segments.toNat ∧
      (∀ address : Address, address.isCellOf segments = true →
        later.flat.cells[address.index]? = later.machine.memory.get? address) ∧
      ∀ (operation : Opcode) (operand : UInt16),
        later.flat.Reads (.instruction operation.code (some operand)) →
        (operation ∈ [Opcode.store, .fetch, .sout, .call] ∨
          operation = .branchIf ∧ ∃ condition rest,
            later.flat.data = condition :: rest ∧ condition.isTrue = true) →
        (segments.toNat ≤ operand.toNat >>> 12 ∨ 1024 ≤ operand.toNat &&& 0xFFF) →
        ∃ fault, later.step.fault? = some fault := by
  refine ⟨fun flat => (Session.flat_run_iff occurs.sound).symm, ?_⟩
  intro later reached
  have sound := Session.sound_of_steps? occurs.sound reached
  refine ⟨?_, ?_, ?_, ?_⟩
  · rw [Nat.mul_comm]
    exact sound.memory.length_row
  · rw [Nat.mul_comm]
    exact Address.index_lt sound.position
  · intro address inside
    exact Session.flat_cell sound inside
  · intro operation operand reads uses beyond
    cases faulted : later.step.fault? with
    | some fault => exact ⟨fault, rfl⟩
    | none =>
      have stepped : later.step = ⟨later.step.session, none⟩ := by rw [← faulted]
      have inside := Session.isCellOf_of_step sound reads uses stepped
      obtain ⟨segment, offset, _⟩ := Flat.names_iff.mpr ⟨inside, rfl⟩
      omega

/-- A program that jumps to the last of 1024 cells: the step after it leads back to the first. -/
theorem flat_simulation_wraps :
    let program := [Word.instruction Opcode.call.code (some 0x3FF)]
    let session : Session := ⟨((Machine.fresh 1).load program).1.reset, .ofTokens [], #[]⟩
    session.Occurs 1 ∧ ∃ later, session.steps? 2 = some later ∧ later.flat.pc = 0 ∧
      later.flat.cells.length = 1024 ∧ Flat.Run 1 2 session.flat later.flat := by
  intro program session
  have occurs : session.Occurs 1 :=
    Or.inl (.reset (.load _ (.new (Machine.new_eq_ok_iff.mpr ⟨by decide, by decide, rfl⟩))))
  have ended : (session.steps? 2).map (fun later => later.flat.pc) = some 0 := by decide +kernel
  obtain ⟨later, reached, first⟩ := Option.map_eq_some_iff.mp ended
  obtain ⟨runs, bounds⟩ := flat_simulation 1 session occurs 2
  exact ⟨occurs, later, reached, first, (bounds later reached).1,
    (runs later.flat).mp ⟨later, reached, rfl⟩⟩

end StackMachine
