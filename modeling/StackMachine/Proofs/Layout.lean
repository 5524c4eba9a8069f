import StackMachine.Proofs.FlatMachine
import StackMachine.Proofs.Items
import StackMachine.Proofs.Loading

/-!
Where the items of a program stand, and where its execution goes. The counter moves from the first
cell of an item to the first cell of the next, over the word after `LIT`. So if the branches of a
program lead to items and nothing is stored over it, each step executes an item as it was written,
and none takes the word after `LIT` for an instruction.
-/

set_option autoImplicit false

namespace StackMachine

/-- How many cells an operation takes up. The word after `LIT` belongs to it. -/
def Opcode.span (operation : Opcode) : Nat :=
  if operation = .lit then 2 else 1

namespace Item

/-- The first cells of the items of a program that stands in the first cells of memory. -/
def heads : List Item → List Nat
  | [] => []
  | item :: rest => 0 :: (heads rest).map (item.words.length + ·)

theorem mem_heads_iff {items : List Item} {cell : Nat} :
    cell ∈ heads items ↔ ∃ front item rest, items = front ++ item :: rest ∧
      cell = (front.flatMap words).length := by
  induction items generalizing cell with
  | nil => simp [heads]
  | cons first later ih =>
    rw [heads, List.mem_cons, List.mem_map]
    constructor
    · rintro (rfl | ⟨place, member, rfl⟩)
      · exact ⟨[], first, later, rfl, rfl⟩
      · obtain ⟨front, item, rest, rfl, rfl⟩ := ih.mp member
        exact ⟨first :: front, item, rest, rfl, by simp⟩
    · rintro ⟨front, item, rest, split, rfl⟩
      cases front with
      | nil => exact .inl rfl
      | cons _ front =>
        cases split
        exact .inr ⟨_, ih.mpr ⟨front, item, rest, rfl, rfl⟩, by simp⟩

theorem not_mem_heads_of_literal {front rest : List Item} {value : Word} :
    (front.flatMap words).length + 1 ∉ heads (front ++ .literal value :: rest) := by
  induction front with
  | nil =>
    simp only [List.flatMap_nil, List.length_nil, List.nil_append, heads, words, List.mem_cons,
      List.mem_map, List.length_cons]
    omega
  | cons first front ih =>
    rw [List.cons_append, heads, List.mem_cons, List.mem_map, List.flatMap_cons, List.length_append,
      Nat.add_assoc]
    rintro (zero | ⟨place, member, same⟩)
    · omega
    · rw [Nat.add_left_cancel same] at member
      exact ih member

theorem zero_mem_heads {items : List Item} (nonempty : 0 < (items.flatMap words).length) :
    0 ∈ heads items := by
  cases items with
  | nil => contradiction
  | cons item rest => simp [heads]

/-- Going on over the cells of an item leads to an item or out of the program, also where the
program fills all cells and its last item is followed by its first. -/
theorem mem_heads_next {front rest : List Item} {item : Item} {size : Nat}
    (fits : ((front ++ item :: rest).flatMap words).length ≤ size)
    (inside : ((front.flatMap words).length + item.words.length) % size <
      ((front ++ item :: rest).flatMap words).length) :
    ((front.flatMap words).length + item.words.length) % size ∈ heads (front ++ item :: rest) := by
  cases rest with
  | nil =>
    have last : (front.flatMap words).length + item.words.length =
        ((front ++ [item]).flatMap words).length := by simp
    rw [last] at inside ⊢
    rcases Nat.lt_or_eq_of_le fits with short | full
    · rw [Nat.mod_eq_of_lt short] at inside
      omega
    · have nonempty := Nat.zero_lt_of_lt inside
      rw [full, Nat.mod_self]
      exact zero_mem_heads nonempty
  | cons second rest =>
    have more : (front.flatMap words).length + item.words.length < size := by
      have positive : 0 < second.words.length := by cases second <;> simp [words]
      simp only [List.flatMap_append, List.flatMap_cons, List.length_append] at fits
      omega
    rw [Nat.mod_eq_of_lt more]
    exact mem_heads_iff.mpr ⟨front ++ [item], second, rest, by simp, by simp⟩

theorem getElem?_flatMap_words (front : List Item) (item : Item) (rest : List Item) :
    ((front ++ item :: rest).flatMap words)[(front.flatMap words).length]? = item.words.head? := by
  rw [List.flatMap_append, List.getElem?_append_right (Nat.le_refl _), Nat.sub_self]
  cases item <;> simp [words]

/-- The first word of an item has the code of an operation, which says how many words there are. It
has an operand if the operation needs one, but for a text, which has the code of `STRLIT`. -/
theorem Writable.exists_head {item : Item} (writable : item.Writable) :
    ∃ (word : Word) (operation : Opcode), item.words.head? = some word ∧
      word.opcode = operation.code ∧ item.words.length = operation.span ∧
      (operation.hasOperand = true →
        operation = .strlit ∧ word.isText = true ∨ word.operand?.isSome = true) := by
  cases item with
  | text payload => exact ⟨_, .strlit, rfl, rfl, rfl, fun _ => .inl ⟨rfl, rfl⟩⟩
  | plain operation =>
    obtain ⟨other, alone⟩ := writable
    exact ⟨_, operation, rfl, rfl, by simp [words, Opcode.span, other], by simp [alone]⟩
  | addressed operation operand =>
    exact ⟨_, operation, rfl, rfl, by simp [words, Opcode.span, writable.ne_lit],
      fun _ => .inr rfl⟩
  | literal value => exact ⟨_, .lit, rfl, rfl, rfl, nofun⟩

theorem eq_addressed_of_head {item : Item} {operation : Opcode} {operand : UInt16}
    (head : item.words.head? = some (.instruction operation.code (some operand))) :
    item = .addressed operation operand := by
  cases item with
  | addressed other carried =>
    simp only [words, List.head?_cons, Option.some.injEq, Word.instruction.injEq] at head
    rw [head.2, Opcode.code_injective head.1]
  | text payload => simp [words] at head
  | plain other => simp [words] at head
  | literal value => simp [words] at head

end Item

namespace Flat

variable {segments : Nat} {flat after : Flat}

/-- The three ways on: to the cell of a branch, nowhere, or over the cells of the operation. -/
theorem Step.pc_cases (stepped : Step segments flat after) :
    (∃ operation ∈ [Opcode.branchIf, .call], ∃ operand,
      flat.Reads (.instruction operation.code (some operand)) ∧ Names segments operand after.pc) ∨
    after.pc = flat.pc ∨
    ∃ operation : Opcode, flat.Executes operation ∧ after.pc = flat.ahead operation.span := by
  have reading {operation : Opcode} {operand : UInt16}
      (here : flat.Reads (.instruction operation.code (some operand))) : flat.Executes operation :=
    ⟨_, here, rfl⟩
  cases stepped with
  | branch here _ _ named => exact .inl ⟨.branchIf, by simp, _, here, named⟩
  | call here named => exact .inl ⟨.call, by simp, _, here, named⟩
  | exit => exact .inr (.inl rfl)
  | nop here => exact .inr (.inr ⟨_, here, rfl⟩)
  | store here => exact .inr (.inr ⟨_, reading here, rfl⟩)
  | combine here combines =>
    refine .inr (.inr ⟨_, here, ?_⟩)
    cases combines <;> rfl
  | rstore here => exact .inr (.inr ⟨_, here, rfl⟩)
  | fetch here => exact .inr (.inr ⟨_, reading here, rfl⟩)
  | drop here => exact .inr (.inr ⟨_, here, rfl⟩)
  | dup here => exact .inr (.inr ⟨_, here, rfl⟩)
  | overCopy here => exact .inr (.inr ⟨_, here, rfl⟩)
  | rfetch here => exact .inr (.inr ⟨_, here, rfl⟩)
  | swap here => exact .inr (.inr ⟨_, here, rfl⟩)
  | pass here => exact .inr (.inr ⟨_, reading here, rfl⟩)
  | lit here => exact .inr (.inr ⟨_, here, rfl⟩)
  | cout here => exact .inr (.inr ⟨_, here, rfl⟩)
  | cin here => exact .inr (.inr ⟨_, here, rfl⟩)
  | text here => exact .inr (.inr ⟨.strlit, ⟨_, here, rfl⟩, rfl⟩)
  | strlit here => exact .inr (.inr ⟨_, reading here, rfl⟩)
  | sout here => exact .inr (.inr ⟨_, reading here, rfl⟩)

/-- Nothing but `STORE` writes, and it writes to the cell of its operand. -/
theorem Step.cells_cases (stepped : Step segments flat after) :
    after.cells = flat.cells ∨ ∃ operand cell value,
      flat.Reads (.instruction Opcode.store.code (some operand)) ∧ Names segments operand cell ∧
        after.cells = flat.cells.set cell value := by
  cases stepped with
  | store here named => exact .inr ⟨_, _, _, here, named, rfl⟩
  | _ => exact .inl rfl

end Flat

theorem Input.read_ne_error {input rest : Input} {cause : Failure}
    (other : cause ≠ .inputExhausted) : input.read ≠ (.error cause, rest) :=
  fun failed => other (cause_of_read failed)

namespace Action

variable {session left : Session} {word : Word} {operation : Opcode}

theorem operand?_of_noOperand {bits : UInt32}
    (failed : perform word operation session = .error (.noOperand bits) left) :
    operation.hasOperand = true ∧ word.operand? = none ∧
      (operation = .strlit → word.isText = false) := by
  have failed := effect_eq_error failed (by simp)
  cases operation
  case strlit =>
    cases text : word.isText with
    | true => simp [effect, text] at failed
    | false =>
      simp [effect, text, -bind_pure_comp] at failed
      exact ⟨rfl, failed.1.1, fun _ => rfl⟩
  case store | fetch | branchIf | call | sout =>
    simp [effect, Word.operand_eq_error_iff, -bind_pure_comp] at failed
    exact ⟨rfl, failed.1.1, by simp⟩
  -- The other operations ask for no operand.
  all_goals simp [effect, combineTop, Input.read_ne_error, -bind_pure_comp] at failed

theorem perform_ne_unknownOpcode {code : UInt8} :
    perform word operation session ≠ .error (.unknownOpcode code) left := by
  intro failed
  have failed := effect_eq_error failed (by simp)
  cases operation
  case strlit => cases text : word.isText <;> simp [effect, text, -bind_pure_comp] at failed
  all_goals simp [effect, combineTop, Word.operand_eq_error_iff, Input.read_ne_error,
    -bind_pure_comp] at failed

end Action

/-- A program that keeps to its layout: a branch into it leads to the first cell of an item, and
nothing is stored over it. -/
structure Item.KeepsLayout (segments : Nat) (items : List Item) : Prop where
  targets : ∀ operation ∈ [Opcode.branchIf, .call], ∀ (operand : UInt16) (cell : Nat),
    .addressed operation operand ∈ items → Flat.Names segments operand cell →
    cell < (items.flatMap words).length → cell ∈ heads items
  stores : ∀ (operand : UInt16) (cell : Nat), .addressed .store operand ∈ items →
    Flat.Names segments operand cell → (items.flatMap words).length ≤ cell

/-- The first cells hold a program, and the program counter stands on the first cell of an item,
unless it has left the program. -/
structure Flat.Follows (flat : Flat) (items : List Item) : Prop where
  cells : flat.cells.take (items.flatMap Item.words).length = items.flatMap Item.words
  head : flat.pc < (items.flatMap Item.words).length → flat.pc ∈ Item.heads items

namespace Flat.Follows

variable {flat after : Flat} {items : List Item} {segments : Nat}

theorem exists_item (follows : flat.Follows items)
    (inside : flat.pc < (items.flatMap Item.words).length) :
    ∃ front item rest, items = front ++ item :: rest ∧
      flat.pc = (front.flatMap Item.words).length ∧ flat.cells[flat.pc]? = item.words.head? := by
  obtain ⟨front, item, rest, split, place⟩ := Item.mem_heads_iff.mp (follows.head inside)
  refine ⟨front, item, rest, split, place, ?_⟩
  rw [← List.getElem?_take_of_lt inside, follows.cells, place, split, Item.getElem?_flatMap_words]

/-- A step inside a program that keeps to its layout stays on its items, or leaves it. -/
theorem step (follows : flat.Follows items) (writable : ∀ item ∈ items, item.Writable)
    (layout : Item.KeepsLayout segments items)
    (inside : flat.pc < (items.flatMap Item.words).length) (stepped : Step segments flat after) :
    after.Follows items := by
  obtain ⟨front, item, rest, rfl, place, found⟩ := follows.exists_item inside
  have member : item ∈ front ++ item :: rest := by simp
  have addressed {operation : Opcode} {operand : UInt16}
      (here : flat.Reads (.instruction operation.code (some operand))) :
      .addressed operation operand ∈ front ++ item :: rest :=
    Item.eq_addressed_of_head (found.symm.trans here) ▸ member
  constructor
  · rcases stepped.cells_cases with same | ⟨operand, cell, value, here, named, written⟩
    · rw [same, follows.cells]
    · have beyond := layout.stores operand cell (addressed here) named
      rw [written, List.take_set_of_le beyond, follows.cells]
  · intro still
    rcases stepped.pc_cases with ⟨operation, branches, operand, here, named⟩ | stays |
      ⟨operation, ⟨word, here, code⟩, moved⟩
    · exact layout.targets operation branches operand _ (addressed here) named still
    · rw [stays]
      exact follows.head inside
    · -- The operation that was executed is that of the item, so it spans the item's words.
      obtain ⟨first, own, head, ownCode, span, _⟩ := (writable item member).exists_head
      have word_eq : word = first := Option.some.inj (here.symm.trans (found.trans head))
      have same : operation = own := Opcode.code_injective (by rw [← code, word_eq, ownCode])
      have fits : ((front ++ item :: rest).flatMap Item.words).length ≤ flat.cells.length := by
        rw [← follows.cells]
        exact List.length_take_le' _ _
      rw [moved, ahead, same, ← span, place] at still ⊢
      exact Item.mem_heads_next fits still

end Flat.Follows

namespace Session

variable {session later : Session} {items : List Item} {segments : UInt8}

theorem cause_of_follows (sound : session.machine.Sound segments)
    (follows : session.flat.Follows items) (writable : ∀ item ∈ items, item.Writable)
    (inside : session.flat.pc < (items.flatMap Item.words).length) {fault : Fault}
    (faulted : session.step.fault? = some fault) :
    (∀ code, fault.cause ≠ .unknownOpcode code) ∧ ∀ bits, fault.cause ≠ .noOperand bits := by
  obtain ⟨front, item, rest, rfl, _, found⟩ := follows.exists_item inside
  obtain ⟨word, operation, head, code, _, complete⟩ := (writable item (by simp)).exists_head
  have stored := (flat_reads_iff sound).mp (found.trans head)
  obtain ⟨left, failed, _⟩ := step_eq_fault_iff.mp faulted
  rw [Action.execute_eq stored, code, Opcode.ofCode?_code] at failed
  constructor
  · intro unknown cause
    rw [cause] at failed
    exact Action.perform_ne_unknownOpcode failed
  · intro bits cause
    rw [cause] at failed
    obtain ⟨needs, missing, plain⟩ := Action.operand?_of_noOperand failed
    rcases complete needs with ⟨strlit, text⟩ | carried
    · rw [plain strlit] at text
      cases text
    · rw [missing] at carried
      cases carried

/-- What one step inside the program keeps, all of them keep, until the program is left. -/
theorem follows_of_steps? (writable : ∀ item ∈ items, item.Writable)
    (layout : Item.KeepsLayout segments.toNat items) {count : Nat}
    (sound : session.machine.Sound segments) (follows : session.flat.Follows items)
    (reached : session.steps? count = some later)
    (within : ∀ earlier < count, ∀ before, session.steps? earlier = some before →
      before.flat.pc < (items.flatMap Item.words).length) : later.flat.Follows items := by
  induction count generalizing session with
  | zero =>
    cases reached
    exact follows
  | succ count ih =>
    obtain ⟨next, stepped, rest⟩ := steps?_succ.mp reached
    have inside := within 0 (Nat.succ_pos count) session rfl
    have kept := (closed_sound segments).step sound
    rw [stepped] at kept
    refine ih kept ?_ rest ?_
    · exact follows.step writable layout inside ((flat_step_iff sound).mpr ⟨next, stepped, rfl⟩)
    · intro earlier fewer before between
      exact within (earlier + 1) (Nat.succ_lt_succ fewer) before
        (steps?_succ.mpr ⟨next, stepped, between⟩)

end Session

/-- A program that keeps to its layout goes into a fresh machine that has room for it. Up to the
moment the counter leaves it, it is as it was loaded, the counter stands on the first cell of an
item, and no step fails for want of an operation or of an operand. -/
theorem layout_followed (segments : UInt8) (machine : Machine) (text : String) (items : List Item)
    (words : List Word) (built : Machine.new segments = .ok machine)
    (assembled : assemble text = .ok words) (listed : Item.list (Lexeme.list text) = .ok items)
    (fits : words.length ≤ 1024 * segments.toNat)
    (layout : Item.KeepsLayout segments.toNat items) (input : Input) (output : Array String) :
    ∃ loaded, machine.load words = (loaded, .ok ()) ∧ ∀ count session,
      Session.steps? count ⟨loaded.start, input, output⟩ = some session →
      (∀ earlier < count, ∀ before,
        Session.steps? earlier ⟨loaded.start, input, output⟩ = some before →
          before.flat.pc < words.length) →
      session.flat.cells.take words.length = words ∧
      (session.flat.pc < words.length →
        session.flat.pc ∈ Item.heads items ∧
        (∀ front value rest, items = front ++ .literal value :: rest →
          session.flat.pc ≠ (front.flatMap Item.words).length + 1) ∧
        ∀ fault, session.step.fault? = some fault →
          (∀ code, fault.cause ≠ .unknownOpcode code) ∧
            ∀ bits, fault.cause ≠ .noOperand bits) := by
  obtain rfl : items.flatMap Item.words = words := by
    rw [assemble, listed] at assembled
    exact Except.ok.inj assembled
  have writable : ∀ item ∈ items, item.Writable :=
    Item.writable_of_list (fun _ member => Lexeme.closed_of_mem member) listed
  obtain ⟨positive, _, rfl⟩ := Machine.new_eq_ok_iff.mp built
  rw [Nat.mul_comm] at fits
  obtain ⟨loaded, done, sound, row⟩ := Machine.exists_load_fresh positive fits
  refine ⟨loaded, done, ?_⟩
  intro count session reached within
  have begun : (Session.mk loaded.start input output).flat.Follows items := by
    have start : (Session.mk loaded.start input output).flat.pc = 0 := Address.index_zero
    have cells : (Session.mk loaded.start input output).flat.cells = loaded.memory.row := rfl
    constructor
    · rw [cells, row, List.take_left]
    · rw [start]
      exact Item.zero_mem_heads
  have follows := Session.follows_of_steps? writable layout sound.start begun reached within
  have soundNow := Session.sound_of_steps? sound.start reached
  refine ⟨follows.cells, ?_⟩
  intro inside
  refine ⟨follows.head inside, ?_, ?_⟩
  · rintro front value rest rfl same
    exact Item.not_mem_heads_of_literal (same ▸ follows.head inside)
  · intro fault faulted
    exact Session.cause_of_follows soundNow follows writable inside faulted

/-- A loop over a literal whose bits are no instruction. The counter comes back to the first cell
and never stops at the second. -/
theorem layout_followed_loop :
    let words := [Word.instruction Opcode.lit.code none, .literal 0xFF000000,
      .instruction Opcode.call.code (some 0)]
    assemble "LIT 0xFF000000 CALL 0" = .ok words ∧
      ∃ loaded session, (Machine.fresh 1).load words = (loaded, .ok ()) ∧
        Session.steps? 3 ⟨loaded.start, .ofTokens [], #[]⟩ = some session ∧
        session.flat.cells.take 3 = words ∧ session.flat.pc = 2 ∧ session.flat.pc ∈ [0, 2] := by
  intro words
  have listed : Item.list (Lexeme.list "LIT 0xFF000000 CALL 0") =
      .ok [.literal (.literal 0xFF000000), .addressed .call 0] := by
    have lexemes : Lexeme.list "LIT 0xFF000000 CALL 0" =
        [⟨.bare "LIT", 1⟩, ⟨.bare "0xFF000000", 1⟩, ⟨.bare "CALL", 1⟩, ⟨.bare "0", 1⟩] := by
      decide +kernel
    rw [lexemes]
    rfl
  have assembled : assemble "LIT 0xFF000000 CALL 0" = .ok words := by
    rw [assemble, listed]
    rfl
  have layout : Item.KeepsLayout (1 : UInt8).toNat
      [.literal (.literal 0xFF000000), .addressed .call 0] := by
    constructor
    · intro operation _ operand cell member named _
      simp at member
      obtain ⟨_, rfl⟩ := member
      obtain ⟨_, _, rfl⟩ := named
      decide
    · intro operand cell member
      simp at member
  obtain ⟨loaded, done, follows⟩ := layout_followed 1 (Machine.fresh 1) _ _ words
    (Machine.new_eq_ok_iff.mpr ⟨by decide, by decide, rfl⟩) assembled listed (by decide) layout
    (.ofTokens []) #[]
  obtain rfl : ((Machine.fresh 1).load words).1 = loaded := by rw [done]
  have inside : ∀ earlier < 3, (Session.steps? earlier
      ⟨((Machine.fresh 1).load words).1.start, .ofTokens [], #[]⟩).all (·.flat.pc < 3) = true := by
    decide +kernel
  have ended : (Session.steps? 3
      ⟨((Machine.fresh 1).load words).1.start, .ofTokens [], #[]⟩).map (·.flat.pc) = some 2 := by
    decide +kernel
  obtain ⟨session, reached, place⟩ := Option.map_eq_some_iff.mp ended
  obtain ⟨cells, there⟩ := follows 3 session reached fun earlier fewer before between =>
    show before.flat.pc < 3 by simpa [between] using inside earlier fewer
  have head := (there (by rw [place]; decide)).1
  exact ⟨assembled, _, session, done, reached, cells, place, head⟩

end StackMachine
