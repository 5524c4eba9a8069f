import Mathlib.Data.List.TakeWhile
import StackMachine.Proofs.Unseen

/-!
What reading gives. Bytes are read line by line and only as tokens are asked for, but all reads
together give the tokens of the lines in order, one failure for each line that is no text, and
failures for ever after that. So text that is read from bytes and a queue of the words of that text
are the same input to a machine, whatever is done to it.
-/

set_option autoImplicit false

namespace StackMachine

namespace Text

/-- The parts of a text between blanks, without those that are empty. -/
def words (text : List Char) : List (List Char) :=
  (text.splitOnP isBlank).filter (!·.isEmpty)

theorem words_append_blank {c : Char} (blank : isBlank c = true) (front back : List Char) :
    words (front ++ c :: back) = words front ++ words back := by
  rw [words, List.splitOnP_append_cons front back blank, List.filter_append]
  rfl

theorem words_cons_blank {c : Char} (blank : isBlank c = true) (text : List Char) :
    words (c :: text) = words text :=
  words_append_blank blank [] text

/-- Characters that are not blank make a word up to the next blank. -/
theorem words_append_of_solid {front back : List Char} (nonempty : front ≠ [])
    (solid : ∀ c ∈ front, isBlank c = false) (stops : ∀ c ∈ back.head?, isBlank c = true) :
    words (front ++ back) = front :: words back := by
  have word : words front = [front] := by
    rw [words, List.splitOnP_eq_singleton solid]
    simp [nonempty]
  cases back with
  | nil => rw [List.append_nil, word]; rfl
  | cons c back =>
    have blank := stops c rfl
    rw [words_append_blank blank, words_cons_blank blank, word, List.singleton_append]

theorem fields_eq_words (text : List Char) : fields text = words text := by
  fun_induction fields text with
  | case1 => rfl
  | case2 c rest blank ih => rw [ih, words_cons_blank blank]
  | case3 c rest solid ih =>
    have stops : ∀ d ∈ (rest.dropWhile (!isBlank ·)).head?, isBlank d = true := by
      intro d first
      have stopped := List.head?_dropWhile_not (!isBlank ·) rest
      rw [Option.mem_def.mp first] at stopped
      simpa using stopped
    have run : ∀ d ∈ c :: rest.takeWhile (!isBlank ·), isBlank d = false := by
      intro d member
      rcases List.mem_cons.mp member with rfl | later
      · simpa using solid
      · simpa using List.all_eq_true.mp List.all_takeWhile d later
    have split := words_append_of_solid (List.cons_ne_nil _ _) run stops
    rw [List.cons_append, List.takeWhile_append_dropWhile] at split
    rw [ih, split]

end Text

namespace Input

/-- What the reads of one line give: its words, or a single failure if it is no text. -/
def lineAnswers (line : List UInt8) : List (Except Failure String) :=
  match String.fromUTF8? line.toByteArray with
  | some text => (Text.words text.toList).map fun word => .ok (String.ofList word)
  | none => [.error .inputExhausted]

/-- What the reads of all lines give. Bytes that end with a line feed are followed by an empty line,
which has no words. -/
def answers (bytes : List UInt8) : List (Except Failure String) :=
  (bytes.splitOn lineFeed).flatMap lineAnswers

/-- What reading gives for ever: after the last line it only fails. -/
def stream (bytes : List UInt8) (place : Nat) : Except Failure String :=
  (answers bytes).getD place (.error .inputExhausted)

theorem answers_line {line : List UInt8} (one : lineFeed ∉ line) :
    answers line = lineAnswers line := by
  rw [answers, List.splitOn_eq_singleton one, List.flatMap_singleton]

theorem answers_append {line : List UInt8} (one : lineFeed ∉ line) (rest : List UInt8) :
    answers (line ++ lineFeed :: rest) = lineAnswers line ++ answers rest := by
  rw [answers, List.splitOn_append_cons_self_of_not_mem one, List.flatMap_cons]
  rfl

theorem lineAnswers_of_tokens {line : List UInt8} {tokens : List String}
    (decoded : tokensOfLine? line = some tokens) : lineAnswers line = tokens.map .ok := by
  obtain ⟨text, valid, rfl⟩ := Option.map_eq_some_iff.mp decoded
  simp only [lineAnswers, valid, Text.fields_eq_words, List.map_map]
  rfl

theorem lineAnswers_of_none {line : List UInt8} (broken : tokensOfLine? line = none) :
    lineAnswers line = [.error .inputExhausted] := by
  rw [lineAnswers, Option.map_eq_none_iff.mp broken]

theorem answers_nil : answers [] = [] := by
  decide +kernel

theorem answers_cut (bytes : List UInt8) :
    answers bytes =
      lineAnswers (Cut.before lineFeed bytes) ++ answers (Cut.after lineFeed bytes) := by
  by_cases found : lineFeed ∈ bytes
  · have cut := answers_append (Cut.mark_not_mem_before lineFeed bytes) (Cut.after lineFeed bytes)
    rw [Cut.before_append_after found] at cut
    exact cut
  · have passed : ∀ byte ∈ bytes, decide (byte ≠ lineFeed) = true := by
      intro byte member
      exact decide_eq_true fun same => found (same ▸ member)
    have whole : Cut.before lineFeed bytes = bytes := List.takeWhile_eq_self_iff.mpr passed
    have nothing : Cut.after lineFeed bytes = [] := by
      rw [Cut.after, List.dropWhile_eq_nil_iff.mpr passed]
      rfl
    rw [whole, nothing, answers_line found, answers_nil, List.append_nil]

/-- What the reads to come give: the tokens that wait, and then the lines that are still unread. -/
def future (input : Input) : List (Except Failure String) :=
  input.pending.map .ok ++ answers input.unread

/-- A read gives the first of what is to come and leaves the rest of it. Nothing is lost, told twice
or told in another order. -/
theorem read_future (input : Input) :
    input.read.1 = input.future.headD (.error .inputExhausted) ∧
      input.read.2.future = input.future.tail := by
  fun_induction Input.read input with
  | case1 token rest unread => exact ⟨rfl, rfl⟩
  | case2 => simp [future, answers_nil]
  | case3 byte bytes rest tokens decoded ih =>
    -- The line may have no words, so that reading goes on to the next: `ih` covers both.
    have same : future ⟨tokens, rest⟩ = future ⟨[], byte :: bytes⟩ := by
      simp only [future, List.map_nil, List.nil_append]
      rw [answers_cut (byte :: bytes), lineAnswers_of_tokens decoded]
    rw [same] at ih
    exact ih
  | case4 byte bytes rest broken =>
    have same : future ⟨[], byte :: bytes⟩ = .error .inputExhausted :: future ⟨[], rest⟩ := by
      simp only [future, List.map_nil, List.nil_append]
      rw [answers_cut (byte :: bytes), lineAnswers_of_none broken, List.singleton_append]
    rw [same]
    exact ⟨rfl, rfl⟩

theorem reads_future (count : Nat) (input : Input) :
    input.reads count =
      (List.range count).map fun place => input.future.getD place (.error .inputExhausted) := by
  induction count generalizing input with
  | zero => rfl
  | succ count ih =>
    obtain ⟨first, rest⟩ := read_future input
    rw [reads, ih, first, rest, List.range_succ_eq_map, List.map_cons, List.map_map]
    cases input.future <;> rfl

theorem future_ofTokens (tokens : List String) : (ofTokens tokens).future = tokens.map .ok := by
  rw [future, ofTokens, answers_nil, List.append_nil]

theorem future_ofBytes (bytes : List UInt8) : (ofBytes bytes).future = answers bytes :=
  rfl

def encode (text : List Char) : List UInt8 :=
  text.flatMap String.utf8EncodeChar

theorem eq_encode_of_fromUTF8? {bytes : List UInt8} {text : String}
    (valid : String.fromUTF8? bytes.toByteArray = some text) : bytes = encode text.toList := by
  unfold String.fromUTF8? at valid
  split at valid
  · obtain rfl := Option.some.inj valid
    have same := congrArg (fun array => array.data.toList)
      (String.utf8Encode_toList (b := String.fromUTF8 bytes.toByteArray ‹_›))
    simp only [List.utf8Encode, String.fromUTF8, List.toList_data_toByteArray] at same
    exact same.symm
  · cases valid

theorem fromUTF8?_encode (text : List Char) :
    String.fromUTF8? (encode text).toByteArray = some (String.ofList text) := by
  have valid : (encode text).toByteArray.IsValidUTF8 := ByteArray.isValidUTF8_utf8Encode
  rw [String.fromUTF8?, dif_pos valid]
  rfl

theorem lineAnswers_encode (text : List Char) :
    lineAnswers (encode text) = (Text.words text).map fun word => .ok (String.ofList word) := by
  rw [lineAnswers, fromUTF8?_encode]
  simp only [String.toList_ofList]

theorem lineFeed_ne_ofNat {n : Nat} (lower : 128 ≤ n) (upper : n < 256) :
    lineFeed ≠ UInt8.ofNat n := by
  intro same
  have value : 10 = n % 256 := congrArg UInt8.toNat same
  omega

/-- Only a line feed has the byte of a line feed in it. -/
theorem eq_of_lineFeed_mem (c : Char) : lineFeed ∈ String.utf8EncodeChar c → c = '\n' := by
  fun_cases String.utf8EncodeChar c with
  | case1 code ascii =>
    intro found
    have value : 10 = code % 256 := congrArg UInt8.toNat (List.mem_singleton.mp found)
    apply Char.ext
    apply UInt32.toNat.inj
    change code = 10
    omega
  | case2 | case3 | case4 =>
    -- Every byte of a longer character is at least 128.
    simp (disch := omega) only [List.mem_cons, List.not_mem_nil, or_false, lineFeed_ne_ofNat,
      false_implies]

theorem lineFeed_not_mem_encode {text : List Char} (one : '\n' ∉ text) :
    lineFeed ∉ encode text := by
  intro found
  obtain ⟨c, member, inside⟩ := List.mem_flatMap.mp found
  exact one (eq_of_lineFeed_mem c inside ▸ member)

theorem answers_encode (text : List Char) :
    answers (encode text) = (Text.words text).map fun word => .ok (String.ofList word) := by
  by_cases found : '\n' ∈ text
  · have bytes : encode text =
        encode (Cut.before '\n' text) ++ lineFeed :: encode (Cut.after '\n' text) := by
      conv => lhs; rw [← Cut.before_append_after found]
      rw [encode, List.flatMap_append]
      rfl
    have words : Text.words text =
        Text.words (Cut.before '\n' text) ++ Text.words (Cut.after '\n' text) := by
      conv => lhs; rw [← Cut.before_append_after found]
      -- A line feed is blank, so no word goes over the end of a line.
      exact Text.words_append_blank (by decide) _ _
    have one := lineFeed_not_mem_encode (Cut.mark_not_mem_before '\n' text)
    rw [bytes, answers_append one, lineAnswers_encode, answers_encode (Cut.after '\n' text), words,
      List.map_append]
  · rw [answers_line (lineFeed_not_mem_encode found), lineAnswers_encode]
termination_by text.length
decreasing_by exact Cut.length_after_lt (List.ne_nil_of_mem found)

def ofText (text : String) : Input :=
  ofTokens ((Text.words text.toList).map String.ofList)

theorem future_ofText {bytes : List UInt8} {text : String}
    (valid : String.fromUTF8? bytes.toByteArray = some text) :
    (ofBytes bytes).future = (ofText text).future := by
  rw [future_ofBytes, ofText, future_ofTokens, eq_encode_of_fromUTF8? valid, answers_encode,
    List.map_map]
  rfl

end Input

/-- What is done to a machine at work. A run is given the number of steps that it may take. A start
is what a run does before its first step, so that steps after it are a run that has not ended. -/
inductive Operation where
  | place (word : Word)
  | load (words : List Word)
  | reset
  | clear
  | start
  | step
  | run (fuel : Nat)

inductive Answer where
  | done
  | refused (cause : Failure)
  | faulted (fault : Fault)
deriving DecidableEq

def Report.answer (report : Report) : Answer × Session :=
  (report.fault?.elim .done .faulted, report.session)

namespace Session

def onMachine (change : Machine → Answer × Machine) (session : Session) : Answer × Session :=
  ((change session.machine).1, { session with machine := (change session.machine).2 })

/-- None for a run that takes more steps than it may. -/
def operate? : Operation → Session → Option (Answer × Session)
  | .place word, session => some <| session.onMachine fun machine =>
    match machine.place word with
    | .ok placed => (.done, placed)
    | .error cause => (.refused cause, machine)
  | .load words, session => some <| session.onMachine fun machine =>
    match machine.load words with
    | (loaded, .ok _) => (.done, loaded)
    | (loaded, .error cause) => (.refused cause, loaded)
  | .reset, session => some <| session.onMachine fun machine => (.done, machine.reset)
  | .clear, session => some <| session.onMachine fun machine => (.done, machine.clear)
  | .start, session => some <| session.onMachine fun machine => (.done, machine.start)
  | .step, session => some session.step.answer
  | .run fuel, session => (session.run? fuel).map Report.answer

def operateAll? : List Operation → Session → Option (List Answer × Session)
  | [], session => some ([], session)
  | operation :: rest, session => do
    let (answer, next) ← session.operate? operation
    let (answers, last) ← operateAll? rest next
    return (answer :: answers, last)

end Session

namespace Pairing

variable {inputs : Input → Input → Prop} {one other : Session}

theorem rel_bind {α β : Type} {before : α → α → Prop} {after : β → β → Prop}
    {first second : Option α} {next following : α → Option β}
    (related : Option.Rel before first second)
    (follow : ∀ {a b : α}, before a b → Option.Rel after (next a) (following b)) :
    Option.Rel after (first.bind next) (second.bind following) := by
  cases related with
  | none => exact .none
  | some same => exact follow same

def Told (pairing : Pairing) {α : Type} (first second : α × Session) : Prop :=
  first.1 = second.1 ∧ pairing.sessions first.2 second.2

theorem told_onMachine (change : Machine → Answer × Machine)
    (paired : (unseen Eq inputs).sessions one other) :
    (unseen Eq inputs).Told (one.onMachine change) (other.onMachine change) := by
  obtain ⟨_, input, rfl, rfl, same⟩ := paired
  exact ⟨rfl, _, input, rfl, rfl, same⟩

theorem told_answer {pairing : Pairing} {first second : Report}
    (reports : pairing.Reports first second) : pairing.Told first.answer second.answer := by
  obtain ⟨sameFault, paired⟩ := reports
  exact ⟨congrArg (Option.elim · Answer.done Answer.faulted) sameFault, paired⟩

/-- Inputs that read the same, now and later, cannot be told apart by one operation. -/
theorem operate?_unseen
    (reads : (unseen Eq inputs).Agree Eq Action.takeToken Action.takeToken)
    (operation : Operation) (paired : (unseen Eq inputs).sessions one other) :
    Option.Rel (unseen Eq inputs).Told (one.operate? operation) (other.operate? operation) := by
  cases operation with
  | place | load | reset | clear | start => exact .some (told_onMachine _ paired)
  | step => exact .some (told_answer (step_unseen paired fun _ => reads _ _ paired))
  | run fuel =>
    have started : (unseen Eq inputs).sessions { one with machine := one.machine.start }
        { other with machine := other.machine.start } :=
      (told_onMachine (fun machine => (.done, machine.start)) paired).2
    rw [Session.operate?, Session.operate?, Option.map_eq_bind, Option.map_eq_bind]
    exact rel_bind (continue?_unseen reads fuel started) fun reports => .some (told_answer reports)

theorem operateAll?_unseen
    (reads : (unseen Eq inputs).Agree Eq Action.takeToken Action.takeToken)
    (operations : List Operation) (paired : (unseen Eq inputs).sessions one other) :
    Option.Rel (unseen Eq inputs).Told (one.operateAll? operations)
      (other.operateAll? operations) := by
  induction operations generalizing one other with
  | nil => exact .some ⟨rfl, paired⟩
  | cons operation rest ih =>
    refine rel_bind (operate?_unseen reads operation paired) ?_
    rintro ⟨answer, next⟩ ⟨_, after⟩ ⟨rfl, later⟩
    refine rel_bind (ih later) ?_
    rintro ⟨answers, last⟩ ⟨_, left⟩ ⟨rfl, ended⟩
    exact .some ⟨rfl, ended⟩

end Pairing

/-- The reads of any bytes give the tokens of the lines in order, with one failure for each line
that is no text, and then fail for ever. On the UTF-8 bytes of a text, any operations on a machine
do the same as on a queue of its words. -/
theorem bytes_read_as_stream (bytes : List UInt8) :
    (∀ count, (Input.ofBytes bytes).reads count = (List.range count).map (Input.stream bytes)) ∧
    ∀ text, String.fromUTF8? bytes.toByteArray = some text →
      ∀ (machine : Machine) (output : Array String) (operations : List Operation),
        (Session.operateAll? operations ⟨machine, .ofBytes bytes, output⟩).map
            (fun told => (told.1, told.2.machine, told.2.output)) =
          (Session.operateAll? operations ⟨machine, .ofText text, output⟩).map
            (fun told => (told.1, told.2.machine, told.2.output)) := by
  constructor
  · intro count
    exact Input.reads_future count (.ofBytes bytes)
  · intro text valid machine output operations
    have reads : ∀ {one other : Input}, one.future = other.future →
        one.read.1 = other.read.1 ∧ one.read.2.future = other.read.2.future := by
      intro one other same
      have first := one.read_future
      have second := other.read_future
      rw [same] at first
      exact ⟨first.1.trans second.1.symm, first.2.trans second.2.symm⟩
    let inputs (one other : Input) : Prop := one.future = other.future
    have paired : (Pairing.unseen Eq inputs).sessions ⟨machine, .ofBytes bytes, output⟩
        ⟨machine, .ofText text, output⟩ := ⟨_, _, rfl, rfl, Input.future_ofText valid⟩
    have related :=
      Pairing.operateAll?_unseen (Pairing.agree_takeToken_unseen reads) operations paired
    generalize Session.operateAll? operations _ = first at related ⊢
    generalize Session.operateAll? operations _ = second at related ⊢
    cases related with
    | none => rfl
    | @some one other told =>
      obtain ⟨answers, last⟩ := one
      obtain ⟨_, _⟩ := other
      obtain ⟨rfl, _, _, rfl, rfl, _⟩ := told
      rfl

/-- Three lines of bytes, the second of them empty and the third without an end, are a queue of two
words. A program that reads twice and prints tells and emits the same for both. -/
theorem bytes_read_as_stream_lines :
    let program := [Word.instruction Opcode.cin.code none, .instruction Opcode.cin.code none,
      .instruction Opcode.cout.code none, .instruction Opcode.exit.code none]
    let bytes : List UInt8 := [0x37, 0x0A, 0x0A, 0x20, 0xC3, 0xA9]
    let operations := [Operation.load program, .run 4, .run 4]
    String.fromUTF8? bytes.toByteArray = some "7\n\n é" ∧
      (Session.operateAll? operations ⟨Machine.fresh 1, .ofBytes bytes, #[]⟩).map
          (fun told => (told.1, told.2.output)) =
        some ([.done, .done, .faulted ⟨Opcode.cin.code, ⟨0, 0⟩, .inputExhausted⟩], #["é"]) := by
  intro program bytes operations
  have valid : String.fromUTF8? bytes.toByteArray = some "7\n\n é" := by decide +kernel
  refine ⟨valid, ?_⟩
  have queue : (Session.operateAll? operations ⟨Machine.fresh 1, .ofText "7\n\n é", #[]⟩).map
      (fun told => (told.1, told.2.output)) =
      some ([.done, .done, .faulted ⟨Opcode.cin.code, ⟨0, 0⟩, .inputExhausted⟩], #["é"]) := by
    decide +kernel
  have same := (bytes_read_as_stream bytes).2 _ valid (Machine.fresh 1) #[] operations
  have seen := congrArg (Option.map fun told => (told.1, told.2.2)) same
  rw [Option.map_map, Option.map_map] at seen
  exact seen.trans queue

end StackMachine
