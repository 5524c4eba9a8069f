import StackMachine.Command.Response
import StackMachine.Proofs.Aftermath
import StackMachine.Proofs.Arguments
import StackMachine.Proofs.Echo
import StackMachine.Proofs.Loading

/-!
What a command line answers. A program is assembled, loaded and run, and each of these may be as far
as it comes. Debugging prints the program after the first of them and the machine after the last,
and changes nothing else.
-/

set_option autoImplicit false

namespace StackMachine

/-- A machine with a program in its first cells. There is none with too few segments or too many,
nor for a program that is longer than memory. -/
def Machine.holding? (segments : UInt8) (words : List Word) : Option Machine :=
  if words.length ≤ 1024 * segments.toNat ∧ 1 ≤ segments.toNat ∧ segments.toNat ≤ 16 then
    some ((fresh segments).load words).1
  else none

namespace Session

variable {session : Session} {segments : UInt8} {source : String} {stdin : List UInt8} {fuel : Nat}
  {report : Report}

def opened? (segments : UInt8) (source : String) (stdin : List UInt8) : Option Session :=
  (assemble source).toOption.bind fun words =>
    (Machine.holding? segments words).map fun machine => ⟨machine, .ofBytes stdin, #[]⟩

def ReachesExit (fuel : Nat) (session : Session) : Prop :=
  ∃ earlier ∈ trace fuel { session with machine := session.machine.start },
    earlier.machine.currentOpcode = Opcode.exit.code

theorem opened?_eq_some_iff :
    opened? segments source stdin = some session ↔
      ∃ words, assemble source = .ok words ∧ words.length ≤ 1024 * segments.toNat ∧
        1 ≤ segments.toNat ∧ segments.toNat ≤ 16 ∧
        session = ⟨((Machine.fresh segments).load words).1, .ofBytes stdin, #[]⟩ := by
  cases assembled : assemble source with
  | error cause => simp [opened?, assembled, Except.toOption]
  | ok words =>
    simp only [opened?, assembled, Except.toOption, Option.bind_some, Machine.holding?,
      Except.ok.injEq, exists_eq_left']
    by_cases held : words.length ≤ 1024 * segments.toNat ∧ 1 ≤ segments.toNat ∧
        segments.toNat ≤ 16
    · simp [held, eq_comm]
    · rw [if_neg held]
      constructor
      · nofun
      · rintro ⟨fits, positive, few, _⟩
        exact absurd ⟨fits, positive, few⟩ held

/-- A program that is run ends without a fault if and only if it comes to an `EXIT`. -/
theorem fault?_of_opened? (opened : opened? segments source stdin = some session)
    (ended : session.run? fuel = some report) :
    report.fault? = none ↔ session.ReachesExit fuel := by
  obtain ⟨words, _, fits, positive, _, rfl⟩ := opened?_eq_some_iff.mp opened
  obtain ⟨loaded, done, sound, _⟩ := Machine.exists_load_fresh positive
    (Nat.mul_comm segments.toNat 1024 ▸ fits)
  rw [done] at ended ⊢
  exact fault?_eq_none_iff sound.start rfl ended

/-- A program is run to its end without a fault if and only if it assembles, fits into a machine
that can be built and comes to an `EXIT`. -/
theorem exists_faultless_iff (ends : ∀ session, opened? segments source stdin = some session →
      (session.run? fuel).isSome = true) :
    (∃ report, (opened? segments source stdin).bind (run? fuel) = some report ∧
      report.fault? = none) ↔
      ∃ words, assemble source = .ok words ∧ words.length ≤ 1024 * segments.toNat ∧
        1 ≤ segments.toNat ∧ segments.toNat ≤ 16 ∧
        ReachesExit fuel ⟨((Machine.fresh segments).load words).1, .ofBytes stdin, #[]⟩ := by
  constructor
  · rintro ⟨report, ran, faultless⟩
    obtain ⟨session, opened, ended⟩ := Option.bind_eq_some_iff.mp ran
    have exits := (fault?_of_opened? opened ended).mp faultless
    obtain ⟨words, assembled, fits, positive, few, rfl⟩ := opened?_eq_some_iff.mp opened
    exact ⟨words, assembled, fits, positive, few, exits⟩
  · rintro ⟨words, assembled, fits, positive, few, exits⟩
    have opened : opened? segments source stdin =
        some ⟨((Machine.fresh segments).load words).1, .ofBytes stdin, #[]⟩ :=
      opened?_eq_some_iff.mpr ⟨words, assembled, fits, positive, few, rfl⟩
    obtain ⟨report, ended⟩ := Option.isSome_iff_exists.mp (ends _ opened)
    exact ⟨report, Option.bind_eq_some_iff.mpr ⟨_, opened, ended⟩,
      (fault?_of_opened? opened ended).mpr exits⟩

end Session

/-- What debugging prints of a program. -/
def Listing.block (words : List Word) : String :=
  "# Assembled " ++ Numeral.decimal words.length ++ " cells\n" ++ (Listing.table words).render ++
    "\n"

/-- What debugging prints of a machine. -/
def Machine.block (machine : Machine) : String :=
  machine.display ++ "\n"

/-- How far a program comes: the words it assembles to, the report of its run, and what keeps it
from coming further. -/
structure Course where
  words? : Option (List Word)
  report? : Option Report
  trouble? : Option Trouble

namespace Course

def lines (course : Course) : String :=
  Output.lines (course.report?.elim [] fun report => report.session.output.toList)

/-- With debugging, the program comes before the lines of the run and the machine after them. -/
def stdout (course : Course) (debug : Bool) : String :=
  if debug then
    course.words?.elim "" Listing.block ++ course.lines ++
      course.report?.elim "" fun report => report.session.machine.block
  else course.lines

def response (course : Course) (debug : Bool) : Response :=
  match course.trouble? with
  | none => .success (course.stdout debug)
  | some trouble => .failure (course.stdout debug) trouble

end Course

namespace Settings

def course? (settings : Settings) (fuel : Nat) (source : String) (stdin : List UInt8) :
    Option Course :=
  match assemble source with
  | .error error => some ⟨none, none, some (.unassembled settings.file error)⟩
  | .ok words =>
    match settings.machine words with
    | .error trouble => some ⟨some words, none, some trouble⟩
    | .ok machine =>
      (Session.run? fuel ⟨machine, .ofBytes stdin, #[]⟩).map fun report =>
        ⟨some words, some report, report.fault?.map .faulted⟩

/-- Building a machine and loading it fail where no machine holds the program, and nowhere else. -/
theorem toOption_machine (settings : Settings) (words : List Word) :
    (settings.machine words).toOption = Machine.holding? settings.segments words := by
  rw [machine, Machine.holding?]
  cases built : Machine.new settings.segments with
  | error cause =>
    rw [if_neg]
    · rfl
    · rintro ⟨_, positive, few⟩
      rw [Machine.new_eq_ok_iff.mpr ⟨positive, few, rfl⟩] at built
      cases built
  | ok fresh =>
    obtain ⟨positive, few, rfl⟩ := Machine.new_eq_ok_iff.mp built
    by_cases fits : words.length ≤ 1024 * settings.segments.toNat
    · obtain ⟨loaded, done, _⟩ := Machine.exists_load_fresh positive
        (Nat.mul_comm settings.segments.toNat 1024 ▸ fits)
      simp only [done]
      rw [if_pos ⟨fits, positive, few⟩]
      rfl
    · cases done : (Machine.fresh settings.segments).load words with
      | mk loaded outcome =>
        rw [if_neg fun held => fits held.1]
        cases outcome with
        | error cause =>
          simp only [done]
          rfl
        | ok _ =>
          have room := (Machine.Sound.fresh positive).room_of_load done
          change 0 + words.length ≤ settings.segments.toNat * 1024 at room
          omega

theorem program_stored (settings : Settings) (source : String) :
    settings.program (.ok source.toUTF8.toList) =
      (assemble source).mapError (.unassembled settings.file) := by
  rw [program, Input.toList_toUTF8]
  simp only [Input.fromUTF8?_encode, String.ofList_toList]

theorem stdout_unrun (settings : Settings) (words : List Word) (trouble? : Option Trouble) :
    Course.stdout ⟨some words, none, trouble?⟩ settings.debug = settings.opening words := by
  have silent : Output.lines [] = "" := rfl
  cases asked : settings.debug with
  | false => simp [Course.stdout, Course.lines, opening, asked, silent]
  | true => simp [Course.stdout, Course.lines, opening, asked, silent, Listing.block]

theorem stdout_run (settings : Settings) (words : List Word) (report : Report)
    (trouble? : Option Trouble) :
    Course.stdout ⟨some words, some report, trouble?⟩ settings.debug =
      settings.opening words ++ Output.lines report.session.output.toList ++
        settings.closing report.session.machine := by
  cases asked : settings.debug with
  | false => simp [Course.stdout, Course.lines, opening, closing, asked]
  | true =>
    simp [Course.stdout, Course.lines, opening, closing, asked, Listing.block, Machine.block]

/-- What is answered is the course of the program, told with debugging or without. -/
theorem interpret?_stored (settings : Settings) (fuel : Nat) (source : String)
    (stdin : List UInt8) :
    settings.interpret? fuel (.ok source.toUTF8.toList) stdin =
      (settings.course? fuel source stdin).map (Course.response · settings.debug) := by
  rw [interpret?, course?, program_stored]
  cases assemble source with
  | error cause =>
    have silent : Course.stdout ⟨none, none, some (.unassembled settings.file cause)⟩
        settings.debug = "" := by
      cases settings.debug <;> rfl
    simp [Except.mapError, Course.response, silent]
  | ok words =>
    simp only [Except.mapError]
    cases settings.machine words with
    | error trouble => simp [Course.response, stdout_unrun]
    | ok machine =>
      simp only [Option.map_map]
      congr 1
      funext report
      cases faulted : report.fault? <;>
        simp [Course.response, stdout_run, faulted]

theorem exists_course? (settings : Settings) {fuel : Nat} {source : String} {stdin : List UInt8}
    (ends : ∀ session, Session.opened? settings.segments source stdin = some session →
      (session.run? fuel).isSome = true) :
    ∃ course, settings.course? fuel source stdin = some course ∧
      course.words? = (assemble source).toOption ∧
      course.report? =
        (Session.opened? settings.segments source stdin).bind (Session.run? fuel) ∧
      (course.trouble? = none ↔ ∃ report, course.report? = some report ∧ report.fault? = none) := by
  unfold course?
  -- The program does not assemble, finds no machine, or is run.
  cases assembled : assemble source with
  | error cause =>
    have shut : Session.opened? settings.segments source stdin = none := by
      rw [Session.opened?, assembled]
      rfl
    refine ⟨_, rfl, rfl, ?_, by simp⟩
    rw [shut]
    rfl
  | ok words =>
    have opened : Session.opened? settings.segments source stdin =
        (settings.machine words).toOption.map fun machine => ⟨machine, .ofBytes stdin, #[]⟩ := by
      rw [Session.opened?, assembled, toOption_machine]
      rfl
    cases built : settings.machine words with
    | error trouble =>
      rw [built] at opened
      simp only [built]
      refine ⟨_, rfl, rfl, ?_, by simp⟩
      rw [opened]
      rfl
    | ok machine =>
      rw [built] at opened
      obtain ⟨report, ended⟩ := Option.isSome_iff_exists.mp (ends _ opened)
      simp only [built, ended]
      refine ⟨_, rfl, rfl, ?_, by simp⟩
      rw [opened]
      exact ended.symm

end Settings

namespace Course

theorem status_response (course : Course) (debug : Bool) :
    (course.response debug).status = if course.trouble? = none then 0 else 1 := by
  rw [response]
  cases course.trouble? <;> rfl

theorem stdout_response (course : Course) (debug : Bool) :
    (course.response debug).stdout = course.stdout debug := by
  rw [response]
  cases course.trouble? <;> rfl

theorem stderr_response (course : Course) :
    (course.response true).stderr = (course.response false).stderr := by
  rw [response, response]
  cases course.trouble? <;> rfl

end Course

/-- A command line answers by status 0 if and only if the program assembles, fits into a machine
that can be built and runs to an `EXIT`. It prints the texts of the run, those before a fault too;
with debugging the program comes before them and the machine after them. -/
theorem command_answers (fuel : Nat) (readFile : String → Except ReadError (List UInt8))
    (stdin : List UInt8) (file source : String) (segments : UInt8)
    (stored : readFile file = .ok source.toUTF8.toList)
    (ends : ∀ session, Session.opened? segments source stdin = some session →
      (session.run? fuel).isSome = true) :
    let report? := (Session.opened? segments source stdin).bind (Session.run? fuel)
    (file ≠ "" → Request.Draft.isOption file = false →
      Request.ofArguments ["--mem", Numeral.decimal segments.toNat, file] =
        .interpret ⟨file, segments, false⟩) ∧
    ∃ plain debugged : Response,
      (∀ arguments, Request.ofArguments arguments = .interpret ⟨file, segments, false⟩ →
        respond? fuel readFile stdin arguments = some plain ∧
        Request.ofArguments ("--debug" :: arguments) = .interpret ⟨file, segments, true⟩) ∧
      (∀ arguments, Request.ofArguments arguments = .interpret ⟨file, segments, true⟩ →
        respond? fuel readFile stdin arguments = some debugged) ∧
      (plain.status = 0 ↔ ∃ words, assemble source = .ok words ∧
        words.length ≤ 1024 * segments.toNat ∧ 1 ≤ segments.toNat ∧ segments.toNat ≤ 16 ∧
        Session.ReachesExit fuel
          ⟨((Machine.fresh segments).load words).1, .ofBytes stdin, #[]⟩) ∧
      (plain.status = 0 ∨ plain.status = 1) ∧
      plain.stdout = Output.lines (report?.elim [] fun report => report.session.output.toList) ∧
      debugged.status = plain.status ∧
      debugged.stderr = plain.stderr ∧
      debugged.stdout = (assemble source).toOption.elim "" Listing.block ++ plain.stdout ++
        report?.elim "" fun report => report.session.machine.block := by
  intro report?
  refine ⟨fun named plain => Request.ofArguments_mem named plain segments, ?_⟩
  obtain ⟨course, followed, words, report, untroubled⟩ :=
    Settings.exists_course? ⟨file, segments, false⟩ ends
  have answers : ∀ arguments debug,
      Request.ofArguments arguments = .interpret ⟨file, segments, debug⟩ →
      respond? fuel readFile stdin arguments = some (course.response debug) := by
    intro arguments debug asked
    rw [respond?, asked]
    simp only [stored]
    rw [Settings.interpret?_stored]
    exact congrArg (Option.map (Course.response · debug)) followed
  refine ⟨course.response false, course.response true, ?_, fun arguments => answers arguments true,
    ?_, ?_, ?_, ?_, course.stderr_response, ?_⟩
  · intro arguments asked
    exact ⟨answers arguments false asked, Request.ofArguments_debug asked⟩
  · rw [course.status_response, ← Session.exists_faultless_iff ends, ← report, ← untroubled]
    simp
  · rw [course.status_response]
    split
    · exact .inl rfl
    · exact .inr rfl
  · rw [course.stdout_response, Course.stdout, Course.lines, report]
    rfl
  · rw [course.status_response, course.status_response]
  · rw [course.stdout_response, course.stdout_response, Course.stdout, Course.stdout, words, report]
    rfl

/-- A program that prints a number and then finds its stack empty. The number is printed, between
the program and the machine where debugging is asked for. -/
theorem command_answers_fault :
    let source := "LIT 7 COUT DROP EXIT"
    let readFile := fun path =>
      if path = "seven.fth" then .ok source.toUTF8.toList else .error .missing
    let words := [Word.instruction Opcode.lit.code none, .literal 7,
      .instruction Opcode.cout.code none, .instruction Opcode.drop.code none,
      .instruction Opcode.exit.code none]
    let session : Session := ⟨((Machine.fresh 1).load words).1, .ofBytes [], #[]⟩
    ∃ plain debugged report, session.run? 3 = some report ∧
      respond? 3 readFile [] ["--mem", "1", "seven.fth"] = some plain ∧
      respond? 3 readFile [] ["--mem", "1", "seven.fth", "--debug"] = some debugged ∧
      plain.status = 1 ∧ plain.stdout = "7\n" ∧ debugged.status = 1 ∧
      debugged.stdout = Listing.block words ++ "7\n" ++ report.session.machine.block := by
  intro source readFile words session
  have stored : readFile "seven.fth" = .ok source.toUTF8.toList := if_pos rfl
  have assembled : assemble source = .ok words := by decide +kernel
  have opened : Session.opened? 1 source [] = some session :=
    Session.opened?_eq_some_iff.mpr ⟨words, assembled, by decide, by decide, by decide, rfl⟩
  have printed : (session.run? 3).map (·.session.output.toList) = some ["7"] := by decide +kernel
  obtain ⟨report, ended, texts⟩ := Option.map_eq_some_iff.mp printed
  have ends : ∀ other, Session.opened? 1 source [] = some other →
      (other.run? 3).isSome = true := by
    intro other same
    obtain rfl : session = other := Option.some.inj (opened.symm.trans same)
    rw [ended]
    rfl
  obtain ⟨asked, plain, debugged, quiet, loud, exits, status, stdout, same, _, stdouts⟩ :=
    command_answers 3 readFile [] "seven.fth" source 1 stored ends
  have one : Numeral.decimal (1 : UInt8).toNat = "1" := by decide +kernel
  obtain ⟨answered, _⟩ := quiet ["--mem", "1", "seven.fth"] (one ▸ asked (by decide) (by decide))
  have unreached : ∀ earlier ∈ Session.trace 3 { session with machine := session.machine.start },
      earlier.machine.currentOpcode ≠ Opcode.exit.code := by
    decide +kernel
  have failed : plain.status = 1 := by
    refine status.resolve_left ?_
    rw [exits]
    rintro ⟨others, same, _, _, _, earlier, member, exit⟩
    obtain rfl : words = others := Except.ok.inj (assembled.symm.trans same)
    exact unreached earlier member exit
  rw [opened, Option.bind_some, ended] at stdout stdouts
  rw [Option.elim_some, texts] at stdout
  have seven : plain.stdout = "7\n" := stdout.trans (by decide +kernel)
  refine ⟨plain, debugged, report, ended, answered, loud _ (by decide +kernel), failed, seven,
    same.trans failed, ?_⟩
  rw [stdouts, assembled, seven]
  rfl

end StackMachine
