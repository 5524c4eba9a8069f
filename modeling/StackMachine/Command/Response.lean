import StackMachine.Channel.Output
import StackMachine.Command.Folder
import StackMachine.Command.Request
import StackMachine.Machine.Display
import StackMachine.Machine.Execution
import StackMachine.Program.Assembly
import StackMachine.Program.Listing

/-!
What a command answers: it reads a program, assembles it, loads it into a fresh machine and runs
it. The first of these that fails is reported, and what was printed before stays printed.
-/

set_option autoImplicit false

namespace StackMachine

structure Response where
  status : UInt8
  stdout : String
  stderr : String
deriving DecidableEq

/-- What keeps a program from running, or ends its run. -/
inductive Trouble
  | unreadable (path : String) (error : ReadError)
  | unassembled (path : String) (error : SourceError)
  | noMachine (cause : Failure)
  | overfull (cause : Failure)
  | faulted (fault : Fault)
deriving DecidableEq

namespace Trouble

/-- A trouble that has a cause is told first, and then the cause, even where the first text ends
with it. -/
def message : Trouble → String
  | unreadable path error => "could not read " ++ path ++ ": " ++ error.message
  | unassembled path error =>
    "could not assemble " ++ path ++ ": " ++ error.message ++ ": " ++ error.cause.message
  | noMachine cause => cause.message
  | overfull cause => "program does not fit in memory: " ++ cause.message
  | faulted fault => "the machine faulted: " ++ fault.message ++ ": " ++ fault.cause.message

end Trouble

namespace Response

def success (stdout : String) : Response :=
  ⟨0, stdout, ""⟩

def failure (stdout : String) (trouble : Trouble) : Response :=
  ⟨1, stdout, "Error: " ++ trouble.message ++ "\n"⟩

def usage : String :=
  "Usage: fvm [--mem SEGMENTS] [--debug] FILE\n"

def version : Response :=
  success "fvm 0.1.0\n"

def help : Response :=
  success usage

def refused : Response :=
  ⟨2, "", usage⟩

end Response

namespace Settings

def program (settings : Settings) (contents : Except ReadError (List UInt8)) :
    Except Trouble (List Word) :=
  match contents with
  | .error error => .error (.unreadable settings.file error)
  | .ok bytes =>
    match String.fromUTF8? bytes.toByteArray with
    | none => .error (.unreadable settings.file .notText)
    | some text => (assemble text).mapError (.unassembled settings.file)

/-- What debugging prints of the assembled program. -/
def opening (settings : Settings) (words : List Word) : String :=
  if settings.debug then
    "# Assembled " ++ Numeral.decimal words.length ++ " cells\n" ++
      (Listing.table words).render ++ "\n"
  else ""

def machine (settings : Settings) (words : List Word) : Except Trouble Machine :=
  match Machine.new settings.segments with
  | .error cause => .error (.noMachine cause)
  | .ok machine =>
    match machine.load words with
    | (machine, .ok _) => .ok machine
    | (_, .error cause) => .error (.overfull cause)

/-- What debugging prints of the machine after the run. -/
def closing (settings : Settings) (machine : Machine) : String :=
  if settings.debug then machine.display ++ "\n" else ""

/-- The whole answer of a run that ends within `fuel` steps. -/
def interpret? (settings : Settings) (fuel : Nat) (contents : Except ReadError (List UInt8))
    (stdin : List UInt8) : Option Response :=
  match settings.program contents with
  | .error trouble => some (.failure "" trouble)
  | .ok words =>
    match settings.machine words with
    | .error trouble => some (.failure (settings.opening words) trouble)
    | .ok machine =>
      (Session.run? fuel ⟨machine, .ofBytes stdin, #[]⟩).map fun report =>
        let stdout := settings.opening words ++ Output.lines report.session.output.toList ++
          settings.closing report.session.machine
        match report.fault? with
        | none => .success stdout
        | some fault => .failure stdout (.faulted fault)

end Settings

def respond? (fuel : Nat) (readFile : String → Except ReadError (List UInt8))
    (stdin : List UInt8) (arguments : List String) : Option Response :=
  match Request.ofArguments arguments with
  | .version => some .version
  | .help => some .help
  | .refused => some .refused
  | .interpret settings => settings.interpret? fuel (readFile settings.file) stdin

end StackMachine
