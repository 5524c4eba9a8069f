import StackMachine.Command.Response

/-!
The command itself. It does step by step what `respond?` says at once, so that lines of input are
asked for when the program wants them and texts appear when they are emitted.
-/

set_option autoImplicit false

namespace StackMachine.Main

def readFile (path : String) : IO (Except ReadError (List UInt8)) := do
  try
    return .ok (← IO.FS.readBinFile path).toList
  catch
    | .noFileOrDirectory .. => return .error .missing
    | .inappropriateType _ 20 _ => return .error .notDirectory
    | .inappropriateType .. => return .error .directory
    | .invalidArgument _ 36 _ => return .error .nameTooLong
    | error => return .error (.other (toString error))

/-- Bytes up to the end of a line, or of the input. -/
partial def readLine (stdin : IO.FS.Stream) (bytes : Array UInt8) : IO (List UInt8) := do
  let next ← stdin.read 1
  let bytes := bytes ++ next.data
  if next.isEmpty || next.data.contains lineFeed then return bytes.toList
  readLine stdin bytes

/-- Lines of input up to one that can answer a read. -/
partial def awaitLine (stdin : IO.FS.Stream) (input : Input) : IO Input := do
  let line ← readLine stdin #[]
  let input := { input with unread := input.unread ++ line }
  if line ≠ [] && Input.tokensOfLine? (Cut.before lineFeed line) == some [] then
    awaitLine stdin input
  else
    return input

/-- Text that cannot be written is dropped. -/
def write (stream : IO.FS.Stream) (text : String) : IO Unit := do
  try
    stream.putStr text
    stream.flush
  catch _ => return ()

partial def interact (stdin stdout : IO.FS.Stream) (session : Session) : IO Report := do
  if !session.machine.running then return ⟨session, none⟩
  let wanted := session.machine.currentOpcode == Opcode.cin.code && session.input.pending.isEmpty
  let input ← if wanted then awaitLine stdin session.input else pure session.input
  let report := { session with input }.step
  write stdout (Output.lines report.session.output.toList)
  let next := { report.session with output := #[] }
  match report.fault? with
  | some fault => return ⟨next, some fault⟩
  | none => interact stdin stdout next

def finish (response : Response) : IO UInt32 := do
  write (← IO.getStdout) response.stdout
  write (← IO.getStderr) response.stderr
  return response.status.toUInt32

def interpret (settings : Settings) : IO UInt32 := do
  match settings.program (← readFile settings.file) with
  | .error trouble => finish (.failure "" trouble)
  | .ok words =>
    let stdout ← IO.getStdout
    write stdout (settings.opening words)
    match settings.machine words with
    | .error trouble => finish (.failure "" trouble)
    | .ok machine =>
      let report ← interact (← IO.getStdin) stdout ⟨machine.start, .ofBytes [], #[]⟩
      let closing := settings.closing report.session.machine
      match report.fault? with
      | none => finish (.success closing)
      | some fault => finish (.failure closing (.faulted fault))

end StackMachine.Main

def main (arguments : List String) : IO UInt32 := do
  match StackMachine.Request.ofArguments arguments with
  | .version => StackMachine.Main.finish .version
  | .help => StackMachine.Main.finish .help
  | .refused => StackMachine.Main.finish .refused
  | .interpret settings => StackMachine.Main.interpret settings
