import StackMachine.Machine.State

/-!
Command lines. Arguments are read from left to right, and the first that cannot be accepted
refuses the command line, whatever stands after it.
-/

set_option autoImplicit false

namespace StackMachine

structure Settings where
  file : String
  segments : UInt8
  debug : Bool
deriving DecidableEq

inductive Request
  | interpret (settings : Settings)
  | version
  | help
  | refused
deriving DecidableEq

namespace Request

/-- What the arguments read so far have settled. Each thing may be settled once. -/
structure Draft where
  file? : Option String
  segments? : Option UInt8
  debug : Bool
deriving DecidableEq

namespace Draft

def empty : Draft := ⟨none, none, false⟩

def withFile? (draft : Draft) (file : String) : Option Draft :=
  if file = "" ∨ draft.file?.isSome then none else some { draft with file? := some file }

def withDebug? (draft : Draft) : Option Draft :=
  if draft.debug then none else some { draft with debug := true }

/-- A count of segments is a decimal number of one byte, which may have a sign. -/
def segmentCount? (text : List Char) : Option UInt8 :=
  (Numeral.decimal? text).bind fun n => if 0 ≤ n ∧ n ≤ 255 then some n.toInt.toNat.toUInt8 else none

def withSegments? (draft : Draft) (text : List Char) : Option Draft :=
  if draft.segments?.isSome then none
  else (segmentCount? text).map fun segments => { draft with segments? := some segments }

/-- A file must have been named by the end. -/
def finish (draft : Draft) : Request :=
  match draft.file? with
  | some file =>
    .interpret ⟨file, draft.segments?.getD Machine.defaultSegments, draft.debug⟩
  | none => .refused

def readFiles (draft : Draft) : List String → Request
  | [] => draft.finish
  | file :: rest =>
    match draft.withFile? file with
    | some draft => draft.readFiles rest
    | none => .refused

/-- A lone hyphen is a file, and a longer argument that starts with one an option. -/
def isOption (argument : String) : Bool :=
  argument.toList.head? == some '-' && argument.length ≠ 1

def read (draft : Draft) : List String → Request
  | [] => draft.finish
  | argument :: rest =>
    match argument.toList with
    | ['-', '-'] => draft.readFiles rest
    | ['-', '-', 'd', 'e', 'b', 'u', 'g'] =>
      match draft.withDebug? with
      | some draft => draft.read rest
      | none => .refused
    | ['-', '-', 'm', 'e', 'm'] =>
      match rest with
      | [] => .refused
      | value :: rest =>
        if isOption value then .refused
        else match draft.withSegments? value.toList with
          | some draft => draft.read rest
          | none => .refused
    | '-' :: '-' :: 'm' :: 'e' :: 'm' :: '=' :: value =>
      match draft.withSegments? value with
      | some draft => draft.read rest
      | none => .refused
    | ['-', '-', 'v', 'e', 'r', 's', 'i', 'o', 'n'] => .version
    | ['-', '-', 'h', 'e', 'l', 'p'] => .help
    | '-' :: 'V' :: _ => .version
    | '-' :: 'h' :: _ => .help
    | _ =>
      if isOption argument then .refused
      else match draft.withFile? argument with
        | some draft => draft.read rest
        | none => .refused

end Draft

def ofArguments (arguments : List String) : Request :=
  Draft.empty.read arguments

end Request

end StackMachine
