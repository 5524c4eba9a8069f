/-!
Reading a program file, and a working directory that holds plain files only.
-/

set_option autoImplicit false

namespace StackMachine

inductive ReadError
  | missing
  | directory
  | notDirectory
  | nameTooLong
  | notText
  | other (reason : String)
deriving DecidableEq

namespace ReadError

def message : ReadError → String
  | missing => "No such file or directory (os error 2)"
  | directory => "Is a directory (os error 21)"
  | notDirectory => "Not a directory (os error 20)"
  | nameTooLong => "File name too long (os error 36)"
  | notText => "stream did not contain valid UTF-8"
  | other reason => reason

end ReadError

/-- The files of a directory by name. It has no directories in it. -/
structure Folder where
  files : List (String × List UInt8)
deriving DecidableEq

/-- Where a path leads. Nothing is known to exist outside of the folder but the directories above
it. -/
inductive Place
  | folder
  | outside
  | file (contents : List UInt8)
deriving DecidableEq

namespace Folder

def longestName : Nat :=
  255

def longestPath : Nat :=
  4095

def find (folder : Folder) (place : Place) (name : String) : Except ReadError Place :=
  match place, folder.files.lookup name with
  | .folder, some contents => .ok (.file contents)
  | _, _ => .error .missing

/-- One name of a path. An empty one and a single dot stay in a directory, but not on a file. -/
def enter (folder : Folder) (place : Place) (name : String) : Except ReadError Place :=
  match place with
  | .file _ => .error .notDirectory
  | .folder | .outside =>
    if name = "" ∨ name = "." then .ok place
    else if name = ".." then .ok .outside
    else if longestName < name.utf8ByteSize then .error .nameTooLong
    else folder.find place name

/-- A path is followed name by name, and the first name that leads nowhere is the error. -/
def follow (folder : Folder) (path : String) : Except ReadError Place :=
  if longestPath < path.utf8ByteSize then .error .nameTooLong
  else
    (path.splitOn "/").foldlM folder.enter
      (if path.toList.head? = some '/' then .outside else .folder)

def read (folder : Folder) (path : String) : Except ReadError (List UInt8) :=
  match folder.follow path with
  | .error error => .error error
  | .ok (.file contents) => .ok contents
  | .ok .folder | .ok .outside => .error .directory

end Folder

end StackMachine
