import ClientScript.Files.Path

/-!
Access to files, and how it fails.
-/

namespace ClientScript

inductive FileAction where
  | open
  | read
  | write
  | makeDir
deriving DecidableEq, Repr

namespace FileAction

def name : FileAction → String
  | .open => "open"
  | .read => "read"
  | .write => "write"
  | .makeDir => "mkdir"

end FileAction

inductive FileFault where
  | missing
  | isDirectory
  | notDirectory
  | exists
  | nameTooLong
  | invalidName
  | other (text : String)
deriving DecidableEq, Repr

namespace FileFault

def message : FileFault → String
  | .missing => "no such file or directory"
  | .isDirectory => "is a directory"
  | .notDirectory => "not a directory"
  | .exists => "file exists"
  | .nameTooLong => "file name too long"
  | .invalidName => "invalid argument"
  | .other text => text

end FileFault

structure FileError where
  action : FileAction
  path : String
  fault : FileFault
deriving DecidableEq, Repr

namespace FileError

def message (error : FileError) : String :=
  error.action.name ++ " " ++ error.path ++ ": " ++ error.fault.message

end FileError

structure DirEntry where
  name : String
  isDir : Bool
deriving DecidableEq, Repr

structure Files (m : Type → Type) where
  read : String → m (Except FileError (List UInt8))
  list : String → m (Except FileError (List DirEntry))
  /-- Makes a directory and those above it, where they are missing. -/
  makeDirs : String → m (Except FileError Unit)
  /-- Makes a file, or replaces what it holds. -/
  write : String → List UInt8 → m (Except FileError Unit)
  /-- Makes a file, or adds to its end. -/
  append : String → List UInt8 → m (Except FileError Unit)

end ClientScript
