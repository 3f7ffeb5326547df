import ClientScript.CommandLine
import Std.Time.Format

/-!
The command line on the files and streams of the system.
-/

namespace ClientScript.Main

/-- Two of the codes that the system gives to failures. -/
def notDirectoryCode : UInt32 := 20

def isDirectoryCode : UInt32 := 21

def fault : IO.Error → FileFault
  | .noFileOrDirectory _ _ _ => .missing
  | .inappropriateType _ code details =>
    if code = isDirectoryCode then .isDirectory
    else if code = notDirectoryCode then .notDirectory
    else .other details
  | error => .other (toString error)

def guarded {α : Type} (action : FileAction) (path : String) (run : IO α) : IO (Except FileError α) := do
  try return .ok (← run)
  catch error => return .error ⟨action, path, fault error⟩

def readFile (path : String) : IO (Except FileError (List UInt8)) := do
  match ← guarded .open path (IO.FS.readBinFile path) with
  | .ok bytes => return .ok bytes.toList
  | .error error => return .error (if error.fault = .isDirectory then { error with action := .read } else error)

def listDir (path : String) : IO (Except FileError (List DirEntry)) :=
  guarded .open path do
    let entries ← ((← IO.currentDir) / path).readDir
    entries.toList.mapM fun entry => return ⟨entry.fileName, ← entry.path.isDir⟩

def files : Files IO where
  read := readFile
  list := listDir
  makeDirs path := guarded .makeDir path (IO.FS.createDirAll path)
  write path bytes := guarded .open path (IO.FS.writeBinFile path ⟨bytes.toArray⟩)
  append path bytes := guarded .open path do
    let handle ← IO.FS.Handle.mk path .append
    handle.write ⟨bytes.toArray⟩

def host : Host IO where
  files := files
  now := IO.monoNanosNow
  time := return (← Std.Time.DateTime.now).format "uuuu-MM-dd'T'HH:mm:ss.SSSZ"
  out := IO.print
  err := IO.eprint

end ClientScript.Main

def main (words : List String) : IO UInt32 := do
  let exit ← ClientScript.Main.host.run words
  IO.eprint exit.message
  return exit.code.toUInt32
