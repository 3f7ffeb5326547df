import ClientScript.Files

/-!
Files in memory. A path is walked name by name from the working directory or from the root of the system, so what
it leads through has to exist, even if it leaves it again.
-/

namespace ClientScript

inductive FileTree where
  | file (bytes : List UInt8)
  | dir (entries : List (String × FileTree))
deriving Inhabited, Repr

namespace FileTree

def empty : FileTree := .dir []

def isDir : FileTree → Bool
  | .file _ => false
  | .dir _ => true

/-- The names of what lies outside: the directory above the working directory, and the root of the system. -/
def above : String := ".."

def root : String := "/"

/-- The little that is known of the system. -/
def system : FileTree := .dir [("dev", .dir [("null", .file [])]), ("tmp", empty)]

def child? (name : String) (entries : List (String × FileTree)) : Option FileTree :=
  match entries.lookup name with
  | some tree => some tree
  | none => if name = above then some empty else if name = root then some system else none

def setEntry (name : String) (tree : FileTree) (entries : List (String × FileTree)) : List (String × FileTree) :=
  entries.filter (fun entry => entry.1 ≠ name) ++ [(name, tree)]

def get? : List String → FileTree → Option FileTree
  | [], tree => some tree
  | _ :: _, .file _ => none
  | name :: rest, .dir entries => (child? name entries).bind (get? rest)

/-- The bytes that a name and a path may have at most. -/
def longestName : Nat := 255

def longestPath : Nat := 4095

/-- Walks by the parts of a path, after names that are the latest first. Gives the names from the start. -/
def walk (start : List String) (tree : FileTree) : List String → List String → Except FileFault (List String)
  | done, [] => .ok (start ++ done.reverse)
  | done, part :: rest =>
    match get? (start ++ done.reverse) tree with
    | none => .error .missing
    | some (.file _) => .error .notDirectory
    | some (.dir _) =>
      if longestName < part.utf8ByteSize then .error .nameTooLong
      else walk start tree (Path.step (!start.isEmpty) done part) rest

def start (path : String) : List String := if Path.isRooted path then [root] else []

/-- The names that a path leads to. All but the last exist. -/
def names (path : String) (tree : FileTree) : Except FileFault (List String) :=
  if path = "" then .error .missing
  else if path.contains '\x00' then .error .invalidName
  else if longestPath < path.utf8ByteSize then .error .nameTooLong
  else walk (start path) tree [] (Path.parts path)

def find (path : String) (tree : FileTree) : Except FileFault FileTree := do
  match get? (← tree.names path) tree with
  | none => throw .missing
  | some found => return found

/-- Changes what a file holds. A missing file holds nothing. -/
def change (edit : List UInt8 → List UInt8) : List String → FileTree → Except FileFault FileTree
  | [], .file bytes => .ok (.file (edit bytes))
  | [], .dir _ => .error .isDirectory
  | _ :: _, .file _ => .error .notDirectory
  | [name], .dir entries => do
    let tree ← change edit [] ((child? name entries).getD (.file []))
    return .dir (setEntry name tree entries)
  | name :: rest, .dir entries =>
    match child? name entries with
    | none => .error .missing
    | some tree => do return .dir (setEntry name (← change edit rest tree) entries)

/-- Makes directories. On failure gives the number of names up to what is in the way. -/
def makeDirs : List String → FileTree → Except (Nat × FileFault) FileTree
  | [], .file _ => .error (0, .notDirectory)
  | _ :: _, .file _ => .error (0, .exists)
  | [], .dir entries => .ok (.dir entries)
  | name :: rest, .dir entries => do
    if longestName < name.utf8ByteSize then throw (1, .nameTooLong)
    let tree ← (makeDirs rest ((child? name entries).getD empty)).mapError fun (count, fault) => (count + 1, fault)
    return .dir (setEntry name tree entries)

/-- Adds a directory and those above it. What is in the way stays. -/
def addDir (path : String) (tree : FileTree) : FileTree :=
  match makeDirs (start path ++ Path.names path) tree with
  | .ok made => made
  | .error _ => tree

def addFile (path : String) (bytes : List UInt8) (tree : FileTree) : FileTree :=
  let tree := addDir (Path.parent path) tree
  match change (fun _ => bytes) (start path ++ Path.names path) tree with
  | .ok changed => changed
  | .error _ => tree

def contents? (path : String) (tree : FileTree) : Option (List UInt8) :=
  match tree.find path with
  | .ok (.file bytes) => some bytes
  | _ => none

section Access

def read (path : String) (tree : FileTree) : Except FileError (List UInt8) :=
  match tree.find path with
  | .error fault => .error ⟨.open, path, fault⟩
  | .ok (.dir _) => .error ⟨.read, path, .isDirectory⟩
  | .ok (.file bytes) => .ok bytes

def list (path : String) (tree : FileTree) : Except FileError (List DirEntry) :=
  match tree.find path with
  | .error fault => .error ⟨.open, path, fault⟩
  | .ok (.file _) => .error ⟨.open, path, .notDirectory⟩
  | .ok (.dir entries) =>
    .ok ((entries.filter fun entry => entry.1 ≠ above && entry.1 ≠ root).map fun entry => ⟨entry.1, entry.2.isDir⟩)

/-- Changes a file. A path that ends with a slash cannot lead to one. -/
def edited (path : String) (edit : List UInt8 → List UInt8) (tree : FileTree) : Except FileError FileTree :=
  let result : Except FileFault FileTree := do
    if path.endsWith "/" then
      let place := Path.withoutEnd path
      let _ ← if place = "" then pure [] else tree.names place
      throw .isDirectory
    else change edit (← tree.names path) tree
  result.mapError (⟨.open, path, ·⟩)

/-- Makes the directory at a path that leads nowhere twice. -/
def withDirs (path : String) (tree : FileTree) : Except FileError FileTree :=
  let start := start path
  let names := Path.names path
  (makeDirs (start ++ names) tree).mapError fun (count, fault) =>
    let count := count - start.length
    let way := String.join start ++ String.intercalate "/" (names.take count)
    ⟨.makeDir, if count < names.length then way ++ "/" else way, fault⟩

variable {m : Type → Type} [Monad m] [MonadStateOf FileTree m]

def attempt (change : FileTree → Except FileError FileTree) : m (Except FileError Unit) := do
  match change (← getThe FileTree) with
  | .error error => return .error error
  | .ok tree =>
    set tree
    return .ok ()

def files : Files m where
  read path := return read path (← getThe FileTree)
  list path := return list path (← getThe FileTree)
  makeDirs path := attempt (withDirs path)
  write path bytes := attempt (edited path fun _ => bytes)
  append path bytes := attempt (edited path (· ++ bytes))

end Access

end FileTree

end ClientScript
