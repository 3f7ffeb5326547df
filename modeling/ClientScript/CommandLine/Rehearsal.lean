import ClientScript.CommandLine
import ClientScript.Files.Tree

/-!
Running a command line on files in memory, with nothing else to act on.
-/

namespace ClientScript

/-- The files, and what was printed to either stream. The clock stands still. -/
structure Rehearsal where
  files : FileTree := .empty
  out : String := ""
  err : String := ""

namespace Rehearsal

instance : MonadStateOf FileTree (StateM Rehearsal) where
  get := return (← getThe Rehearsal).files
  set files := modifyThe Rehearsal fun state => { state with files }
  modifyGet change := modifyGetThe Rehearsal fun state =>
    let (value, files) := change state.files
    (value, { state with files })

def host : Host (StateM Rehearsal) where
  files := FileTree.files
  now := return 0
  time := return "0"
  out text := modifyThe Rehearsal fun state => { state with out := state.out ++ text }
  err text := modifyThe Rehearsal fun state => { state with err := state.err ++ text }

end Rehearsal

def rehearse (files : FileTree) (words : List String) : Exit × Rehearsal :=
  (Rehearsal.host.run words).run { files }

end ClientScript
