import ClientScript.Batch.Pool
import ClientScript.CommandLine.Host
import ClientScript.Text.Columns

/-!
The command that works through the scripts of a directory.
-/

namespace ClientScript

namespace Duration

/-- The nearest whole number of microseconds. A half goes away from zero. -/
def roundToMicroseconds (duration : Duration) : Duration :=
  let size := (duration.nanoseconds.natAbs + 500) / 1000 * 1000
  ⟨if duration.nanoseconds < 0 then -(size : Int) else size⟩

end Duration

namespace Row

/-- Rows for cells and a text after them. Tabs of the text end cells, and its line breaks end rows. -/
def ofText (cells : List String) (text : String) : List Row :=
  let text := text.map fun char => if char = '\x0b' then '\t' else if char = '\x0c' then '\n' else char
  match (text.splitOn "\n").map fun line => line.splitOn "\t" with
  | [] => []
  | first :: rest => (⟨cells ++ first.dropLast, first.getLastD ""⟩ : Row) :: rest.map fun parts =>
    ⟨parts.dropLast, parts.getLastD ""⟩

end Row

namespace Result

def rows (result : Result) : List Row :=
  let time := result.took.roundToMicroseconds.text
  match result.outcome with
  | .done found cached =>
    let graph := found.graph
    [⟨[toString result.id.toInt, toString graph.program.insts.length, toString graph.blocks.length,
      toString graph.unreachable.length, toString graph.program.opaqueOffsets.length, time],
      if cached then "ok (cached)" else "ok"⟩]
  | _ => Row.ofText [toString result.id.toInt, "-", "-", "-", "-", time] (result.message?.getD "")

def table (results : List Result) : String :=
  unlines (Columns.lines
    (⟨["ID", "INSTRUCTIONS", "BLOCKS", "UNREACHABLE", "OPAQUE", "TIME"], "STATUS"⟩ :: results.flatMap rows))

end Result

namespace BatchSettings

def withFlags (args : Arguments) (settings : BatchSettings) : BatchSettings :=
  { settings with
    dir := args.operands.headD settings.dir
    ext := if args.text "ext" = "" then settings.ext else args.text "ext"
    workers := (args.int? "workers").getD settings.workers
    timeout := (args.duration? "timeout").getD settings.timeout }

end BatchSettings

namespace Command

def batchFlags : List Flag :=
  commonFlags ++ [⟨["ext"], .text⟩, ⟨["workers", "w"], .int⟩, ⟨["timeout", "t"], .duration⟩] ++ decoderFlags

variable {m : Type → Type} [Monad m]

def dirSource (host : Host m) (dir ext : String) : Source m where
  load id := return .ofExcept (← host.files.loadScript dir ext id)
  now := host.now

def batch (host : Host m) (args : Arguments) : Command m Unit := do
  let settings ← settings host args
  let settings := { settings with batch := settings.batch.withFlags args }
  let dir := settings.batch.dir
  if dir = "" then throw .noDirectory
  let logger ← openLog host args settings.logger
  let ids := scriptIds settings.batch.ext (← file .listDir (host.files.list dir))
  let (pool, state) ← take .settings (Pool.new .standard settings)
  let (results, state) ← (pool.run (dirSource host dir settings.batch.ext) ids).run state
  log host logger (state.events.reverse.filterMap Event.record?)
  if state.canceled then throw (.interrupted .canceled)
  host.out (Result.table results)
  let failed := results.countP fun result => result.outcome.isFailure
  if 0 < failed then throw (.scriptsFailed failed results.length)

end Command

end ClientScript
