import ClientScript.Flow.Program
import Std.Data.TreeSet.Basic

/-!
Resolving control flow: displacements become offsets of instructions and case groups become labels.
-/

namespace ClientScript

/-- A branch that does not lead to an instruction. The target is the number of an instruction or a
byte offset, as the addressing says. -/
structure TargetError where
  offset : Int
  op : Opcode
  target : Int
  addressing : Addressing
deriving DecidableEq, Repr

namespace TargetError

def message (error : TargetError) : String :=
  error.op.name ++ " at " ++ toString error.offset ++ ": invalid target " ++ toString error.target ++
    " (by " ++ error.addressing.name ++ ")"

end TargetError

inductive GroupFault where
  | noLabels
  | joined (count : Nat)
  | badCombinator (code : Int16)
deriving DecidableEq, Repr

namespace GroupFault

def message : GroupFault → String
  | .noLabels => "no labels"
  | .joined count => toString count ++ " labels joined by " ++ Combinator.and.name
  | .badCombinator code => "bad combinator " ++ toString code.toInt

end GroupFault

inductive ExpandFault where
  | noTable
  | group (number : Nat) (fault : GroupFault)
  | badRange (low high : Int32)
  | duplicate (label : Int32)
deriving DecidableEq, Repr

namespace ExpandFault

def message : ExpandFault → String
  | .noTable => "no table"
  | .group number fault => "group " ++ toString number ++ ": " ++ fault.message
  | .badRange low high => "bad range " ++ toString low.toInt ++ ".." ++ toString high.toInt
  | .duplicate label => "duplicate label " ++ toString label.toInt

end ExpandFault

inductive FlowError where
  | target (error : TargetError)
  | badSwitch (offset : Int) (op : Opcode) (fault : ExpandFault)
deriving DecidableEq, Repr

namespace FlowError

def message : FlowError → String
  | .target error => error.message
  | .badSwitch offset op fault =>
    op.name ++ " at " ++ toString offset ++ ": malformed switch table: " ++ fault.message

end FlowError

def defaultMaxSwitchRange : Int := 4096

structure FlowOptions where
  addressing : Addressing := .byIndex
  /-- The largest number of labels of a range; the default one if this is not positive. -/
  maxSwitchRange : Int := 0
deriving DecidableEq, Repr

namespace FlowOptions

def switchRange (options : FlowOptions) : Int :=
  if 0 < options.maxSwitchRange then options.maxSwitchRange else defaultMaxSwitchRange

end FlowOptions

structure LabelRange where
  low : Int32
  high : Int32
deriving DecidableEq, Repr

namespace LabelRange

def isValid (range : LabelRange) (most : Int) : Bool :=
  range.low ≤ range.high && range.high.toInt - range.low.toInt < most

def labels (range : LabelRange) : List Int32 :=
  (List.range (range.high.toInt - range.low.toInt + 1).toNat).map fun step : Nat =>
    Int32.ofInt (range.low.toInt + step)

end LabelRange

namespace CaseGroup

/-- The range of labels joined by `and`: one label, or a low and a high one. -/
def closeRun : List Int32 → Except GroupFault LabelRange
  | [label] => .ok ⟨label, label⟩
  | [low, high] => .ok ⟨low, high⟩
  | run => .error (.joined run.length)

/-- The alternatives of a group from the labels of the one at hand on. -/
def alternativesFrom (run : List Int32) : List Term → Except GroupFault (List LabelRange)
  | [] => (closeRun run).map ([·])
  | term :: rest =>
    if term.join = .or then
      match closeRun run with
      | .error fault => .error fault
      | .ok range => (alternativesFrom [term.label] rest).map (range :: ·)
    else if term.join = .and then alternativesFrom (run ++ [term.label]) rest
    else .error (.badCombinator term.join.code)

def alternatives (group : CaseGroup) : Except GroupFault (List LabelRange) :=
  match group.terms with
  | [] => .error .noLabels
  | first :: more => alternativesFrom [first.label] more

end CaseGroup

/-- The cases of a switch so far, the latest first, and their labels. -/
structure Expansion where
  cases : List CaseTarget := []
  labels : Std.TreeSet Int32 := ∅

namespace Expansion

def add (target : Int) (expansion : Expansion) (label : Int32) : Except ExpandFault Expansion :=
  if expansion.labels.contains label then .error (.duplicate label)
  else .ok ⟨⟨label, target⟩ :: expansion.cases, expansion.labels.insert label⟩

def addRange (most target : Int) (expansion : Expansion) (range : LabelRange) :
    Except ExpandFault Expansion :=
  if range.isValid most then range.labels.foldlM (add target) expansion
  else .error (.badRange range.low range.high)

def addGroup (most target : Int) (expansion : Expansion) (number : Nat) (group : CaseGroup) :
    Except ExpandFault Expansion :=
  match group.alternatives with
  | .error fault => .error (.group number fault)
  | .ok ranges => ranges.foldlM (addRange most target) expansion

end Expansion

structure Resolver where
  options : FlowOptions
  insts : List Instruction

namespace Resolver

/-- Where control goes after an instruction. Nothing may fall off the end. -/
def nextTarget (resolver : Resolver) (inst : Instruction) : Except TargetError Int :=
  match resolver.insts[inst.index + 1]? with
  | some next => .ok next.offset
  | none =>
    let target := if resolver.options.addressing = .byIndex then (inst.index + 1 : Int) else inst.next
    .error ⟨inst.offset, inst.op, target, resolver.options.addressing⟩

def jumpTarget (resolver : Resolver) (inst : Instruction) (disp : Int32) : Except TargetError Int :=
  if resolver.options.addressing = .byIndex then
    let target := inst.index + disp.toInt + 1
    match if target < 0 then none else resolver.insts[target.toNat]? with
    | some found => .ok found.offset
    | none => .error ⟨inst.offset, inst.op, target, .byIndex⟩
  else
    let target := inst.offset + disp.toInt
    match lastAt target 0 none resolver.insts with
    | some _ => .ok target
    | none => .error ⟨inst.offset, inst.op, target, .byOffset⟩

/-- Adds the groups of a switch, counted from `number` on. -/
def expandGroups (resolver : Resolver) (inst : Instruction) (number : Nat) (expansion : Expansion) :
    List CaseGroup → Except FlowError Expansion
  | [] => .ok expansion
  | group :: rest =>
    match resolver.jumpTarget inst group.disp with
    | .error error => .error (.target error)
    | .ok target =>
      match expansion.addGroup resolver.options.switchRange target number group with
      | .error fault => .error (.badSwitch inst.offset inst.op fault)
      | .ok expansion => resolver.expandGroups inst (number + 1) expansion rest

def expand (resolver : Resolver) (inst : Instruction) : Except FlowError SwitchTable :=
  match inst.operand.switch? with
  | none => .error (.badSwitch inst.offset inst.op .noTable)
  | some operand =>
    match resolver.nextTarget inst with
    | .error error => .error (.target error)
    | .ok otherwise =>
      match resolver.expandGroups inst 0 {} operand.groups with
      | .error error => .error error
      | .ok expansion => .ok ⟨expansion.cases.reverse, otherwise⟩

/-- One edge for every target of a case, in the order of the cases, then the one without a case. -/
def switchEdges (table : SwitchTable) : List Edge :=
  (table.cases.map CaseTarget.target).eraseDups.map (Edge.mk .choice) ++ [⟨.otherwise, table.otherwise⟩]

def resolveInst (resolver : Resolver) (inst : Instruction) :
    Except FlowError (List Edge × Option SwitchTable) :=
  match inst.desc.flow with
  | .ret => .ok ([], none)
  | .branch =>
    match resolver.jumpTarget inst inst.operand.toInt with
    | .error error => .error (.target error)
    | .ok target => .ok ([⟨.jump, target⟩], none)
  | .condBranch =>
    match resolver.jumpTarget inst inst.operand.toInt, resolver.nextTarget inst with
    | .error error, _ => .error (.target error)
    | .ok _, .error error => .error (.target error)
    | .ok target, .ok next => .ok ([⟨.jump, target⟩, ⟨.fallThrough, next⟩], none)
  | .switch =>
    match resolver.expand inst with
    | .error error => .error error
    | .ok table => .ok (switchEdges table, some table)
  | .sequential | .call =>
    match resolver.nextTarget inst with
    | .error error => .error (.target error)
    | .ok next => .ok ([⟨.fallThrough, next⟩], none)

end Resolver

def callSites (insts : List Instruction) : List Call :=
  (insts.filter fun inst => inst.desc.flow = .call).map fun inst => ⟨inst.offset, inst.operand.toInt⟩

def resolve (options : FlowOptions) (insts : List Instruction) : Except FlowError Program :=
  match insts.mapM (Resolver.resolveInst ⟨options, insts⟩) with
  | .error error => .error error
  | .ok parts =>
    .ok {
      insts := insts
      edges := parts.map (·.1)
      switches := parts.zipIdx.filterMap fun part => part.1.2.map fun table => (part.2, table)
      calls := callSites insts }

end ClientScript
