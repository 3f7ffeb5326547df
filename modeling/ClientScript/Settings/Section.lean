import ClientScript.Text.Duration
import ClientScript.Yaml.Value

/-!
Reading the values and sections of settings from the nodes of a document. What is null leaves a setting as it is.
-/

namespace ClientScript.Yaml.Node

/-- Reads a scalar in place of a value that a null scalar leaves as it is. -/
def scalarOr {α : Type} (old : α) (read : Value → String → Option α) (node : Node) : Option α := do
  match ← node.target? with
  | .scalar tag quoted text =>
    match ← Value.ofScalar? tag quoted text with
    | .null => some old
    | value => read value text
  | _ => none

/-- The text of a scalar. One that stands for no text is taken as it is written. -/
def content (value : Value) (text : String) : String :=
  match value with
  | .text content => content
  | _ => text

def stringOr (old : String) : Node → Option String :=
  scalarOr old fun value text => some (content value text)

def intOr (old : Int) : Node → Option Int :=
  scalarOr old fun value _ =>
    match value with
    | .whole number => number
    | .fraction number => number
    | _ => none

/-- Besides the truth values, words of an earlier version of the format are read, in quotes or without. -/
def boolOr (old : Bool) : Node → Option Bool :=
  scalarOr old fun value _ =>
    match value with
    | .bool value => some value
    | .text text =>
      if ["y", "Y", "yes", "Yes", "YES", "on", "On", "ON"].contains text then some true
      else if ["n", "N", "no", "No", "NO", "off", "Off", "OFF"].contains text then some false
      else none
    | _ => none

def durationOr (old : Duration) : Node → Option Duration :=
  scalarOr old fun value _ =>
    match value with
    | .text text => Duration.parse? text
    | _ => none

/-- What two keys of a mapping have to differ in: their kind, and the text of a scalar or the name of an alias. -/
def label : Node → Nat × String
  | .scalar _ _ text => (0, text)
  | .sequence _ => (1, "")
  | .mapping _ => (2, "")
  | .alias name _ => (3, name)

/-- Whether the value of this key is a mapping to take further entries from. -/
def isMerge : Node → Bool
  | .scalar tag quoted text =>
    text = "<<" && (tag = some "!!merge" || (!quoted && (tag = none || tag = some "!")))
  | _ => false

def keyText? (node : Node) : Option (Option String) :=
  node.scalarOr none fun value text => some (some (content value text))

/-- A part of the settings as it is read, and the keys that were given. A mapping that is merged adds to them. -/
structure Part (α : Type) where
  value : α
  given : List String := []
  merging : Bool := false

variable {α : Type}

/-- Sets an entry. One that is merged is passed over if its key was given. -/
def setEntry (set : α → String → Node → Option α) (part : Part α) (entry : Node × Node) : Option (Part α) := do
  if entry.1.isMerge then return part
  else
    match ← entry.1.keyText? with
    | none => return part
    | some key =>
      if !part.given.contains key then
        return { part with value := ← set part.value key entry.2, given := key :: part.given }
      else if part.merging then return part
      else none

def setEntries (set : α → String → Node → Option α) (entries : List (Node × Node)) (part : Part α) :
    Option (Part α) :=
  if (entries.map (·.1.label)).Nodup then entries.foldlM (setEntry set) part else none

mutual

def merge (set : α → String → Node → Option α) (part : Part α) : Node → Option (Part α)
  | .mapping entries => do mergeMore set (← setEntries set entries part) entries
  | .alias _ (some target) => target.merge set part
  | _ => none

def mergeMore (set : α → String → Node → Option α) (part : Part α) : List (Node × Node) → Option (Part α)
  | [] => some part
  | (key, value) :: rest =>
    if key.isMerge then
      let part := { part with merging := true }
      match value with
      | .sequence items => mergeAll set part items
      | value => value.merge set part
    else mergeMore set part rest

def mergeAll (set : α → String → Node → Option α) (part : Part α) : List Node → Option (Part α)
  | [] => some part
  | node :: rest => do mergeAll set (← node.merge set part) rest

end

def sectionOr (old : α) (set : α → String → Node → Option α) (node : Node) : Option α := do
  match ← node.target? with
  | .mapping entries => return (← merge set { value := old } (.mapping entries)).value
  | node => node.scalarOr old fun _ _ => none

end ClientScript.Yaml.Node
