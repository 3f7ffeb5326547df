import ClientScript.Yaml.Token

/-!
The nodes of a document: scalars, sequences, mappings, and names that stand for nodes further up.
-/

namespace ClientScript.Yaml

inductive Node where
  | scalar (tag : Option String) (quoted : Bool) (text : String)
  | sequence (items : List Node)
  | mapping (entries : List (Node × Node))
  /-- Stands for the node of that name, or for one that it is itself a part of. -/
  | alias (name : String) (target : Option Node)
deriving Inhabited, Repr

namespace Node

def null : Node := .scalar none false ""

def target? : Node → Option Node
  | .alias _ none => none
  | .alias _ (some node) => node.target?
  | node => some node

end Node

/-- The state of a builder of nodes: the nodes that have names, in order, and the short forms of tags. A node that
is not complete has its name already. -/
structure Builder where
  scanner : Scanner
  named : List (String × Option Node) := []
  handles : List (String × String) := []

abbrev Build := StateT Builder Option

namespace Build

def scan {α : Type} (action : Scan α) : Build α := fun builder =>
  (action.run builder.scanner).map fun (value, scanner) => (value, { builder with scanner })

def peek : Build Token := scan Scan.peek

def drop : Build Unit := scan Scan.drop

def take? (token : Token) : Build Bool := do
  if (← peek) = token then
    drop
    return true
  else return false

def ensure (condition : Bool) : Build Unit := scan (Scan.ensure condition)

def named (name : Option String) (build : Build Node) : Build Node := do
  match name with
  | none => build
  | some name =>
    let count := (← get).named.length
    modify fun builder => { builder with named := builder.named ++ [(name, none)] }
    let node ← build
    modify fun builder => { builder with named := builder.named.set count (name, some node) }
    return node

def aliasOf (name : String) : Build Node := do
  match (← get).named.reverse.lookup name with
  | none => failure
  | some target => return .alias name target

def standardTags : String := "tag:yaml.org,2002:"

def standardHandles : List (String × String) := [("!", "!"), ("!!", standardTags)]

/-- The full name of a tag, with two exclamation marks for the standard ones. -/
def tagName (handle suffix : String) : Build String := do
  let name ←
    if handle = "" then pure suffix
    else
      match (← get).handles.lookup handle with
      | some long => pure (long ++ suffix)
      | none => failure
  if name.startsWith standardTags then return "!!" ++ (name.drop standardTags.length).toString
  else return name

def properties : Build (Option String × Option String) := do
  match ← peek with
  | .anchor name =>
    drop
    match ← peek with
    | .tag handle suffix =>
      drop
      return (some name, some (← tagName handle suffix))
    | _ => return (some name, none)
  | .tag handle suffix =>
    drop
    let tag ← tagName handle suffix
    match ← peek with
    | .anchor name =>
      drop
      return (some name, some tag)
    | _ => return (none, some tag)
  | _ => return (none, none)

def endsEntry (token : Token) : Bool := [Token.key, .value, .blockEnd].contains token

mutual

/-- Builds the node that starts here. Only in a block may it be a block. A sequence that is a value needs no
indentation. -/
def node : Nat → (inBlock bare : Bool) → Build Node
  | 0, _, _ => failure
  | fuel + 1, inBlock, bare => do
    match ← peek with
    | .alias name =>
      drop
      aliasOf name
    | _ =>
      let (name, tag) ← properties
      let token ← peek
      if bare && token = .entry then named name (.sequence <$> bareItems fuel)
      else
        match token with
        | .scalar quoted text =>
          drop
          named name (return .scalar tag quoted text)
        | .openSequence =>
          drop
          named name (.sequence <$> flowItems fuel true)
        | .openMapping =>
          drop
          named name (.mapping <$> flowEntries fuel true)
        | _ =>
          if inBlock && token = .sequenceStart then
            drop
            named name (.sequence <$> blockItems fuel)
          else if inBlock && token = .mappingStart then
            drop
            named name (.mapping <$> blockEntries fuel)
          else
            ensure (name.isSome || tag.isSome)
            named name (return .scalar tag false "")

def blockItems : Nat → Build (List Node)
  | 0 => failure
  | fuel + 1 => do
    if ← take? .entry then
      let token ← peek
      let item ← if token = .entry || token = .blockEnd then pure .null else node fuel true false
      return item :: (← blockItems fuel)
    else
      ensure (← take? .blockEnd)
      return []

/-- Builds the items of a sequence that is not indented further than its key. -/
def bareItems : Nat → Build (List Node)
  | 0 => failure
  | fuel + 1 => do
    if ← take? .entry then
      let token ← peek
      let item ← if token = .entry || endsEntry token then pure .null else node fuel true false
      return item :: (← bareItems fuel)
    else return []

def blockEntries : Nat → Build (List (Node × Node))
  | 0 => failure
  | fuel + 1 => do
    if ← take? .key then
      let key ← if endsEntry (← peek) then pure .null else node fuel true true
      let value ← blockValue fuel
      return (key, value) :: (← blockEntries fuel)
    else
      ensure (← take? .blockEnd)
      return []

def blockValue : Nat → Build Node
  | 0 => failure
  | fuel + 1 => do
    if ← take? .value then
      if endsEntry (← peek) then return .null else node fuel true true
    else return .null

def flowItems : Nat → Bool → Build (List Node)
  | 0, _ => failure
  | fuel + 1, first => do
    if ← take? .closeSequence then return []
    else
      if !first then ensure (← take? .comma)
      if ← take? .closeSequence then return []
      else
        let item ← if ← take? .key then flowPair fuel else node fuel false false
        return item :: (← flowItems fuel false)

def flowPair : Nat → Build Node
  | 0 => failure
  | fuel + 1 => do
    let token ← peek
    let isLeftOut (token : Token) : Bool := token = .comma || token = .closeSequence
    let key ←
      if token = .value || isLeftOut token then
        drop
        pure .null
      else node fuel false false
    let value ←
      if ← take? .value then
        if isLeftOut (← peek) then pure .null else node fuel false false
      else pure .null
    return .mapping [(key, value)]

def flowEntries : Nat → Bool → Build (List (Node × Node))
  | 0, _ => failure
  | fuel + 1, first => do
    if ← take? .closeMapping then return []
    else
      if !first then ensure (← take? .comma)
      if ← take? .closeMapping then return []
      else
        let entry ← flowEntry fuel
        return entry :: (← flowEntries fuel false)

/-- Builds an entry in brackets. A value may be left out, and so may a key that is announced. -/
def flowEntry : Nat → Build (Node × Node)
  | 0 => failure
  | fuel + 1 => do
    let isLeftOut (token : Token) : Bool := token = .comma || token = .closeMapping
    if ← take? .key then
      let token ← peek
      let key ← if token = .value || isLeftOut token then pure .null else node fuel false false
      let value ←
        if ← take? .value then
          if isLeftOut (← peek) then pure .null else node fuel false false
        else pure .null
      return (key, value)
    else return (← node fuel false false, .null)

end

/-! Documents. -/

/-- Reads the directives in front of a document: at most one version, and each short form once. -/
def directives : Nat → Bool → Build Unit
  | 0, _ => failure
  | fuel + 1, versioned => do
    match ← peek with
    | .version major minor =>
      ensure (!versioned && major = 1 && minor = 1)
      drop
      directives fuel true
    | .handle short long =>
      ensure ((← get).handles.lookup short).isNone
      modify fun builder => { builder with handles := builder.handles ++ [(short, long)] }
      drop
      directives fuel versioned
    | _ => return ()

def isOutside : Token → Bool
  | .version _ _ | .handle _ _ | .documentStart | .documentEnd | .streamEnd => true
  | _ => false

/-- Builds the first document. It is empty only after its mark. No document at all is null. -/
def document (size : Nat) : Build Node := do
  ensure (← take? .streamStart)
  let token ← peek
  if token = .streamEnd then return .null
  else
    let node ←
      if isOutside token && token ≠ .documentEnd then
        directives size false
        modify fun builder => { builder with handles := builder.handles ++ standardHandles }
        ensure (← take? .documentStart)
        if isOutside (← peek) then pure .null else node size true false
      else
        modify fun builder => { builder with handles := standardHandles }
        node size true false
    let _ ← peek
    return node

end Build

namespace Node

def ofText? (text : Text) : Option Node :=
  let size := 8 * text.chars.length + 64
  ((Build.document size).run { scanner := .ofText text }).map (·.1)

def ofBytes? (bytes : List UInt8) : Option Node := ofText? (.ofBytes bytes)

end Node

end ClientScript.Yaml
