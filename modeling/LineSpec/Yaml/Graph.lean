import LineSpec.Assoc
import LineSpec.Yaml.Tag
import LineSpec.Yaml.Token.Scan
/-!
# The nodes of a YAML text

The nodes that the tokens of a text make up, each with its type: scalars, sequences and mappings. An
alias is the node that its anchor names, so that a node may occur at several places and even inside
itself. Nodes are therefore numbered, and a collection lists the numbers of its members. A text
holds one document at most, and collections stand inside each other at most `maxDepth` levels deep.
Of several faults in a text the first that reading comes upon counts.
-/

namespace LineSpec.Yaml

/-- What a node holds; members are given by their numbers. -/
inductive Content where
  | scalar (text : Text)
  | sequence (items : List Nat)
  | mapping (members : List (Nat × Nat))
  deriving DecidableEq, Repr, Inhabited

/-- A node of a text. -/
structure YamlNode where
  tag : Tag
  content : Content
  deriving DecidableEq, Repr

/-- The nodes of a text, by their numbers. -/
abbrev Graph := Array YamlNode

/-- The levels of collections that may stand inside each other. -/
def maxDepth : Nat := 484

/-- A reading of tokens on its way, `depth` levels of collections inside. -/
structure Assembly where
  scan : Scan
  handles : Assoc String String := [("!", "!"), ("!!", Tag.namespaceText)]
  anchors : Assoc String Nat := []
  nodes : Graph := #[]
  depth : Nat := 0

namespace Assembly

/-- A computation that takes tokens and makes nodes. -/
abbrev Step := StateT Assembly (Except Fault)

/-- The next token, or nothing at the end. -/
def next : Step (Option Token) := fun s =>
  match s with
  | ⟨scan, handles, anchors, nodes, depth⟩ =>
    scan.ready.map fun scan => (scan.token?, ⟨scan, handles, anchors, nodes, depth⟩)

/-- Takes the next token. -/
def drop : Step Unit := modify fun s => { s with scan := s.scan.drop }

/-- Takes the next token if it is `t`. -/
def take? (t : Token) : Step Bool := do
  let found := (← next) == some t
  if found then drop
  return found

/-- Takes the next token, which has to be `t`. -/
def expect (t : Token) : Step Unit := do
  if !(← take? t) then throw .invalid

/-! ## Nodes -/

/-- Makes a node. -/
def make (tag : Tag) (content : Content) : Step Nat := do
  let n := (← get).nodes.size
  modify fun s => { s with nodes := s.nodes.push ⟨tag, content⟩ }
  return n

/-- Changes what a node holds. -/
def fill (n : Nat) (content : Content) : Step Unit :=
  modify fun s => { s with nodes := s.nodes.modify n fun node => { node with content } }

/-- Reads what a collection holds, one level deeper. -/
def inside (read : Step Unit) : Step Unit := do
  let depth := (← get).depth
  if maxDepth ≤ depth then throw .tooDeep
  modify fun s => { s with depth := depth + 1 }
  read
  modify fun s => { s with depth := depth }

/-- A node without text. -/
def empty : Step Nat := make .null (.scalar [])

/-- Names a node. Each anchor is used once. -/
def name (anchor : Option String) (n : Nat) : Step Unit := do
  match anchor with
  | none => return
  | some a => modify fun s => { s with anchors := s.anchors.bind a n }

/-- Checks that no node has the name yet. -/
def checkAnchor (anchor : Option String) : Step Unit := do
  let anchors := (← get).anchors
  if anchor.any fun a => (anchors.get? a).isSome then throw .invalid

/-- The anchor and the tag in front of a node, in either order. -/
structure Properties where
  anchor : Option String := none
  tag : Option (Option String × String) := none

/-- Takes the properties in front of a node. -/
def properties : Step Properties := do
  match ← next with
  | some (.anchor a) =>
    drop
    match ← next with
    | some (.tag h s) => drop; return ⟨some a, some (h, s)⟩
    | _ => return ⟨some a, none⟩
  | some (.tag h s) =>
    drop
    match ← next with
    | some (.anchor a) => drop; return ⟨some a, some (h, s)⟩
    | _ => return ⟨none, some (h, s)⟩
  | _ => return {}

/-- The text of a tag, with the meaning of its handle. -/
def expand (tag : Option String × String) : Step String := do
  match tag.1 with
  | none => return tag.2
  | some h =>
    match (← get).handles.get? h with
    | none => throw .invalid
    | some value => return value ++ tag.2

/-- The type of a collection: its own, unless a tag says otherwise. -/
def collectionTag (own : Tag) : Option String → Tag
  | none | some "!" => own
  | some t => .ofText t

/-- The type of a scalar. A tag of one exclamation mark asks for the type that its form shows. -/
def scalarTag (text : Text) (plain : Bool) : Option String → Tag
  | none => if plain then .ofForm text else .text
  | some "!" => .ofForm text
  | some t => .ofText t

mutual

/-- Reads a node. Blocks may begin here if `block` holds, and a sequence that is not indented if
`hanging` holds. What is wrong with names comes to light once it is seen what the node holds. -/
def node (block hanging : Bool) : (fuel : Nat) → Step Nat
  | 0 => throw .invalid
  | fuel + 1 => do
    match ← next with
    | some (.alias a) =>
      drop
      match (← get).anchors.get? a with
      | none => throw .invalid
      | some n => return n
    | _ =>
      let p ← properties
      let tag ← p.tag.mapM expand
      let first ← next
      checkAnchor p.anchor
      let collection (own : Tag) (content : Content) (read : Nat → Step Unit) : Step Nat := do
        let n ← make (collectionTag own tag) content
        name p.anchor n
        inside (read n)
        return n
      match first with
      | some (.scalar text plain) =>
        drop
        let n ← make (scalarTag text plain tag) (.scalar text)
        name p.anchor n
        return n
      | some .flowSequence =>
        drop
        collection .sequence (.sequence []) fun n => do
          fill n (.sequence (← flowItems true [] fuel))
      | some .flowMapping =>
        drop
        collection .mapping (.mapping []) fun n => do
          fill n (.mapping (← flowMembers true [] fuel))
      | other =>
        if block && other == some .blockSequence then
          drop
          collection .sequence (.sequence []) fun n => do
            fill n (.sequence (← blockItems [.blockEntry, .blockEnd] [] fuel))
            expect .blockEnd
        else if block && other == some .blockMapping then
          drop
          collection .mapping (.mapping []) fun n => do
            fill n (.mapping (← blockMembers [] fuel))
        else if hanging && other == some .blockEntry then
          collection .sequence (.sequence []) fun n => do
            fill n (.sequence (← blockItems [.blockEntry, .key, .value, .blockEnd] [] fuel))
        else if p.anchor.isSome || p.tag.isSome then
          let n ← make (scalarTag [] true tag) (.scalar [])
          name p.anchor n
          return n
        else throw .invalid

/-- Reads the items of a block after those already read, the last one first; an item before one of
`ends` is empty. -/
def blockItems (ends : List Token) (items : List Nat) : (fuel : Nat) → Step (List Nat)
  | 0 => throw .invalid
  | fuel + 1 => do
    if ← take? .blockEntry then
      let item ← if (← next).any ends.contains then empty else node true false fuel
      blockItems ends (item :: items) fuel
    else return items.reverse

/-- Reads a key or a value of a block. -/
def blockPart : (fuel : Nat) → Step Nat
  | 0 => throw .invalid
  | fuel + 1 => do
    if (← next).any [.key, .value, .blockEnd].contains then empty else node true true fuel

/-- Reads the members of a block mapping after those already read, the last one first, and its
end. -/
def blockMembers (members : List (Nat × Nat)) : (fuel : Nat) → Step (List (Nat × Nat))
  | 0 => throw .invalid
  | fuel + 1 => do
    if ← take? .key then
      let key ← blockPart fuel
      let value ← if ← take? .value then blockPart fuel else empty
      blockMembers ((key, value) :: members) fuel
    else
      expect .blockEnd
      return members.reverse

/-- Reads a part of a member inside brackets, which is empty before one of `ends`. -/
def flowPart (ends : List Token) : (fuel : Nat) → Step Nat
  | 0 => throw .invalid
  | fuel + 1 => do
    if (← next).any ends.contains then empty else node false false fuel

/-- Reads a key whose mark is taken and its value, inside brackets that `closing` ends. -/
def flowMember (closing : Token) : (fuel : Nat) → Step (Nat × Nat)
  | 0 => throw .invalid
  | fuel + 1 => do
    let key ← flowPart [.value, .flowEntry, closing] fuel
    let value ← if ← take? .value then flowPart [.flowEntry, closing] fuel else empty
    return (key, value)

/-- Reads the items of a sequence in brackets after those already read, the last one first, and the
closing bracket. A single member of a mapping may stand for the mapping. -/
def flowItems (first : Bool) (items : List Nat) : (fuel : Nat) → Step (List Nat)
  | 0 => throw .invalid
  | fuel + 1 => do
    if ← take? .flowSequenceEnd then return items.reverse
    else
      if !first then expect .flowEntry
      if ← take? .key then
        let item ← make .mapping (.mapping [])
        inside do fill item (.mapping [← flowMember .flowSequenceEnd fuel])
        flowItems false (item :: items) fuel
      else if ← take? .flowSequenceEnd then return items.reverse
      else
        let item ← node false false fuel
        flowItems false (item :: items) fuel

/-- Reads the members of a mapping in braces after those already read, the last one first, and the
closing brace. A key without a mark has no value. -/
def flowMembers (first : Bool) (members : List (Nat × Nat)) : (fuel : Nat) → Step (List (Nat × Nat))
  | 0 => throw .invalid
  | fuel + 1 => do
    if ← take? .flowMappingEnd then return members.reverse
    else
      if !first then expect .flowEntry
      if ← take? .key then
        let member ← flowMember .flowMappingEnd fuel
        flowMembers false (member :: members) fuel
      else if ← take? .flowMappingEnd then return members.reverse
      else
        let key ← node false false fuel
        let value ← empty
        flowMembers false ((key, value) :: members) fuel

end

/-! ## Documents -/

/-- Takes the directives in front of a document. -/
def directives (versionSeen : Bool) (handles : Assoc String String) : (fuel : Nat) → Step Unit
  | 0 => throw .invalid
  | fuel + 1 => do
    match ← next with
    | some (.directive (.version major)) =>
      drop
      if versionSeen || major != 1 then throw .invalid
      directives true handles fuel
    | some (.directive (.handle h value)) =>
      drop
      if (handles.get? h).isSome then throw .invalid
      directives versionSeen (handles.bind h value) fuel
    | some (.directive .other) =>
      drop
      directives versionSeen handles fuel
    | _ => modify fun s => { s with handles := s.handles.bindAll handles }

/-- Takes the marks that end a document. -/
def documentEnds : (fuel : Nat) → Step Unit
  | 0 => return
  | fuel + 1 => do
    if ← take? .documentEnd then documentEnds fuel

/-- Makes sure that the text ends. What follows would be a second document, which is not read, but
for the directives in front of it. -/
def finish (fuel : Nat) : Step Unit := do
  if (← next).isSome then
    directives false [] fuel
    throw .invalid

/-- Reads the one document of a text; a text without any gives nothing. -/
def document (fuel : Nat) : Step (Option Nat) := do
  match ← next with
  | none => return none
  | some first =>
    let begins := match first with
      | .directive _ | .documentStart => true
      | _ => false
    let root ←
      if begins then
        directives false [] fuel
        expect .documentStart
        let isEmpty := match ← next with
          | none | some (.directive _) | some .documentStart | some .documentEnd => true
          | _ => false
        if isEmpty then empty else node true false fuel
      else node true false fuel
    documentEnds fuel
    finish fuel
    return some root

end Assembly

/-- The fuel for reading a text of a given size: each character gives at most four tokens, and
reading takes at most four steps inside each other for a token. -/
def Assembly.fuel (size : Nat) : Nat := 16 * size + 64

/-- The nodes of a text, and the number of the one that holds all others, unless the text is
empty. -/
def graph (cs : List Char) : Except Fault (Graph × Option Nat) :=
  if !cs.all isAllowed then .error .invalid
  else
    ((Assembly.document (Assembly.fuel cs.length)).run { scan := .ofChars cs }).map fun p =>
      (p.2.nodes, p.1)

end LineSpec.Yaml
