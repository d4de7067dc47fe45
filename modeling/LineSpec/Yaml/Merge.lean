import LineSpec.Yaml.Graph
/-!
# Merging mappings

A member of a mapping whose key is of the type `merge` brings the members of another mapping, or
those of several, which are put in front of the mapping's own. The mappings that are brought merge
others themselves first, and a mapping may even bring itself; the members are therefore read anew
after each merging. On the way a key that would stand for its mapping becomes a text.
-/

namespace LineSpec.Yaml

namespace Graph

/-- What the node with a number holds. -/
def content (g : Graph) (n : Nat) : Content := (g[n]?.map YamlNode.content).getD (.scalar [])

/-- The type of the node with a number. -/
def tag (g : Graph) (n : Nat) : Tag := (g[n]?.map YamlNode.tag).getD .other

/-- The members of a mapping. -/
def members (g : Graph) (n : Nat) : List (Nat × Nat) :=
  match g.content n with
  | .mapping members => members
  | _ => []

/-- The nodes with other members for one of them. -/
def setMembers (g : Graph) (n : Nat) (members : List (Nat × Nat)) : Graph :=
  g.modify n fun node => { node with content := .mapping members }

/-- The nodes in which a key that would stand for its mapping is a text. -/
def asText (g : Graph) (key : Nat) : Graph :=
  g.modify key fun node => if node.tag = .value then { node with tag := .text } else node

/-- Lets mapping `n` merge what its members from number `i` on ask for. `brought` are the members
brought so far. -/
def mergeFrom (n : Nat) : (fuel : Nat) → (i : Nat) → (brought : List (Nat × Nat)) → Graph →
    Except Fault Graph
  | 0, _, _, _ => .error .invalid
  | fuel + 1, i, brought, g => do
    let members := g.members n
    let before := (members.drop i).takeWhile fun p => g.tag p.1 != .merge
    let g := before.foldl (fun g p => g.asText p.1) g
    let i := i + before.length
    match members[i]? with
    | none => .ok (g.setMembers n (brought ++ members))
    | some (_, value) =>
      let g := g.setMembers n (members.eraseIdx i)
      let (g, more) ← match g.content value with
        | .mapping _ => do
          let g ← mergeFrom value fuel 0 [] g
          pure (g, g.members value)
        | .sequence items => do
          let (g, lists) ← items.foldlM (fun (g, lists) item =>
            match g.content item with
            | .mapping _ => do
              let g ← mergeFrom item fuel 0 [] g
              pure (g, g.members item :: lists)
            | _ => .error .invalid) (g, [])
          pure (g, lists.flatten)
        | .scalar _ => .error .invalid
      mergeFrom n fuel i (brought ++ more) g

/-- The number of members that ask for merging. -/
def mergeCount (g : Graph) : Nat :=
  (g.toList.map fun node =>
    match node.content with
    | .mapping members => (members.filter fun p => g.tag p.1 == .merge).length
    | _ => 0).foldr (· + ·) 0

/-- The nodes after mapping `n` has merged what its members ask for. Each step takes one such member
away and brings none, so their number bounds the steps. Most mappings ask for nothing. -/
def merged (g : Graph) (n : Nat) : Except Fault Graph :=
  if (g.members n).all fun p => g.tag p.1 != .merge && g.tag p.1 != .value then .ok g
  else g.mergeFrom n (g.mergeCount + 1) 0 []

end Graph

end LineSpec.Yaml
