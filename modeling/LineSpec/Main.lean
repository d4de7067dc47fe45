import LineSpec.Command.Run
/-!
# The program

Reads the files below the current directory, and those that an argument leads to elsewhere, runs the
command on them, writes what it changed, and prints its answer. All decisions are made by
`Command.run`; here is only the way in and out.
-/

namespace LineSpec.Main

open LineSpec

/-- The names that lead from the root to the place with the given text. -/
def locationOf (text : String) : Location := Path.partsOfText text

/-- A tree with a directory and the directories above it. -/
def putDirs (t : Tree) (loc : Location) : Tree :=
  (List.range loc.length).foldl (fun t n =>
    let above := loc.take (n + 1)
    if (t.get? above).isNone then t.put above .dir else t) t

/-- A tree in which what stands at a location, if anything does, may not be read. -/
def close (t : Tree) (loc : Location) : Tree :=
  if h : (t.entries.get? loc).isSome then
    { t with
      closed := loc :: t.closed
      closed_subset := List.cons_subset.2 ⟨Assoc.isSome_get?_iff.1 h, t.closed_subset⟩ }
  else t

/-- What an action gives, or nothing where the system does not permit it. -/
def permitted? {α : Type} (action : IO α) : IO (Option α) :=
  try some <$> action catch
    | .permissionDenied .. => pure none
    | e => throw e

/-- A tree with what stands at a place of the file system and below it. Links to directories are not
followed. -/
partial def gather (t : Tree) (place : String) : IO Tree := do
  let path ← IO.FS.realPath place
  let loc := locationOf path.toString
  if ← path.isDir then
    let mut t := putDirs t loc
    let some listed ← permitted? path.readDir | return close t loc
    for entry in listed do
      let below := entry.path.toString
      let isLink := (← entry.path.symlinkMetadata).type == .symlink
      if isLink && (← entry.path.isDir) then continue
      t ← gather t below
    return t
  else if ← path.pathExists then
    let t := putDirs t loc.dropLast
    if (← path.metadata).type != .file then return t.put loc .device
    match ← permitted? (IO.FS.readBinFile path) with
    | some content => return t.put loc (.file content.toList)
    | none => return close (t.put loc (.file [])) loc
  else return t

/-- The place that an argument may lead to: its value, if an equals sign joins one to a name. -/
def placeOf (arg : String) : String :=
  match Text.splitAt? arg.toList '=' with
  | some (_, value) => String.ofList value
  | none => arg

/-- A tree with what arguments lead to. -/
def gatherAll (t : Tree) (args : List String) : IO Tree :=
  args.foldlM (fun t arg => try gather t (placeOf arg) catch _ => pure t) t

/-- Writes what stands in `after` and stood not so in `before`. -/
def writeChanges (before after : Tree) : IO Unit := do
  for (loc, node) in after.entries do
    if before.get? loc != some node then
      let place := Text.shown (Path.mk .single loc).text
      match node with
      | .dir => IO.FS.createDirAll place
      | .file content => IO.FS.writeBinFile place ⟨content.toArray⟩
      | .device => pure ()

/-- Prints an answer; what is not for the standard output goes to the standard error. -/
def report (a : Command.Answer) : IO UInt32 := do
  IO.print a.stdout
  for e in a.events do
    IO.eprintln e.logLine
  if let some cause := a.cause then
    IO.eprintln (Text.shown (cause.message?.getD "A setting has a value of the wrong type"))
  else if a.exitCode == 2 then IO.eprintln Command.usage
  return a.exitCode.toUInt32

end LineSpec.Main

/-- Runs the program in the current directory. -/
def main (args : List String) : IO UInt32 := do
  let home ← IO.currentDir
  let tree ← LineSpec.Main.gather {} home.toString
  let tree ← LineSpec.Main.gatherAll tree (args.filter (·.toList.contains '/'))
  let w : LineSpec.Workspace := ⟨tree, LineSpec.Main.locationOf home.toString⟩
  let answer := LineSpec.Command.run w args
  LineSpec.Main.writeChanges tree answer.workspace.tree
  LineSpec.Main.report answer
