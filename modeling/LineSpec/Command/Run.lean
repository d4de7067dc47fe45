import LineSpec.Command.Answer
import LineSpec.Command.Request
import LineSpec.Render
import LineSpec.Report
/-!
# Running the program

The four commands: `init` makes a project, `check` compares files with their specifications, `parse`
shows what a specification holds, and `render` writes the files that a specification asks for. The
project is the current directory; without settings the defaults count. The exit code is 0 when all
is well, 1 when something is wrong, and 2 when the arguments are not understood.
-/

namespace LineSpec.Command

open Session

/-- The name and the version of the program. -/
def versionLine : String := "specker, version 0.1.0"

/-- How the program is called. -/
def usage : String := "Usage: specker [--version] [-v] init|check|parse|render ..."

/-! ## Settings and variables -/

/-- Whether a refused access is reported as a fault of the project: only that no file can have the
name. -/
def isReportedAccess : AccessError → Bool
  | .os .. => false
  | _ => true

/-- Whether an error of settings is reported as a fault of the project. -/
def isReportedSettings : Settings.LoadError → Bool
  | .encoding _ | .invalid .. | .hugeNumber _ => true
  | .access e => isReportedAccess e
  | _ => false

/-- Whether a fault of a YAML text is reported as a fault of the project. -/
def isReportedYaml : Yaml.Fault → Bool
  | .wideCharacter | .emptyNumeral | .noTruthValue _ | .noDate | .dateOfMapping | .hugePlace
  | .endless | .tooDeep => false
  | _ => true

/-- Whether an error of variables is reported as a fault of the project. -/
def isReportedVariables : Variables.SourceError → Bool
  | .yaml _ fault => isReportedYaml fault
  | .access e => isReportedAccess e
  | _ => true

/-- The settings of the project, or the default ones. -/
def projectSettings (w : Workspace) : Except Settings.LoadError Settings :=
  match Settings.isPresent w w.cwd with
  | .error e => .error (.access e)
  | .ok false => .ok {}
  | .ok true => Settings.load w w.cwd

/-- The settings of the project; an error that is reported ends the command. -/
def settingsOrFail : Session Settings := do
  match projectSettings (← workspace) with
  | .ok s => return s
  | .error e =>
    if isReportedSettings e then fail (e.message?.getD []) else breakOff (.settings e)

/-- The variables of all sources; an error that is reported ends the command. -/
def variablesOrFail (s : Settings) (file : Option Path) (assignments : List Text) :
    Session (Bindings Text) := do
  match Variables.collect (← workspace) s.vars file assignments with
  | .ok vs => return vs
  | .error e =>
    if isReportedVariables e then fail (e.message?.getD []) else breakOff (.source e)

/-- The options of settings; an empty marker ends the command. -/
def optionsOrFail (s : Settings) (strictEnd : Option Bool) : Session Settings.Options := do
  match s.options strictEnd with
  | .ok o => return o
  | .error m => fail m.emptyMessage

/-! ## Making a project -/

/-- Makes the directory of specifications and the settings file. Settings that are there stay. -/
def init : Session Unit := do
  let w ← workspace
  let project := w.cwd
  let already ← match Settings.isPresent w project with
    | .ok b => pure b
    | .error e => breakOff (.access e)
  if already then
    printLine "Warning: Project is already initialized. Keeping existing configuration."
  let settings ←
    if already then
      match Settings.load w project with
      | .ok s => pure s
      | .error e => breakOff (.settings e)
    else pure {}
  let specDir ← match settings.specDir with
    | .text s => pure (project.child s)
    | _ => breakOff (.misfit .specDir)
  act fun w => w.ensureDirs specDir
  let file ← act fun w => settings.save w project
  if !already then
    printLine "Initialized specker project."
    printLine ("  Created: " ++ specDir.text ++ "/")
    printLine ("  Config:  " ++ file.text)

/-! ## Checking -/

/-- The report of a problem in a file. -/
def reportOf (p : Problem) (file : Path) (label : Text) : Session Text := do
  match (← workspace).readLines file with
  | .error e => breakOff (.access e)
  | .ok lines => return (Report.formatIn? p label lines).getD []

/-- A failure in words: with a report where the problem has a place, else with its summary. -/
def describe (root : Path) (f : Check.Failure) : Session Text := do
  let summary : Text := "\n  " ++ f.problem.message
  match f.problem with
  | .parse _ =>
    let file := Path.ofText f.specFile
    let report ← reportOf f.problem file file.text
    return "FAILED " ++ f.specFile ++ ": parse error\n" ++ report
  | p =>
    if f.target = [] then return "FAILED " ++ f.specFile ++ summary
    else
      let header : Text := "FAILED " ++ f.specFile ++ s!":{f.itemLine} -> " ++ f.target
      match p with
      | .mismatch _ =>
        let report ← reportOf p (root.child f.target) f.target
        return header ++ "\n" ++ report
      | _ => return header ++ summary

/-- The directory of specifications: the one that is asked for, or that of the settings. -/
def specDirOf (asked : Option Path) (s : Settings) : Session Path := do
  match asked, s.specDir with
  | some dir, _ => return dir
  | none, .text t => return Path.ofText t
  | none, _ => breakOff (.misfit .specDir)

/-- The directory that targets are seen from, if it is not that of the specifications. -/
def rootOf (asked : Option Path) (s : Settings) : Session (Option Path) := do
  match asked, s.root with
  | some dir, _ => return some dir
  | none, .text t => return if t = [] then none else some (Path.ofText t)
  | none, other => if other.truthy then breakOff (.misfit .root) else return none

/-- The extension of specification files. One that is no text only matters in a directory that
exists. -/
def extensionOf (asked : Option Text) (s : Settings) (dir : Path) : Session Text := do
  match asked.filter (· ≠ []), s.extension with
  | some e, _ => return e
  | none, .text e => return e
  | none, _ =>
    match (← workspace).isDir dir with
    | .ok true => breakOff (.misfit .extension)
    | _ => return []

/-- The outcome of a check; a directory that does not exist ends the command. -/
def outcomeOrFail (dir : Path) : Except (Check.DirError Misfit) Check.Outcome →
    Session Check.Outcome
  | .ok o => return o
  | .error (.walk (.noDirectory _)) => fail (Survey.WalkError.noDirectoryMessage dir)
  | .error (.walk (.find (.access e))) => breakOff (.access e)
  | .error (.walk (.find (.pattern e))) => breakOff (.pattern e)
  | .error (.walk (.load e)) =>
    match Break.ofLoad e with
    | some cause => breakOff cause
    | none => return {}
  | .error (.escape e) => breakOff (.ofEscape e)

/-- Checks the specifications below a directory. -/
def check (r : CheckRequest) : Session Unit := do
  let settings ← settingsOrFail
  let vars ← variablesOrFail settings r.varsFile r.assignments
  let options ← optionsOrFail settings r.strictEnd
  let specDir ← specDirOf r.specDir settings
  let root ← rootOf r.root settings
  let extension ← extensionOf r.extension settings specDir
  let w ← workspace
  let reading := options.reading vars
  let result ← noted (Check.directory reading w specDir extension root r.param (max 1 r.jobs))
  let outcome ← outcomeOrFail specDir result
  for f in outcome.failures do
    printLine (← describe (root.getD specDir) f)
    printLine []
  printLine (s!"Checked {outcome.checked} item(s): " ++
    s!"{outcome.passed} passed, {outcome.failures.length} failed.")
  if !outcome.success then exit 1

/-! ## Showing a specification -/

/-- The names `seen`, and each of `names` that is not yet among them. -/
def addNew (seen names : List Text) : List Text :=
  names.foldl (fun seen n => if seen.contains n then seen else seen ++ [n]) seen

/-- Shows the lines of a body, after the names `seen` of the variables before them. -/
def showBody (o : Settings.Options) (seen : List Text) : Body → Session (List Text)
  | [] => return seen
  | .skip _ :: body => do
    printLine ("    " ++ o.skip.alone)
    showBody o seen body
  | .literal text line :: body => do
    printLine ("    | " ++ text)
    match o.placeholders text with
    | .ok names => showBody o (addNew seen names) body
    | .error (.inl e) =>
      printLine (s!"    ! line {line}: " ++ e.message)
      showBody o seen body
    | .error (.inr m) => breakOff (.misfit m)

/-- Shows an item. -/
def showItem (o : Settings.Options) (item : Item) : Session Unit := do
  printLine s!"\n  Item at line {item.line}"
  for (key, value) in item.params do
    printLine ("    " ++ key ++ ": " ++ value)
  let names ← showBody o [] item.body
  if !names.isEmpty then
    printLine ("    Variables: " ++ Text.join ", " names)

/-- Parses a specification and tells how many items it has, or shows them. -/
def parse (file : Path) (inspect : Bool) : Session Unit := do
  let settings ← settingsOrFail
  let options ← optionsOrFail settings none
  let w ← workspace
  match ← noted (Survey.loadFile (options.reading []) w file) with
  | .error (.parse e) =>
    printLine (← reportOf (.parse e) file file.text)
    exit 1
  | .error e =>
    match Break.ofLoad e with
    | some cause => breakOff cause
    | none => exit 1
  | .ok d =>
    printLine (s!"Parsed {d.items.length} item(s) from " ++ file.text ++ ".")
    if inspect then
      for item in d.items do
        showItem options item

/-! ## Rendering -/

/-- The document that is to be rendered; a specification that is wrong ends the command. -/
def documentOrFail (reading : Reading Misfit) (file : Path) : Session Document := do
  match ← noted (Survey.loadFile reading (← workspace) file) with
  | .ok d => return d
  | .error (.parse e) => fail e.message
  | .error (.encoding fault) => fail fault.message
  | .error (.access e) => if isReportedAccess e then fail e.message else breakOff (.access e)
  | .error (.refused m) => breakOff (.misfit m)

/-- Writes the content of an item below a directory. Content that has no octets leaves an empty
file. -/
def writeBelow (out : Path) (name content : Text) : Session Unit := do
  let target := out.child name
  act fun w => w.ensureDirs target.parent
  match Text.encode content with
  | .ok octets =>
    act fun w => w.write target octets
    printLine ("Wrote " ++ target.text)
  | .error e =>
    act fun w => w.write target []
    breakOff (.unencodable e)

/-- Renders an item that names its file; tells whether that was possible. -/
def renderItem (reading : Reading Misfit) (out : Option Path) (item : Item) (name : Text) :
    Session Bool := do
  let report (p : Problem) : Session Bool := do
    printLine ("Error: " ++ name ++ ": " ++ p.message)
    return false
  match item.body.render reading.resolve with
  | .error (.skip line) => report (.skipRendered line)
  | .error (.unresolved (.inl e)) => report (.placeholder e)
  | .error (.unresolved (.inr m)) => breakOff (.misfit m)
  | .ok content =>
    match out with
    | none =>
      printLine ("==> " ++ name ++ " <==")
      print content
    | some out => writeBelow out name content
    return true

/-- Renders the items of a specification that name a file. -/
def render (r : RenderRequest) : Session Unit := do
  let settings ← settingsOrFail
  let vars ← variablesOrFail settings r.varsFile r.assignments
  let options ← optionsOrFail settings none
  let reading := options.reading vars
  let d ← documentOrFail reading r.specFile
  let done ← (d.declaring r.param).mapM fun t => renderItem reading r.out t.1 t.2
  if !done.all id then exit 1

/-! ## The program -/

/-- Does what a request asks for. -/
def perform : Request → Session Unit
  | .help => printLine usage
  | .version => printLine versionLine
  | .init => init
  | .check r => check r
  | .parse file inspect => parse file inspect
  | .render r => render r

/-- The answer of the program to its arguments. Only events that are shown are kept. -/
def run (w : Workspace) (args : List String) : Answer :=
  match Request.ofArguments w args with
  | .error .usage => { workspace := w, exitCode := 2 }
  | .error .nulInPath => { workspace := w, exitCode := 1, cause := some (.access .nulInPath) }
  | .ok (request, verbose) =>
    let a := Session.answer (perform request) w
    { a with events := a.events.filter (Event.isShown verbose) }

end LineSpec.Command
