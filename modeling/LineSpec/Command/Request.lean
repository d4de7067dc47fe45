import LineSpec.Command.Arguments
import LineSpec.Decimal.Numeral
import LineSpec.Tree.Workspace
/-!
# Requests

What the arguments of the program ask for. Options before the name of a command are about the
program, those after it about the command. An argument that names a file is looked up at once: some
have to be there, and none may be of the wrong kind. Of several faults the one of the option given
first counts, and operands come after options.
-/

namespace LineSpec.Command

/-- What a check is about. -/
structure CheckRequest where
  specDir : Option Path := none
  extension : Option Text := none
  root : Option Path := none
  assignments : List Text := []
  varsFile : Option Path := none
  strictEnd : Option Bool := none
  jobs : Int := 1
  param : Text := "file"
  deriving DecidableEq, Repr

/-- What is to be rendered. -/
structure RenderRequest where
  specFile : Path
  assignments : List Text := []
  varsFile : Option Path := none
  out : Option Path := none
  param : Text := "file"
  deriving DecidableEq, Repr

/-- What the arguments ask for. -/
inductive Request where
  | help
  | version
  | init
  | check (r : CheckRequest)
  | parse (specFile : Path) (inspect : Bool)
  | render (r : RenderRequest)
  deriving DecidableEq, Repr

/-- Why arguments ask for nothing. -/
inductive Refusal where
  | usage
  /-- The name of a file holds the character U+0000. -/
  | nulInPath
  deriving DecidableEq, Repr

namespace Request

/-! ## The options -/

/-- The option that asks for help. -/
def helpForm : OptionForm := ⟨.help, ["--help"], false⟩

/-- The options of the program. -/
def programForms : List OptionForm :=
  [⟨.version, ["--version"], false⟩, ⟨.verbose, ["--verbose", "-v"], false⟩, helpForm]

/-- The options that give variables. -/
def variableForms : List OptionForm :=
  [⟨.assignment, ["--var"], true⟩, ⟨.varsFile, ["--vars-file"], true⟩]

/-- The option that names the parameter of files. -/
def paramForm : OptionForm := ⟨.param, ["--param"], true⟩

/-- The options of a check. -/
def checkForms : List OptionForm :=
  [⟨.extension, ["--ext"], true⟩, ⟨.root, ["--root"], true⟩] ++ variableForms ++
    [⟨.strictEnd, ["--strict-eof"], false⟩, ⟨.openEnd, ["--no-strict-eof"], false⟩,
      ⟨.jobs, ["--jobs", "-j"], true⟩, paramForm, helpForm]

/-- The options of parsing. -/
def parseForms : List OptionForm := [⟨.inspect, ["--inspect"], false⟩, helpForm]

/-- The options of rendering. -/
def renderForms : List OptionForm :=
  variableForms ++ [⟨.out, ["--out"], true⟩, paramForm, helpForm]

/-! ## Values -/

/-- A path that may lead to nothing, but to no file and to nothing that may not be read. -/
def directory (w : Workspace) (s : String) : Except Refusal Path :=
  match w.stat s with
  | .error .nulInPath => .error .nulInPath
  | .error _ => .ok (Path.ofText s)
  | .ok (_, .file _) => .error .usage
  | .ok (loc, _) => if w.tree.CanRead loc then .ok (Path.ofText s) else .error .usage

/-- A path that leads to something that may be read, but to no directory. -/
def file (w : Workspace) (s : String) : Except Refusal Path :=
  match w.stat s with
  | .error .nulInPath => .error .nulInPath
  | .error _ => .error .usage
  | .ok (_, .dir) => .error .usage
  | .ok (loc, _) => if w.tree.CanRead loc then .ok (Path.ofText s) else .error .usage

/-- A whole number. -/
def number (s : String) : Except Refusal Int :=
  (Decimal.Numeral.int? 10 s).mapError fun _ => .usage

/-- Checks the value that was given last for a purpose. -/
def checkValue (w : Workspace) (a : Arguments) (p : Purpose) : Except Refusal Unit :=
  match a.value? p with
  | none => .ok ()
  | some s =>
    match p with
    | .root | .out => (directory w s).map fun _ => ()
    | .varsFile => (file w s).map fun _ => ()
    | .jobs => (number s).map fun _ => ()
    | _ => .ok ()

/-- Checks the values of options in the order in which the options were first given. -/
def checkValues (w : Workspace) (a : Arguments) : Except Refusal Unit :=
  (a.options.map Given.purpose).eraseDups.forM (checkValue w a)

/-- Whether the end of the input is to be reached, if an option says so; the last one counts. -/
def strictEnd? (a : Arguments) : Option Bool :=
  (a.options.filterMap fun g =>
    if g.purpose = .strictEnd then some true
    else if g.purpose = .openEnd then some false
    else none).getLast?

/-! ## Commands -/

/-- The request of a check. -/
def ofCheck (w : Workspace) (a : Arguments) : Except Refusal Request := do
  let specDir ← match a.operands with
    | [] => pure none
    | [s] => (directory w s).map some
    | s :: _ =>
      let _ ← directory w s
      throw .usage
  return .check {
    specDir
    extension := (a.value? .extension).map Text.ofString
    root := ← (a.value? .root).mapM (directory w)
    assignments := (a.values .assignment).map Text.ofString
    varsFile := ← (a.value? .varsFile).mapM (file w)
    strictEnd := strictEnd? a
    jobs := ← ((a.value? .jobs).mapM number).map (·.getD 1)
    param := (a.value? .param).getD "file" }

/-- The one operand, which names a file. -/
def specFile (w : Workspace) (a : Arguments) : Except Refusal Path := do
  match a.operands with
  | [] => throw .usage
  | s :: others =>
    let path ← file w s
    if others.isEmpty then return path else throw .usage

/-- The request of rendering. -/
def ofRender (w : Workspace) (a : Arguments) : Except Refusal Request := do
  return .render {
    specFile := ← specFile w a
    assignments := (a.values .assignment).map Text.ofString
    varsFile := ← (a.value? .varsFile).mapM (file w)
    out := ← (a.value? .out).mapM (directory w)
    param := (a.value? .param).getD "file" }

/-- The request of a command, from its arguments. -/
def ofCommand (w : Workspace) (forms : List OptionForm)
    (build : Arguments → Except Refusal Request) (args : List String) : Except Refusal Request := do
  let a ← (Arguments.split forms true args).mapError fun _ => .usage
  if a.has .help then return .help
  checkValues w a
  build a

/-- The request that an option of the program makes by itself; the first one counts. -/
def eager? (a : Arguments) : Option Request :=
  a.options.findSome? fun g =>
    match g.purpose with
    | .help => some .help
    | .version => some .version
    | _ => none

/-- The request of arguments that begin with the name of no command: an option there, behind two
hyphens, is still one of the program. -/
def ofUnknown (args : List String) : Except Refusal Request :=
  match Arguments.split programForms false args with
  | .ok a => ((eager? a).map Except.ok).getD (.error .usage)
  | .error _ => .error .usage

/-- The request of the command with a name. -/
def ofName (w : Workspace) (name : String) (args : List String) : Except Refusal Request :=
  match name with
  | "init" =>
    ofCommand w [helpForm] (fun a => if a.operands.isEmpty then .ok .init else .error .usage) args
  | "check" => ofCommand w checkForms (ofCheck w) args
  | "parse" =>
    ofCommand w parseForms (fun a => (specFile w a).map fun p => .parse p (a.has .inspect)) args
  | "render" => ofCommand w renderForms (ofRender w) args
  | _ => ofUnknown (name :: args)

/-- What arguments ask for, and whether events are to be shown. -/
def ofArguments (w : Workspace) (args : List String) : Except Refusal (Request × Bool) := do
  let a ← (Arguments.split programForms false args).mapError fun _ => .usage
  let verbose := a.has .verbose
  match eager? a, a.operands with
  | some request, _ => return (request, verbose)
  | none, [] => throw .usage
  | none, name :: args => return (← ofName w name args, verbose)

end Request

end LineSpec.Command
