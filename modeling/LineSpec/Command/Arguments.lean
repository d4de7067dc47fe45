/-!
# Command-line arguments

The arguments of a command are options and operands. An option has a long name, which an equals sign
may join to its value, or a name of one letter, and such letters may stand together after one
hyphen, the last with its value. Two hyphens end the options. An option that takes a value takes the
next argument, whatever that looks like.
-/

namespace LineSpec.Command

/-- What an option is for. -/
inductive Purpose where
  | help
  | version
  | verbose
  | extension
  | root
  | assignment
  | varsFile
  | strictEnd
  | openEnd
  | jobs
  | param
  | inspect
  | out
  deriving DecidableEq, Repr

/-- An option: its purpose, its names with their hyphens, and whether it takes a value. -/
structure OptionForm where
  purpose : Purpose
  names : List String
  takesValue : Bool := true

/-- An option as it was given; one that takes no value has an empty one. -/
structure Given where
  purpose : Purpose
  value : String
  deriving DecidableEq, Repr

/-- Arguments that no command understands. -/
structure UsageError where
  deriving DecidableEq, Repr

/-- Arguments, taken apart: the options in order, and the operands, to which everything belongs that
follows the end of the options. -/
structure Arguments where
  options : List Given := []
  operands : List String := []
  deriving DecidableEq, Repr

namespace Arguments

/-- The option with a name. -/
def formOf? (forms : List OptionForm) (name : String) : Option OptionForm :=
  forms.find? fun f => f.names.contains name

/-- An option with the value that is joined to it or, for want of one, the next argument. -/
def valued (f : OptionForm) (joined : Option String) (rest : List String) :
    Except UsageError (Given × List String) :=
  if f.takesValue then
    match joined, rest with
    | some value, _ => .ok (⟨f.purpose, value⟩, rest)
    | none, value :: rest => .ok (⟨f.purpose, value⟩, rest)
    | none, [] => .error {}
  else if joined.isSome then .error {}
  else .ok (⟨f.purpose, ""⟩, rest)

/-- Options of one letter that stand together. -/
def letters (forms : List OptionForm) (rest : List String) :
    List Char → Except UsageError (List Given × List String)
  | [] => .ok ([], rest)
  | c :: cs =>
    match formOf? forms (String.ofList ['-', c]) with
    | none => .error {}
    | some f =>
      if f.takesValue then
        (valued f (if cs.isEmpty then none else some (String.ofList cs)) rest).map fun p =>
          ([p.1], p.2)
      else (letters forms rest cs).map fun p => (⟨f.purpose, ""⟩ :: p.1, p.2)

/-- A long name and the value that an equals sign joins to it. -/
def splitName (cs : List Char) : String × Option String :=
  let name := cs.takeWhile (· != '=')
  match cs.dropWhile (· != '=') with
  | [] => (String.ofList name, none)
  | _ :: value => (String.ofList name, some (String.ofList value))

/-- The long name of an option has more than a hyphen and one letter. -/
def isLong (name : String) : Bool := 2 < name.length

/-- The options that one argument gives, and the arguments after it and its value. -/
def option (forms : List OptionForm) (arg : List Char) (rest : List String) :
    Except UsageError (List Given × List String) :=
  let (name, joined) := splitName arg
  match if isLong name then formOf? forms name else none with
  | some f => (valued f joined rest).map fun p => ([p.1], p.2)
  | none =>
    match arg with
    | '-' :: '-' :: _ => .error {}
    | _ :: cs => letters forms rest cs
    | [] => .error {}

/-- What an argument is. -/
inductive Kind where
  | operand
  | option
  | separator

/-- Whether an argument is an option: it begins with a hyphen and has more than that. -/
def Kind.of (arg : String) : Kind :=
  if arg == "--" then .separator
  else if arg.toList.head? == some '-' && arg != "-" then .option
  else .operand

/-- Takes arguments apart. Unless options may follow operands, the first operand ends the options.
`fuel` bounds the number of arguments. -/
def splitFrom (forms : List OptionForm) (mixed : Bool) :
    (fuel : Nat) → List String → Except UsageError Arguments
  | 0, args => .ok ⟨[], args⟩
  | _ + 1, [] => .ok {}
  | fuel + 1, arg :: rest =>
    match Kind.of arg with
    | .separator => .ok ⟨[], rest⟩
    | .operand =>
      if mixed then
        (splitFrom forms mixed fuel rest).map fun a => { a with operands := arg :: a.operands }
      else .ok ⟨[], arg :: rest⟩
    | .option => do
      let (given, rest) ← option forms arg.toList rest
      let a ← splitFrom forms mixed fuel rest
      .ok { a with options := given ++ a.options }

/-- Takes arguments apart. -/
def split (forms : List OptionForm) (mixed : Bool) (args : List String) :
    Except UsageError Arguments :=
  splitFrom forms mixed (args.length + 1) args

/-- The values given for a purpose, in order. -/
def values (a : Arguments) (p : Purpose) : List String :=
  (a.options.filter fun g => g.purpose = p).map Given.value

/-- The value given last for a purpose. -/
def value? (a : Arguments) (p : Purpose) : Option String := (a.values p).getLast?

/-- Whether an option is given. -/
def has (a : Arguments) (p : Purpose) : Bool := a.options.any fun g => g.purpose = p

end Arguments

end LineSpec.Command
