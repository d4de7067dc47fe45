import LineSpec.Spec.Document
import LineSpec.Spec.Token
import LineSpec.Text.Search
/-!
# Specifications from their lines

A new item begins at the first line and at each parameter line that follows a line of another kind.
The parameter lines at the beginning of an item give its parameters, the lines after them its body.
Only a parameter line can be wrong: it may hold nothing after the marker, no colon, an empty key, or
a key that the item already has.
-/

namespace LineSpec

/-- Why a parameter line is wrong. -/
inductive ParseError.Cause where
  | noParameter
  | noColon (key : Text)
  | emptyKey
  | duplicateKey (key : Text)
  /-- A cause that is given in words. -/
  | stated (message : Text)
  deriving DecidableEq, Repr

/-- A line of a specification that cannot be read, and the file that it stands in. -/
structure ParseError where
  cause : ParseError.Cause
  number : Int
  line : Text
  source : Option Text
  deriving DecidableEq, Repr

namespace ParseError

/-- The cause in words. -/
def Cause.message : Cause → Text
  | .noParameter => "Expected 'key: value' after item marker"
  | .noColon key => "Expected ':' after parameter key '" ++ key ++ "'"
  | .emptyKey => "Parameter key must not be empty"
  | .duplicateKey key => "Duplicate parameter '" ++ key ++ "'"
  | .stated message => message

/-- Where the line stands: in its file, if that has a name. -/
def place (e : ParseError) : Text :=
  match e.source with
  | none | some [] => "line "
  | some file => file ++ ":"

/-- The error in words. -/
def message (e : ParseError) : Text :=
  e.place ++ s!"{e.number}: " ++ e.cause.message

end ParseError

namespace Item

/-- The key and the value that a parameter line holds. -/
def paramOfLine (c : Conventions) (line : Text) : Except ParseError.Cause (Text × Text) :=
  let content := Text.trim (line.drop c.item.length)
  if content.isEmpty then .error .noParameter
  else
    match Text.splitAt? content ':' with
    | none => .error (.noColon content)
    | some (key, value) =>
      let key := Text.trim key
      if key.isEmpty then .error .emptyKey
      else .ok (key, Text.trim value)

/-- The parameters `params` with the one of a further line. -/
def addParam (c : Conventions) (source : Option Text) (params : Bindings Text) (t : Token) :
    Except ParseError (Bindings Text) :=
  match paramOfLine c t.text with
  | .error cause => .error ⟨cause, t.line, t.text, source⟩
  | .ok (key, value) =>
    if (params.get? key).isSome then .error ⟨.duplicateKey key, t.line, t.text, source⟩
    else .ok (params ++ [(key, value)])

/-- The entry of a body that a line gives. -/
def entryOfToken (t : Token) : Entry :=
  match t.kind with
  | .skip => .skip t.line
  | _ => .literal t.text t.line

/-- The item that the lines `ts` make up: parameter lines, then the lines of the body. -/
def ofTokens (c : Conventions) (source : Option Text) (ts : List Token) :
    Except ParseError Item := do
  let params ← (ts.takeWhile (·.kind == .marker)).foldlM (addParam c source) []
  .ok {
    params
    body := (ts.dropWhile (·.kind == .marker)).map entryOfToken
    line := (ts.head?.map Token.line).getD 0 }

end Item

namespace Document

/-- Whether two neighbouring lines belong to one item. -/
def sameItem (t u : Token) : Bool :=
  t.kind == .marker || u.kind != .marker

/-- The document that the tokens `ts` make up, as far as the first end among them. -/
def ofTokens (c : Conventions) (source : Option Text) (ts : List Token) :
    Except ParseError Document := do
  let ts := ts.takeWhile (·.kind != .finish)
  let items ← (ts.splitBy sameItem).mapM (Item.ofTokens c source)
  .ok { items, source }

/-- The document that a text writes. -/
def parse (c : Conventions) (source : Option Text) (t : Text) : Except ParseError Document :=
  ofTokens c source (Token.ofText c t)

end Document

end LineSpec
