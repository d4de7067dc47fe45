import LineSpec.Match.Error
import LineSpec.Render
import LineSpec.Spec.Parser
import LineSpec.Template
/-!
# Problems

What can be wrong with a specification or with a file that it describes. Each problem is a cause;
its wording is given by `Problem.message` alone. A summary is the wording on one line.
-/

namespace LineSpec

/-- The kinds of problems that are given in words. -/
inductive Category where
  | specification
  | placeholder
  | rendering
  | settings
  deriving DecidableEq, Repr

/-- What can be wrong with a specification or a file. -/
inductive Problem where
  | parse (e : ParseError)
  | placeholder (e : PlaceholderError)
  | mismatch (e : MatchError)
  /-- A skip, at this line, where content was asked for. -/
  | skipRendered (line : Int)
  /-- The file that an item names does not exist. -/
  | targetMissing (path : Text)
  /-- The file that an item names is no text, or cannot be opened. -/
  | targetUnreadable (path reason : Text)
  /-- A problem of the given category, in words. -/
  | stated (category : Category) (text : Text)
  deriving DecidableEq, Repr

namespace Problem

/-- The problem in words. -/
def message : Problem → Text
  | parse e => e.message
  | placeholder e => e.message
  | mismatch e => e.message
  | skipRendered line => s!"Cannot render skip marker at line {line}"
  | targetMissing path => "File not found: " ++ path
  | targetUnreadable path reason => "Cannot read " ++ path ++ ": " ++ reason
  | stated _ text => text

/-- The problem of an item that has no content. -/
def ofRender : RenderError PlaceholderError → Problem
  | .skip line => .skipRendered line
  | .unresolved e => .placeholder e

end Problem

end LineSpec
