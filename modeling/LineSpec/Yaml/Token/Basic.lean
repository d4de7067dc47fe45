import LineSpec.Text.Basic
/-!
# Tokens of a YAML text

The pieces of a YAML text in order, with the beginning and the end of each block made explicit, so
that neither line breaks nor indentation matter any more.
-/

namespace LineSpec.Yaml

/-- A line that says how a document is to be read. -/
inductive Directive where
  /-- The version of the language. -/
  | version (major : Int)
  /-- What a handle at the front of a tag stands for. -/
  | handle (name value : String)
  | other
  deriving DecidableEq, Repr

/-- A piece of a YAML text. -/
inductive Token where
  | directive (d : Directive)
  | documentStart
  | documentEnd
  | blockSequence
  | blockMapping
  | blockEnd
  | flowSequence
  | flowSequenceEnd
  | flowMapping
  | flowMappingEnd
  | blockEntry
  | flowEntry
  | key
  | value
  | alias (name : String)
  | anchor (name : String)
  /-- A tag; one without a handle is complete. -/
  | tag (handle : Option String) (suffix : String)
  | scalar (text : Text) (plain : Bool)
  deriving DecidableEq, Repr

end LineSpec.Yaml
