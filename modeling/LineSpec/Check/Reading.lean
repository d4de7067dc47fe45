import LineSpec.Problem
/-!
# Readings

What checking needs to know of a specification's conventions: how its text is parsed, how a line's
placeholders are resolved, and whether a match has to reach the end. Conventions and variables give
a reading. A reading may refuse more than a specification's own errors, with an `ε`; the reading
that conventions give does not, which its type `Reading Empty` says.
-/

namespace LineSpec

/-- How specifications are read, where an `ε` is a refusal that is not the specification's fault. -/
structure Reading (ε : Type) where
  parse : Option Text → Text → Except (ParseError ⊕ ε) Document
  resolve : Text → Except (PlaceholderError ⊕ ε) Text
  strictEnd : Bool

/-- The reading that conventions give, with the values of variables. -/
def Conventions.reading (c : Conventions) (vars : Bindings Text) : Reading Empty where
  parse source text := (Document.parse c source text).mapError .inl
  resolve text := (Template.substitute c vars.get? text).mapError .inl
  strictEnd := c.strictEnd

end LineSpec
