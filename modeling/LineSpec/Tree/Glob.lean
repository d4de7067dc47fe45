import LineSpec.Text.Basic
import LineSpec.Text.Search
/-!
# Name patterns

A pattern for a name holds `*` for any text, `?` for any code point and `[…]` for one code point of
a set; all else stands for itself. A pattern for a path is a list of parts: names, patterns for
names, `..` for the directory above, and `**` for any number of directories.
-/

namespace LineSpec.Glob

/-- A set of code points: ranges with both ends included, or all code points outside of them. -/
structure PointSet where
  negated : Bool
  ranges : List (CodePoint × CodePoint)
  deriving DecidableEq, Repr

/-- Whether a code point is in a set. -/
def PointSet.contains (s : PointSet) (c : CodePoint) : Bool :=
  s.ranges.any (fun r => r.1 ≤ c && c ≤ r.2) != s.negated

/-- One element of a pattern for a name. -/
inductive Elem where
  | star
  | one
  | point (c : CodePoint)
  | set (s : PointSet)
  deriving DecidableEq, Repr

/-- The ranges that the inside of brackets lists. A hyphen between two characters makes them the
ends of a range; at the beginning, at the end and after a range it stands for itself. -/
def rangesOf : Text → List (CodePoint × CodePoint)
  | [] => []
  | [c] => [(c, c)]
  | [c, d] => [(c, c), (d, d)]
  | c :: hyphen :: d :: cs =>
    if hyphen = '-' then (c, d) :: rangesOf cs else (c, c) :: rangesOf (hyphen :: d :: cs)

/-- `leading c cs` takes one `c` off the front of `cs`, if there is one. -/
def leading (c : CodePoint) : Text → Text × Text
  | [] => ([], [])
  | d :: cs => if d = c then ([d], cs) else ([], d :: cs)

/-- The set that the inside of brackets describes. -/
def PointSet.ofInside (cs : Text) : PointSet :=
  let (negation, cs) := leading '!' cs
  ⟨!negation.isEmpty, rangesOf cs⟩

theorem length_leading_le (c : CodePoint) (cs : Text) : (leading c cs).2.length ≤ cs.length := by
  cases cs with
  | nil => simp [leading]
  | cons d cs =>
    rw [leading]
    split <;> simp

/-- The inside of brackets and the text after them, when a bracket closes them. A closing bracket
that stands first, or first after `!`, does not close them. -/
def bracket? (cs : Text) : Option (Text × Text) :=
  let (negation, cs) := leading '!' cs
  let (first, cs) := leading ']' cs
  (Text.splitAt? cs ']').map fun p => (negation ++ first ++ p.1, p.2)

theorem length_le_of_bracket? {cs inside rest : Text} (h : bracket? cs = some (inside, rest)) :
    rest.length ≤ cs.length := by
  unfold bracket? at h
  obtain ⟨⟨a, b⟩, h', hab⟩ := Option.map_eq_some_iff.1 h
  simp only [Prod.mk.injEq] at hab
  obtain ⟨-, rfl⟩ := hab
  have h₁ : b.length ≤ (leading ']' (leading '!' cs).2).2.length :=
    Text.length_le_of_splitFirst? h'
  have h₂ := length_leading_le ']' (leading '!' cs).2
  have h₃ := length_leading_le '!' cs
  omega

/-- The elements of a pattern for a name. -/
def elems : Text → List Elem
  | [] => []
  | c :: cs =>
    if c = '*' then .star :: elems cs
    else if c = '?' then .one :: elems cs
    else if c = '[' then
      match _h : bracket? cs with
      | none => .point '[' :: elems cs
      | some (inside, rest) => .set (PointSet.ofInside inside) :: elems rest
    else .point c :: elems cs
termination_by cs => cs.length
decreasing_by
  all_goals simp only [List.length_cons]
  · omega
  · omega
  · omega
  · have := length_le_of_bracket? _h
    omega
  · omega

/-- Whether a name is of the form that the elements describe. -/
def matchesElems : List Elem → Text → Bool
  | [], cs => cs.isEmpty
  | .star :: es, [] => matchesElems es []
  | .star :: es, c :: cs => matchesElems es (c :: cs) || matchesElems (.star :: es) cs
  | .one :: es, cs => match cs with
    | [] => false
    | _ :: cs => matchesElems es cs
  | .point d :: es, cs => match cs with
    | [] => false
    | c :: cs => c == d && matchesElems es cs
  | .set s :: es, cs => match cs with
    | [] => false
    | c :: cs => s.contains c && matchesElems es cs
termination_by es cs => es.length + cs.length

/-- Whether a name matches a pattern for a name. -/
def matchesName (pattern name : Text) : Bool :=
  matchesElems (elems pattern) name

/-- One element of a pattern for a path. -/
inductive Part where
  /-- Any number of directories. -/
  | deep
  /-- The directory above. -/
  | up
  /-- The thing with this name. -/
  | exact (name : Text)
  /-- The things whose names are of this form. -/
  | name (pattern : Text)
  /-- Nothing more, but what is found has to be a directory. -/
  | directory
  deriving DecidableEq, Repr

/-- A part that holds two stars and more. -/
structure BadPart where
  deriving DecidableEq, Repr

/-- The wording for a part with two stars and more. -/
def BadPart.message : String :=
  "Invalid pattern: '**' can only be an entire path component"

/-- Whether a text has the mark of a pattern: it is more than a name. -/
def hasMark (t : Text) : Bool :=
  t.contains '*' || t.contains '?' || t.contains '['

/-- The part of a pattern that a text gives. -/
def Part.ofText (t : Text) : Except BadPart Part :=
  if t = [] then .ok .directory
  else if t = "**" then .ok .deep
  else if t = ".." then .ok .up
  else if (Text.splitFirst? "**" t).isSome then .error {}
  else .ok (if hasMark t then .name t else .exact t)

/-- The pattern for a path that a text gives; it asks for directories when the text ends with a
slash. -/
def ofText (t : Text) : Except BadPart (List Part) :=
  let names := (Text.pieces t '/').filter fun name => name ≠ [] && name ≠ "."
  let names := if t.getLast? = some ('/' : CodePoint) then names ++ [[]] else names
  names.mapM Part.ofText

end LineSpec.Glob
