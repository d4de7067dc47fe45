import LineSpec.Check.Reading
import LineSpec.Settings.Basic
import LineSpec.Text.Search
/-!
# Settings as conventions

The conventions that settings give. A marker may not be empty. A marker that is no text is a misfit
that comes to light where it is used: as a parameter marker when a line is looked at, as an opening
text when a line is resolved, as a closing text when a placeholder is open. No line is ever equal to
a skip marker that is no text. When all markers are texts the conventions are those of the four
texts (`Options.conventions_of_text`).
-/

namespace LineSpec

/-- A setting that is used but has a value of the wrong type. -/
inductive Misfit where
  | marker (m : Marker)
  | specDir
  | extension
  | root
  deriving DecidableEq, Repr

namespace Settings

/-- The settings that conventions come from, no marker of them empty. -/
structure Options where
  skip : Json
  item : Json
  opening : Json
  closing : Json
  strictEnd : Json
  deriving Repr

/-- The options of settings, or the first marker that is empty. `strictEnd` goes before the
setting. -/
def options (s : Settings) (strictEnd : Option Bool) : Except Marker Options :=
  if !s.skip.truthy then .error .skip
  else if !s.item.truthy then .error .item
  else if !s.opening.truthy then .error .opening
  else if !s.closing.truthy then .error .closing
  else .ok ⟨s.skip, s.item, s.opening, s.closing, (strictEnd.map Json.bool).getD s.strictEnd⟩

namespace Options

/-- The text of a marker; `other` stands for one that is no text. -/
def markerText (j : Json) (other : Text) : Text :=
  match j with
  | .text t => if t = [] then other else t
  | _ => other

theorem markerText_ne {j : Json} {other : Text} (h : other ≠ []) : markerText j other ≠ [] := by
  unfold markerText
  repeat' split
  all_goals assumption

theorem markerText_cases (j : Json) (other : Text) :
    j = .text (markerText j other) ∨ markerText j other = other := by
  unfold markerText
  repeat' split
  all_goals simp_all

/-- The conventions that options give. A line feed stands for a skip marker that is no text, because
no line is equal to it. -/
def conventions (o : Options) : Conventions where
  skip := markerText o.skip "\n"
  item := markerText o.item "##"
  opening := markerText o.opening "$\x7b"
  closing := markerText o.closing "\x7d"
  strictEnd := o.strictEnd.truthy
  skip_ne := markerText_ne (by decide)
  item_ne := markerText_ne (by decide)
  opening_ne := markerText_ne (by decide)
  closing_ne := markerText_ne (by decide)

/-- Whether a value is a text. -/
def isText (j : Json) : Bool := j.text?.isSome

/-- The document that a text writes. -/
def parse (o : Options) (source : Option Text) (text : Text) :
    Except (ParseError ⊕ Misfit) Document :=
  if isText o.item || (Text.lines text).isEmpty then
    (Document.parse o.conventions source text).mapError .inl
  else .error (.inr (.marker .item))

/-- The misfit that scanning a line for placeholders comes upon. -/
def misfitIn? (o : Options) (line : Text) : Option Misfit :=
  if !isText o.opening then some (.marker .opening)
  else if isText o.closing then none
  else
    (Text.splitFirst? o.conventions.opening line).map fun _ => .marker .closing

/-- A line with the values of its placeholders. -/
def resolve (o : Options) (vars : Bindings Text) (line : Text) :
    Except (PlaceholderError ⊕ Misfit) Text :=
  match o.misfitIn? line with
  | some m => .error (.inr m)
  | none => (Template.substitute o.conventions vars.get? line).mapError .inl

/-- The names of the placeholders in a line. -/
def placeholders (o : Options) (line : Text) :
    Except (PlaceholderError ⊕ Misfit) (List Text) :=
  match o.misfitIn? line with
  | some m => .error (.inr m)
  | none => (Template.placeholders o.conventions line).mapError .inl

/-- How specifications are read with these options and variables. -/
def reading (o : Options) (vars : Bindings Text) : Reading Misfit where
  parse := o.parse
  resolve := o.resolve vars
  strictEnd := o.strictEnd.truthy

/-- Options whose markers are texts that are not empty give the conventions of these texts. -/
theorem conventions_of_text {skip item opening closing : Text} {strictEnd : Json}
    {c : Conventions} (h : Conventions.of? skip item opening closing strictEnd.truthy = .ok c) :
    (Options.mk (.text skip) (.text item) (.text opening) (.text closing) strictEnd).conventions =
      c := by
  unfold Conventions.of? at h
  repeat' split at h
  all_goals simp_all [conventions, markerText]

end Options

end Settings

end LineSpec
