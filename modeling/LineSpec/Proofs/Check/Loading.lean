import LineSpec.Check.Survey
import LineSpec.Proofs.Spec.Partition
/-!
# Loading a specification

A file loads as the document that its characters write (`Loads`), or it does not, for one of three
reasons: it cannot be read, it is no text, or the text is no specification (`Fails`).
-/

namespace LineSpec

/-- The characters of a file are refused, not for what its octets are, where its octets are. -/
theorem Workspace.readChars_eq_error_inl_iff {w : Workspace} {p : Path} {e : AccessError} :
    w.readChars p = .error (.inl e) ↔ w.read p = .error e := by
  rw [readChars]
  cases w.read p with
  | error cause => simp
  | ok content => cases hdecode : Text.Utf8.decode content <;> simp [hdecode]

namespace Survey

variable {c : Conventions} {vars : Bindings Text} {w : Workspace} {f : Path}

/-- A file loads as a document: its octets are a text, and the document is what the text writes,
with the path of the file as its source. -/
def Loads (c : Conventions) (w : Workspace) (f : Path) (d : Document) : Prop :=
  ∃ cs, w.readChars f = .ok cs ∧ Document.parse c (some f.text) (Text.ofChars cs) = .ok d

/-- A file does not load: it cannot be read, its octets are no text, or the text is no
specification. -/
inductive Fails (c : Conventions) (w : Workspace) (f : Path) : LoadError Empty → Prop
  | unreadable {e : AccessError} (chars : w.readChars f = .error (.inl e)) :
      Fails c w f (.access e)
  | undecodable {fault : Text.Utf8.Fault} (chars : w.readChars f = .error (.inr fault)) :
      Fails c w f (.encoding fault)
  | unparsed {cs : List Char} {e : ParseError} (chars : w.readChars f = .ok cs)
      (parse : Document.parse c (some f.text) (Text.ofChars cs) = .error e) :
      Fails c w f (.parse e)

/-- A file gives a document exactly when its characters do. -/
theorem loadFile_eq_ok_iff_parse {ε : Type} {reading : Reading ε} {d : Document} :
    (loadFile reading w f).result = .ok d ↔
      ∃ cs, w.readChars f = .ok cs ∧ reading.parse (some f.text) (Text.ofChars cs) = .ok d := by
  rw [loadFile]
  cases w.readChars f with
  | error e => cases e <;> simp
  | ok cs =>
    simp only [parse]
    rcases hparse : reading.parse (some f.text) (Text.ofChars cs) with (e | e) | d' <;>
      simp [hparse]

theorem loadFile_eq_ok_iff {d : Document} :
    (loadFile (c.reading vars) w f).result = .ok d ↔ Loads c w f d := by
  simp only [Loads, loadFile_eq_ok_iff_parse, Conventions.reading, mapError_eq_ok_iff]

theorem loadFile_eq_error_iff {e : LoadError Empty} :
    (loadFile (c.reading vars) w f).result = .error e ↔ Fails c w f e := by
  constructor
  · intro h
    rw [loadFile] at h
    cases hchars : w.readChars f with
    | error cause =>
      rw [hchars] at h
      obtain cause | fault := cause
      · obtain rfl := Except.error.inj h
        exact .unreadable hchars
      · obtain rfl := Except.error.inj h
        exact .undecodable hchars
    | ok cs =>
      rw [hchars] at h
      simp only [parse, Conventions.reading] at h
      cases hparse : Document.parse c (some f.text) (Text.ofChars cs) with
      | error cause =>
        rw [hparse] at h
        obtain rfl := Except.error.inj h
        exact .unparsed hchars hparse
      | ok d =>
        rw [hparse] at h
        cases h
  · intro h
    rw [loadFile]
    cases h with
    | unreadable hchars | undecodable hchars => rw [hchars]
    | unparsed hchars hparse =>
      simp only [hchars, parse, Conventions.reading, hparse, Except.mapError]

/-- Each file loads or does not. -/
theorem loads_or_fails (c : Conventions) (w : Workspace) (f : Path) :
    (∃ d, Loads c w f d) ∨ ∃ e, Fails c w f e := by
  cases hload : (loadFile (c.reading []) w f).result with
  | ok d => exact .inl ⟨d, loadFile_eq_ok_iff.1 hload⟩
  | error e => exact .inr ⟨e, loadFile_eq_error_iff.1 hload⟩

/-- A file that does not load is put on the list of errors, whatever the reason is. -/
theorem Fails.isCollected {e : LoadError Empty} (h : Fails c w f e) : e.isCollected = true := by
  cases h <;> rfl

theorem Loads.source_eq {d : Document} (h : Loads c w f d) : d.source = some f.text := by
  obtain ⟨cs, -, hparse⟩ := h
  exact Document.source_of_ofTokens hparse

end Survey

end LineSpec
