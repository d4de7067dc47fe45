import LineSpec.Proofs.Check.Contribution
import LineSpec.Proofs.Check.Problem
import LineSpec.Proofs.Check.Success
import LineSpec.Proofs.Report.Plain
import LineSpec.Proofs.Tree.Spelling
import LineSpec.Settings.Reading
/-!
# Failures in plain words

The failures of a specification that stands at a plain path, with plain values for variables, can be
told: their texts are plain, whatever the octets of the specification and of the files that it is
about are, and a file that a report shows can be read again (`Check.canTell_of_ofFile`).
-/

namespace LineSpec

variable {c : Conventions} {vars : Bindings Text} {w : Workspace} {f : Path}

/-! ## Loading -/

namespace Survey

theorem exists_read_of_readChars {cs : List Char} (h : w.readChars f = .ok cs) :
    ∃ content, w.read f = .ok content := by
  cases hread : w.read f with
  | ok content => exact ⟨content, rfl⟩
  | error e =>
    rw [Workspace.readChars, hread] at h
    cases h

/-- The items of a specification are plain, whatever its octets are. -/
theorem plain_of_loadFile {d : Document}
    (h : (loadFile (c.reading vars) w f).result = .ok d) :
    (∀ item ∈ d.items, item.Plain) ∧ d.source = some f.text := by
  have hloads := loadFile_eq_ok_iff.1 h
  have hsource := hloads.source_eq
  obtain ⟨cs, -, hparse⟩ := hloads
  exact ⟨Document.plain_of_parse (Text.plain_ofChars cs) hparse, hsource⟩

/-- A document that is read with options is parsed with the conventions that they give. -/
theorem exists_parse_of_loadFile {o : Settings.Options} {d : Document}
    (h : (loadFile (o.reading vars) w f).result = .ok d) :
    ∃ cs, Document.parse o.conventions (some f.text) (Text.ofChars cs) = .ok d := by
  obtain ⟨cs, -, hparse⟩ := loadFile_eq_ok_iff_parse.1 h
  change o.parse _ _ = _ at hparse
  rw [Settings.Options.parse] at hparse
  split at hparse
  · exact ⟨cs, mapError_eq_ok_iff.1 hparse⟩
  · cases hparse

/-- The error of a specification at a plain path can be told, and shown in the file. -/
theorem plain_of_loadFile_eq_error {e : ParseError} (hf : f.Plain)
    (h : (loadFile (c.reading vars) w f).result = .error (.parse e)) :
    (Problem.parse e).Plain ∧ ∃ content, w.read f = .ok content := by
  obtain - | - | @⟨cs, _, hcs, hparse⟩ := loadFile_eq_error_iff.1 h
  obtain ⟨hline, hcause, hsource⟩ := Document.plain_of_parse_eq_error (Text.plain_ofChars cs) hparse
  refine ⟨Problem.plain_parse (fun file hfile => ?_) hline hcause, exists_read_of_readChars hcs⟩
  rw [hsource] at hfile
  obtain rfl := Option.some.inj hfile
  exact hf.text

/-- In a tree with plain names, the specifications below a plain path stand at plain paths. -/
theorem plain_of_mem_find {dir : Path} {extension : Text} {fs : List Path} (hw : w.tree.Plain)
    (hdir : dir.Plain) (hextension : extension.Plain) (hisDir : w.isDir dir = .ok true)
    (hfind : find w dir extension = .ok fs) (hf : f ∈ fs) : f.Plain := by
  obtain ⟨⟨parts, hpattern, hselects⟩, -⟩ := (mem_find_iff hisDir hfind).1 hf
  refine hselects.plain hw (fun name hname => ?_) hdir
  rw [patternOf, map_eq_ok_iff] at hpattern
  obtain ⟨parts, hparts, rfl⟩ := hpattern
  have hexact : .exact name ∈ parts := (List.mem_cons.1 hname).resolve_left (by simp)
  refine Glob.isName_of_exact ?_ hparts hexact
  exact (Text.plain_ofString _).append (hextension.of_subset (List.dropWhile_subset _))

end Survey

/-! ## Failures -/

namespace Check

/-- Resolving with plain values gives a plain line or an error in plain words. -/
theorem plain_of_resolve (hvars : ∀ p ∈ vars, p.2.Plain) {text : Text} (htext : text.Plain) :
    (∀ l, (c.reading vars).resolve text = .ok l → l.Plain) ∧
      ∀ e, (c.reading vars).resolve text = .error (.inl e) → e.message.Plain := by
  have hlookup : ∀ name value, vars.get? name = some value → value.Plain :=
    fun name value hvalue => hvars _ (Assoc.mem_of_get? hvalue)
  obtain ⟨hok, herror⟩ := Template.plain_of_substitute (c := c) hlookup htext
  refine ⟨fun l hl => hok l (mapError_eq_ok_iff.1 hl), fun e he => ?_⟩
  obtain ⟨e', he', heq⟩ := mapError_eq_error_iff.1 he
  obtain rfl := Sum.inl.inj heq
  exact herror e' he'

/-- The problem of an item that is about a plain path can be told, and its lines can be read again
where they are at fault. -/
theorem plain_of_item (hvars : ∀ p ∈ vars, p.2.Plain) {body : Body} {target : Path}
    (hbody : ∀ e ∈ body, e.text.Plain) (htarget : target.Plain) {p : Problem}
    (h : (item (c.reading vars) w body target).result = .ok (some p)) :
    p.Plain ∧ (∀ e, p ≠ .parse e) ∧
      ∀ e, p = .mismatch e → ∃ content, w.read target = .ok content := by
  cases finds_of_item h with
  | missing => exact ⟨Problem.plain_targetMissing htarget.text, by simp, by simp⟩
  | unreadable => exact ⟨Problem.plain_targetUnreadable htarget.text _, by simp, by simp⟩
  | undecodable => exact ⟨Problem.plain_targetUnreadable htarget.text _, by simp, by simp⟩
  | @mismatch content e read failed =>
    refine ⟨Problem.plain_mismatch fun actual hactual => ?_, by simp, fun _ _ => ⟨content, read⟩⟩
    -- a line that is found is a line of the file
    obtain ⟨l, hl, rfl⟩ := List.mem_map.1 (Match.actual_mem_of_failed failed hactual)
    exact (Text.plain_of_mem_lines_ofBytes hl).of_subset (Text.bare_subset l)
  | unresolved read refused =>
    obtain ⟨text, line, hmem, herror⟩ := Match.exists_of_unresolved refused
    have htext : text.Plain := hbody _ hmem
    exact ⟨Problem.plain_placeholder ((plain_of_resolve hvars htext).2 _ herror), by simp, by simp⟩

/-- A failure whose texts are plain; the file that its report shows can be read. -/
structure Failure.CanTell (w : Workspace) (root : Path) (f : Failure) : Prop where
  specFile : f.specFile.Plain
  target : f.target.Plain
  problem : f.problem.Plain
  parse : ∀ e, f.problem = .parse e → ∃ content, w.read (Path.ofText f.specFile) = .ok content
  mismatch : ∀ e, f.problem = .mismatch e → ∃ content, w.read (root.child f.target) = .ok content

/-- The items that declare a parameter are items of the document, with values that stand in it. -/
theorem plain_of_mem_declaring {d : Document} (hd : ∀ item ∈ d.items, item.Plain) {param : Text}
    {t : Item × Text} (ht : t ∈ d.declaring param) : t.1.Plain ∧ t.2.Plain := by
  obtain ⟨item, hitem, hdeclares⟩ := List.mem_filterMap.1 ht
  obtain ⟨value, hvalue, rfl⟩ := Option.map_eq_some_iff.1 hdeclares
  exact ⟨hd item hitem, ((hd item hitem).params _ (Assoc.mem_of_get? hvalue)).2⟩

theorem result_of_problem? {root : Path} {t : Item × Text} {p : Problem}
    (h : problem? (c.reading vars) w root t = some p) :
    (item (c.reading vars) w t.1.body (root.child t.2)).result = .ok (some p) := by
  rw [problem?] at h
  split at h
  next hresult => rw [hresult, h]
  · cases h

/-- The failure of an item of a specification at a plain path can be told. -/
theorem canTell_of_item (hvars : ∀ p ∈ vars, p.2.Plain) {root : Path} (hroot : root.Plain)
    (hf : f.Plain) {d : Document} (hload : (Survey.loadFile (c.reading vars) w f).result = .ok d)
    {param : Text} {t : Item × Text} (ht : t ∈ d.declaring param) {p : Problem}
    (hp : problem? (c.reading vars) w root t = some p) :
    Failure.CanTell w root ⟨nameOf d, t.1.line, t.2, p⟩ := by
  obtain ⟨hitems, hsource⟩ := Survey.plain_of_loadFile hload
  obtain ⟨hitem, hvalue⟩ := plain_of_mem_declaring hitems ht
  have hname : (nameOf d).Plain := by
    rw [nameOf, hsource]
    split
    · exact Text.plain_ofString _
    · exact Text.plain_ofString _
    next file _ hfile => exact Option.some.inj hfile ▸ hf.text
  obtain ⟨hplain, hparse, hmismatch⟩ :=
    plain_of_item hvars hitem.body (hroot.child hvalue) (result_of_problem? hp)
  exact ⟨hname, hvalue, hplain, fun e he => absurd he (hparse e), hmismatch⟩

/-- The failure of a specification at a plain path that cannot be loaded can be told. -/
theorem canTell_of_rejection {root : Path} (hf : f.Plain) {e : Survey.LoadError Empty}
    (hload : (Survey.loadFile (c.reading vars) w f).result = .error e) {failure : Failure}
    {message : Text} (h : rejection f e = .ok (failure, message)) : failure.CanTell w root := by
  cases e with
  | parse e =>
    obtain ⟨rfl, -⟩ := Prod.mk.inj (Except.ok.inj h)
    obtain ⟨hplain, hread⟩ := Survey.plain_of_loadFile_eq_error hf hload
    refine ⟨hf.text, Text.plain_nil, hplain, fun _ _ => ?_, by simp⟩
    rwa [hf.ofText_text]
  | access e =>
    obtain ⟨rfl, -⟩ := Prod.mk.inj (Except.ok.inj h)
    refine ⟨hf.text, Text.plain_nil, ?_, by simp, by simp⟩
    cases e <;> exact Problem.plain_targetUnreadable hf.text _
  | encoding fault =>
    obtain ⟨rfl, -⟩ := Prod.mk.inj (Except.ok.inj h)
    exact ⟨hf.text, Text.plain_nil, Problem.plain_targetUnreadable hf.text _, by simp, by simp⟩
  | refused e => exact e.elim

/-- The failures of a specification at a plain path can be told. -/
theorem canTell_of_ofFile (hvars : ∀ p ∈ vars, p.2.Plain) {root : Path} (hroot : root.Plain)
    (hf : f.Plain) {param : Text} {failure : Failure}
    (h : failure ∈ (ofFile (c.reading vars) w root param f).failures) :
    failure.CanTell w root := by
  rw [ofFile] at h
  cases hload : (Survey.loadFile (c.reading vars) w f).result with
  | ok d =>
    simp only [hload, ofItems_eq] at h
    obtain ⟨t, ht, hfailure⟩ := List.mem_filterMap.1 h
    obtain ⟨p, hp, rfl⟩ := Option.map_eq_some_iff.1 hfailure
    exact canTell_of_item hvars hroot hf hload ht hp
  | error e =>
    simp only [hload] at h
    cases hrejection : rejection f e with
    | ok r =>
      rw [hrejection] at h
      obtain rfl := List.mem_singleton.1 h
      exact canTell_of_rejection hf hload hrejection
    | error e => exact e.elim

end Check

end LineSpec
