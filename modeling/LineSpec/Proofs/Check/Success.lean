import LineSpec.Proofs.Check.Contribution
import LineSpec.Proofs.Check.Loading
import LineSpec.Proofs.Check.Refusal
/-!
# When nothing fails

The check of an item finds no problem exactly when the file that the item names can be read and fits
the item's body (`item_eq_none_iff`). So the check of a directory succeeds exactly when each listed
file can be decoded and parsed and each item that declares the parameter is fitted by its file
(`directory_success_iff`): no file and no item is left out.
-/

namespace LineSpec.Check

variable {c : Conventions} {vars : Bindings Text} {w : Workspace} {root : Path} {param : Text}
  {jobs : Int} {f : Path}

/-! ## Files that fit a body -/

/-- The file at a path can be read, and the body matches its lines under conventions and variables.
A fault in the file's octets, which stands behind the lines that can be read, does not matter where
the match leaves the rest of the file unread. -/
structure Fits (c : Conventions) (vars : Bindings Text) (w : Workspace) (body : Body)
    (target : Path) (content : List UInt8) : Prop where
  read : w.read target = .ok content
  matched : (Match.run (Template.substitute c vars.get?) c.strictEnd body
    (Text.Feed.ofBytes content).lines).verdict = .matched
  decodable : (Text.Feed.ofBytes content).fault = none ∨ c.strictEnd = false ∨
    body.endsWithSkip = true

theorem problemOf_eq_none_iff {ε : Type} {strictEnd : Bool} {body : Body} {target : Path}
    {fault : Option Text.Utf8.Fault} {v : Match.Verdict (PlaceholderError ⊕ ε)} :
    problemOf strictEnd body target fault v = .ok none ↔
      v = .matched ∧ (fault = none ∨ v.readsEnd strictEnd body = false) := by
  rw [problemOf.eq_def]
  cases fault with
  | none => rcases v with _ | e | e | e <;> simp
  | some fault =>
    cases hreads : v.readsEnd strictEnd body with
    | true => simp
    | false => rcases v with _ | e | e | e <;> simp

theorem readsEnd_matched_eq_false_iff {ε : Type} {strictEnd : Bool} {body : Body} :
    (Match.Verdict.matched : Match.Verdict ε).readsEnd strictEnd body = false ↔
      strictEnd = false ∨ body.endsWithSkip = true := by
  rw [Match.Verdict.readsEnd, Bool.and_eq_false_iff, Bool.not_eq_false']

/-- The check of an item finds no problem exactly when the file fits the body. -/
theorem item_eq_none_iff {body : Body} {target : Path} :
    (item (c.reading vars) w body target).result = .ok none ↔
      ∃ content, Fits c vars w body target content := by
  rw [item]
  cases hread : w.read target with
  | error e =>
    refine iff_of_false ?_ ?_
    · cases e with
      | nulInPath | unencodable e => simp
      | os cause path => cases cause <;> simp
    · rintro ⟨content, hfits⟩
      cases hread.symm.trans hfits.read
  | ok content =>
    -- the reading of conventions resolves as they do, but for the type of its errors
    have hverdict : (Match.run (c.reading vars).resolve (c.reading vars).strictEnd body
        (Text.Feed.ofBytes content).lines).verdict =
          (Match.run (Template.substitute c vars.get?) c.strictEnd body
            (Text.Feed.ofBytes content).lines).verdict.rename .inl := by
      rw [← Match.Run.verdict_rename, ← Match.run_mapError]
      rfl
    change problemOf c.strictEnd body target _ _ = .ok none ↔ _
    rw [problemOf_eq_none_iff, hverdict, Match.Verdict.rename_eq_matched_iff,
      Match.Verdict.readsEnd_rename]
    constructor
    · rintro ⟨hmatched, hfault⟩
      rw [hmatched, readsEnd_matched_eq_false_iff] at hfault
      exact ⟨content, hread, hmatched, hfault⟩
    · rintro ⟨content', hfits⟩
      obtain rfl := Except.ok.inj (hread.symm.trans hfits.read)
      rw [hfits.matched, readsEnd_matched_eq_false_iff]
      exact ⟨rfl, hfits.decodable⟩

/-! ## Files without a failure -/

/-- Nothing is wrong with a specification file: it can be decoded and parsed, and each of its items
that declares the parameter is fitted by the file that it names. -/
def IsMet (c : Conventions) (vars : Bindings Text) (w : Workspace) (root : Path) (param : Text)
    (f : Path) : Prop :=
  ∃ cs d, w.readChars f = .ok cs ∧ Document.parse c (some f.text) (Text.ofChars cs) = .ok d ∧
    ∀ t ∈ d.declaring param, ∃ content, Fits c vars w t.1.body (root.child t.2) content

/-- Nothing is wrong with a file exactly when the checks of its items come to an end and it
contributes no failure. -/
theorem isMet_iff :
    IsMet c vars w root param f ↔
      (∀ d, (Survey.loadFile (c.reading vars) w f).result = .ok d → ∀ t ∈ d.declaring param,
        ∃ p, (item (c.reading vars) w t.1.body (root.child t.2)).result = .ok p) ∧
      (ofFile (c.reading vars) w root param f).failures = [] := by
  have hmet : IsMet c vars w root param f ↔
      ∃ d, (Survey.loadFile (c.reading vars) w f).result = .ok d ∧ ∀ t ∈ d.declaring param,
        (item (c.reading vars) w t.1.body (root.child t.2)).result = .ok none := by
    simp only [IsMet, Survey.loadFile_eq_ok_iff, Survey.Loads, item_eq_none_iff]
    constructor
    · rintro ⟨cs, d, hcs, hd, hitems⟩
      exact ⟨d, ⟨cs, hcs, hd⟩, hitems⟩
    · rintro ⟨d, ⟨cs, hcs, hd⟩, hitems⟩
      exact ⟨cs, d, hcs, hd, hitems⟩
  rw [hmet, ofFile]
  cases (Survey.loadFile (c.reading vars) w f).result with
  | error e =>
    refine iff_of_false (by simp) fun h => ?_
    cases hreject : rejection f e with
    | error e => exact e.elim
    | ok p => simp [hreject] at h
  | ok d =>
    simp only [Except.ok.injEq, exists_eq_left', forall_eq', ofItems_eq, List.filterMap_eq_nil_iff,
      Option.map_eq_none_iff]
    constructor
    · intro h
      exact ⟨fun t ht => ⟨none, h t ht⟩, fun t ht => problem?_eq (h t ht)⟩
    · rintro ⟨hends, hnone⟩ t ht
      rw [result_eq_ok_problem? (hends t ht), hnone t ht]

/-- The check of a directory that exists succeeds exactly when its files can be listed and nothing
is wrong with any of them. -/
theorem directory_success_iff {dir : Path} {extension : Text} {root : Option Path}
    (hdir : w.isDir dir = .ok true) :
    (∃ o, (directory (c.reading vars) w dir extension root param jobs).result = .ok o ∧
      o.success = true) ↔
      ∃ fs, Survey.find w dir extension = .ok fs ∧
        ∀ f ∈ fs, IsMet c vars w (root.getD dir) param f := by
  simp only [directory_eq_ok_iff, Survey.files_eq_ok_iff hdir, isMet_iff, Outcome.success,
    List.isEmpty_iff]
  constructor
  · rintro ⟨_, ⟨fs, hfs, hitems, rfl⟩, hsuccess⟩
    rw [total_map, List.flatMap_eq_nil_iff] at hsuccess
    exact ⟨fs, hfs, fun f hf => ⟨hitems f hf, hsuccess f hf⟩⟩
  · rintro ⟨fs, hfs, hmet⟩
    refine ⟨_, ⟨fs, hfs, fun f hf => (hmet f hf).1, rfl⟩, ?_⟩
    rw [total_map, List.flatMap_eq_nil_iff]
    exact fun f hf => (hmet f hf).2

/-! ## What ends a check -/

/-- What ends the check of a directory that exists: its files cannot be listed, or no file can have
the path that an item gives. -/
theorem directory_eq_error {r : Reading Empty} {dir : Path} {extension : Text}
    {root : Option Path} (hdir : w.isDir dir = .ok true) {e : DirError Empty}
    (h : (directory r w dir extension root param jobs).result = .error e) :
    (∃ e', e = .walk (.find e')) ∨ ∃ e', e = .escape (.access e') := by
  rw [result_directory, Survey.files, hdir, bind_eq_error_iff] at h
  rcases h with h | ⟨fs, -, h⟩
  · simp only [mapError_eq_error_iff] at h
    obtain ⟨_, ⟨e', -, rfl⟩, rfl⟩ := h
    exact .inl ⟨e', rfl⟩
  · rw [result_files, map_eq_error_iff] at h
    obtain ⟨f, -, hf⟩ := exists_of_mapM_eq_error h
    rw [result_file] at hf
    split at hf
    · obtain ⟨e', -, rfl⟩ := mapError_eq_error_iff.1 hf
      cases e' with
      | access e' => exact .inr ⟨e', rfl⟩
      | refused e' => exact e'.elim
    · obtain ⟨e', -, -⟩ := mapError_eq_error_iff.1 hf
      exact e'.elim

end LineSpec.Check
