import LineSpec.Check.Run
import LineSpec.Proofs.Steps
/-!
# Outcomes as sums

What a check brings, told apart from the order in which its items are checked and from what is noted
down on the way. The outcome of a document is that of its items, each on its own
(`document_eq_ok_iff`): the number of them, and one failure for each that has a problem. It does not
matter how many are checked at a time. The outcome of a directory is the sum of the outcomes of its
files (`directory_eq_ok_iff`).
-/

namespace LineSpec.Check

variable {ε : Type} {r : Reading ε} {w : Workspace} {root : Path} {param : Text} {jobs : Int}

/-! ## Items -/

/-- The problem that the check of an item finds, if it finds one. -/
def problem? (r : Reading ε) (w : Workspace) (root : Path) (t : Item × Text) : Option Problem :=
  match (item r w t.1.body (root.child t.2)).result with
  | .ok p => p
  | .error _ => none

theorem problem?_eq {t : Item × Text} {p : Option Problem}
    (h : (item r w t.1.body (root.child t.2)).result = .ok p) : problem? r w root t = p := by
  rw [problem?, h]

theorem result_eq_ok_problem? {t : Item × Text}
    (h : ∃ p, (item r w t.1.body (root.child t.2)).result = .ok p) :
    (item r w t.1.body (root.child t.2)).result = .ok (problem? r w root t) := by
  obtain ⟨p, hp⟩ := h
  rw [problem?_eq hp, hp]

theorem result_inOrder (check : Item × Text → Noted (ItemResult ε)) (ts : List (Item × Text)) :
    (inOrder check ts).result = ts.mapM (m := Except (Escape ε)) fun t => (check t).result := by
  induction ts with
  | nil => rfl
  | cons t ts ih =>
    rw [List.mapM_cons, ← ih, inOrder]
    obtain ⟨result, es⟩ := check t
    cases result with
    | error e => rfl
    | ok p =>
      obtain ⟨next, es'⟩ := inOrder check ts
      cases next <;> rfl

/-- Checking all items at once brings the same as checking them one after the other. -/
theorem result_pooled (check : Item × Text → Noted (ItemResult ε)) (ts : List (Item × Text)) :
    (pooled check ts).result = ts.mapM (m := Except (Escape ε)) fun t => (check t).result := by
  rw [pooled, List.map_map, List.mapM_map]
  rfl

/-! ## Documents -/

/-- Outcomes together. -/
def total (os : List Outcome) : Outcome := os.foldr Outcome.append {}

theorem total_cons (o : Outcome) (os : List Outcome) :
    total (o :: os) = o.append (total os) := rfl

/-- The outcome of an item of a document. -/
def ofItem (r : Reading ε) (w : Workspace) (root : Path) (specFile : Text) (t : Item × Text) :
    Outcome :=
  ⟨1, ((problem? r w root t).map fun p => ⟨specFile, t.1.line, t.2, p⟩).toList⟩

/-- The outcome of the items of a document, each on its own. -/
def ofItems (r : Reading ε) (w : Workspace) (root : Path) (param : Text) (d : Document) : Outcome :=
  total ((d.declaring param).map (ofItem r w root (nameOf d)))

theorem total_map_ofItem (specFile : Text) (ts : List (Item × Text)) :
    total (ts.map (ofItem r w root specFile)) =
      ⟨ts.length, failuresOf specFile ts (ts.map (problem? r w root))⟩ := by
  induction ts with
  | nil => rfl
  | cons t ts ih =>
    rw [List.map_cons, total_cons, ih, ofItem, Outcome.append, Outcome.mk.injEq]
    constructor
    · exact Int.add_comm 1 ts.length
    · rw [failuresOf, failuresOf, List.map_cons, List.zip_cons_cons, List.filterMap_cons]
      cases problem? r w root t <;> rfl

theorem result_document (d : Document) :
    (document r w d root param jobs).result =
      ((d.declaring param).mapM fun t => (item r w t.1.body (root.child t.2)).result).map fun ps =>
        ⟨(d.declaring param).length, failuresOf (nameOf d) (d.declaring param) ps⟩ := by
  rw [document]
  split
  next ps es h =>
    have hps := congrArg Noted.result h
    split at hps
    · rw [result_pooled] at hps
      rw [hps]
    · rw [result_inOrder] at hps
      rw [hps]

/-- The check of a document comes to an end exactly when that of each item does, and then brings
what the items bring. -/
theorem document_eq_ok_iff {d : Document} {o : Outcome} :
    (document r w d root param jobs).result = .ok o ↔
      (∀ t ∈ d.declaring param, ∃ p, (item r w t.1.body (root.child t.2)).result = .ok p) ∧
        o = ofItems r w root param d := by
  rw [result_document, map_eq_ok_iff]
  simp only [mapM_eq_ok_iff_map fun t p => problem?_eq (r := r) (w := w) (t := t) (p := p)]
  constructor
  · rintro ⟨_, ⟨hall, rfl⟩, rfl⟩
    exact ⟨hall, by rw [ofItems, total_map_ofItem]⟩
  · rintro ⟨hall, rfl⟩
    exact ⟨_, ⟨hall, rfl⟩, by rw [ofItems, total_map_ofItem]⟩

/-! ## Directories -/

theorem result_files (check : Path → Noted (Except (DirError ε) Outcome)) (paths : List Path) :
    (files check paths).result =
      (paths.mapM (m := Except (DirError ε)) fun path => (check path).result).map total := by
  induction paths with
  | nil => rfl
  | cons path paths ih =>
    rw [List.mapM_cons, files]
    obtain ⟨result, es⟩ := check path
    cases result with
    | error e => rfl
    | ok o =>
      change (files check paths).result.map o.append = _
      rw [ih]
      cases paths.mapM (m := Except (DirError ε)) fun path => (check path).result <;> rfl

theorem result_file (f : Path) :
    (file r w root param jobs f).result =
      match (Survey.loadFile r w f).result with
      | .ok d => (document r w d root param jobs).result.mapError .escape
      | .error e =>
        ((rejection f e).map fun p => ⟨0, [p.1]⟩).mapError fun e => .walk (.load (.refused e)) := by
  rw [file, Survey.visit]
  obtain ⟨result, es⟩ := Survey.loadFile r w f
  cases result with
  | ok d => rfl
  | error e =>
    dsimp only
    cases rejection f e <;> rfl

theorem result_directory (dir : Path) (extension : Text) (root : Option Path) :
    (directory r w dir extension root param jobs).result =
      (Survey.files w dir extension).mapError DirError.walk >>= fun fs =>
        (files (file r w (root.getD dir) param jobs) fs).result := by
  rw [directory]
  cases Survey.files w dir extension with
  | error e => rfl
  | ok fs =>
    dsimp only
    change _ = (files (file r w (root.getD dir) param jobs) fs).result
    split
    next h => rw [h]
    next h => rw [h]

section
variable {r : Reading Empty}

/-- The outcome of a specification file: that of its items, or a failure without a target when it
cannot be loaded. -/
def ofFile (r : Reading Empty) (w : Workspace) (root : Path) (param : Text) (f : Path) : Outcome :=
  match (Survey.loadFile r w f).result with
  | .ok d => ofItems r w root param d
  | .error e =>
    match rejection f e with
    | .ok (failure, _) => ⟨0, [failure]⟩
    | .error e => nomatch e

theorem file_eq_ok_iff {f : Path} {o : Outcome} :
    (file r w root param jobs f).result = .ok o ↔
      (∀ d, (Survey.loadFile r w f).result = .ok d → ∀ t ∈ d.declaring param,
        ∃ p, (item r w t.1.body (root.child t.2)).result = .ok p) ∧
      o = ofFile r w root param f := by
  rw [result_file, ofFile]
  cases (Survey.loadFile r w f).result with
  | ok d =>
    dsimp only
    rw [mapError_eq_ok_iff, document_eq_ok_iff]
    refine and_congr_left fun _ => ⟨fun h d' hd => ?_, fun h => h d rfl⟩
    obtain rfl := Except.ok.inj hd
    exact h
  | error e =>
    dsimp only
    rw [mapError_eq_ok_iff, map_eq_ok_iff]
    cases rejection f e with
    | error e => exact e.elim
    | ok p => simp [eq_comm]

/-- The check of a directory comes to an end exactly when its files can be listed and the check of
each item in them comes to an end, and then brings what the files bring. -/
theorem directory_eq_ok_iff {dir : Path} {extension : Text} {root : Option Path} {o : Outcome} :
    (directory r w dir extension root param jobs).result = .ok o ↔
      ∃ fs, Survey.files (ε := Empty) w dir extension = .ok fs ∧
        (∀ f ∈ fs, ∀ d, (Survey.loadFile r w f).result = .ok d → ∀ t ∈ d.declaring param,
          ∃ p, (item r w t.1.body ((root.getD dir).child t.2)).result = .ok p) ∧
        o = total (fs.map (ofFile r w (root.getD dir) param)) := by
  have hfile : ∀ f o, (file r w (root.getD dir) param jobs f).result = .ok o →
      ofFile r w (root.getD dir) param f = o := by
    intro f o h
    exact (file_eq_ok_iff.1 h).2.symm
  rw [result_directory, bind_eq_ok_iff]
  simp only [mapError_eq_ok_iff, result_files, map_eq_ok_iff, mapM_eq_ok_iff_map hfile,
    file_eq_ok_iff]
  refine exists_congr fun fs => and_congr_right fun _ => ?_
  constructor
  · rintro ⟨_, ⟨hall, rfl⟩, rfl⟩
    refine ⟨fun f hf => ?_, rfl⟩
    obtain ⟨o, hitems, -⟩ := hall f hf
    exact hitems
  · rintro ⟨hall, rfl⟩
    exact ⟨_, ⟨fun f hf => ⟨_, hall f hf, rfl⟩, rfl⟩, rfl⟩

end

end LineSpec.Check
