import LineSpec.Proofs.Check.Listing
import LineSpec.Proofs.Check.Outcome
/-!
# What an outcome counts

An outcome holds the number of items that were checked and a list of failures, among them those of
files that could not be loaded. The number of items that passed is taken from these two: failures
that name a target are subtracted. An item may give its parameter the empty value, though, and then
its failure names no target either. So what counts as passed are the items without a problem and the
failing ones with an empty value (`Outcome.Accounts`), and the count is right exactly when there are
none of the latter (`countsRight_iff`).
-/

namespace LineSpec.Check

variable {ε : Type}

/-! ## Findings -/

/-- The value that an item gives a parameter, with the problem that the check of the item finds, if
it finds one. -/
abbrev Finding := Text × Option Problem

/-- What the checks of the items of a document find. -/
def findings (r : Reading ε) (w : Workspace) (root : Path) (param : Text) (d : Document) :
    List Finding :=
  (d.declaring param).map fun t => (t.2, problem? r w root t)

/-- Whether a specification file can be loaded. -/
def isLoaded (r : Reading ε) (w : Workspace) (f : Path) : Bool :=
  (Survey.loadFile r w f).result.isOk

/-- What the checks of the items of a specification file find; a file that cannot be loaded has no
items. -/
def findingsIn (r : Reading ε) (w : Workspace) (root : Path) (param : Text) (f : Path) :
    List Finding :=
  match (Survey.loadFile r w f).result with
  | .ok d => findings r w root param d
  | .error _ => []

/-- Whether an item fails and its failure names no target, because the item's value is empty. -/
def failsNameless (v : Finding) : Bool :=
  v.2.isSome && v.1.isEmpty

/-! ## Accounts -/

namespace Outcome

/-- An outcome counts findings correctly: passed are those without a problem, and those with one are
the rest of what was checked. -/
structure CountsRight (o : Outcome) (vs : List Finding) : Prop where
  passed : o.passed = vs.countP fun v => v.2.isNone
  rest : o.passed + vs.countP (fun v => v.2.isSome) = o.checked

/-- What an outcome counts, where `rejected` files could not be loaded. -/
structure Accounts (o : Outcome) (vs : List Finding) (rejected : Nat) : Prop where
  checked : o.checked = vs.length
  failures : o.failures.length = vs.countP (fun v => v.2.isSome) + rejected
  passed : o.passed = vs.countP (fun v => v.2.isNone) + vs.countP failsNameless

theorem passed_append (o o' : Outcome) : (o.append o').passed = o.passed + o'.passed := by
  simp only [passed, append, List.filter_append, List.length_append]
  omega

namespace Accounts

variable {o o' : Outcome} {vs vs' : List Finding} {n n' : Nat}

theorem empty : ({} : Outcome).Accounts [] 0 := ⟨rfl, rfl, rfl⟩

/-- One file that cannot be loaded is a failure, but neither checked nor passed. -/
theorem rejection {f : Failure} (hf : f.target = []) : (⟨0, [f]⟩ : Outcome).Accounts [] 1 := by
  refine ⟨rfl, rfl, ?_⟩
  simp [Outcome.passed, hf]

theorem append (h : o.Accounts vs n) (h' : o'.Accounts vs' n') :
    (o.append o').Accounts (vs ++ vs') (n + n') where
  checked := by
    rw [Outcome.append, h.checked, h'.checked, List.length_append]
    rfl
  failures := by
    rw [Outcome.append, List.length_append, h.failures, h'.failures, List.countP_append]
    omega
  passed := by
    rw [passed_append, h.passed, h'.passed, List.countP_append, List.countP_append]
    omega

/-- The count is right exactly when no failure of an item is without a target. -/
theorem countsRight_iff (h : o.Accounts vs n) :
    o.CountsRight vs ↔ ∀ v ∈ vs, v.1 = [] → v.2 = none := by
  have hnameless : vs.countP failsNameless = 0 ↔ ∀ v ∈ vs, v.1 = [] → v.2 = none := by
    rw [List.countP_eq_zero]
    refine forall₂_congr fun v _ => ?_
    rw [failsNameless, Bool.and_eq_true, List.isEmpty_iff, not_and', Option.not_isSome_iff_eq_none]
  have hsplit : vs.length = vs.countP (fun v => v.2.isNone) + vs.countP fun v => v.2.isSome := by
    rw [List.length_eq_countP_add_countP fun v => v.2.isNone]
    congr
    funext v
    cases v.2 <;> rfl
  have hpassed := h.passed
  have hchecked := h.checked
  rw [← hnameless]
  constructor
  · intro hright
    have := hright.passed
    omega
  · intro hzero
    exact ⟨by omega, by omega⟩

end Accounts

end Outcome

/-! ## Checks -/

/-- One item is checked, and its failure is one without a target when its value is empty. -/
theorem accounts_ofItem (r : Reading ε) (w : Workspace) (root : Path) (specFile : Text)
    (t : Item × Text) :
    (ofItem r w root specFile t).Accounts [(t.2, problem? r w root t)] 0 := by
  obtain ⟨item, value⟩ := t
  rw [ofItem]
  cases problem? r w root (item, value) with
  | none => exact ⟨rfl, rfl, rfl⟩
  | some problem =>
    refine ⟨rfl, rfl, ?_⟩
    cases value <;> rfl

theorem accounts_ofItems (r : Reading ε) (w : Workspace) (root : Path) (param : Text)
    (d : Document) :
    (ofItems r w root param d).Accounts (findings r w root param d) 0 := by
  rw [ofItems, findings]
  induction d.declaring param with
  | nil => exact .empty
  | cons t ts ih =>
    exact (accounts_ofItem r w root (nameOf d) t).append ih

theorem accounts_ofFile (r : Reading Empty) (w : Workspace) (root : Path) (param : Text)
    (f : Path) :
    (ofFile r w root param f).Accounts (findingsIn r w root param f)
      (if !isLoaded r w f then 1 else 0) := by
  rw [ofFile, findingsIn, isLoaded]
  cases (Survey.loadFile r w f).result with
  | ok d => exact accounts_ofItems r w root param d
  | error e =>
    cases e with
    | parse e => exact .rejection rfl
    | access e => exact .rejection rfl
    | encoding fault => exact .rejection rfl
    | refused e => exact e.elim

theorem accounts_total (r : Reading Empty) (w : Workspace) (root : Path) (param : Text)
    (fs : List Path) :
    (total (fs.map (ofFile r w root param))).Accounts (fs.flatMap (findingsIn r w root param))
      (fs.countP fun f => !isLoaded r w f) := by
  induction fs with
  | nil => exact .empty
  | cons f fs ih =>
    rw [List.map_cons, total_cons, List.flatMap_cons, List.countP_cons, Nat.add_comm]
    exact (accounts_ofFile r w root param f).append ih

/-- The check of a document, and that of a directory, counts as passed the items without a problem
and the failing ones whose value is empty. The count is right exactly when every item with an empty
value is without a problem. -/
theorem outcome_countsRight_iff (r : Reading Empty) (w : Workspace) (param : Text) (jobs : Int) :
    (∀ d root o, (document r w d root param jobs).result = .ok o →
      (∀ t ∈ d.declaring param,
        (item r w t.1.body (root.child t.2)).result = .ok (problem? r w root t)) ∧
      o.Accounts (findings r w root param d) 0 ∧
      (o.CountsRight (findings r w root param d) ↔
        ∀ v ∈ findings r w root param d, v.1 = [] → v.2 = none)) ∧
    ∀ dir extension root o, (directory r w dir extension root param jobs).result = .ok o →
      ∃ fs, Survey.files (ε := Empty) w dir extension = .ok fs ∧
        (∀ f ∈ fs, ∀ d, (Survey.loadFile r w f).result = .ok d → ∀ t ∈ d.declaring param,
          (item r w t.1.body ((root.getD dir).child t.2)).result =
            .ok (problem? r w (root.getD dir) t)) ∧
        o.Accounts (fs.flatMap (findingsIn r w (root.getD dir) param))
          (fs.countP fun f => !isLoaded r w f) ∧
        (o.CountsRight (fs.flatMap (findingsIn r w (root.getD dir) param)) ↔
          ∀ v ∈ fs.flatMap (findingsIn r w (root.getD dir) param), v.1 = [] → v.2 = none) := by
  constructor
  · intro d root o h
    obtain ⟨hitems, rfl⟩ := document_eq_ok_iff.1 h
    have haccounts := accounts_ofItems r w root param d
    exact ⟨fun t ht => result_eq_ok_problem? (hitems t ht), haccounts, haccounts.countsRight_iff⟩
  · intro dir extension root o h
    obtain ⟨fs, hfs, hitems, rfl⟩ := directory_eq_ok_iff.1 h
    have haccounts := accounts_total r w (root.getD dir) param fs
    exact ⟨fs, hfs, fun f hf d hd t ht => result_eq_ok_problem? (hitems f hf d hd t ht), haccounts,
      haccounts.countsRight_iff⟩

theorem countsRight_troubled :
    ∃ o fs, (directory (Conventions.reading {} []) Survey.troubled ⟨.relative, ["s"]⟩ "txt" none
        "file" 1).result = .ok o ∧
      Survey.files (ε := Empty) Survey.troubled ⟨.relative, ["s"]⟩ "txt" = .ok fs ∧
      o.checked = 3 ∧ o.passed = 1 ∧ o.failures.length = 4 ∧
      o.CountsRight (fs.flatMap
        (findingsIn (Conventions.reading {} []) Survey.troubled ⟨.relative, ["s"]⟩ "file")) := by
  have hdir : Survey.troubled.isDir ⟨.relative, ["s"]⟩ = .ok true := by decide +kernel
  have hresult : (directory (Conventions.reading {} []) Survey.troubled ⟨.relative, ["s"]⟩ "txt"
      none "file" 1).result = .ok ⟨3, [
        ⟨"s/a.txt", 3, "u", .targetMissing "s/u"⟩,
        ⟨"s/b.txt", 0, "", .targetUnreadable "s/b.txt"
          "'utf-8' codec can't decode byte 0xff in position 0: invalid start byte"⟩,
        ⟨"s/c.txt", 1, "", .parse ⟨.noParameter, 1, "##", some "s/c.txt"⟩⟩,
        ⟨"s/d.txt", 1, ".", .targetUnreadable "s" "Is a directory"⟩]⟩ := by
    rw [directory, Survey.files, hdir, Survey.find_troubled]
    decide +kernel
  obtain ⟨fs, hfs, -, -, hright⟩ :=
    (outcome_countsRight_iff (Conventions.reading {} []) Survey.troubled "file" 1).2 _ _ _ _ hresult
  have hfind := (Survey.files_eq_ok_iff hdir).1 hfs
  obtain rfl := Except.ok.inj (Survey.find_troubled.symm.trans hfind)
  exact ⟨_, _, hresult, hfs, rfl, by decide +kernel, rfl, hright.2 (by decide +kernel)⟩

/-- An item with an empty value is about the root itself. Where that is a directory, the item fails
and is counted as passed. -/
theorem not_countsRight_of_empty_value :
    ∃ d o, Document.parse {} none "## file:\nx\n" = .ok d ∧
      (document (Conventions.reading {} []) {} d {} "file" 1).result = .ok o ∧
      findings (Conventions.reading {} []) {} {} "file" d =
        [([], some (.targetUnreadable "." "Is a directory"))] ∧
      o.checked = 1 ∧ o.passed = 1 ∧
      ¬o.CountsRight (findings (Conventions.reading {} []) {} {} "file" d) := by
  refine ⟨⟨[⟨[("file", [])], [.literal "x" 2], 1⟩], none⟩,
    ⟨1, [⟨"<string>", 1, [], .targetUnreadable "." "Is a directory"⟩]⟩,
    by decide +kernel, by decide +kernel, by decide +kernel, rfl, by decide, ?_⟩
  intro h
  exact absurd h.passed (by decide +kernel)

end LineSpec.Check
