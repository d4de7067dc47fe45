import LineSpec.Check.Run
/-!
# What the check of an item finds

The check of an item finds one problem or none. `Finds` has one rule for each way to a problem:
the file is missing or the system refuses it, its octets are no text where the match asks for them,
or the match ends without success. Every problem that a check finds is found in one of these ways
(`finds_of_item`).
-/

namespace LineSpec.Check

variable {ε : Type} {r : Reading ε} {w : Workspace} {body : Body} {target : Path}

/-- `Finds r w body target p` says how the check of the file at `target` comes to the problem
`p`. -/
inductive Finds (r : Reading ε) (w : Workspace) (body : Body) (target : Path) : Problem → Prop
  | missing {path : Text} (refused : w.read target = .error (.os .missing path)) :
      Finds r w body target (.targetMissing target.text)
  | unreadable {e : OsError} {path : Text} (refused : w.read target = .error (.os e path))
      (present : e ≠ .missing) : Finds r w body target (.targetUnreadable target.text e.reason)
  /-- The match asks for more lines than there are before the fault. -/
  | undecodable {content : List UInt8} {fault : Text.Utf8.Fault}
      (read : w.read target = .ok content)
      (faulty : (Text.Feed.ofBytes content).fault = some fault) :
      Finds r w body target (.targetUnreadable target.text fault.message)
  | mismatch {content : List UInt8} {e : MatchError} (read : w.read target = .ok content)
      (failed : (Match.run r.resolve r.strictEnd body
        (Text.Feed.ofBytes content).lines).verdict = .failed e) :
      Finds r w body target (.mismatch e)
  | unresolved {content : List UInt8} {e : PlaceholderError} (read : w.read target = .ok content)
      (refused : (Match.run r.resolve r.strictEnd body
        (Text.Feed.ofBytes content).lines).verdict = .unresolved (.inl e)) :
      Finds r w body target (.placeholder e)

/-- A problem is that of the match, unless the file is at fault where the match ends. -/
theorem problemOf_cases {strictEnd : Bool} {fault : Option Text.Utf8.Fault}
    {v : Match.Verdict (PlaceholderError ⊕ ε)} {p : Problem}
    (h : problemOf strictEnd body target fault v = .ok (some p)) :
    (∃ f, fault = some f ∧ p = .targetUnreadable target.text f.message) ∨
      (∃ e, v = .failed e ∧ p = .mismatch e) ∨
      ∃ e, v = .unresolved (.inl e) ∧ p = .placeholder e := by
  unfold problemOf at h
  split at h
  next f _ => exact .inl ⟨f, rfl, (Option.some.inj (Except.ok.inj h)).symm⟩
  · split at h
    · cases h
    next e _ => exact .inr (.inl ⟨e, rfl, (Option.some.inj (Except.ok.inj h)).symm⟩)
    next e _ => exact .inr (.inr ⟨e, rfl, (Option.some.inj (Except.ok.inj h)).symm⟩)
    · cases h

/-- A check finds a problem in one of the ways of `Finds`. -/
theorem finds_of_item {p : Problem} (h : (item r w body target).result = .ok (some p)) :
    Finds r w body target p := by
  rw [item] at h
  cases hread : w.read target with
  | error e =>
    rw [hread] at h
    cases e with
    | nulInPath => cases h
    | unencodable e => cases h
    | os cause path =>
      by_cases hmissing : cause = .missing
      · subst hmissing
        obtain rfl := Option.some.inj (Except.ok.inj h)
        exact .missing hread
      · have hp : Problem.targetUnreadable target.text cause.reason = p := by
          cases cause with
          | missing => exact absurd rfl hmissing
          | _ => exact Option.some.inj (Except.ok.inj h)
        rw [← hp]
        exact .unreadable hread hmissing
  | ok content =>
    rw [hread] at h
    rcases problemOf_cases h with ⟨f, hfault, rfl⟩ | ⟨e, hverdict, rfl⟩ | ⟨e, hverdict, rfl⟩
    · exact .undecodable hread hfault
    · exact .mismatch hread hverdict
    · exact .unresolved hread hverdict

end LineSpec.Check
