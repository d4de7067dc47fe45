import LineSpec.Proofs.Match.Divergence
import LineSpec.Proofs.Match.Placement
import LineSpec.Template
import Mathlib.Data.Nat.Find
/-!
# What a match finds

How a match ends, said by placements alone. `Diagnosis` has one rule for each way to end: all
literals are placed, or the entries before some literal are and that literal does not resolve, meets
another line or meets the end of the input, or lines are left over where none may be.

A run over a body goes through all of a beginning that can be placed (`run_append`), so at the entry
where a placement stops it stands just behind the placed lines, and one step of it gives the
verdict. Every body has such an entry or none (`placement_or_stopsAt`); hence the diagnosis exists,
and it is the run's verdict.
-/

namespace LineSpec

namespace Match

variable {ε : Type} {resolve : Text → Except ε Text} {strictEnd : Bool} {ls : List Text}

/-! ## Seeking a line -/

theorem seek_of_isLeast {expected : Text} {start i : Nat}
    (h : IsLeast {j | start ≤ j ∧ (ls.map Text.bare)[j]? = some expected} i) :
    seek expected (ls.drop start) = some (i - start, ls.drop (i + 1)) := by
  obtain ⟨d, rfl⟩ := Nat.exists_eq_add_of_le h.1.1
  rw [Nat.add_sub_cancel_left]
  induction d generalizing start with
  | zero =>
    have hi := h.1.2
    simp only [Nat.add_zero, List.getElem?_map, Option.map_eq_some_iff] at hi
    obtain ⟨l, hl, hb⟩ := hi
    obtain ⟨hlt, rfl⟩ := List.getElem?_eq_some_iff.1 hl
    rw [List.drop_eq_getElem_cons hlt, seek, if_pos hb]
  | succ d ih =>
    have hlt : start < ls.length := by
      have := (List.getElem?_eq_some_iff.1 h.1.2).1
      rw [List.length_map] at this
      omega
    -- an equal line at `start` would stand before the least one
    have hne : ¬Text.bare ls[start] = expected := by
      intro hb
      have := h.2 ⟨Nat.le_refl start, by simp [List.getElem?_eq_getElem hlt, hb]⟩
      omega
    have hsum : start + (d + 1) = start + 1 + d := by omega
    rw [hsum] at h ⊢
    have hrest : seek expected (ls.drop (start + 1)) = some (d, ls.drop (start + 1 + d + 1)) :=
      ih ⟨⟨by omega, h.1.2⟩, fun j hj => h.2 ⟨Nat.le_of_succ_le hj.1, hj.2⟩⟩
    rw [List.drop_eq_getElem_cons hlt, seek, if_neg hne, hrest]
    rfl

theorem seek_eq_none {expected : Text} (h : expected ∉ ls.map Text.bare) :
    seek expected ls = none := by
  induction ls with
  | nil => rfl
  | cons l ls ih =>
    rw [List.map_cons, List.mem_cons, not_or] at h
    rw [seek, if_neg (Ne.symm h.1), ih h.2]
    rfl

/-! ## The run over what can be placed -/

theorem runFrom_nil_of_open {pending : Bool} {start : Nat}
    (h : (pending || !strictEnd) = true) :
    runFrom resolve strictEnd [] pending start ls = ⟨.matched, ls, []⟩ := by
  cases ls <;> rw [runFrom, if_pos h]

theorem runFrom_nil_nil {pending : Bool} {start : Nat} :
    runFrom resolve strictEnd [] pending start [] = ⟨.matched, [], []⟩ := by
  rw [runFrom, ite_self]

theorem runFrom_literal (strictEnd : Bool) (body : Body) {text t : Text} (line : Int)
    {pending : Bool} {start i : Nat} (ht : resolve text = .ok t)
    (hi : Lands (ls.map Text.bare) start pending t i) :
    ∃ as, runFrom resolve strictEnd (.literal text line :: body) pending start (ls.drop start) =
      { runFrom resolve strictEnd body false (i + 1) (ls.drop (i + 1)) with anchors := as } := by
  cases pending with
  | false =>
    obtain ⟨rfl, hl⟩ := lands_false.1 hi
    rw [List.getElem?_map, Option.map_eq_some_iff] at hl
    obtain ⟨l, hl, rfl⟩ := hl
    obtain ⟨hlt, rfl⟩ := List.getElem?_eq_some_iff.1 hl
    rw [List.drop_eq_getElem_cons hlt]
    simp only [runFrom, ht, divergence?_self]
    exact ⟨_, rfl⟩
  | true =>
    have hle := hi.start_le
    have hsum : start + (i - start) + 1 = i + 1 := by omega
    simp only [runFrom, ht, if_true, seek_of_isLeast (lands_true.1 hi), hsum]
    exact ⟨_, rfl⟩

/-- The invariant of a run: when the entries `before` are placed, it goes on with the rest of the
body behind their lines, and a skip that ends them is still open. -/
theorem run_append (strictEnd : Bool) {before : Body} (body : Body) {is : List Nat}
    (h : Placement resolve (ls.map Text.bare) before is) :
    ∃ as, run resolve strictEnd (before ++ body) ls =
      { runFrom resolve strictEnd body before.endsWithSkip (reach is) (ls.drop (reach is)) with
        anchors := as } := by
  induction before using List.reverseRecOn generalizing body is with
  | nil =>
    rw [placement_nil.1 h]
    exact ⟨_, rfl⟩
  | append_singleton before e ih =>
    rw [List.append_assoc, List.singleton_append, Body.endsWithSkip_concat]
    cases e with
    | skip line =>
      obtain ⟨as, has⟩ := ih (.skip line :: body) (placement_concat_skip.1 h)
      exact ⟨as, by rw [has, runFrom]; rfl⟩
    | literal text line =>
      obtain ⟨is', i, t, rfl, hp, ht, hi⟩ := h.of_concat_literal
      obtain ⟨as, has⟩ := ih (.literal text line :: body) hp
      obtain ⟨as', has'⟩ := runFrom_literal strictEnd body line ht hi
      -- only the anchors change, and those of the whole run are `as` already
      refine ⟨as, ?_⟩
      rw [has, has', reach_concat]
      rfl

/-! ## The ways a match can end -/

/-- `Diagnosis resolve strictEnd lines body v` says that `v` is how a match of `body` against
`lines` ends. Where it fails at a literal, the entries `before` it are placed on the first
`reach is` lines. -/
inductive Diagnosis (resolve : Text → Except ε Text) (strictEnd : Bool) (lines : List Text)
    (body : Body) : Verdict ε → Prop
  /-- All literals are placed, on all lines if the end of the body has to be the end of the
  input. -/
  | matched {is : List Nat}
      (placed : Placement resolve lines body is)
      (atEnd : strictEnd = true → body.endsWithSkip = false → reach is = lines.length) :
      Diagnosis resolve strictEnd lines body .matched
  /-- A literal does not resolve, whether or not lines are left. -/
  | unresolved {before after : Body} {text : Text} {line : Int} {is : List Nat} {e : ε}
      (split : body = before ++ .literal text line :: after)
      (placed : Placement resolve lines before is)
      (refused : resolve text = .error e) :
      Diagnosis resolve strictEnd lines body (.unresolved e)
  /-- A literal that no skip stands before is not the next line. -/
  | differs {before after : Body} {text expected actual : Text} {line : Int} {is : List Nat}
      {offset : Nat}
      (split : body = before ++ .literal text line :: after)
      (placed : Placement resolve lines before is)
      (next : before.endsWithSkip = false)
      (resolved : resolve text = .ok expected)
      (found : lines[reach is]? = some actual)
      (ne : expected ≠ actual)
      (common : IsGreatest {d | ∃ p : Text, p.length = d ∧ p <+: expected ∧ p <+: actual} offset) :
      Diagnosis resolve strictEnd lines body
        (.failed (.differs (reach is + 1 : Nat) expected actual offset line))
  /-- A literal after a skip is none of the lines left, or one that no skip stands before finds no
  line left. -/
  | inputEnds {before after : Body} {text expected : Text} {line : Int} {is : List Nat}
      (split : body = before ++ .literal text line :: after)
      (placed : Placement resolve lines before is)
      (resolved : resolve text = .ok expected)
      (ended : if before.endsWithSkip then expected ∉ lines.drop (reach is)
        else reach is = lines.length) :
      Diagnosis resolve strictEnd lines body (.failed (.inputEnds lines.length expected line))
  /-- All literals are placed and lines are left over, where the end of the body has to be the end
  of the input. -/
  | inputGoesOn {is : List Nat} {actual : Text}
      (strict : strictEnd = true)
      (noSkip : body.endsWithSkip = false)
      (placed : Placement resolve lines body is)
      (found : lines[reach is]? = some actual) :
      Diagnosis resolve strictEnd lines body
        (.failed (.inputGoesOn (reach is + 1 : Nat) actual))

theorem exists_getElem_of_found {i : Nat} {t : Text} (h : (ls.map Text.bare)[i]? = some t) :
    ∃ l, ls.drop i = l :: ls.drop (i + 1) ∧ Text.bare l = t := by
  rw [List.getElem?_map, Option.map_eq_some_iff] at h
  obtain ⟨l, hl, hb⟩ := h
  obtain ⟨hlt, rfl⟩ := List.getElem?_eq_some_iff.1 hl
  exact ⟨_, List.drop_eq_getElem_cons hlt, hb⟩

/-- A run ends as its diagnosis says. -/
theorem Diagnosis.verdict_eq {body : Body} {v : Verdict ε}
    (h : Diagnosis resolve strictEnd (ls.map Text.bare) body v) :
    (run resolve strictEnd body ls).verdict = v := by
  cases h with
  | @matched is placed atEnd =>
    obtain ⟨as, has⟩ := run_append strictEnd [] placed
    rw [List.append_nil] at has
    rw [has]
    by_cases hopen : (body.endsWithSkip || !strictEnd) = true
    · rw [runFrom_nil_of_open hopen]
    · -- a line left over would be seen, but the placement reaches the end
      rw [Bool.or_eq_true, not_or, Bool.not_eq_true, Bool.not_eq_true', Bool.not_eq_false] at hopen
      have hlen := atEnd hopen.2 hopen.1
      rw [List.length_map] at hlen
      rw [hlen, List.drop_length, runFrom_nil_nil]
  | unresolved split placed refused =>
    subst split
    obtain ⟨as, has⟩ := run_append strictEnd (.literal _ _ :: _) placed
    rw [has]
    -- the literal is resolved before a line is asked for
    simp only [runFrom, refused]
  | differs split placed next resolved found ne common =>
    subst split
    obtain ⟨as, has⟩ := run_append strictEnd (.literal _ _ :: _) placed
    obtain ⟨l, hdrop, rfl⟩ := exists_getElem_of_found found
    rw [has, next, hdrop]
    simp only [runFrom, resolved, divergence?_of_ne ne]
    rw [common.unique (isGreatest_commonPrefixLength _ _)]
    rfl
  | @inputEnds before after text expected line is split placed resolved ended =>
    subst split
    obtain ⟨as, has⟩ := run_append strictEnd (.literal _ _ :: _) placed
    have hreach := placed.reach_le
    rw [List.length_map] at hreach
    rw [has]
    cases hskip : before.endsWithSkip with
    | false =>
      rw [hskip, if_neg Bool.false_ne_true, List.length_map] at ended
      rw [ended, List.drop_length]
      simp only [runFrom, resolved, List.length_map]
      rfl
    | true =>
      rw [hskip, if_pos rfl, ← List.map_drop] at ended
      simp only [runFrom, resolved, if_true, seek_eq_none ended, List.length_drop,
        List.length_map, Nat.add_sub_cancel' hreach]
  | inputGoesOn strict noSkip placed found =>
    obtain ⟨as, has⟩ := run_append strictEnd [] placed
    obtain ⟨l, hdrop, rfl⟩ := exists_getElem_of_found found
    rw [List.append_nil] at has
    rw [has, noSkip, strict, hdrop]
    rfl

/-- A literal that resolves has a place behind the placed entries, or it meets another line or the
end of the input. -/
theorem lands_or (lines : List Text) {start : Nat} (hstart : start ≤ lines.length)
    (afterSkip : Bool) (t : Text) :
    (∃ i, Lands lines start afterSkip t i) ∨
      (afterSkip = false ∧ ∃ actual, lines[start]? = some actual ∧ t ≠ actual) ∨
      (if afterSkip then t ∉ lines.drop start else start = lines.length) := by
  cases afterSkip with
  | false =>
    rcases hstart.lt_or_eq with hlt | heq
    · by_cases ht : t = lines[start]
      · exact Or.inl ⟨start, lands_false.2 ⟨rfl, by rw [ht, List.getElem?_eq_getElem hlt]⟩⟩
      · exact Or.inr (Or.inl ⟨rfl, _, List.getElem?_eq_getElem hlt, ht⟩)
    · exact Or.inr (Or.inr heq)
  | true =>
    by_cases ht : t ∈ lines.drop start
    · have hex : ∃ i, start ≤ i ∧ lines[i]? = some t := by
        obtain ⟨d, hd⟩ := List.mem_iff_getElem?.1 ht
        rw [List.getElem?_drop] at hd
        exact ⟨start + d, Nat.le_add_right _ _, hd⟩
      classical
      exact Or.inl ⟨Nat.find hex, lands_true.2
        ⟨Nat.find_spec hex, fun j hj => Nat.find_min' hex hj⟩⟩
    · exact Or.inr (Or.inr ht)

/-- Every match has a diagnosis. -/
theorem exists_diagnosis (resolve : Text → Except ε Text) (strictEnd : Bool) (lines : List Text)
    (body : Body) : ∃ v, Diagnosis resolve strictEnd lines body v := by
  rcases placement_or_stopsAt resolve lines body with
    ⟨is, h⟩ | ⟨before, ⟨is, h⟩, text, line, after, hsplit, hstop⟩
  · by_cases hend : strictEnd = true → body.endsWithSkip = false → reach is = lines.length
    · exact ⟨_, .matched h hend⟩
    · push Not at hend
      obtain ⟨hstrict, hskip, hne⟩ := hend
      have hlt : reach is < lines.length := lt_of_le_of_ne h.reach_le hne
      exact ⟨_, .inputGoesOn hstrict hskip h (List.getElem?_eq_getElem hlt)⟩
  · cases ht : resolve text with
    | error e => exact ⟨_, .unresolved hsplit h ht⟩
    | ok t =>
      rcases lands_or lines h.reach_le before.endsWithSkip t with
        ⟨i, hi⟩ | ⟨hskip, actual, hfound, hne⟩ | hend
      · -- with a line of its own the literal could have been placed as well
        exact absurd ⟨_, h.concat_literal ht hi⟩ hstop
      · exact ⟨_, .differs hsplit h hskip ht hfound hne (isGreatest_commonPrefixLength t actual)⟩
      · exact ⟨_, .inputEnds hsplit h ht hend⟩

/-- The verdict of a run is a diagnosis. -/
theorem diagnosis_verdict (resolve : Text → Except ε Text) (strictEnd : Bool) (body : Body)
    (ls : List Text) :
    Diagnosis resolve strictEnd (ls.map Text.bare) body
      (run resolve strictEnd body ls).verdict := by
  obtain ⟨v, hv⟩ := exists_diagnosis resolve strictEnd (ls.map Text.bare) body
  rwa [hv.verdict_eq]

/-- A known verdict can be taken apart by the rules of a diagnosis. -/
theorem diagnosis_of_verdict {body : Body} {v : Verdict ε}
    (h : (run resolve strictEnd body ls).verdict = v) :
    Diagnosis resolve strictEnd (ls.map Text.bare) body v :=
  h ▸ diagnosis_verdict resolve strictEnd body ls

/-! ## Where a match fails -/

section
variable {body : Body} {e : MatchError}

/-- A match fails at a line of the input, or at the end of it. -/
theorem place_of_failed (h : (run resolve strictEnd body ls).verdict = .failed e) :
    (∃ (i : Nat) (actual : Text), e.actual = some actual ∧ e.line = (i + 1 : Nat) ∧
      (ls.map Text.bare)[i]? = some actual) ∨
    e.actual = none ∧ e.line = (ls.map Text.bare).length := by
  cases diagnosis_of_verdict h with
  | differs split placed next resolved found ne common => exact .inl ⟨_, _, rfl, rfl, found⟩
  | inputEnds split placed resolved ended => exact .inr ⟨rfl, rfl⟩
  | inputGoesOn strict noSkip placed found => exact .inl ⟨_, _, rfl, rfl, found⟩

/-- The line that is found is a line of the input. -/
theorem actual_mem_of_failed (h : (run resolve strictEnd body ls).verdict = .failed e)
    {actual : Text} (hactual : e.actual = some actual) : actual ∈ ls.map Text.bare := by
  rcases place_of_failed h with ⟨i, actual', hactual', -, hfound⟩ | ⟨hnone, -⟩
  · obtain rfl := Option.some.inj (hactual'.symm.trans hactual)
    exact List.mem_of_getElem? hfound
  · rw [hnone] at hactual
    cases hactual

/-- The offset lies within the line that is found, or just behind it. -/
theorem offset_of_failed (h : (run resolve strictEnd body ls).verdict = .failed e) :
    ∃ d : Nat, e.offset = d ∧ d ≤ (e.actual.getD []).length := by
  cases diagnosis_of_verdict h with
  | differs split placed next resolved found ne common =>
    obtain ⟨p, hlength, -, hprefix⟩ := common.1
    exact ⟨_, rfl, hlength ▸ hprefix.length_le⟩
  | inputEnds | inputGoesOn => exact ⟨0, rfl, Nat.zero_le _⟩

/-- What a match does not resolve is a literal of its body. -/
theorem exists_of_unresolved {e : ε}
    (h : (run resolve strictEnd body ls).verdict = .unresolved e) :
    ∃ text line, .literal text line ∈ body ∧ resolve text = .error e := by
  cases diagnosis_of_verdict h with
  | unresolved split _ refused =>
    exact ⟨_, _, split ▸ List.mem_append_right _ List.mem_cons_self, refused⟩

end

end Match

/-! ## Conventions and variables -/

/-- The text of a literal under conventions, with the values of variables. -/
abbrev Conventions.resolve (c : Conventions) (vars : Bindings Text) (text : Text) :
    Except PlaceholderError Text :=
  Template.substitute c vars.get? text

/-- The match of a body under conventions, with the values of variables. -/
abbrev Conventions.run (c : Conventions) (vars : Bindings Text) (body : Body) (ls : List Text) :
    Match.Run PlaceholderError :=
  Match.run (c.resolve vars) c.strictEnd body ls

namespace Match

/-- A match succeeds exactly when all literals resolve and there is a placement, which reaches the
end of the input where the body has to. There is at most one placement. -/
theorem matched_iff_placement (c : Conventions) (vars : Bindings Text) (body : Body)
    (ls : List Text) :
    ((c.run vars body ls).verdict = .matched ↔
      (∀ text line, .literal text line ∈ body → ∃ t, c.resolve vars text = .ok t) ∧
      ∃ is, Placement (c.resolve vars) (ls.map Text.bare) body is ∧
        (c.strictEnd = true → body.endsWithSkip = false → reach is = ls.length)) ∧
    ∀ is is', Placement (c.resolve vars) (ls.map Text.bare) body is →
      Placement (c.resolve vars) (ls.map Text.bare) body is' → is = is' := by
  refine ⟨⟨?_, ?_⟩, fun is is' h h' => h.unique h'⟩
  · intro hv
    have hd := diagnosis_verdict (c.resolve vars) c.strictEnd body ls
    rw [hv] at hd
    cases hd with
    | matched placed atEnd =>
      rw [List.length_map] at atEnd
      exact ⟨fun text line hmem => placed.resolves hmem, _, placed, atEnd⟩
  · rintro ⟨-, is, h, hend⟩
    refine (Diagnosis.matched h ?_).verdict_eq
    rwa [List.length_map]

/-- The verdict of a match is its diagnosis, and there is no other. -/
theorem verdict_eq_iff_diagnosis (c : Conventions) (vars : Bindings Text) (body : Body)
    (ls : List Text) (v : Verdict PlaceholderError) :
    (c.run vars body ls).verdict = v ↔
      Diagnosis (c.resolve vars) c.strictEnd (ls.map Text.bare) body v := by
  constructor
  · rintro rfl
    exact diagnosis_verdict _ _ _ _
  · exact Diagnosis.verdict_eq

end Match

end LineSpec
