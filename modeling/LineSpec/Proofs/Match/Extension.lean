import LineSpec.Proofs.Match.Step
import LineSpec.Proofs.Steps
import LineSpec.Render
/-!
# Further variables

Variables beyond those that were there can only help where a name had no value. A line that resolves
without them resolves to the same text, because values are not scanned again; so does a line with a
malformed placeholder stay malformed. A match and the content of a body ask for one line after the
other and stop at the first that is refused, so they come out the same unless it is for one of the
new names that they stop (`run_of_extends`).
-/

namespace LineSpec

/-! ## More bindings -/

namespace Assoc

variable {κ α : Type} [DecidableEq κ] {b b' : Assoc κ α}

/-- The bindings `b'` give each name of `b` the value that it has in `b`. -/
def Extends (b' b : Assoc κ α) : Prop := ∀ n v, b.get? n = some v → b'.get? n = some v

/-- The bindings `b'` have a value for the name `n`, and `b` has none. -/
structure Adds (b' b : Assoc κ α) (n : κ) : Prop where
  isNew : b.get? n = none
  isBound : (b'.get? n).isSome

theorem extends_bind {name : κ} (h : b.get? name = none) (value : α) :
    (b.bind name value).Extends b := by
  intro n v hv
  have hne : name ≠ n := by
    rintro rfl
    cases h.symm.trans hv
  rw [get?_bind, if_neg hne, hv]

end Assoc

/-- A name without a value that has one among the bindings `vars'`. -/
def PlaceholderError.IsAdded (vars vars' : Bindings Text) (e : PlaceholderError) : Prop :=
  ∃ n, e = .undefined n ∧ vars'.Adds vars n

/-- `resolve'` does with a line what `resolve` does, unless that refuses it with a `P`. -/
def AgreesBut {ε : Type} (P : ε → Prop) (resolve resolve' : Text → Except ε Text) : Prop :=
  ∀ text, (∀ e, resolve text = .error e → ¬P e) → resolve' text = resolve text

/-! ## Lines -/

namespace Template

variable {c : Conventions} {vars vars' : Bindings Text}

theorem fill_of_extends (h : vars'.Extends vars) {slots : List Slot}
    (hslots : ∀ e, fill vars.get? slots = .error e → ¬e.IsAdded vars vars') :
    fill vars'.get? slots = fill vars.get? slots := by
  induction slots with
  | nil => rfl
  | cons slot slots ih =>
    cases hvalue : vars.get? slot.name with
    | none =>
      have herror : fill vars.get? (slot :: slots) = .error (.undefined slot.name) := by
        rw [fill, hvalue]
      have hnone : vars'.get? slot.name = none := by
        rw [← Option.not_isSome_iff_eq_none]
        exact fun hbound => hslots _ herror ⟨_, rfl, hvalue, hbound⟩
      rw [herror, fill, hnone]
    | some value =>
      have hfill : ∀ e, fill vars.get? slots = .error e → ¬e.IsAdded vars vars' := by
        intro e he
        refine hslots e ?_
        simp only [fill, hvalue, he]
        rfl
      simp only [fill, hvalue, h _ _ hvalue, ih hfill]

/-- A line is resolved as before, unless one of the new names had no value. -/
theorem agreesBut_substitute (c : Conventions) (h : vars'.Extends vars) :
    AgreesBut (PlaceholderError.IsAdded vars vars') (substitute c vars.get?)
      (substitute c vars'.get?) := by
  intro text htext
  have hfill : fill vars'.get? (scan c text).slots = fill vars.get? (scan c text).slots := by
    refine fill_of_extends h fun e he => htext e ?_
    simp only [substitute, he]
  simp only [substitute, hfill]

end Template

/-! ## Bodies -/

section
variable {ε : Type} {P : ε → Prop} {resolve resolve' : Text → Except ε Text}

theorem AgreesBut.eq_ok (h : AgreesBut P resolve resolve') {text t : Text}
    (ht : resolve text = .ok t) : resolve' text = .ok t := by
  rw [h text fun e he => ?_, ht]
  cases ht.symm.trans he

namespace Match

/-- A run takes the same steps up to the first line that is refused with a `P`. -/
theorem runFrom_of_agreesBut (h : AgreesBut P resolve resolve') (strictEnd : Bool) (body : Body)
    (pending : Bool) (consumed : Nat) (ls : List Text)
    (hrun : ∀ e, (runFrom resolve strictEnd body pending consumed ls).verdict = .unresolved e →
      ¬P e) :
    runFrom resolve' strictEnd body pending consumed ls =
      runFrom resolve strictEnd body pending consumed ls := by
  induction body, pending, consumed, ls using runFrom_induction resolve strictEnd with
  | canStop pending consumed ls hopen =>
    rw [runFrom_nil_of_open hopen, runFrom_nil_of_open hopen]
  | atEnd consumed hstrict => rw [runFrom_nil_nil, runFrom_nil_nil]
  | surplus consumed l rest hstrict =>
    subst hstrict
    rw [runFrom_surplus, runFrom_surplus]
  | skip line body pending consumed ls ih =>
    rw [runFrom_skip] at hrun
    rw [runFrom_skip, runFrom_skip, ih hrun]
  | refused text line body pending consumed ls e he =>
    rw [runFrom_refused _ _ _ _ he] at hrun
    have he' : resolve' text = .error e := by
      rw [h text fun e' he' => ?_, he]
      obtain rfl := Except.error.inj (he.symm.trans he')
      exact hrun e rfl
    rw [runFrom_refused _ _ _ _ he, runFrom_refused _ _ _ _ he']
  | sought text line body consumed ls expected skipped rest ht hseek ih =>
    rw [runFrom_sought _ _ _ _ ht hseek, Run.verdict_after] at hrun
    rw [runFrom_sought _ _ _ _ ht hseek, runFrom_sought _ _ _ _ (h.eq_ok ht) hseek, ih hrun]
  | notFound text line body consumed ls expected ht hseek =>
    rw [runFrom_not_found _ _ _ _ ht hseek, runFrom_not_found _ _ _ _ (h.eq_ok ht) hseek]
  | next text line body consumed l rest ht ih =>
    rw [runFrom_next _ _ _ _ ht] at hrun
    rw [runFrom_next _ _ _ _ ht, runFrom_next _ _ _ _ (h.eq_ok ht), ih hrun]
  | differs text line body consumed l rest expected ht hne =>
    rw [runFrom_differs _ _ _ _ ht hne, runFrom_differs _ _ _ _ (h.eq_ok ht) hne]
  | noLine text line body consumed expected ht =>
    rw [runFrom_at_end _ _ _ _ ht, runFrom_at_end _ _ _ _ (h.eq_ok ht)]

end Match

namespace Body

theorem resolved_of_agreesBut (h : AgreesBut P resolve resolve') {body : Body}
    (hbody : ∀ e, body.resolved resolve = .error (.unresolved e) → ¬P e) :
    body.resolved resolve' = body.resolved resolve := by
  induction body with
  | nil => rfl
  | cons entry body ih =>
    cases entry with
    | skip line => rfl
    | literal text line =>
      cases ht : resolve text with
      | error e =>
        have herror : resolved resolve (.literal text line :: body) = .error (.unresolved e) := by
          rw [resolved, ht]
        have he : resolve' text = .error e := by
          rw [h text fun e' he' => ?_, ht]
          obtain rfl := Except.error.inj (ht.symm.trans he')
          exact hbody e herror
        rw [herror, resolved, he]
      | ok l =>
        have hrest : ∀ e, resolved resolve body = .error (.unresolved e) → ¬P e := by
          intro e he
          refine hbody e ?_
          simp only [resolved, ht, he]
          rfl
        simp only [resolved, ht, h.eq_ok ht, ih hrest]

theorem render_of_agreesBut (h : AgreesBut P resolve resolve') {body : Body}
    (hbody : ∀ e, body.render resolve = .error (.unresolved e) → ¬P e) :
    body.render resolve' = body.render resolve := by
  rw [render, render, resolved_of_agreesBut h fun e he => hbody e ?_]
  rw [render, he]
  rfl

end Body

end

/-! ## Matches, contents and lines -/

/-- Further variables change nothing of a match, of the content of a body or of a resolved line,
unless it was refused for want of a value that one of them has. -/
theorem Match.run_of_extends {vars vars' : Bindings Text} (h : vars'.Extends vars)
    (c : Conventions) (body : Body) (ls : List Text) :
    ((∃ n, vars'.Adds vars n ∧ (c.run vars body ls).verdict = .unresolved (.undefined n)) ∨
      c.run vars' body ls = c.run vars body ls) ∧
    ((∃ n, vars'.Adds vars n ∧
        body.render (c.resolve vars) = .error (.unresolved (.undefined n))) ∨
      body.render (c.resolve vars') = body.render (c.resolve vars)) ∧
    ∀ text, (∃ n, vars'.Adds vars n ∧ c.resolve vars text = .error (.undefined n)) ∨
      c.resolve vars' text = c.resolve vars text := by
  have hagrees := Template.agreesBut_substitute c h
  refine ⟨or_iff_not_imp_left.2 fun hno => ?_, or_iff_not_imp_left.2 fun hno => ?_,
    fun text => or_iff_not_imp_left.2 fun hno => ?_⟩
  · refine runFrom_of_agreesBut hagrees _ _ _ _ _ ?_
    rintro e he ⟨n, rfl, hadds⟩
    exact hno ⟨n, hadds, he⟩
  · refine Body.render_of_agreesBut hagrees ?_
    rintro e he ⟨n, rfl, hadds⟩
    exact hno ⟨n, hadds, he⟩
  · refine hagrees text ?_
    rintro e he ⟨n, rfl, hadds⟩
    exact hno ⟨n, hadds, he⟩

/-- A value that looks like a placeholder of the new variable stays as it is, and a match that fails
before it asks for the new variable fails as before. -/
theorem Match.run_of_extends_second_name :
    let vars : Bindings Text := [("a", "$\x7bb\x7d")]
    let vars' : Bindings Text := vars.bind "b" "y"
    let body : Body := [.literal "$\x7ba\x7d" 1, .literal "$\x7bb\x7d" 2]
    vars'.Extends vars ∧
      ({} : Conventions).resolve vars' "$\x7ba\x7d" = .ok "$\x7bb\x7d" ∧
      ({} : Conventions).run vars' body ["z\n", "y\n"] =
        ⟨.failed (.differs 1 "$\x7bb\x7d" "z" 0 1), ["y\n"], []⟩ := by
  intro vars vars' body
  have hnew : vars.get? "b" = none := by decide
  have hextends : vars'.Extends vars := Assoc.extends_bind hnew "y"
  have hresolve : ({} : Conventions).resolve vars "$\x7ba\x7d" = .ok "$\x7bb\x7d" := by
    decide +kernel
  have hrun : ({} : Conventions).run vars body ["z\n", "y\n"] =
      ⟨.failed (.differs 1 "$\x7bb\x7d" "z" 0 1), ["y\n"], []⟩ := by
    decide +kernel
  obtain ⟨hmatch, -, hline⟩ := run_of_extends hextends {} body ["z\n", "y\n"]
  refine ⟨hextends, ?_, ?_⟩
  · rcases hline "$\x7ba\x7d" with ⟨n, -, hrefused⟩ | hsame
    · cases hresolve.symm.trans hrefused
    · rw [hsame, hresolve]
  · rcases hmatch with ⟨n, -, hrefused⟩ | hsame
    · rw [hrun] at hrefused
      cases hrefused
    · rw [hsame, hrun]

end LineSpec
