import LineSpec.Proofs.Match.Step
/-!
# How far a match reads

A match takes its input line by line from the front and leaves the rest as it was. `Reads` says so
of a run: it takes some lines, counts them right, and either asks for a line behind the last one or
stops without a look at what follows. How many lines it takes can be read off its verdict
(`Extent`), and what it did not take cannot have mattered to it.
-/

namespace LineSpec.Match

variable {ε : Type}

/-! ## What a run takes -/

/-- Whether a match with this verdict has asked for a line behind the last one, where `closed` tells
whether the end of its body had to be the end of the input. -/
def Verdict.asksBehind (closed : Bool) : Verdict ε → Bool
  | .matched => closed
  | .failed (.inputEnds ..) => true
  | _ => false

theorem Verdict.readsEnd_eq (v : Verdict ε) (strictEnd : Bool) (body : Body) :
    v.readsEnd strictEnd body = v.asksBehind (strictEnd && !body.endsWithSkip) := by
  cases v with
  | matched => rfl
  | unresolved e => rfl
  | failed e => cases e <;> rfl

/-- Where a verdict names the last line that was read, that is line `n`. -/
def Verdict.EndsAt (n : Nat) : Verdict ε → Prop
  | .failed (.differs line ..) => line = n
  | .failed (.inputGoesOn line _) => line = n
  | _ => True

/-- `Reads run closed consumed ls front` says that a run over the input `ls`, of which `consumed`
lines stand before it, takes its lines `front`. These are all of them if it asks for a line behind
the last one; otherwise it ends as it does whatever follows `front`. -/
structure Reads (run : List Text → Run ε) (closed : Bool) (consumed : Nat) (ls front : List Text) :
    Prop where
  split : ls = front ++ (run ls).rest
  endsAt : (run ls).verdict.EndsAt (consumed + front.length)
  rest_eq_nil : (run ls).verdict.asksBehind closed = true → (run ls).rest = []
  run_append : (run ls).verdict.asksBehind closed = false →
    ∀ more, run (front ++ more) = { run ls with rest := more }

namespace Reads

variable {run next : List Text → Run ε} {closed : Bool} {consumed : Nat} {v : Verdict ε}
  {as : List Anchor} {ls front front' rest : List Text}

/-- A run that stops behind `front`, whatever follows. -/
theorem stop (hls : ls = front ++ rest) (h : ∀ more, run (front ++ more) = ⟨v, more, []⟩)
    (hline : v.EndsAt (consumed + front.length)) (hasks : v.asksBehind closed = false) :
    Reads run closed consumed ls front := by
  subst hls
  refine ⟨?_, ?_, ?_, ?_⟩ <;> rw [h]
  · exact hline
  · rw [hasks]
    exact fun hf => absurd hf Bool.false_ne_true
  · exact fun _ more => h more

/-- A run that asks for a line behind the last one. -/
theorem exhaust (h : run front = ⟨v, [], []⟩) (hline : v.EndsAt (consumed + front.length))
    (hasks : v.asksBehind closed = true) : Reads run closed consumed front front := by
  refine ⟨?_, ?_, ?_, ?_⟩ <;> rw [h]
  · rw [List.append_nil]
  · exact hline
  · exact fun _ => rfl
  · rw [hasks]
    exact fun hf => absurd hf.symm Bool.false_ne_true

/-- A run that goes on behind `front`. -/
theorem append {n : Nat} (hls : ls = front ++ rest)
    (h : ∀ more, run (front ++ more) = (next more).after as)
    (hnext : Reads next closed n rest front') (hn : n = consumed + front.length) :
    Reads run closed consumed ls (front ++ front') := by
  subst hls hn
  refine ⟨?_, ?_, ?_, ?_⟩ <;> rw [h]
  · rw [Run.rest_after, List.append_assoc, ← hnext.split]
  · rw [Run.verdict_after, List.length_append, ← Nat.add_assoc]
    exact hnext.endsAt
  · exact hnext.rest_eq_nil
  · intro hasks more
    rw [List.append_assoc, h, hnext.run_append hasks]
    rfl

end Reads

/-- Each run takes a front part of its input. -/
theorem exists_reads (resolve : Text → Except ε Text) (strictEnd : Bool) (body : Body)
    (pending : Bool) (consumed : Nat) (ls : List Text) :
    ∃ front, Reads (runFrom resolve strictEnd body pending consumed)
      (strictEnd && !body.endsOpen pending) consumed ls front := by
  induction body, pending, consumed, ls using runFrom_induction resolve strictEnd with
  | canStop pending consumed ls hopen =>
    have hclosed : (strictEnd && !Body.endsOpen pending []) = false := by
      rw [Body.endsOpen_nil, ← Bool.not_eq_true', Bool.not_and, Bool.not_not, Bool.or_comm]
      exact hopen
    exact ⟨[], .stop rfl (fun _ => runFrom_nil_of_open hopen) trivial hclosed⟩
  | atEnd consumed hstrict => exact ⟨[], .exhaust runFrom_nil_nil trivial (by rw [hstrict]; rfl)⟩
  | surplus consumed l rest hstrict =>
    subst hstrict
    exact ⟨[l], .stop rfl (fun _ => runFrom_surplus consumed) rfl rfl⟩
  | skip line body pending consumed ls ih =>
    rw [Body.endsOpen_cons]
    exact ih
  | refused text line body pending consumed ls e he =>
    exact ⟨[], .stop rfl (fun _ => runFrom_refused _ _ _ _ he) trivial rfl⟩
  | sought text line body consumed ls expected skipped rest ht hseek ih =>
    rw [Body.endsOpen_cons]
    obtain ⟨before, hls, hlen, hmore⟩ := seek_eq_some hseek
    obtain ⟨front, h⟩ := ih
    exact ⟨before ++ front,
      .append hls (fun more => runFrom_sought _ _ _ _ ht (hmore more)) h (by omega)⟩
  | notFound text line body consumed ls expected ht hseek =>
    exact ⟨ls, .exhaust (runFrom_not_found _ _ _ _ ht hseek) trivial rfl⟩
  | next text line body consumed l rest ht ih =>
    rw [Body.endsOpen_cons]
    obtain ⟨front, h⟩ := ih
    exact ⟨[l] ++ front, .append rfl
      (fun more => (runFrom_next _ _ _ _ ht).trans (Run.after_nil _).symm) h rfl⟩
  | differs text line body consumed l rest expected ht hne =>
    exact ⟨[l], .stop rfl (fun _ => runFrom_differs _ _ _ _ ht hne) rfl rfl⟩
  | noLine text line body consumed expected ht =>
    exact ⟨[], .exhaust (runFrom_at_end _ _ _ _ ht) trivial rfl⟩

namespace Reads

variable {run : List Text → Run ε} {closed : Bool} {consumed n : Nat} {ls front : List Text}

theorem rest_eq (h : Reads run closed consumed ls front) : (run ls).rest = ls.drop front.length := by
  conv_rhs => rw [h.split, List.drop_left]

theorem length_le (h : Reads run closed consumed ls front) : front.length ≤ ls.length := by
  have hsplit := congrArg List.length h.split
  rw [List.length_append] at hsplit
  omega

/-- The rest tells how many lines were taken. -/
theorem length_eq (h : Reads run closed consumed ls front) (hn : n ≤ ls.length)
    (hrest : (run ls).rest = ls.drop n) : front.length = n := by
  have hsplit := congrArg List.length h.split
  rw [hrest, List.length_append, List.length_drop] at hsplit
  omega

/-- Inputs with the same lines at the front are all the same to a run that stops behind them. -/
theorem run_eq (h : Reads run closed consumed ls front)
    (hasks : (run ls).verdict.asksBehind closed = false) {ls' : List Text}
    (htake : ls'.take front.length = ls.take front.length) :
    run ls' = { run ls with rest := ls'.drop front.length } := by
  have hfront : ls.take front.length = front := by
    conv_lhs => rw [h.split, List.take_left]
  have hls' : ls' = front ++ ls'.drop front.length := by
    conv_lhs => rw [← List.take_append_drop front.length ls', htake, hfront]
  conv_lhs => rw [hls', h.run_append hasks]

end Reads

/-! ## What the verdict tells of it -/

/-- `Extent resolve strictEnd lines body v n` says that a match of `body` against `lines` that ends
with `v` takes the first `n` lines. -/
inductive Extent (resolve : Text → Except ε Text) (strictEnd : Bool) (lines : List Text)
    (body : Body) : Verdict ε → Nat → Prop
  /-- A success takes the lines up to that of the last literal, and none for skips behind it. -/
  | matched {is : List Nat}
      (canGoOn : strictEnd = true → body.endsWithSkip = true)
      (placed : Placement resolve lines body is) :
      Extent resolve strictEnd lines body .matched (reach is)
  /-- A success that makes sure of the end of the input takes all lines. -/
  | matchedAtEnd
      (strict : strictEnd = true)
      (noSkip : body.endsWithSkip = false) :
      Extent resolve strictEnd lines body .matched lines.length
  /-- A literal that does not resolve takes no line, and neither do skips before it. -/
  | unresolved {before after : Body} {text : Text} {line : Int} {is : List Nat} {e : ε}
      (split : body = before ++ .literal text line :: after)
      (placed : Placement resolve lines before is)
      (refused : resolve text = .error e) :
      Extent resolve strictEnd lines body (.unresolved e) (reach is)
  /-- The line that differs is the last one taken. -/
  | differs (n : Nat) (expected actual : Text) (offset line : Int) :
      Extent resolve strictEnd lines body (.failed (.differs n expected actual offset line)) n
  /-- The line that is left over is the last one taken, and the only one that is. -/
  | inputGoesOn (n : Nat) (actual : Text) :
      Extent resolve strictEnd lines body (.failed (.inputGoesOn n actual)) n
  | inputEnds (n : Int) (expected : Text) (line : Int) :
      Extent resolve strictEnd lines body (.failed (.inputEnds n expected line)) lines.length

theorem rest_run_of_placement {resolve : Text → Except ε Text} {strictEnd : Bool} {body : Body}
    {ls : List Text} {is : List Nat} (placed : Placement resolve (ls.map Text.bare) body is)
    (hopen : (body.endsWithSkip || !strictEnd) = true) :
    (run resolve strictEnd body ls).rest = ls.drop (reach is) := by
  obtain ⟨as, has⟩ := run_append strictEnd [] placed
  rw [List.append_nil] at has
  rw [has, runFrom_nil_of_open hopen]

theorem rest_run_of_refused {resolve : Text → Except ε Text} (strictEnd : Bool)
    {before after : Body} {text : Text} {line : Int} {e : ε} {ls : List Text} {is : List Nat}
    (placed : Placement resolve (ls.map Text.bare) before is) (refused : resolve text = .error e) :
    (run resolve strictEnd (before ++ .literal text line :: after) ls).rest =
      ls.drop (reach is) := by
  obtain ⟨as, has⟩ := run_append strictEnd (.literal text line :: after) placed
  rw [has, runFrom_refused _ _ _ _ refused]

/-- A run takes as many lines as its verdict tells. -/
theorem Reads.extent {resolve : Text → Except ε Text} {strictEnd : Bool} {body : Body}
    {ls front : List Text}
    (h : Reads (run resolve strictEnd body) (strictEnd && !body.endsWithSkip) 0 ls front) :
    Extent resolve strictEnd (ls.map Text.bare) body (run resolve strictEnd body ls).verdict
      front.length := by
  have hends := h.endsAt
  have hall := h.rest_eq_nil
  have hreach : ∀ {before : Body} {is : List Nat},
      Placement resolve (ls.map Text.bare) before is → reach is ≤ ls.length := by
    intro before is placed
    have := placed.reach_le
    rwa [List.length_map] at this
  rw [Nat.zero_add] at hends
  -- a run without a rest has taken all lines
  have hlength : (run resolve strictEnd body ls).rest = [] →
      front.length = (ls.map Text.bare).length := by
    intro hrest
    rw [List.length_map]
    exact h.length_eq (Nat.le_refl _) (by rw [hrest, List.drop_length])
  have hd := diagnosis_verdict resolve strictEnd body ls
  generalize hv : (run resolve strictEnd body ls).verdict = v at *
  cases hd with
  | matched placed atEnd =>
    cases hclosed : strictEnd && !body.endsWithSkip with
    | true =>
      rw [hlength (hall hclosed)]
      rw [Bool.and_eq_true, Bool.not_eq_true'] at hclosed
      exact .matchedAtEnd hclosed.1 hclosed.2
    | false =>
      rw [Bool.and_eq_false_imp] at hclosed
      have hopen : (body.endsWithSkip || !strictEnd) = true := by
        cases strictEnd <;> simp_all
      rw [h.length_eq (hreach placed) (rest_run_of_placement placed hopen)]
      exact .matched (fun hstrict => by simpa using hclosed hstrict) placed
  | unresolved split placed refused =>
    subst split
    rw [h.length_eq (hreach placed) (rest_run_of_refused strictEnd placed refused)]
    exact .unresolved rfl placed refused
  | differs split placed next resolved found ne common =>
    change ((_ : Nat) : Int) = _ at hends
    rw [hends]
    exact .differs _ _ _ _ _
  | inputEnds split placed resolved ended =>
    rw [hlength (hall rfl)]
    exact .inputEnds _ _ _
  | inputGoesOn strict noSkip placed found =>
    change ((_ : Nat) : Int) = _ at hends
    rw [hends]
    exact .inputGoesOn _ _

/-- A match takes the lines that its verdict tells, from the front of its input. Unless it made
sure of the end of the input, it ends the same way on every input with these lines at the front and
takes the same ones of it. -/
theorem run_takes_extent (c : Conventions) (vars : Bindings Text) (body : Body) (ls : List Text) :
    ∃ n ≤ ls.length,
      Extent (c.resolve vars) c.strictEnd (ls.map Text.bare) body (c.run vars body ls).verdict n ∧
      (c.run vars body ls).rest = ls.drop n ∧
      ((c.run vars body ls).verdict.readsEnd c.strictEnd body = false →
        ∀ ls', ls'.take n = ls.take n →
          c.run vars body ls' = { c.run vars body ls with rest := ls'.drop n }) := by
  obtain ⟨front, h⟩ := exists_reads (c.resolve vars) c.strictEnd body false 0 ls
  rw [Body.endsOpen_false] at h
  refine ⟨front.length, h.length_le, h.extent, h.rest_eq, fun hasks ls' htake => ?_⟩
  rw [Verdict.readsEnd_eq] at hasks
  exact h.run_eq hasks htake

end LineSpec.Match
