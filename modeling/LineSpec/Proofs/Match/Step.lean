import LineSpec.Proofs.Match.Diagnosis
/-!
# Steps of a match

What one entry of a body does to a run. A skip only opens; a literal that resolves is looked for
from the next line on if a skip is open, and otherwise has to be the next line. Each step either
stops the run or goes on behind the lines that it took, so what holds of a run follows by induction
along the body, with one case for each of these equations.
-/

namespace LineSpec

/-! ## Open skips -/

/-- Whether a skip is open behind a body, where `pending` tells whether one is open before it. -/
def Body.endsOpen (pending : Bool) (body : Body) : Bool :=
  body.getLast?.elim pending Entry.isSkip

namespace Body

@[simp] theorem endsOpen_nil (pending : Bool) : endsOpen pending [] = pending := rfl

@[simp] theorem endsOpen_cons (pending : Bool) (e : Entry) (body : Body) :
    endsOpen pending (e :: body) = endsOpen e.isSkip body := by
  rw [endsOpen, endsOpen, List.getLast?_cons]
  cases body.getLast? <;> rfl

theorem endsOpen_false (body : Body) : endsOpen false body = body.endsWithSkip := by
  rw [endsOpen, endsWithSkip]
  cases body.getLast? <;> rfl

end Body

namespace Match

variable {ε : Type}

/-- The run `r` behind the skips `as`, which ended before it. -/
def Run.after (as : List Anchor) (r : Run ε) : Run ε :=
  { r with anchors := as ++ r.anchors }

@[simp] theorem Run.after_nil (r : Run ε) : r.after [] = r := rfl

@[simp] theorem Run.verdict_after (as : List Anchor) (r : Run ε) :
    (r.after as).verdict = r.verdict := rfl

@[simp] theorem Run.rest_after (as : List Anchor) (r : Run ε) : (r.after as).rest = r.rest := rfl

/-- Seeking takes the lines up to the one that is sought, whatever follows it. -/
theorem seek_eq_some {expected : Text} {ls rest : List Text} {skipped : Nat}
    (h : seek expected ls = some (skipped, rest)) :
    ∃ front, ls = front ++ rest ∧ front.length = skipped + 1 ∧
      ∀ more, seek expected (front ++ more) = some (skipped, more) := by
  induction ls generalizing skipped with
  | nil => cases h
  | cons l ls ih =>
    rw [seek] at h
    by_cases hl : Text.bare l = expected
    · rw [if_pos hl] at h
      obtain ⟨rfl, rfl⟩ := Prod.mk.inj (Option.some.inj h)
      refine ⟨[l], rfl, rfl, fun more => ?_⟩
      rw [List.singleton_append, seek, if_pos hl]
    · rw [if_neg hl, Option.map_eq_some_iff] at h
      obtain ⟨⟨k, rest'⟩, hk, heq⟩ := h
      obtain ⟨rfl, rfl⟩ := Prod.mk.inj heq
      obtain ⟨front, rfl, hlen, hmore⟩ := ih hk
      refine ⟨l :: front, rfl, by rw [List.length_cons, hlen], fun more => ?_⟩
      rw [List.cons_append, seek, if_neg hl, hmore]
      rfl

/-! ## One entry -/

section
variable {resolve : Text → Except ε Text} {text expected l : Text} {ls rest : List Text}
  {pending : Bool} (strictEnd : Bool) (body : Body) (line : Int) (consumed : Nat)

theorem runFrom_surplus :
    runFrom resolve true [] false consumed (l :: rest) =
      ⟨.failed (.inputGoesOn (consumed + 1) (Text.bare l)), rest, []⟩ :=
  rfl

theorem runFrom_skip :
    runFrom resolve strictEnd (.skip line :: body) pending consumed ls =
      runFrom resolve strictEnd body true consumed ls := by
  rw [runFrom]

theorem runFrom_refused {e : ε} (he : resolve text = .error e) :
    runFrom resolve strictEnd (.literal text line :: body) pending consumed ls =
      ⟨.unresolved e, ls, []⟩ := by
  simp only [runFrom, he]

theorem runFrom_sought {skipped : Nat} (ht : resolve text = .ok expected)
    (hseek : seek expected ls = some (skipped, rest)) :
    runFrom resolve strictEnd (.literal text line :: body) true consumed ls =
      (runFrom resolve strictEnd body false (consumed + skipped + 1) rest).after
        [⟨consumed + skipped + 1, line⟩] := by
  simp only [runFrom, ht, hseek, if_true]
  rfl

theorem runFrom_not_found (ht : resolve text = .ok expected) (hseek : seek expected ls = none) :
    runFrom resolve strictEnd (.literal text line :: body) true consumed ls =
      ⟨.failed (.inputEnds (consumed + ls.length : Nat) expected line), [], []⟩ := by
  simp only [runFrom, ht, hseek, if_true]

theorem runFrom_next (ht : resolve text = .ok (Text.bare l)) :
    runFrom resolve strictEnd (.literal text line :: body) false consumed (l :: rest) =
      runFrom resolve strictEnd body false (consumed + 1) rest := by
  simp only [runFrom, ht, divergence?_self]
  rfl

theorem runFrom_differs (ht : resolve text = .ok expected) (hne : expected ≠ Text.bare l) :
    runFrom resolve strictEnd (.literal text line :: body) false consumed (l :: rest) =
      ⟨.failed (.differs (consumed + 1) expected (Text.bare l)
        (commonPrefixLength expected (Text.bare l)) line), rest, []⟩ := by
  simp only [runFrom, ht, divergence?_of_ne hne]
  rfl

theorem runFrom_at_end (ht : resolve text = .ok expected) :
    runFrom resolve strictEnd (.literal text line :: body) false consumed [] =
      ⟨.failed (.inputEnds consumed expected line), [], []⟩ := by
  simp only [runFrom, ht]
  rfl

end

/-- Induction along a run, with a case for each way that a run ends and each that it goes on. -/
theorem runFrom_induction (resolve : Text → Except ε Text) (strictEnd : Bool)
    {motive : Body → Bool → Nat → List Text → Prop}
    (canStop : ∀ pending consumed ls, (pending || !strictEnd) = true →
      motive [] pending consumed ls)
    (atEnd : ∀ consumed, strictEnd = true → motive [] false consumed [])
    (surplus : ∀ consumed l rest, strictEnd = true → motive [] false consumed (l :: rest))
    (skip : ∀ line body pending consumed ls, motive body true consumed ls →
      motive (.skip line :: body) pending consumed ls)
    (refused : ∀ text line body pending consumed ls e, resolve text = .error e →
      motive (.literal text line :: body) pending consumed ls)
    (sought : ∀ text line body consumed ls expected skipped rest,
      resolve text = .ok expected → seek expected ls = some (skipped, rest) →
      motive body false (consumed + skipped + 1) rest →
      motive (.literal text line :: body) true consumed ls)
    (notFound : ∀ text line body consumed ls expected, resolve text = .ok expected →
      seek expected ls = none → motive (.literal text line :: body) true consumed ls)
    (next : ∀ text line body consumed l rest, resolve text = .ok (Text.bare l) →
      motive body false (consumed + 1) rest →
      motive (.literal text line :: body) false consumed (l :: rest))
    (differs : ∀ text line body consumed l rest expected, resolve text = .ok expected →
      expected ≠ Text.bare l → motive (.literal text line :: body) false consumed (l :: rest))
    (noLine : ∀ text line body consumed expected, resolve text = .ok expected →
      motive (.literal text line :: body) false consumed [])
    (body : Body) (pending : Bool) (consumed : Nat) (ls : List Text) :
    motive body pending consumed ls := by
  induction body generalizing pending consumed ls with
  | nil =>
    cases hclosed : pending || !strictEnd with
    | true => exact canStop pending consumed ls hclosed
    | false =>
      rw [Bool.or_eq_false_iff, Bool.not_eq_false'] at hclosed
      obtain ⟨rfl, hstrict⟩ := hclosed
      cases ls with
      | nil => exact atEnd consumed hstrict
      | cons l rest => exact surplus consumed l rest hstrict
  | cons e body ih =>
    cases e with
    | skip line => exact skip line body pending consumed ls (ih true consumed ls)
    | literal text line =>
      cases ht : resolve text with
      | error e => exact refused text line body pending consumed ls e ht
      | ok expected =>
        cases pending with
        | true =>
          cases hseek : seek expected ls with
          | none => exact notFound text line body consumed ls expected ht hseek
          | some found =>
            exact sought text line body consumed ls expected found.1 found.2 ht hseek (ih _ _ _)
        | false =>
          cases ls with
          | nil => exact noLine text line body consumed expected ht
          | cons l rest =>
            by_cases heq : expected = Text.bare l
            · exact next text line body consumed l rest (heq ▸ ht) (ih _ _ _)
            · exact differs text line body consumed l rest expected ht heq

end Match

end LineSpec
