import LineSpec.Text.Surrogate
import Mathlib.Data.List.TakeWhile
/-!
# Texts without surrogates

A text has characters and can be encoded exactly when it holds no surrogate. Otherwise there is a
first surrogate to blame.
-/

namespace LineSpec.Text

/-! ## Characters as code points -/

theorem ofChar_inj {c d : Char} : CodePoint.ofChar c = CodePoint.ofChar d ↔ c = d := by
  refine ⟨fun h => ?_, fun h => h ▸ rfl⟩
  have hchar := congrArg CodePoint.toChar? h
  rwa [CodePoint.toChar?_ofChar, CodePoint.toChar?_ofChar, Option.some.injEq] at hchar

theorem ofChar_mem_ofChars_iff {c : Char} {cs : List Char} :
    (c : CodePoint) ∈ ofChars cs ↔ c ∈ cs := by
  simp only [ofChars, List.mem_map, ofChar_inj, exists_eq_right]

/-! ## Surrogates -/

/-- A text is plain if it holds no surrogate. -/
def Plain (t : Text) : Prop := ∀ c ∈ t, c.isSurrogate = false

variable {t u : Text}

theorem all_not_isSurrogate_iff : t.all (!·.isSurrogate) = true ↔ t.Plain := by
  simp only [Plain, List.all_eq_true, Bool.not_eq_true']

-- the text is searched, for there are too many code points to try them all
instance (t : Text) : Decidable t.Plain := decidable_of_iff _ all_not_isSurrogate_iff

theorem Unencodable.first?_eq_none_iff {allowed : CodePoint → Bool} :
    first? allowed t = none ↔ ∀ c ∈ t, allowed c = true := by
  have hnone : first? allowed t = none ↔ t.drop (t.takeWhile allowed).length = [] := by
    rw [first?]
    cases t.drop (t.takeWhile allowed).length <;> simp
  rw [hnone, List.drop_eq_nil_iff]
  constructor
  · intro hle
    exact List.takeWhile_eq_self_iff.1 ((List.takeWhile_prefix allowed).eq_of_length_le hle)
  · intro hall
    rw [List.takeWhile_eq_self_iff.2 hall]

theorem Unencodable.inText?_eq_none_iff : inText? t = none ↔ t.Plain := by
  simp only [inText?, first?_eq_none_iff, Bool.not_eq_true', Plain]

theorem exists_chars?_eq_some_iff : (∃ cs, t.chars? = some cs) ↔ t.Plain := by
  rw [chars?, Plain]
  induction t with
  | nil => simp
  | cons c t ih =>
    have hchar : (∃ ch, c.toChar? = some ch) ↔ c.isSurrogate = false := by
      rw [CodePoint.toChar?]
      cases c.isSurrogate <;> simp
    rw [List.forall_mem_cons, ← hchar, ← ih]
    simp only [List.mapM_cons, Option.bind_eq_bind, Option.bind_eq_some_iff, Option.pure_def,
      Option.some.injEq]
    constructor
    · rintro ⟨_, ch, hch, cs, hcs, -⟩
      exact ⟨⟨ch, hch⟩, cs, hcs⟩
    · rintro ⟨⟨ch, hch⟩, cs, hcs⟩
      exact ⟨_, ch, hch, cs, hcs, rfl⟩

/-- A text has no characters exactly when some surrogate in it is to blame. -/
theorem chars?_eq_none_iff : t.chars? = none ↔ ∃ e, Unencodable.inText? t = some e := by
  rw [← Option.isSome_iff_exists, ← Option.not_isSome_iff_eq_none, Option.isSome_iff_exists,
    exists_chars?_eq_some_iff, ← Unencodable.inText?_eq_none_iff, ← Option.not_isSome_iff_eq_none,
    not_not]

/-! ## Plain texts -/

theorem plain_nil : Plain [] := List.forall_mem_nil _

theorem plain_append_iff : Plain (t ++ u) ↔ t.Plain ∧ u.Plain := List.forall_mem_append

theorem Plain.append (h : t.Plain) (h' : u.Plain) : Plain (t ++ u) := plain_append_iff.2 ⟨h, h'⟩

/-- A part of a plain text is plain. -/
theorem Plain.of_subset (h : u.Plain) (hsub : t ⊆ u) : t.Plain := fun c hc => h c (hsub hc)

theorem plain_ofChars (cs : List Char) : Plain (ofChars cs) :=
  List.forall_mem_map.2 fun ch _ => CodePoint.isSurrogate_ofChar ch

theorem plain_ofString (s : String) : Plain s := plain_ofChars s.toList

/-- The code points of joined texts are those of the texts, and the separator's. -/
theorem forall_mem_join_iff {P : CodePoint → Prop} {separator : Text}
    (hseparator : ∀ c ∈ separator, P c) {ts : List Text} :
    (∀ c ∈ join separator ts, P c) ↔ ∀ t ∈ ts, ∀ c ∈ t, P c := by
  induction ts with
  | nil => exact ⟨fun _ => List.forall_mem_nil _, fun _ => List.forall_mem_nil _⟩
  | cons t ts ih =>
    cases ts with
    | nil => rw [join, List.intercalate_singleton, List.forall_mem_singleton]
    | cons t' ts =>
      rw [List.forall_mem_cons, ← ih, join, List.intercalate_cons_cons, List.forall_mem_append,
        List.forall_mem_append, and_iff_left hseparator]
      rfl

theorem plain_join {separator : Text} {ts : List Text} (hseparator : separator.Plain)
    (h : ∀ t ∈ ts, t.Plain) : Plain (join separator ts) :=
  (forall_mem_join_iff hseparator).2 h

end LineSpec.Text
