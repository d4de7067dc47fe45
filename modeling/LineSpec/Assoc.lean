import LineSpec.Text.Basic
/-!
# Ordered bindings

Names bound to values, in the order in which the names were first bound. Binding a name again
changes its value and keeps its place. The parameters of an item, the variables of a run, the
members of an object and the files of a directory are of this shape. A name is looked up by its
first occurrence; `bind` never makes a second one (`names_bind`), so the lists it builds have
distinct names.
-/

namespace LineSpec

/-- Names, of a type `κ`, with their values, in order. -/
abbrev Assoc (κ α : Type) := List (κ × α)

/-- Texts with their values, in order. -/
abbrev Bindings (α : Type) := Assoc Text α

namespace Assoc

variable {κ α : Type} [DecidableEq κ]

/-- The names in order. -/
def names (b : Assoc κ α) : List κ := b.map Prod.fst

/-- The value of a name. -/
def get? : Assoc κ α → κ → Option α
  | [], _ => none
  | (n, v) :: b, name => if n == name then some v else get? b name

/-- `b.bind name value` gives `name` its value, at the end when the name is new. -/
def bind : Assoc κ α → κ → α → Assoc κ α
  | [], name, value => [(name, value)]
  | (n, v) :: b, name, value =>
    if n == name then (n, value) :: b else (n, v) :: bind b name value

/-- `b.bindAll b'` binds the names of `b'` one after the other. -/
def bindAll (b b' : Assoc κ α) : Assoc κ α :=
  b'.foldl (fun b p => b.bind p.1 p.2) b

/-! ## Laws -/

theorem get?_bind (b : Assoc κ α) (name : κ) (value : α) (n : κ) :
    (b.bind name value).get? n = if name = n then some value else b.get? n := by
  induction b with
  | nil => simp [bind, get?]
  | cons p b ih =>
    obtain ⟨m, v⟩ := p
    rw [bind]
    by_cases h : m = name
    · subst h
      by_cases h' : m = n <;> simp [get?, h']
    · by_cases h' : m = n
      · subst h'
        simp [get?, h, Ne.symm h]
      · simp [get?, h, h', ih]

theorem isSome_get?_iff {b : Assoc κ α} {n : κ} : (b.get? n).isSome ↔ n ∈ b.names := by
  induction b with
  | nil => simp [get?, names]
  | cons p b ih =>
    obtain ⟨m, v⟩ := p
    unfold names at ih ⊢
    by_cases h : m = n
    · simp [get?, h]
    · simp [get?, h, Ne.symm h, ih]

theorem mem_of_get? {b : Assoc κ α} {n : κ} {v : α} (h : b.get? n = some v) : (n, v) ∈ b := by
  induction b with
  | nil => cases h
  | cons p b ih =>
    obtain ⟨m, u⟩ := p
    rw [get?] at h
    split at h
    next hm =>
      obtain rfl := eq_of_beq hm
      obtain rfl := Option.some.inj h
      exact List.mem_cons_self
    · exact List.mem_cons_of_mem _ (ih h)

/-- Where no name is bound twice, the members are the names with their values. -/
theorem mem_iff_get? {b : Assoc κ α} (h : b.names.Nodup) {n : κ} {v : α} :
    (n, v) ∈ b ↔ b.get? n = some v := by
  induction b with
  | nil => simp [get?]
  | cons p b ih =>
    obtain ⟨m, u⟩ := p
    obtain ⟨hm, hb⟩ := List.nodup_cons.1 h
    rw [List.mem_cons, ih hb, get?]
    by_cases hn : m = n
    · subst hn
      have hnone : get? b m ≠ some v := fun hv => hm (isSome_get?_iff.1 (by rw [hv]; rfl))
      simp [hnone, eq_comm]
    · simp [hn, Ne.symm hn]

theorem names_bind (b : Assoc κ α) (name : κ) (value : α) :
    (b.bind name value).names = if name ∈ b.names then b.names else b.names ++ [name] := by
  induction b with
  | nil => simp [bind, names]
  | cons p b ih =>
    obtain ⟨m, v⟩ := p
    unfold names at ih ⊢
    rw [bind]
    by_cases h : m = name
    · simp [h]
    · simp only [beq_iff_eq, h, if_false, List.map_cons, List.mem_cons, ih, Ne.symm h, false_or]
      split <;> simp

theorem names_subset_names_bind (b : Assoc κ α) (name : κ) (value : α) :
    b.names ⊆ (b.bind name value).names := by
  rw [names_bind]
  split
  · exact List.Subset.refl _
  · exact List.subset_append_left _ _

omit [DecidableEq κ] in
theorem nodup_names_nil : (names ([] : Assoc κ α)).Nodup := List.nodup_nil

/-- Binding keeps the names distinct. -/
theorem nodup_names_bind {b : Assoc κ α} (h : b.names.Nodup) (name : κ) (value : α) :
    (b.bind name value).names.Nodup := by
  rw [names_bind]
  split
  · exact h
  · next hn => simpa [List.nodup_append, h] using fun a ha (heq : a = name) => hn (heq ▸ ha)

/-! ### Binding several names -/

theorem get?_bindAll (b : Assoc κ α) {b' : Assoc κ α} (h : b'.names.Nodup) (n : κ) :
    (b.bindAll b').get? n = (b'.get? n).or (b.get? n) := by
  induction b' generalizing b with
  | nil => rfl
  | cons p b' ih =>
    obtain ⟨m, v⟩ := p
    obtain ⟨hm, hb'⟩ := List.nodup_cons.1 h
    change get? (bindAll (b.bind m v) b') n = _
    rw [ih _ hb', get?_bind, get?]
    by_cases hn : m = n
    · subst hn
      -- no later binding is of this name
      have hnone : get? b' m = none :=
        Option.not_isSome_iff_eq_none.1 fun hsome => hm (isSome_get?_iff.1 hsome)
      simp [hnone]
    · simp [hn]

theorem mem_names_bindAll {b b' : Assoc κ α} (h : b'.names.Nodup) {n : κ} :
    n ∈ (b.bindAll b').names ↔ n ∈ b.names ∨ n ∈ b'.names := by
  rw [← isSome_get?_iff, ← isSome_get?_iff, ← isSome_get?_iff, get?_bindAll b h,
    Option.isSome_or, Bool.or_eq_true, or_comm]

theorem nodup_names_bindAll {b : Assoc κ α} (h : b.names.Nodup) (b' : Assoc κ α) :
    (b.bindAll b').names.Nodup := by
  induction b' generalizing b with
  | nil => exact h
  | cons p b' ih => exact ih (nodup_names_bind h p.1 p.2)

end Assoc

end LineSpec
