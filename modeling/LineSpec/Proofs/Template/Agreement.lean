import LineSpec.Proofs.Steps
import LineSpec.Proofs.Template.Decomposition
/-!
# Listing and filling in the same placeholders

The names in a line can be listed, and their values can be filled in. Both go through the same
placeholders from the left: down to the end of the line, or to the first placeholder that is
malformed (`Finds`). Listing them refuses the malformed one before it gives any name. Filling in
looks up one name after the other and comes to the malformed one only if all of them have values. So
what each of the two does tells what the other one does (`Finds.agrees`).
-/

namespace LineSpec.Template

variable {c : Conventions} {text : Text} {names : List Text} {stop : Option Nat}

/-! ## The names in a line -/

/-- `Finds c text names stop` says which names stand in the line `text` from the left: those of all
its placeholders where `stop` is `none`, and otherwise those before its first malformed placeholder,
which begins at `stop`. -/
inductive Finds (c : Conventions) (text : Text) : List Text → Option Nat → Prop
  | all {ps : List Piece} {last : Text} :
      Decomposes c text ps last → Finds c text (ps.map Piece.name) none
  | malformed {ps : List Piece} {rest : Text} {offset : Nat} :
      Reads c text ps rest → (∀ p ∈ ps, p.name ≠ []) →
      -- no matter which names have values
      (∀ lookup, Offends c lookup text rest (.malformed text offset)) →
      Finds c text (ps.map Piece.name) (some offset)

theorem exists_finds (c : Conventions) (text : Text) : ∃ names stop, Finds c text names stop := by
  obtain ⟨ps, rest, hreads, hgood, hend⟩ := exists_ending c (fun _ => some []) text
  have hnamed : ∀ p ∈ ps, p.name ≠ [] := fun p hp => (hgood p hp).1
  rcases hend with hclosed | ⟨e, hoffends⟩
  · exact ⟨_, none, .all ⟨hreads, hnamed, hclosed⟩⟩
  · cases hoffends with
    | unclosed htext hopen hclose =>
      exact ⟨_, some _, .malformed hreads hnamed fun _ => .unclosed htext hopen hclose⟩
    | blank htext hopen hclose hblank =>
      exact ⟨_, some _, .malformed hreads hnamed fun _ => .blank htext hopen hclose hblank⟩
    | undefined _ _ _ hnone => cases hnone

/-- The result `x`, unless the line `text` has a malformed placeholder, which is refused. -/
def unlessMalformed {α : Type} (text : Text) (stop : Option Nat) (x : α) :
    Except PlaceholderError α :=
  match stop with
  | none => .ok x
  | some offset => .error (.malformed text offset)

/-- Listing the names and filling in their values are about the same slots. Where there is a
malformed placeholder, both refuse it, but filling in does so after it has looked up the names. -/
theorem Finds.exists_slots (h : Finds c text names stop) :
    ∃ slots last, slots.map Slot.name = names ∧
      placeholders c text = unlessMalformed text stop names ∧
      ∀ lookup, substitute c lookup text =
        fill lookup slots >>= fun t => unlessMalformed text stop (t ++ last) := by
  cases h with
  | @all ps last hdecomposes =>
    have hscan := scan_of_decomposes hdecomposes
    refine ⟨ps.map Piece.slot, last, List.map_map, ?_, fun lookup => ?_⟩
    · rw [placeholders, hscan]
      exact congrArg _ List.map_map
    · rw [substitute, hscan]
      cases fill lookup (ps.map Piece.slot) <;> rfl
  | @malformed ps rest offset hreads hnamed hoffends =>
    have hscan := scan_of_malformed hreads hnamed (hoffends fun _ => none)
    refine ⟨ps.map Piece.slot, [], List.map_map, ?_, fun lookup => ?_⟩
    · rw [placeholders, hscan]
      rfl
    · rw [substitute, hscan]
      cases fill lookup (ps.map Piece.slot) <;> rfl

/-! ## Listing and filling in -/

section
variable {lookup : Text → Option Text} {slots : List Slot}

/-- Slots can be filled exactly when each name has a value. -/
theorem exists_fill_eq_ok_iff :
    (∃ t, fill lookup slots = .ok t) ↔ ∀ n ∈ slots.map Slot.name, (lookup n).isSome := by
  induction slots with
  | nil => exact ⟨fun _ => List.forall_mem_nil _, fun _ => ⟨[], rfl⟩⟩
  | cons slot slots ih =>
    rw [List.map_cons, List.forall_mem_cons, ← ih, fill]
    cases lookup slot.name with
    | none => simp
    | some value => simp [map_eq_ok_iff]

/-- Otherwise the first name without a value is refused. -/
theorem fill_eq_error_iff {e : PlaceholderError} :
    fill lookup slots = .error e ↔ ∃ before n after, slots.map Slot.name = before ++ n :: after ∧
      (∀ m ∈ before, (lookup m).isSome) ∧ lookup n = none ∧ e = .undefined n := by
  induction slots with
  | nil => simp [fill]
  | cons slot slots ih =>
    rw [List.map_cons, fill]
    cases hvalue : lookup slot.name with
    | none =>
      constructor
      · intro he
        exact ⟨[], _, _, rfl, List.forall_mem_nil _, hvalue, (Except.error.inj he).symm⟩
      · rintro ⟨before, n, after, hsplit, hbefore, -, rfl⟩
        cases before with
        | nil =>
          obtain ⟨rfl, -⟩ := List.cons.inj hsplit
          rfl
        | cons m before =>
          obtain ⟨rfl, -⟩ := List.cons.inj hsplit
          have hbound := hbefore _ List.mem_cons_self
          rw [hvalue] at hbound
          cases hbound
    | some value =>
      dsimp only
      rw [map_eq_error_iff, ih]
      constructor
      · rintro ⟨before, n, after, hsplit, hbefore, hn⟩
        exact ⟨slot.name :: before, n, after, by rw [hsplit]; rfl,
          List.forall_mem_cons.2 ⟨by rw [hvalue]; rfl, hbefore⟩, hn⟩
      · rintro ⟨before, n, after, hsplit, hbefore, hnone, hn⟩
        cases before with
        | nil =>
          obtain ⟨rfl, -⟩ := List.cons.inj hsplit
          cases hvalue.symm.trans hnone
        | cons m before =>
          obtain ⟨-, hsplit⟩ := List.cons.inj hsplit
          exact ⟨before, n, after, hsplit, (List.forall_mem_cons.1 hbefore).2, hnone, hn⟩

end

/-- How listing the names of the line `text` and filling in their values go together, where `names`
are the names that stand in it, before the first malformed placeholder if there is one. -/
structure Agrees (c : Conventions) (text : Text) (names : List Text) (stop : Option Nat) :
    Prop where
  /-- The names are listed, or the malformed placeholder is refused. -/
  listed : placeholders c text = unlessMalformed text stop names
  /-- The values can be filled in exactly when a list of names is given and each of them has a
  value. -/
  filled : ∀ vars : Bindings Text, (∃ r, substitute c vars.get? text = .ok r) ↔
    ∃ ns, placeholders c text = .ok ns ∧ ∀ n ∈ ns, (vars.get? n).isSome
  /-- A name is refused exactly when it is the first one without a value. -/
  undefined : ∀ (vars : Bindings Text) n, substitute c vars.get? text = .error (.undefined n) ↔
    ∃ before after, names = before ++ n :: after ∧ (∀ m ∈ before, (vars.get? m).isSome) ∧
      vars.get? n = none
  /-- A malformed placeholder is refused exactly when it is refused in listing the names, and each
  name before it has a value. -/
  malformed : ∀ (vars : Bindings Text) t offset,
    substitute c vars.get? text = .error (.malformed t offset) ↔
      placeholders c text = .error (.malformed t offset) ∧ ∀ n ∈ names, (vars.get? n).isSome

theorem Finds.agrees (h : Finds c text names stop) : Agrees c text names stop := by
  obtain ⟨slots, last, rfl, hlisted, hfilled⟩ := h.exists_slots
  refine ⟨hlisted, fun vars => ?_, fun vars n => ?_, fun vars t offset => ?_⟩
  · rw [hlisted, hfilled]
    cases stop with
    | none => simpa [unlessMalformed, bind_eq_ok_iff] using exists_fill_eq_ok_iff
    | some offset => simp [unlessMalformed, bind_eq_ok_iff]
  · have hstop : ∀ t, unlessMalformed text stop (t ++ last) ≠ .error (.undefined n) := by
      intro t
      cases stop <;> simp [unlessMalformed]
    simp [hfilled, bind_eq_error_iff, fill_eq_error_iff, hstop]
  · have hfill : fill vars.get? slots ≠ .error (.malformed t offset) := by
      intro he
      obtain ⟨_, _, _, -, -, -, hundefined⟩ := fill_eq_error_iff.1 he
      cases hundefined
    rw [hlisted, hfilled, bind_eq_error_iff, or_iff_right hfill]
    cases stop with
    | none => simp [unlessMalformed]
    | some offset' =>
      simp only [unlessMalformed, ← exists_fill_eq_ok_iff, Except.error.injEq]
      rw [exists_and_right, and_comm]

/-- A name without a value is refused before a malformed placeholder that is refused in listing the
names. -/
example :
    substitute {} (Assoc.get? []) "$\x7ba\x7d$\x7b" = .error (.undefined "a") ∧
      placeholders {} "$\x7ba\x7d$\x7b" = .error (.malformed "$\x7ba\x7d$\x7b" 4) := by
  decide +kernel

end LineSpec.Template
