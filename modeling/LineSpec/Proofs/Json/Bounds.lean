import LineSpec.Proofs.Json.Literal
import LineSpec.Proofs.Steps
import Mathlib.Data.List.Induction
/-!
# What a text can write

The data of a text is bounded: in the levels of its arrays and objects and in the digits of its
whole numbers, and the names in an object are distinct (`Json.Fits`). Whatever is read has these
bounds (`Json.fits_of_read`).
-/

namespace LineSpec.Json

/-- Data that a text with up to `left` levels of arrays and objects can write. -/
inductive Fits : (left : Nat) → Json → Prop
  | null {left : Nat} : Fits left .null
  | bool {left : Nat} (b : Bool) : Fits left (.bool b)
  | int {left : Nat} {n : Int} (digits : digitCount n ≤ Decimal.maxDigits) : Fits left (.int n)
  | float {left : Nat} (x : Binary64) : Fits left (.float x)
  | text {left : Nat} (t : Text) : Fits left (.text t)
  | array {left : Nat} {items : List Json} (each : ∀ j ∈ items, Fits left j) :
      Fits (left + 1) (.array items)
  | object {left : Nat} {members : Bindings Json} (distinct : members.names.Nodup)
      (each : ∀ p ∈ members, Fits left p.2) : Fits (left + 1) (.object members)

/-! ## Numbers -/

theorem natOfDigits_lt {ds : List Char} (h : ∀ d ∈ ds, d.isDigit = true) :
    natOfDigits ds < 10 ^ ds.length := by
  rw [natOfDigits, Decimal.Numeral.value, List.foldl_map]
  induction ds using List.reverseRecOn with
  | nil => exact Nat.one_pos
  | append_singleton ds d ih =>
    have hd := Char.isDigit_iff_toNat.1 (h d (by simp))
    have hlt := ih fun d' hd' => h d' (List.mem_append_left _ hd')
    rw [List.foldl_append, List.length_append, List.length_singleton, Nat.pow_succ]
    change 10 * _ + (d.toNat - 48) < _
    have h9 : '9'.toNat = 57 := rfl
    omega

theorem digitCount_le {n : Int} {ds : List Char} (h : ∀ d ∈ ds, d.isDigit = true)
    (hn : n.natAbs = natOfDigits ds) (hlength : ds.length ≤ Decimal.maxDigits) :
    digitCount n ≤ Decimal.maxDigits := by
  rw [digitCount, hn, Nat.length_toDigits_le_iff (by decide) (by decide)]
  exact Nat.lt_of_lt_of_le (natOfDigits_lt h) (Nat.pow_le_pow_right (by decide) hlength)

theorem isDigit_of_mem_wholeDigits {cs : List Char} {d : Char} (h : d ∈ (wholeDigits cs).1) :
    d.isDigit = true := by
  unfold wholeDigits at h
  split at h
  · obtain rfl := List.mem_singleton.1 h
    rfl
  · exact List.mem_takeWhile_imp h

section
variable {left fuel : Nat} {cs rest : List Char}

theorem fits_of_readNumber {negative : Bool} {j : Json}
    (h : readNumber negative cs = .ok (j, rest)) : Fits left j := by
  simp only [readNumber] at h
  split at h
  · split at h
    · cases h
    next hlength =>
      obtain ⟨rfl, -⟩ := Prod.mk.inj (Except.ok.inj h)
      refine .int (digitCount_le (fun _ => isDigit_of_mem_wholeDigits) ?_ (Nat.not_lt.1 hlength))
      split <;> simp
  · obtain ⟨rfl, -⟩ := Prod.mk.inj (Except.ok.inj h)
    exact .float _

theorem fits_of_readWord? {j : Json} (h : readWord? cs = some (j, rest)) : Fits left j := by
  obtain ⟨p, hp, hword⟩ := List.exists_of_findSome?_eq_some h
  obtain ⟨_, _, heq⟩ := Option.map_eq_some_iff.1 hword
  obtain ⟨rfl, -⟩ := Prod.mk.inj heq
  simp only [List.mem_cons, List.not_mem_nil, or_false] at hp
  obtain rfl | rfl | rfl | rfl | rfl | rfl := hp
  · exact .null
  · exact .bool _
  · exact .bool _
  · exact .float _
  · exact .float _
  · exact .float _

theorem fits_of_readScalar {j : Json} (h : readScalar cs = .ok (j, rest)) : Fits left j := by
  unfold readScalar at h
  split at h
  next hword =>
    obtain rfl := Except.ok.inj h
    exact fits_of_readWord? hword
  · split at h
    · obtain ⟨p, -, heq⟩ := map_eq_ok_iff.1 h
      obtain ⟨rfl, -⟩ := Prod.mk.inj heq
      exact .text _
    · split at h
      · exact fits_of_readNumber h
      · cases h
    · split at h
      · exact fits_of_readNumber h
      · cases h
    · cases h

end

/-! ## Values -/

/-- What the readers of values give with a certain fuel fits. -/
structure ReadsWithin (fuel : Nat) : Prop where
  value {left : Nat} {cs rest : List Char} {j : Json} :
    readValue left fuel cs = .ok (j, rest) → Fits left j
  items {left : Nat} {before items : List Json} {cs rest : List Char} :
    (∀ j ∈ before, Fits left j) → readItems left fuel before cs = .ok (items, rest) →
      ∀ j ∈ items, Fits left j
  members {left : Nat} {before members : Bindings Json} {cs rest : List Char} :
    Fits (left + 1) (.object before) → readMembers left fuel before cs = .ok (members, rest) →
      Fits (left + 1) (.object members)

theorem readsWithin_zero : ReadsWithin 0 where
  value h := by
    rw [readValue] at h
    cases h
  items _ h := by
    rw [readItems] at h
    cases h
  members _ h := by
    rw [readMembers] at h
    cases h

theorem fits_object_nil {left : Nat} : Fits (left + 1) (.object []) :=
  .object List.nodup_nil (List.forall_mem_nil _)

/-- A further member fits among members that fit. -/
theorem Fits.bind {left : Nat} {before : Bindings Json} {name : Text} {value : Json}
    (h : Fits (left + 1) (.object before)) (hvalue : Fits left value) :
    Fits (left + 1) (.object (before.bind name value)) := by
  cases h with
  | object distinct each =>
    have hdistinct := Assoc.nodup_names_bind distinct name value
    refine .object hdistinct fun p hp => ?_
    have hget := (Assoc.mem_iff_get? hdistinct).1 hp
    rw [Assoc.get?_bind] at hget
    split at hget
    · obtain rfl := Option.some.inj hget
      exact hvalue
    · exact each _ ((Assoc.mem_iff_get? distinct).2 hget)

namespace ReadsWithin

variable {left fuel : Nat} {cs rest : List Char} (h : ReadsWithin fuel)

include h

theorem value_succ {j : Json} (hread : readValue left (fuel + 1) cs = .ok (j, rest)) :
    Fits left j := by
  rw [readValue.eq_def] at hread
  split at hread
  next heq => cases heq
  next heq =>
    obtain rfl := Nat.succ.inj heq
    split at hread
    · cases hread
    · split at hread
      · obtain ⟨rfl, -⟩ := Prod.mk.inj (Except.ok.inj hread)
        exact .array (List.forall_mem_nil _)
      · obtain ⟨⟨items, _⟩, hitems, heq⟩ := map_eq_ok_iff.1 hread
        obtain ⟨rfl, -⟩ := Prod.mk.inj heq
        have hfits := h.items (List.forall_mem_nil _) hitems
        exact .array fun j hj => hfits j (List.mem_reverse.1 hj)
  next heq =>
    obtain rfl := Nat.succ.inj heq
    split at hread
    · cases hread
    · split at hread
      · obtain ⟨rfl, -⟩ := Prod.mk.inj (Except.ok.inj hread)
        exact fits_object_nil
      · obtain ⟨⟨members, _⟩, hmembers, heq⟩ := map_eq_ok_iff.1 hread
        obtain ⟨rfl, -⟩ := Prod.mk.inj heq
        exact h.members fits_object_nil hmembers
  · exact fits_of_readScalar hread

theorem items_succ {before items : List Json} (hbefore : ∀ j ∈ before, Fits left j)
    (hread : readItems left (fuel + 1) before cs = .ok (items, rest)) :
    ∀ j ∈ items, Fits left j := by
  rw [readItems] at hread
  split at hread
  · cases hread
  next hvalue =>
    have hall := List.forall_mem_cons.2 ⟨h.value hvalue, hbefore⟩
    split at hread
    · obtain ⟨rfl, -⟩ := Prod.mk.inj (Except.ok.inj hread)
      exact hall
    · exact h.items hall hread
    · cases hread

theorem members_succ {before members : Bindings Json} (hbefore : Fits (left + 1) (.object before))
    (hread : readMembers left (fuel + 1) before cs = .ok (members, rest)) :
    Fits (left + 1) (.object members) := by
  rw [readMembers.eq_def] at hread
  dsimp only at hread
  split at hread
  · split at hread
    · cases hread
    next name _ _ =>
      split at hread
      · split at hread
        · cases hread
        next hvalue =>
          have hall := @Fits.bind _ _ name _ hbefore (h.value hvalue)
          split at hread
          · obtain ⟨rfl, -⟩ := Prod.mk.inj (Except.ok.inj hread)
            exact hall
          · exact h.members hall hread
          · cases hread
      · cases hread
  · cases hread

end ReadsWithin

theorem readsWithin (fuel : Nat) : ReadsWithin fuel := by
  induction fuel with
  | zero => exact readsWithin_zero
  | succ fuel ih => exact ⟨ih.value_succ, ih.items_succ, ih.members_succ⟩

/-- What is read from a text fits in one. -/
theorem fits_of_read {cs : List Char} {j : Json} (h : read cs = .ok j) : Fits maxDepth j := by
  rw [read, mapError_eq_ok_iff, readAll] at h
  split at h
  · cases h
  · split at h
    · cases h
    next hvalue =>
      split at h
      · obtain rfl := Except.ok.inj h
        exact (readsWithin _).value hvalue
      · cases h

end LineSpec.Json
