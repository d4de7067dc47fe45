import LineSpec.Proofs.Text.Surrogate
import LineSpec.Text.Quoted
/-!
# Printable texts

What is said about a text is printable, but for the fragments of the text that it repeats as they
are. Words in ASCII, numbers and quoted texts are printable through and through
(`printable_quoted`): quoting keeps what is printable and writes all else with ASCII characters. The
line feed and the surrogates are not printable, so a printable text is one line, and plain.
-/

namespace LineSpec.Text

variable {t u v : Text}

/-- Each code point of the text can be shown as it is. -/
def Printable (t : Text) : Prop := ∀ c ∈ t, isPrintable c = true

-- the text is searched, for there are too many code points to try them all
instance (t : Text) : Decidable t.Printable :=
  decidable_of_iff (t.all isPrintable = true) List.all_eq_true

/-- What `t` holds and `u` does not is printable. -/
def PrintableUpTo (t u : Text) : Prop := ∀ c ∈ t, isPrintable c = true ∨ c ∈ u

/-! ## Texts that are put together -/

theorem Printable.append (h : t.Printable) (h' : u.Printable) : Printable (t ++ u) :=
  List.forall_mem_append.2 ⟨h, h'⟩

theorem Printable.upTo (h : t.Printable) (u : Text) : t.PrintableUpTo u :=
  fun c hc => .inl (h c hc)

theorem PrintableUpTo.append (ht : t.PrintableUpTo v) (hu : u.PrintableUpTo v) :
    PrintableUpTo (t ++ u) v := by
  intro c hc
  rcases List.mem_append.1 hc with hc | hc
  · exact ht c hc
  · exact hu c hc

theorem printableUpTo_of_subset (h : t ⊆ u) : t.PrintableUpTo u := fun _ hc => .inr (h hc)

/-! ## What is not printable -/

theorem PrintableUpTo.lineFeed_not_mem (h : t.PrintableUpTo u) (hu : ('\n' : CodePoint) ∉ u) :
    ('\n' : CodePoint) ∉ t := by
  intro hmem
  rcases h _ hmem with hprintable | hmem
  · rw [isPrintable_lineFeed] at hprintable
    cases hprintable
  · exact hu hmem

theorem Printable.lineFeed_not_mem (h : t.Printable) : ('\n' : CodePoint) ∉ t :=
  (h.upTo []).lineFeed_not_mem List.not_mem_nil

theorem isSurrogate_eq_false_of_isPrintable {c : CodePoint} (h : isPrintable c = true) :
    c.isSurrogate = false := by
  have hrange : (0xD7FC, 0xF8FF) ∈ unprintableRanges := by decide +kernel
  by_contra hc
  simp only [CodePoint.isSurrogate, Bool.not_eq_false, Bool.and_eq_true, decide_eq_true_eq] at hc
  have hlisted : (unprintableRanges.any fun r => r.1 ≤ c.val && c.val ≤ r.2) = true := by
    refine List.any_eq_true.2 ⟨_, hrange, ?_⟩
    simp only [Bool.and_eq_true, decide_eq_true_eq]
    omega
  simp only [isPrintable, hlisted, Bool.not_true, Bool.or_false, Bool.and_eq_true,
    decide_eq_true_eq] at h
  omega

theorem PrintableUpTo.plain (h : t.PrintableUpTo u) (hu : u.Plain) : t.Plain := by
  intro c hc
  rcases h c hc with hprintable | hmem
  · exact isSurrogate_eq_false_of_isPrintable hprintable
  · exact hu c hmem

theorem Printable.plain (h : t.Printable) : t.Plain := (h.upTo []).plain plain_nil

/-! ## Words and numbers -/

theorem isPrintable_of_ascii {c : CodePoint} (h : 0x20 ≤ c.val ∧ c.val ≤ 0x7E) :
    isPrintable c = true := by
  simp [isPrintable, h.1, h.2]

theorem printable_ofString_append {a b : String} (ha : Printable a) (hb : Printable b) :
    Printable ((a ++ b : String) : Text) := by
  unfold ofString ofChars at *
  rw [String.toList_append, List.map_append]
  exact ha.append hb

theorem printable_toString_nat (n : Nat) : Printable (toString n : String) := by
  rw [Nat.toString_eq_ofList_toDigits]
  unfold ofString ofChars
  rw [String.toList_ofList]
  refine List.forall_mem_map.2 fun c hc => isPrintable_of_ascii ?_
  have hdigit : c.isDigit = true := Nat.isDigit_of_mem_toDigits (by decide) (by decide) hc
  simp only [Char.isDigit, Bool.and_eq_true, decide_eq_true_eq, ge_iff_le,
    UInt32.le_iff_toNat_le] at hdigit
  show 0x20 ≤ c.toNat ∧ c.toNat ≤ 0x7E
  have h0 : 48 ≤ c.toNat := hdigit.1
  have h9 : c.toNat ≤ 57 := hdigit.2
  omega

theorem printable_toString (n : Int) : Printable (toString n : String) := by
  cases n with
  | ofNat n => exact printable_toString_nat n
  | negSucc n =>
    show Printable (("-" ++ toString (n + 1) : String) : Text)
    exact printable_ofString_append (by decide) (printable_toString_nat (n + 1))

theorem printable_hex (width n : Nat) : (ofChars (hex width n)).Printable := by
  have hall : ∀ d < 16, isPrintable (hexDigit d) = true := by decide
  induction width generalizing n with
  | zero => exact List.forall_mem_nil _
  | succ width ih =>
    unfold hex ofChars
    rw [List.map_append]
    refine Printable.append (ih (n / 16)) (List.forall_mem_singleton.2 ?_)
    have hdigit : hexDigit n = hexDigit (n % 16) := by
      unfold hexDigit
      rw [Nat.mod_mod]
    rw [hdigit]
    exact hall (n % 16) (Nat.mod_lt n (by decide))

/-! ## Quoted texts -/

theorem printable_escapeCode (n : Nat) : (ofChars (escapeCode n)).Printable := by
  have hescape : ∀ (letter : Char) (cs : List Char), isPrintable letter = true →
      (ofChars cs).Printable → (ofChars ('\\' :: letter :: cs)).Printable := by
    intro letter cs hletter hcs
    exact List.forall_mem_cons.2 ⟨by decide, List.forall_mem_cons.2 ⟨hletter, hcs⟩⟩
  unfold escapeCode
  split
  · exact hescape 'x' _ (by decide) (printable_hex 2 n)
  split
  · exact hescape 'u' _ (by decide) (printable_hex 4 n)
  · exact hescape 'U' _ (by decide) (printable_hex 8 n)

theorem printable_quotePoint {q : Char} (hq : isPrintable q = true) (c : CodePoint) :
    Printable (quotePoint q c) := by
  unfold quotePoint
  split
  next hc =>
    have hpoint : isPrintable c = true := by
      rw [Bool.or_eq_true, beq_iff_eq, beq_iff_eq] at hc
      rcases hc with rfl | rfl
      · exact hq
      · decide
    exact List.forall_mem_cons.2 ⟨by decide, List.forall_mem_singleton.2 hpoint⟩
  split
  · decide
  split
  · decide
  split
  · decide
  split
  next hpoint => exact List.forall_mem_singleton.2 hpoint
  · exact printable_escapeCode c.val

/-- A quoted text is printable, whatever the text is. -/
theorem printable_quoted (t : Text) : Printable (quoted t) := by
  have hq : isPrintable (enclosingQuote t) = true := by
    unfold enclosingQuote
    split <;> decide
  have hquote : Printable [(enclosingQuote t : CodePoint)] := List.forall_mem_singleton.2 hq
  have hpoints : Printable (t.flatMap (quotePoint (enclosingQuote t))) :=
    List.forall_mem_flatMap.2 fun c _ => printable_quotePoint hq c
  exact hquote.append (hpoints.append hquote)

theorem lineFeed_not_mem_quoted (t : Text) : ('\n' : CodePoint) ∉ quoted t :=
  (printable_quoted t).lineFeed_not_mem

theorem plain_quoted (t : Text) : Plain (quoted t) := (printable_quoted t).plain

end LineSpec.Text
