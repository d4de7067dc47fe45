import LineSpec.Json.Reader
import LineSpec.Json.Writer
import LineSpec.Proofs.Text.Encoding
import Mathlib.Algebra.Group.Nat.Defs
/-!
# Strings and numbers that are read back

A string that holds no surrogate is read back from what is written for it: each code point by its
own escape, one beyond the first plane by two (`readString_write`). A whole number is read back from
its decimal digits if there are not more of them than are read (`readNumber_write`), provided that
nothing follows which would go on with the number.
-/

namespace LineSpec.Json

/-! ## Hexadecimal digits -/

theorem hexValue?_hexDigit (n : Nat) : Text.hexValue? (Text.hexDigit n) = some (n % 16) := by
  have h : ∀ d < 16, Text.hexValue? (Char.ofNat (if d < 10 then 48 + d else 87 + d)) = some d := by
    decide
  exact h _ (Nat.mod_lt _ (by omega))

theorem hexNumber?_hex (width n : Nat) :
    Text.hexNumber? (Text.hex width n) = some (n % 16 ^ width) := by
  induction width generalizing n with
  | zero => simp [Text.hex, Text.hexNumber?, Nat.mod_one]
  | succ width ih =>
    unfold Text.hexNumber? at ih ⊢
    rw [Text.hex, List.foldlM_append, ih]
    simp only [List.foldlM_cons, hexValue?_hexDigit, Option.map_some, List.foldlM_nil,
      Option.bind_eq_bind, Option.bind_some, Option.pure_def, Option.some.injEq]
    rw [Nat.pow_succ, Nat.mul_comm (16 ^ width), Nat.mod_mul]
    omega

/-- The four digits of a unit are read back when something follows them. -/
theorem fourDigits?_hex {n : Nat} (hn : n < 0x10000) {rest : List Char} (hrest : rest ≠ []) :
    fourDigits? (Text.hex 4 n ++ rest) = some (n, rest) := by
  have hlength : 4 < (Text.hex 4 n ++ rest).length := by
    have := List.length_pos_iff.2 hrest
    rw [List.length_append, Text.length_hex]
    omega
  have htake : (Text.hex 4 n ++ rest).take 4 = Text.hex 4 n :=
    List.take_left' (Text.length_hex 4 n)
  have hdrop : (Text.hex 4 n ++ rest).drop 4 = rest := List.drop_left' (Text.length_hex 4 n)
  rw [fourDigits?, if_pos hlength, htake, hdrop, hexNumber?_hex, Nat.mod_eq_of_lt (by omega)]
  rfl

/-! ## The steps of reading a string -/

section
variable {start rest rest' ds : List Char} {n low : Nat}

theorem readString_quote : readString start ('"' :: rest) = .ok ([], rest) := by
  rw [readString]

theorem readString_short {e c : Char} (h : shortEscape? e = some c) :
    readString start ('\\' :: e :: rest) =
      (readString start rest).map fun p => ((c : CodePoint) :: p.1, p.2) := by
  have hu : e ≠ 'u' := by
    rintro rfl
    cases h
  rw [readString, h]
  exact hu

theorem readString_single (h : fourDigits? ds = some (n, rest)) (hn : isHigh n = false) :
    readString start ('\\' :: 'u' :: ds) =
      (readString start rest).map fun p => (single n :: p.1, p.2) := by
  rw [readString]
  split
  next h' => cases h.symm.trans h'
  next h' =>
    obtain ⟨rfl, rfl⟩ := Prod.mk.inj (Option.some.inj (h.symm.trans h'))
    split
    next h'' => simp [hn] at h''
    next => rfl

theorem readString_pair (h : fourDigits? ds = some (n, rest)) (hn : isHigh n = true)
    (hlow : lowSurrogate? rest = some (low, rest')) :
    readString start ('\\' :: 'u' :: ds) =
      (readString start rest').map fun p => (pair n low :: p.1, p.2) := by
  rw [readString]
  split
  next h' => cases h.symm.trans h'
  next h' =>
    obtain ⟨rfl, rfl⟩ := Prod.mk.inj (Option.some.inj (h.symm.trans h'))
    split
    next h'' =>
      rw [if_pos hn, hlow] at h''
      obtain ⟨rfl, rfl⟩ := Prod.mk.inj (Option.some.inj h'')
      rfl
    next h'' =>
      rw [if_pos hn, hlow] at h''
      cases h''

theorem readString_plain {c : Char} (hquote : c ≠ '"') (hslash : c ≠ '\\') (h : 32 ≤ c.toNat) :
    readString start (c :: rest) =
      (readString start rest).map fun p => ((c : CodePoint) :: p.1, p.2) := by
  rw [readString, if_neg (by omega)]
  · exact hquote
  · exact hslash

end

/-! ## Strings -/

theorem eq_ofChar_of_val {c : CodePoint} {n : Nat} (h : c.val = n) (hn : n < 0xD800) :
    c = (Char.ofNat n : CodePoint) :=
  Fin.ext (h.trans (Text.Utf8.toNat_charOfNat (.inl hn)).symm)

section
variable {start rest : List Char} {c : CodePoint}

/-- A printable character stands for itself. -/
theorem readString_printable (hquote : c ≠ '"') (hslash : c ≠ '\\') (hlow : 32 ≤ c.val)
    (hhigh : c.val ≤ 126) :
    readString start (Char.ofNat c.val :: rest) =
      (readString start rest).map fun p => (c :: p.1, p.2) := by
  have hchar : c = (Char.ofNat c.val : CodePoint) := eq_ofChar_of_val rfl (by omega)
  have hval : (Char.ofNat c.val).toNat = c.val := Text.Utf8.toNat_charOfNat (.inl (by omega))
  refine (readString_plain (fun heq => hquote ?_) (fun heq => hslash ?_) (by omega)).trans ?_
  · rw [hchar, heq]
  · rw [hchar, heq]
  · rw [← hchar]

/-- One unit stands for a code point of the first plane. -/
theorem readString_unit (h : c.val < 0x10000) (hc : c.val < 0xD800 ∨ 0xDFFF < c.val)
    (hrest : rest ≠ []) :
    readString start (unitEscape c.val ++ rest) =
      (readString start rest).map fun p => (c :: p.1, p.2) := by
  have hsingle : single c.val = c := Fin.ext (Nat.mod_eq_of_lt c.isLt)
  have hhigh : isHigh c.val = false := by
    simp only [isHigh, Bool.and_eq_false_iff, decide_eq_false_iff_not]
    omega
  refine (readString_single (fourDigits?_hex h hrest) hhigh).trans ?_
  rw [hsingle]

/-- Two units stand for a code point beyond the first plane. -/
theorem readString_units (h : 0x10000 ≤ c.val) (hrest : rest ≠ []) :
    readString start (unitEscape (0xD800 + (c.val - 0x10000) / 1024) ++
        unitEscape (0xDC00 + (c.val - 0x10000) % 1024) ++ rest) =
      (readString start rest).map fun p => (c :: p.1, p.2) := by
  have hlt := c.isLt
  generalize hhigh : 0xD800 + (c.val - 0x10000) / 1024 = high
  generalize hlow : 0xDC00 + (c.val - 0x10000) % 1024 = low
  have hpair : pair high low = c := by
    refine Fin.ext (Eq.trans (Nat.mod_eq_of_lt ?_) ?_) <;> omega
  have hisHigh : isHigh high = true := by
    simp only [isHigh, Bool.and_eq_true, decide_eq_true_eq]
    omega
  have hisLow : isLow low = true := by
    simp only [isLow, Bool.and_eq_true, decide_eq_true_eq]
    omega
  have hfour : lowSurrogate? (unitEscape low ++ rest) = some (low, rest) := by
    refine (congrArg (Option.filter _) (fourDigits?_hex (by omega) hrest)).trans ?_
    rw [Option.filter_some, if_pos hisLow]
  rw [List.append_assoc]
  refine (readString_pair (fourDigits?_hex (by omega) (List.cons_ne_nil _ _)) hisHigh
    hfour).trans ?_
  rw [hpair]

/-- A code point is read back from what is written for it, unless it is a surrogate. -/
theorem readString_writePoint (start : List Char) (hc : c.isSurrogate = false)
    (hrest : rest ≠ []) :
    readString start (writePoint c ++ rest) =
      (readString start rest).map fun p => (c :: p.1, p.2) := by
  simp only [CodePoint.isSurrogate, Bool.and_eq_false_iff, decide_eq_false_iff_not] at hc
  simp only [writePoint, beq_iff_eq, Bool.and_eq_true, decide_eq_true_eq]
  split
  next h => exact h ▸ readString_short rfl
  next hquote =>
  split
  next h => exact h ▸ readString_short rfl
  next hslash =>
  split
  next h => exact h ▸ readString_short rfl
  split
  next h => exact h ▸ readString_short rfl
  split
  next h => exact h ▸ readString_short rfl
  split
  next h => exact eq_ofChar_of_val h (by omega) ▸ readString_short rfl
  split
  next h => exact eq_ofChar_of_val h (by omega) ▸ readString_short rfl
  split
  next h => exact readString_printable hquote hslash h.1 h.2
  split
  next h => exact readString_unit h (by omega) hrest
  next h => exact readString_units (by omega) hrest

end

/-- A text without surrogates is read back from between its quotes. -/
theorem readString_write (start : List Char) {t : Text} (ht : t.Plain) (rest : List Char) :
    readString start (t.flatMap writePoint ++ '"' :: rest) = .ok (t, rest) := by
  induction t with
  | nil => exact readString_quote
  | cons c t ih =>
    obtain ⟨hc, ht⟩ := List.forall_mem_cons.1 ht
    have hrest : t.flatMap writePoint ++ '"' :: rest ≠ [] := by simp
    rw [List.flatMap_cons, List.append_assoc, readString_writePoint start hc hrest, ih ht]
    rfl

/-! ## Numbers -/

/-- What follows a number does not go on with it. -/
def EndsNumber (rest : List Char) : Prop :=
  ∀ c ∈ rest.head?, c.isDigit = false ∧ c ≠ '.' ∧ c ≠ 'e' ∧ c ≠ 'E'

/-- The number of decimal digits of a whole number. -/
def digitCount (n : Int) : Nat := (Nat.toDigits 10 n.natAbs).length

theorem natOfDigits_toDigits (n : Nat) : natOfDigits (Nat.toDigits 10 n) = n := by
  rw [natOfDigits, Decimal.Numeral.value, List.foldl_map]
  exact Nat.ofDigitChars_eq_foldl.symm.trans Nat.ofDigitChars_ten_toDigits

/-- Only the digits of zero begin with a zero. -/
theorem head?_toDigits {n : Nat} (hn : n ≠ 0) : (Nat.toDigits 10 n).head? ≠ some '0' := by
  induction n using Nat.strongRecOn with
  | ind n ih =>
    rw [Nat.toDigits_eq_if (by omega)]
    split
    next hlt =>
      have h : ∀ d < 10, d ≠ 0 → [d.digitChar].head? ≠ some '0' := by decide
      exact h n hlt hn
    next hlt =>
      rw [List.head?_append_of_ne_nil _ Nat.toDigits_ne_nil]
      exact ih (n / 10) (by omega) (by omega)

section
variable {n : Nat} {rest : List Char}

theorem takeWhile_toDigits (hrest : EndsNumber rest) :
    (Nat.toDigits 10 n ++ rest).takeWhile Char.isDigit = Nat.toDigits 10 n ∧
      (Nat.toDigits 10 n ++ rest).dropWhile Char.isDigit = rest := by
  have hdigits : ∀ c ∈ Nat.toDigits 10 n, c.isDigit = true := fun c hc =>
    Nat.isDigit_of_mem_toDigits (by decide) (by decide) hc
  rw [List.takeWhile_append_of_pos hdigits, List.dropWhile_append_of_pos hdigits]
  cases rest with
  | nil => simp
  | cons c rest =>
    have hc := (hrest c rfl).1
    simp [hc]

theorem wholeDigits_toDigits (hrest : EndsNumber rest) :
    wholeDigits (Nat.toDigits 10 n ++ rest) = (Nat.toDigits 10 n, rest) := by
  by_cases hn : n = 0
  · subst hn
    rfl
  · rw [wholeDigits]
    · rw [(takeWhile_toDigits hrest).1, (takeWhile_toDigits hrest).2]
    · intro cs hcs
      have hhead := head?_toDigits hn
      rw [← List.head?_append_of_ne_nil _ Nat.toDigits_ne_nil, hcs] at hhead
      exact absurd rfl hhead

theorem readNumber_write {negative : Bool} (hn : (Nat.toDigits 10 n).length ≤ Decimal.maxDigits)
    (hrest : EndsNumber rest) :
    readNumber negative (Nat.toDigits 10 n ++ rest) =
      .ok (.int (if negative then -n else n), rest) := by
  have hfraction : fraction? rest = none := by
    rw [fraction?]
    rintro cs rfl
    exact absurd rfl (hrest '.' rfl).2.1
  have hexponent : exponent? rest = none := by
    cases rest with
    | nil => rfl
    | cons c rest =>
      obtain ⟨-, -, he, hE⟩ := hrest c rfl
      simp [exponent?, he, hE]
  simp [readNumber, wholeDigits_toDigits hrest, hfraction, hexponent, natOfDigits_toDigits,
    Nat.not_lt.2 hn]

end

theorem toList_toString (n : Int) :
    (toString n).toList = (if n < 0 then ['-'] else []) ++ Nat.toDigits 10 n.natAbs := by
  cases n with
  | ofNat n => exact Nat.toList_repr
  | negSucc n =>
    change ("-" ++ (n + 1).repr).toList = _
    rw [String.toList_append, Nat.toList_repr, if_pos (Int.negSucc_lt_zero n)]
    rfl

/-- A character that a whole number can begin with. -/
def BeginsNumber (c : Char) : Prop := c = '-' ∨ c.isDigit = true

theorem ne_of_isDigit {c d : Char} (hd : d.isDigit = true) (hc : c.isDigit = false) : c ≠ d := by
  rintro rfl
  exact Bool.noConfusion (hc.symm.trans hd)

theorem ne_of_beginsNumber {c d : Char} (hc : BeginsNumber c) (hsign : d ≠ '-')
    (hd : d.isDigit = false) : c ≠ d := by
  rcases hc with rfl | hc
  · exact hsign.symm
  · exact (ne_of_isDigit hc hd).symm

theorem exists_toDigits_eq_cons (n : Nat) :
    ∃ d ds, Nat.toDigits 10 n = d :: ds ∧ d.isDigit = true := by
  obtain ⟨d, ds, hds⟩ := List.exists_cons_of_ne_nil (Nat.toDigits_ne_nil (n := n) (b := 10))
  exact ⟨d, ds, hds,
    Nat.isDigit_of_mem_toDigits (by decide) (by decide) (hds ▸ List.mem_cons_self)⟩

theorem exists_toString_eq_cons (n : Int) :
    ∃ c cs, (toString n).toList = c :: cs ∧ BeginsNumber c := by
  obtain ⟨d, ds, hds, hd⟩ := exists_toDigits_eq_cons n.natAbs
  rw [toList_toString, hds]
  split
  · exact ⟨_, _, rfl, .inl rfl⟩
  · exact ⟨_, _, rfl, .inr hd⟩

/-- No word begins with a digit, or with a sign and a digit. -/
theorem readWord?_eq_none {d : Char} (hd : d.isDigit = true) (cs : List Char) :
    readWord? (d :: cs) = none ∧ readWord? ('-' :: d :: cs) = none := by
  have hn := ne_of_isDigit hd (c := 'n') rfl
  have ht := ne_of_isDigit hd (c := 't') rfl
  have hf := ne_of_isDigit hd (c := 'f') rfl
  have hN := ne_of_isDigit hd (c := 'N') rfl
  have hI := ne_of_isDigit hd (c := 'I') rfl
  have hsign := ne_of_isDigit hd (c := '-') rfl
  simp [readWord?, afterWord?, hn, ht, hf, hN, hI, hsign]

/-- A whole number is read back if there are not too many digits. -/
theorem readScalar_int {n : Int} (hn : digitCount n ≤ Decimal.maxDigits) {rest : List Char}
    (hrest : EndsNumber rest) :
    readScalar ((toString n).toList ++ rest) = .ok (.int n, rest) := by
  obtain ⟨d, ds, hds, hd⟩ := exists_toDigits_eq_cons n.natAbs
  have hnumber : ∀ negative : Bool, readNumber negative (Nat.toDigits 10 n.natAbs ++ rest) = _ :=
    fun _ => readNumber_write hn hrest
  rw [toList_toString, List.append_assoc]
  rw [hds, List.cons_append] at hnumber ⊢
  have hquote := ne_of_isDigit hd (c := '"') rfl
  have hsign := ne_of_isDigit hd (c := '-') rfl
  split
  next hneg =>
    have hvalue : -(n.natAbs : Int) = n := by omega
    have hread := hnumber true
    rw [if_pos rfl, hvalue] at hread
    simp only [List.singleton_append, readScalar, (readWord?_eq_none hd _).2, hd, if_true, hread]
  next hneg =>
    have hvalue : (n.natAbs : Int) = n := by omega
    have hread := hnumber false
    rw [if_neg Bool.false_ne_true, hvalue] at hread
    simp only [List.nil_append, readScalar, (readWord?_eq_none hd _).1, hread]
    split
    all_goals simp_all

end LineSpec.Json
