import LineSpec.Proofs.Text.Surrogate
import LineSpec.Text.Feed
import Mathlib.Data.List.Basic
/-!
# Decoding what was encoded

The octets of characters are decoded to these characters: all at once (`Utf8.decode_eq_ok_iff`),
with replacements for faults, of which there are none (`Utf8.decodeLossy_encode`), and in the blocks
in which a file is read (`Feed.ofBytes_encode`). No other octets are decoded to characters.

A character is one unit at the front of its octets, and where a block ends within them, they are
unfinished (`Utf8.Spells`). So each block gives the characters that end in it, and hands the octets
of the one that goes on to the next block (`Feed.exists_decodeBlock`).
-/

namespace LineSpec.Text

namespace Utf8

/-! ## The octets of one character -/

/-- The bound as a numeral, which `omega` can use. -/
theorem toNat_ofNat {n : Nat} (h : n < 256) : (UInt8.ofNat n).toNat = n :=
  UInt8.toNat_ofNat_of_lt' h

theorem isContinuation_iff {n : Nat} : isContinuation n = true ↔ 0x80 ≤ n ∧ n < 0xC0 := by
  simp [isContinuation]

theorem secondInRange_iff {n m : Nat} :
    secondInRange n m = true ↔ (0x80 ≤ m ∧ m < 0xC0) ∧ (n ≠ 0xE0 ∨ 0xA0 ≤ m) ∧
      (n ≠ 0xED ∨ m < 0xA0) ∧ (n ≠ 0xF0 ∨ 0x90 ≤ m) ∧ (n ≠ 0xF4 ∨ m < 0x90) := by
  simp [secondInRange, isContinuation, and_assoc]

section
variable {b s t u : UInt8} {rest : List UInt8}

theorem unit_of_lt (hb : b.toNat < 0x80) : unit b rest = .char (Char.ofNat b.toNat) rest := by
  unfold unit
  exact if_pos hb

theorem unit_nil (hb : 0xC2 ≤ b.toNat) (hb' : b.toNat < 0xF5) : unit b [] = .unfinished := by
  unfold unit
  simp only
  grind

theorem unit_two (hb : 0xC2 ≤ b.toNat) (hb' : b.toNat < 0xE0) (hs : isContinuation s.toNat = true) :
    unit b (s :: rest) = .char (Char.ofNat ((b.toNat - 0xC0) * 64 + (s.toNat - 0x80))) rest := by
  unfold unit
  grind

theorem unit_single (hb : 0xE0 ≤ b.toNat) (hb' : b.toNat < 0xF5)
    (hs : secondInRange b.toNat s.toNat = true) : unit b [s] = .unfinished := by
  unfold unit
  grind

theorem unit_three (hb : 0xE0 ≤ b.toNat) (hb' : b.toNat < 0xF0)
    (hs : secondInRange b.toNat s.toNat = true) (ht : isContinuation t.toNat = true) :
    unit b (s :: t :: rest) = .char (Char.ofNat
      ((b.toNat - 0xE0) * 4096 + (s.toNat - 0x80) * 64 + (t.toNat - 0x80))) rest := by
  unfold unit
  grind

theorem unit_pair (hb : 0xF0 ≤ b.toNat) (hb' : b.toNat < 0xF5)
    (hs : secondInRange b.toNat s.toNat = true) (ht : isContinuation t.toNat = true) :
    unit b [s, t] = .unfinished := by
  unfold unit
  grind

theorem unit_four (hb : 0xF0 ≤ b.toNat) (hb' : b.toNat < 0xF5)
    (hs : secondInRange b.toNat s.toNat = true) (ht : isContinuation t.toNat = true)
    (hu : isContinuation u.toNat = true) :
    unit b (s :: t :: u :: rest) = .char (Char.ofNat
      ((b.toNat - 0xF0) * 262144 + (s.toNat - 0x80) * 4096 + (t.toNat - 0x80) * 64 +
        (u.toNat - 0x80))) rest := by
  unfold unit
  grind

end

/-- A character is no surrogate. -/
theorem toNat_lt_or_le (c : Char) : c.toNat < 0xD800 ∨ 0xE000 ≤ c.toNat := by
  have h : (decide (0xD800 ≤ c.toNat) && decide (c.toNat < 0xE000)) = false :=
    CodePoint.isSurrogate_ofChar c
  rw [Bool.and_eq_false_iff, decide_eq_false_iff_not, decide_eq_false_iff_not] at h
  omega

/-- The octets of a character are one unit, whatever follows them, and a beginning of them is none
yet. -/
structure Spells (c : Char) (b : UInt8) (bs : List UInt8) : Prop where
  whole : ∀ rest, unit b (bs ++ rest) = .char c rest
  part : ∀ p q, bs = p ++ q → q ≠ [] → unit b p = .unfinished

theorem isContinuation_ofNat (n : Nat) :
    isContinuation (UInt8.ofNat (0x80 + n % 64)).toNat = true := by
  rw [toNat_ofNat (by omega), isContinuation_iff]
  omega

theorem ofNat_eq (c : Char) {n : Nat} (h : n = c.toNat) : Char.ofNat n = c := by
  rw [h, Char.ofNat_toNat]

theorem spells_one {c : Char} (h : c.toNat < 0x80) : Spells c (UInt8.ofNat c.toNat) [] where
  whole rest := by
    have hb : (UInt8.ofNat c.toNat).toNat = c.toNat := toNat_ofNat (by omega)
    rw [List.nil_append, unit_of_lt (by omega), hb, Char.ofNat_toNat]
  part p q h hq := absurd (List.append_eq_nil_iff.1 h.symm).2 hq

theorem spells_two {c : Char} (h : 0x80 ≤ c.toNat) (h' : c.toNat < 0x800) :
    Spells c (UInt8.ofNat (0xC0 + c.toNat / 64)) [UInt8.ofNat (0x80 + c.toNat % 64)] := by
  have hb : (UInt8.ofNat (0xC0 + c.toNat / 64)).toNat = 0xC0 + c.toNat / 64 :=
    toNat_ofNat (by omega)
  have hs : (UInt8.ofNat (0x80 + c.toNat % 64)).toNat = 0x80 + c.toNat % 64 :=
    toNat_ofNat (by omega)
  refine ⟨fun rest => ?_, fun p q hpq hq => ?_⟩
  · rw [List.singleton_append, unit_two (by omega) (by omega) (isContinuation_ofNat _), hb, hs,
      ofNat_eq c (by omega)]
  · match p, hpq with
    | [], _ => exact unit_nil (by omega) (by omega)
    | _ :: p, hpq => simp_all

theorem spells_three {c : Char} (h : 0x800 ≤ c.toNat) (h' : c.toNat < 0x10000) :
    Spells c (UInt8.ofNat (0xE0 + c.toNat / 4096))
      [UInt8.ofNat (0x80 + c.toNat / 64 % 64), UInt8.ofNat (0x80 + c.toNat % 64)] := by
  have hb : (UInt8.ofNat (0xE0 + c.toNat / 4096)).toNat = 0xE0 + c.toNat / 4096 :=
    toNat_ofNat (by omega)
  have hs : (UInt8.ofNat (0x80 + c.toNat / 64 % 64)).toNat = 0x80 + c.toNat / 64 % 64 :=
    toNat_ofNat (by omega)
  have ht : (UInt8.ofNat (0x80 + c.toNat % 64)).toNat = 0x80 + c.toNat % 64 :=
    toNat_ofNat (by omega)
  have hsecond : secondInRange (0xE0 + c.toNat / 4096) (0x80 + c.toNat / 64 % 64) = true := by
    have := toNat_lt_or_le c
    rw [secondInRange_iff]
    omega
  rw [← hb, ← hs] at hsecond
  refine ⟨fun rest => ?_, fun p q hpq hq => ?_⟩
  · rw [List.cons_append, List.singleton_append,
      unit_three (by omega) (by omega) hsecond (isContinuation_ofNat _), hb, hs, ht,
      ofNat_eq c (by omega)]
  · match p, hpq with
    | [], _ => exact unit_nil (by omega) (by omega)
    | [_], hpq =>
      obtain ⟨rfl, -⟩ := List.cons.inj hpq
      exact unit_single (by omega) (by omega) hsecond
    | _ :: _ :: p, hpq => simp_all

theorem spells_four {c : Char} (h : 0x10000 ≤ c.toNat) :
    Spells c (UInt8.ofNat (0xF0 + c.toNat / 262144))
      [UInt8.ofNat (0x80 + c.toNat / 4096 % 64), UInt8.ofNat (0x80 + c.toNat / 64 % 64),
        UInt8.ofNat (0x80 + c.toNat % 64)] := by
  have hlt := CodePoint.toNat_lt c
  have hb : (UInt8.ofNat (0xF0 + c.toNat / 262144)).toNat = 0xF0 + c.toNat / 262144 :=
    toNat_ofNat (by omega)
  have hs : (UInt8.ofNat (0x80 + c.toNat / 4096 % 64)).toNat = 0x80 + c.toNat / 4096 % 64 :=
    toNat_ofNat (by omega)
  have ht : (UInt8.ofNat (0x80 + c.toNat / 64 % 64)).toNat = 0x80 + c.toNat / 64 % 64 :=
    toNat_ofNat (by omega)
  have hu : (UInt8.ofNat (0x80 + c.toNat % 64)).toNat = 0x80 + c.toNat % 64 :=
    toNat_ofNat (by omega)
  have hsecond : secondInRange (0xF0 + c.toNat / 262144) (0x80 + c.toNat / 4096 % 64) = true := by
    rw [secondInRange_iff]
    omega
  rw [← hb, ← hs] at hsecond
  refine ⟨fun rest => ?_, fun p q hpq hq => ?_⟩
  · rw [List.cons_append, List.cons_append, List.singleton_append,
      unit_four (by omega) (by omega) hsecond (isContinuation_ofNat _) (isContinuation_ofNat _),
      hb, hs, ht, hu, ofNat_eq c (by omega)]
  · match p, hpq with
    | [], _ => exact unit_nil (by omega) (by omega)
    | [_], hpq =>
      obtain ⟨rfl, -⟩ := List.cons.inj hpq
      exact unit_single (by omega) (by omega) hsecond
    | [_, _], hpq =>
      obtain ⟨rfl, hpq'⟩ := List.cons.inj hpq
      obtain ⟨rfl, -⟩ := List.cons.inj hpq'
      exact unit_pair (by omega) (by omega) hsecond (isContinuation_ofNat _)
    | _ :: _ :: _ :: p, hpq => simp_all

theorem exists_spells (c : Char) : ∃ b bs, encodeChar c = b :: bs ∧ Spells c b bs := by
  simp only [encodeChar]
  split
  · exact ⟨_, _, rfl, spells_one ‹_›⟩
  split
  · exact ⟨_, _, rfl, spells_two (by omega) ‹_›⟩
  split
  · exact ⟨_, _, rfl, spells_three (by omega) ‹_›⟩
  · exact ⟨_, _, rfl, spells_four (by omega)⟩

/-! ## All characters -/

section
variable {b : UInt8} {bs rest : List UInt8} {c : Char}

theorem decodeFrom_of_char (start : Nat) (h : unit b bs = .char c rest) :
    decodeFrom start (b :: bs) =
      (c :: (decodeFrom (start + (encodeChar c).length) rest).1,
        (decodeFrom (start + (encodeChar c).length) rest).2) := by
  rw [decodeFrom]
  split
  next h' =>
    rw [h] at h'
    obtain ⟨rfl, rfl⟩ := Unit.char.inj h'
    rfl
  next h' => rw [h] at h'; cases h'
  next h' => rw [h] at h'; cases h'

theorem decodeFrom_of_unfinished (start : Nat) (h : unit b bs = .unfinished) :
    decodeFrom start (b :: bs) = ([], .unfinished (b :: bs)) := by
  rw [decodeFrom]
  split
  next h' => rw [h] at h'; cases h'
  next h' => rw [h] at h'; cases h'
  next => rfl

theorem decodeLossy_of_char (h : unit b bs = .char c rest) :
    decodeLossy (b :: bs) = c :: decodeLossy rest := by
  rw [decodeLossy]
  split
  next h' =>
    rw [h] at h'
    obtain ⟨rfl, rfl⟩ := Unit.char.inj h'
    rfl
  next h' => rw [h] at h'; cases h'
  next h' => rw [h] at h'; cases h'

end

@[simp] theorem encode_cons (c : Char) (cs : List Char) :
    encode (c :: cs) = encodeChar c ++ encode cs := rfl

/-- The characters of octets that are followed by others are decoded first. -/
theorem exists_decodeFrom_encode_append (start : Nat) (cs : List Char) (bs : List UInt8) :
    ∃ start', decodeFrom start (encode cs ++ bs) =
      (cs ++ (decodeFrom start' bs).1, (decodeFrom start' bs).2) := by
  induction cs generalizing start with
  | nil => exact ⟨start, rfl⟩
  | cons c cs ih =>
    obtain ⟨b, rest, hencode, hspells⟩ := exists_spells c
    obtain ⟨start', hstart'⟩ := ih (start + (encodeChar c).length)
    refine ⟨start', ?_⟩
    rw [encode_cons, hencode, List.append_assoc, List.cons_append,
      decodeFrom_of_char start (hspells.whole _), hstart']
    rfl

theorem decodeFrom_encode (start : Nat) (cs : List Char) :
    decodeFrom start (encode cs) = (cs, .complete) := by
  obtain ⟨start', h⟩ := exists_decodeFrom_encode_append start cs []
  rw [List.append_nil] at h
  rw [h, decodeFrom, List.append_nil]

/-- What was encoded is decoded. -/
theorem decode_encode (cs : List Char) : decode (encode cs) = .ok cs := by
  rw [decode, decodeFrom_encode]

theorem decodeLossy_encode (cs : List Char) : decodeLossy (encode cs) = cs := by
  induction cs with
  | nil => rw [encode, List.flatMap_nil, decodeLossy]
  | cons c cs ih =>
    obtain ⟨b, rest, hencode, hspells⟩ := exists_spells c
    rw [encode_cons, hencode, List.cons_append, decodeLossy_of_char (hspells.whole _), ih]

/-! ## Decoding gives back the octets -/

section
variable {b s t u : UInt8} {bs rest : List UInt8} {c : Char} {n : Nat}

/-- The four widths of a character. -/
theorem cases_of_unit (h : unit b bs = .char c rest) :
    (b.toNat < 0x80 ∧ bs = rest ∧ c = Char.ofNat b.toNat) ∨
    (∃ s : UInt8, 0xC2 ≤ b.toNat ∧ b.toNat < 0xE0 ∧ isContinuation s.toNat = true ∧ bs = s :: rest ∧
      c = Char.ofNat ((b.toNat - 0xC0) * 64 + (s.toNat - 0x80))) ∨
    (∃ s t : UInt8, 0xE0 ≤ b.toNat ∧ b.toNat < 0xF0 ∧ secondInRange b.toNat s.toNat = true ∧
      isContinuation t.toNat = true ∧ bs = s :: t :: rest ∧
      c = Char.ofNat ((b.toNat - 0xE0) * 4096 + (s.toNat - 0x80) * 64 + (t.toNat - 0x80))) ∨
    ∃ s t u : UInt8, 0xF0 ≤ b.toNat ∧ b.toNat < 0xF5 ∧ secondInRange b.toNat s.toNat = true ∧
      isContinuation t.toNat = true ∧ isContinuation u.toNat = true ∧ bs = s :: t :: u :: rest ∧
      c = Char.ofNat ((b.toNat - 0xF0) * 262144 + (s.toNat - 0x80) * 4096 + (t.toNat - 0x80) * 64 +
        (u.toNat - 0x80)) := by
  unfold unit at h
  grind

theorem toNat_charOfNat (h : n < 0xD800 ∨ 0xE000 ≤ n ∧ n < 0x110000) :
    (Char.ofNat n).toNat = n := by
  have hv : n.isValidChar := by
    rcases h with h | ⟨h, h'⟩
    · exact Or.inl h
    · exact Or.inr ⟨by omega, h'⟩
  rw [Char.ofNat, dif_pos hv]
  rfl

theorem ofNat_eq_of_toNat (h : n = b.toNat) : UInt8.ofNat n = b := by
  rw [h, UInt8.ofNat_toNat]

/-- A character that is decoded takes the octets that encode it. -/
theorem eq_encodeChar_append_of_unit (h : unit b bs = .char c rest) :
    b :: bs = encodeChar c ++ rest := by
  have hbound := UInt8.toNat_lt b
  rcases cases_of_unit h with ⟨hb, rfl, hc⟩ | ⟨s, hb, hb', hs, rfl, hc⟩ |
    ⟨s, t, hb, hb', hs, ht, rfl, hc⟩ | ⟨s, t, u, hb, hb', hs, ht, hu, rfl, hc⟩
  · have hn : c.toNat = b.toNat := by rw [hc, toNat_charOfNat (by omega)]
    simp only [encodeChar, hn, hb, if_true, UInt8.ofNat_toNat, List.singleton_append]
  · rw [isContinuation_iff] at hs
    have hn : c.toNat = (b.toNat - 0xC0) * 64 + (s.toNat - 0x80) := by
      rw [hc, toNat_charOfNat (by omega)]
    simp only [encodeChar, hn]
    rw [if_neg (by omega), if_pos (by omega), ofNat_eq_of_toNat (b := b) (by omega),
      ofNat_eq_of_toNat (b := s) (by omega)]
    rfl
  · rw [secondInRange_iff] at hs
    rw [isContinuation_iff] at ht
    have hn : c.toNat =
        (b.toNat - 0xE0) * 4096 + (s.toNat - 0x80) * 64 + (t.toNat - 0x80) := by
      rw [hc, toNat_charOfNat (by omega)]
    simp only [encodeChar, hn]
    rw [if_neg (by omega), if_neg (by omega), if_pos (by omega),
      ofNat_eq_of_toNat (b := b) (by omega), ofNat_eq_of_toNat (b := s) (by omega),
      ofNat_eq_of_toNat (b := t) (by omega)]
    rfl
  · rw [secondInRange_iff] at hs
    rw [isContinuation_iff] at ht hu
    have hn : c.toNat = (b.toNat - 0xF0) * 262144 + (s.toNat - 0x80) * 4096 +
        (t.toNat - 0x80) * 64 + (u.toNat - 0x80) := by
      rw [hc, toNat_charOfNat (by omega)]
    simp only [encodeChar, hn]
    rw [if_neg (by omega), if_neg (by omega), if_neg (by omega),
      ofNat_eq_of_toNat (b := b) (by omega), ofNat_eq_of_toNat (b := s) (by omega),
      ofNat_eq_of_toNat (b := t) (by omega), ofNat_eq_of_toNat (b := u) (by omega)]
    rfl

theorem eq_encode_of_decodeFrom {start : Nat} {cs : List Char}
    (h : decodeFrom start bs = (cs, .complete)) : bs = encode cs := by
  fun_induction decodeFrom start bs generalizing cs with
  | case1 start =>
    obtain rfl := congrArg Prod.fst h
    rfl
  | case2 start b bs c rest hunit =>
    rename_i next ih
    obtain ⟨rfl, hending⟩ := Prod.mk.inj h
    rw [eq_encodeChar_append_of_unit hunit, encode_cons, ← ih (by rw [← hending])]
  | case3 start b bs width reason hunit => cases congrArg Prod.snd h
  | case4 start b bs hunit => cases congrArg Prod.snd h

/-- Octets are the text of characters exactly when they encode them. -/
theorem decode_eq_ok_iff {cs : List Char} : decode bs = .ok cs ↔ bs = encode cs := by
  constructor
  · intro h
    rw [decode] at h
    split at h
    · next hfrom =>
      obtain rfl := Except.ok.inj h
      exact eq_encode_of_decodeFrom hfrom
    · cases h
    · cases h
  · rintro rfl
    exact decode_encode cs

end

/-! ## Octets that are cut anywhere -/

/-- Octets that begin a character and do not complete it, or none at all. -/
def Begun (bs : List UInt8) : Prop :=
  bs = [] ∨ ∃ c rest, encodeChar c = bs ++ rest ∧ rest ≠ []

/-- A cut of the octets of characters comes after some of the characters, and perhaps some octets of
the next one. -/
theorem exists_begun_of_encode_eq {cs : List Char} {bs rest : List UInt8}
    (h : encode cs = bs ++ rest) :
    ∃ ds es p, cs = ds ++ es ∧ bs = encode ds ++ p ∧ p ++ rest = encode es ∧ Begun p := by
  induction cs generalizing bs with
  | nil =>
    obtain ⟨rfl, rfl⟩ := List.append_eq_nil_iff.1 h.symm
    exact ⟨[], [], [], rfl, rfl, rfl, Or.inl rfl⟩
  | cons c cs ih =>
    rw [encode_cons] at h
    rcases List.append_eq_append_iff.1 h with ⟨a, rfl, ha⟩ | ⟨a, ha, rfl⟩
    · obtain ⟨ds, es, p, rfl, rfl, hp, hbegun⟩ := ih ha
      exact ⟨c :: ds, es, p, rfl, by simp, hp, hbegun⟩
    · by_cases hnil : a = []
      · subst hnil
        rw [List.append_nil] at ha
        exact ⟨[c], cs, [], rfl, by simp [← ha, encode], rfl, Or.inl rfl⟩
      · refine ⟨[], c :: cs, bs, rfl, rfl, ?_, Or.inr ⟨c, a, ha, hnil⟩⟩
        rw [encode_cons, ha, List.append_assoc]

theorem Begun.decodeFrom_eq {bs : List UInt8} (h : Begun bs) (start : Nat) :
    decodeFrom start bs = ([], if bs = [] then .complete else .unfinished bs) := by
  rcases h with rfl | ⟨c, q, hc, hq⟩
  · rw [decodeFrom, if_pos rfl]
  · cases bs with
    | nil => rw [decodeFrom, if_pos rfl]
    | cons b bs =>
      obtain ⟨b', bs', hencode, hspells⟩ := exists_spells c
      rw [hencode, List.cons_append] at hc
      obtain ⟨rfl, hbs⟩ := List.cons.inj hc
      rw [decodeFrom_of_unfinished start (hspells.part bs q hbs hq),
        if_neg (List.cons_ne_nil _ _)]

/-- No character is begun and complete. -/
theorem Begun.eq_nil {cs : List Char} (h : Begun (encode cs)) : cs = [] := by
  have hdecode := h.decodeFrom_eq 0
  rw [decodeFrom_encode] at hdecode
  exact congrArg Prod.fst hdecode

end Utf8

/-! ## Texts without surrogates -/

theorem ofChar_of_toChar? {c : CodePoint} {ch : Char} (h : c.toChar? = some ch) :
    CodePoint.ofChar ch = c := by
  rw [CodePoint.toChar?] at h
  split at h
  · cases h
  next hc =>
    obtain rfl := Option.some.inj h
    simp only [CodePoint.isSurrogate, Bool.and_eq_true, decide_eq_true_eq] at hc
    have hlt := c.isLt
    exact Fin.ext (Utf8.toNat_charOfNat (by omega))

theorem ofChars_filterMap_toChar? {t : Text} (h : t.Plain) :
    ofChars (t.filterMap CodePoint.toChar?) = t := by
  induction t with
  | nil => rfl
  | cons c t ih =>
    obtain ⟨hc, ht⟩ := List.forall_mem_cons.1 h
    have hchar : c.toChar? = some (Char.ofNat c.val) := by
      rw [CodePoint.toChar?, hc]
      rfl
    rw [List.filterMap_cons_some hchar, ofChars, List.map_cons,
      ofChar_of_toChar? hchar]
    exact congrArg _ (ih ht)

/-- A text is encoded exactly when it is one of characters. -/
theorem encode_eq_ok_iff {t : Text} {octets : List UInt8} :
    encode t = .ok octets ↔ ∃ cs, t = ofChars cs ∧ octets = Utf8.encode cs := by
  rw [encode]
  constructor
  · intro h
    split at h
    · cases h
    next hnone =>
      obtain rfl := Except.ok.inj h
      have hchars := Unencodable.inText?_eq_none_iff.1 hnone
      exact ⟨_, (ofChars_filterMap_toChar? hchars).symm, rfl⟩
  · rintro ⟨cs, rfl, rfl⟩
    have hnone : Unencodable.inText? (ofChars cs) = none :=
      Unencodable.inText?_eq_none_iff.2 (plain_ofChars cs)
    have hchars : (ofChars cs).filterMap CodePoint.toChar? = cs := by
      rw [ofChars, List.filterMap_map]
      simp
    rw [hnone, hchars]

/-! ## Blocks of a file -/

namespace Feed

open Utf8 (Begun)

/-- A block gives the characters that end in it and keeps what it has of the next one. -/
theorem exists_decodeBlock {cs : List Char} {bs rest : List UInt8}
    (h : Utf8.encode cs = bs ++ rest) :
    ∃ ds es p, cs = ds ++ es ∧ decodeBlock bs = (ds, .ok p) ∧ p ++ rest = Utf8.encode es ∧
      Begun p := by
  obtain ⟨ds, es, p, hcs, rfl, hp, hbegun⟩ := Utf8.exists_begun_of_encode_eq h
  refine ⟨ds, es, p, hcs, ?_, hp, hbegun⟩
  obtain ⟨start, hdecode⟩ := Utf8.exists_decodeFrom_encode_append 0 ds p
  rw [hbegun.decodeFrom_eq, List.append_nil] at hdecode
  rw [decodeBlock, hdecode]
  by_cases hnil : p = []
  · rw [if_pos hnil, hnil]
  · rw [if_neg hnil]

/-- The blocks together give all characters, wherever the octets are cut. -/
theorem decodeBlocks_eq {carry bs : List UInt8} {cs : List Char} (hcarry : Begun carry)
    (h : carry ++ bs = Utf8.encode cs) : decodeBlocks carry bs = (cs, none) := by
  induction hn : bs.length using Nat.strongRecOn generalizing carry bs cs with
  | ind n ih =>
    cases bs with
    | nil =>
      -- nothing is left that the octets kept could go on with, so there are none
      rw [List.append_nil] at h
      subst h
      rw [hcarry.eq_nil, decodeBlocks, faultAtEnd, Utf8.decode_encode]
    | cons b bs =>
      have hcut : Utf8.encode cs =
          (carry ++ (b :: bs).take blockSize) ++ (b :: bs).drop blockSize := by
        rw [List.append_assoc, List.take_append_drop, h]
      obtain ⟨ds, es, p, rfl, hblock, hp, hbegun⟩ := exists_decodeBlock hcut
      have hlt : ((b :: bs).drop blockSize).length < n := by
        rw [← hn, List.length_drop, List.length_cons, blockSize]
        omega
      simp only [decodeBlocks, hblock, ih _ hlt hbegun hp rfl]

/-- A file that holds the octets of characters is read to its end. -/
theorem ofBytes_encode (cs : List Char) :
    ofBytes (Utf8.encode cs) = ⟨cut (ofChars (unifyNewlines cs)), none⟩ := by
  rw [ofBytes, decodeBlocks_eq (Or.inl rfl) (List.nil_append _)]

end Feed

end LineSpec.Text
