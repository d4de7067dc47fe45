/-!
# Texts

A text is a sequence of code points. Most code points are characters; the surrogates are none, but
the escapes of a data file can write them, so a text may hold them. Characters and strings count as
code points and texts (`chars?_ofChars` takes them back).
-/

namespace LineSpec

/-- The number of a character or of a surrogate. -/
abbrev CodePoint := Fin 0x110000

namespace CodePoint

theorem toNat_lt (c : Char) : c.toNat < 0x110000 := by
  have h := c.valid
  simp only [UInt32.isValidChar, Nat.isValidChar] at h
  unfold Char.toNat
  omega

/-- The code point of a character. -/
def ofChar (c : Char) : CodePoint := ⟨c.toNat, toNat_lt c⟩

instance : Coe Char CodePoint := ⟨ofChar⟩

/-- The code point with a number, which is below 0x110000. -/
def ofNat (n : Nat) : CodePoint := Fin.ofNat _ n

/-- Whether a code point is no character. -/
def isSurrogate (c : CodePoint) : Bool := 0xD800 ≤ c.val && c.val < 0xE000

/-- The character with a code point, if there is one. -/
def toChar? (c : CodePoint) : Option Char :=
  if isSurrogate c then none else some (Char.ofNat c.val)

/-- Whether a code point is a character of a class. -/
def isA (p : Char → Bool) (c : CodePoint) : Bool := (toChar? c).any p

theorem isSurrogate_ofChar (c : Char) : isSurrogate (ofChar c) = false := by
  have h := c.valid
  simp only [UInt32.isValidChar, Nat.isValidChar] at h
  have h' : ¬(0xD800 ≤ c.toNat ∧ c.toNat < 0xE000) := by
    unfold Char.toNat
    omega
  change (decide (0xD800 ≤ c.toNat) && decide (c.toNat < 0xE000)) = false
  simpa using h'

@[simp] theorem toChar?_ofChar (c : Char) : toChar? (ofChar c) = some c := by
  rw [toChar?, isSurrogate_ofChar]
  simp [ofChar]

end CodePoint

/-- A sequence of code points. -/
abbrev Text := List CodePoint

namespace Text

/-- The text of characters. -/
def ofChars (cs : List Char) : Text := cs.map CodePoint.ofChar

/-- The text of a string. -/
def ofString (s : String) : Text := ofChars s.toList

instance : Coe String Text := ⟨ofString⟩

instance : Coe (List Char) Text := ⟨ofChars⟩

/-- The characters of a text, if it holds no surrogate. -/
def chars? (t : Text) : Option (List Char) := t.mapM CodePoint.toChar?

@[simp] theorem chars?_ofChars (cs : List Char) : chars? (ofChars cs) = some cs := by
  induction cs with
  | nil => rfl
  | cons c cs ih => simp_all [chars?, ofChars]

/-- Texts in a row with `separator` between any two. -/
def join (separator : Text) (ts : List Text) : Text := separator.intercalate ts

end Text

end LineSpec
