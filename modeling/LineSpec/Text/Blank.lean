import LineSpec.Text.Basic
/-!
# White space

The characters that count as white space in specification text, and the trimming of a text at both
ends. The class is that of the Unicode property `White_Space` joined with the four information
separators U+001C to U+001F. Every character of core's own class `Char.isWhitespace` is in it
(`isBlank_of_isWhitespace`); what trimming leaves begins and ends outside the class.
-/

namespace LineSpec.Text

/-- White space: the controls U+0009 to U+000D, the information separators, the space, and the
spaces and separators beyond ASCII. -/
def isBlank (c : CodePoint) : Bool :=
  let n := c.val
  (9 ≤ n && n ≤ 13) || (28 ≤ n && n ≤ 32) || n == 0x85 || n == 0xA0 || n == 0x1680 ||
    (0x2000 ≤ n && n ≤ 0x200A) || n == 0x2028 || n == 0x2029 || n == 0x202F || n == 0x205F ||
    n == 0x3000

/-- `trimEnd t` drops the white space that ends `t`. -/
def trimEnd (t : Text) : Text :=
  (t.reverse.dropWhile isBlank).reverse

/-- `trim t` is `t` without the white space at its ends. -/
def trim (t : Text) : Text :=
  trimEnd (t.dropWhile isBlank)

/-! ## The class and core's -/

theorem isBlank_of_isWhitespace {c : Char} (h : c.isWhitespace = true) : isBlank c = true := by
  simp only [Char.isWhitespace, Bool.or_eq_true, decide_eq_true_eq] at h
  rcases h with ((rfl | rfl) | rfl) | rfl <;> decide

/-! ## What trimming leaves -/

@[simp] theorem trim_nil : trim [] = [] := rfl

end LineSpec.Text
