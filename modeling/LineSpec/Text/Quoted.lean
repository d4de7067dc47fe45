import LineSpec.Text.Hex
import LineSpec.Text.Printable
/-!
# Quoted text

A quoted text fits on one line and shows each code point that cannot be printed by its number.
Single quotes enclose it, unless the text holds a single quote and no double quote. Inside, the
backslash and the enclosing quote follow a backslash; tab, line feed and carriage return have the
short escapes; other code points that are not printable are written `\xNN`, `\uNNNN` or `\UNNNNNNNN`
with lower-case digits.
-/

namespace LineSpec.Text

/-- The number of a code point that is not printable, with as many digits as it needs. -/
def escapeCode (n : Nat) : List Char :=
  if n < 0x100 then '\\' :: 'x' :: hex 2 n
  else if n < 0x10000 then '\\' :: 'u' :: hex 4 n
  else '\\' :: 'U' :: hex 8 n

/-- How one code point is written between the quotes `q`. -/
def quotePoint (q : Char) (c : CodePoint) : Text :=
  if c == q || c == '\\' then ['\\', c]
  else if c == '\t' then ['\\', 't']
  else if c == '\n' then ['\\', 'n']
  else if c == '\r' then ['\\', 'r']
  else if isPrintable c then [c]
  else ofChars (escapeCode c.val)

/-- The quote that encloses a text. -/
def enclosingQuote (t : Text) : Char :=
  if t.contains '\'' && !t.contains '"' then '"' else '\''

/-- `quoted t` is `t` between quotes, on one line. -/
def quoted (t : Text) : Text :=
  let q := enclosingQuote t
  q :: (t.flatMap (quotePoint q) ++ [CodePoint.ofChar q])

end LineSpec.Text
