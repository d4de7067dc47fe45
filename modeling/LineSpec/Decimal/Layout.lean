import LineSpec.Decimal.Shortest
/-!
# How a number is written

The layout of a binary number in decimal: which exponents are written positionally, how an exponent
looks, and the texts of the numbers that are not finite. The digits are those of the shortest
decimal that reads back.
-/

namespace LineSpec.Decimal

/-- A way of writing numbers. `point` is where the decimal point stands before the first digit
counted from the left: a number is written positionally when its point lies above `low` and not
above `high`. -/
structure Layout where
  low : Int
  high : Int
  exponentDigits : Nat
  nan : String
  infinite : String

/-- The layout of numbers in variables and in configuration files. -/
def plain : Layout := ⟨-4, 16, 2, "nan", "inf"⟩

/-- Digits without the zeros that end them, of which there may be none. -/
def significant (d : Nat) : List Char :=
  ((Nat.toDigits 10 d).reverse.dropWhile (· == '0')).reverse

/-- `padLeft n c cs` is `cs` after as many `c` as make it `n` long. -/
def padLeft (n : Nat) (c : Char) (cs : List Char) : List Char :=
  List.replicate (n - cs.length) c ++ cs

/-- The digits `cs` with the decimal point after `point` of them, with zeros where digits lack. -/
def positional (cs : List Char) (point : Int) : List Char :=
  if point ≤ 0 then ['0', '.'] ++ List.replicate (-point).toNat '0' ++ cs
  else
    let n := point.toNat
    let whole := cs.take n ++ List.replicate (n - cs.length) '0'
    let fraction := cs.drop n
    whole ++ ['.'] ++ (if fraction.isEmpty then ['0'] else fraction)

/-- The digits `cs` with the decimal point after the first, and an exponent. -/
def scientific (l : Layout) (cs : List Char) (point : Int) : List Char :=
  let e := point - 1
  let mantissa := match cs with
    | [] => ['0']
    | [c] => [c]
    | c :: cs => c :: '.' :: cs
  mantissa ++ ['e', if e < 0 then '-' else '+'] ++
    padLeft l.exponentDigits '0' (Nat.toDigits 10 e.natAbs)

/-- `l.write x` is the text of `x`. -/
def Layout.write (l : Layout) : Binary64 → String
  | .nan => l.nan
  | .infinite s => (if s then "-" else "") ++ l.infinite
  | .finite s m e =>
    let body :=
      if m == 0 then positional ['0'] 1
      else
        let d := shortest m e
        let cs := significant d.digits
        let point : Int := (Nat.toDigits 10 d.digits).length + d.exponent
        if l.low < point && point ≤ l.high then positional cs point else scientific l cs point
    String.ofList ((if s then ['-'] else []) ++ body)

end LineSpec.Decimal
