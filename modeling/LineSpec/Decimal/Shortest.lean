import LineSpec.Decimal.Binary64
/-!
# The shortest decimal that reads back

Among the decimals that round to a given binary number the shortest is written, and of the shortest
the one nearest to the number. For one digit, two digits and so on to seventeen the two neighbours
of the number on the grid of decimals with that many digits are tried; the first grid with a
neighbour in the rounding interval wins. All arithmetic is on natural numbers.
-/

namespace LineSpec.Decimal

/-- A point of a decimal grid, `digits · 10^exponent`. -/
structure Point where
  digits : Nat
  exponent : Int
  deriving DecidableEq, Repr

/-- The ratio `m · 2^e · 10^(-k)`. -/
def ratio (m : Nat) (e k : Int) : Nat × Nat :=
  (m * Nat.pow 2 e.toNat * Nat.pow 10 (-k).toNat, Nat.pow 2 (-e).toNat * Nat.pow 10 k.toNat)

/-- The reals that round to `m · 2^e`, as bounds `low` and `high` in units of `2^(e-2)`. The lower
half of the interval is shorter where the mantissa is the least of its exponent. -/
def interval (m : Nat) (e : Int) : Nat × Nat :=
  (if m == Nat.pow 2 52 && Binary64.minExponent < e then 4 * m - 1 else 4 * m - 2, 4 * m + 2)

/-- Whether `d · 10^k` rounds to `m · 2^e`; the ends of the interval do when `m` is even. -/
def roundsTo (m : Nat) (e : Int) (d : Nat) (k : Int) : Bool :=
  let (low, high) := interval m e
  let (ln, ld) := ratio low (e - 2) k
  let (hn, hd) := ratio high (e - 2) k
  if m % 2 == 0 then ln ≤ d * ld && d * hd ≤ hn else ln < d * ld && d * hd < hn

/-- The number of digits before the decimal point of `num / den`; it is zero or less for a number
below one tenth or less. -/
def magnitude (num den : Nat) : Int :=
  if den ≤ num then (Nat.toDigits 10 (num / den)).length
  else -(((Nat.toDigits 10 ((den - 1) / num)).length : Int) - 1)

/-- The decimal with `n` digits that reads back as `m · 2^e`, the nearer one of two. -/
def onGrid? (m : Nat) (e : Int) (n : Nat) : Option Point :=
  let (num, den) := ratio m e 0
  let k := magnitude num den - n
  let (gn, gd) := ratio m e k
  let d := gn / gd
  let r := gn % gd
  let down := roundsTo m e d k && d != 0
  let up := roundsTo m e (d + 1) k
  -- of two that are equally near the one whose last digit is even
  if down && (!up || 2 * r < gd || (2 * r == gd && d % 2 == 0)) then some ⟨d, k⟩
  else if up then some ⟨d + 1, k⟩
  else none

/-- The shortest decimal that reads back as `m · 2^e`. -/
def shortest (m : Nat) (e : Int) : Point :=
  ((List.range 17).findSome? fun n => onGrid? m e (n + 1)).getD ⟨0, 0⟩

end LineSpec.Decimal
