import IvrFlow.Json.Number

/-!
The decimal text of numbers. A binary64 value is written with the fewest digits that round to it,
and of those with the nearest.
-/

namespace IvrFlow

/-- The decimal number `digits * 10 ^ exponent`. -/
structure Decimal where
  digits : Nat
  exponent : Int
deriving DecidableEq

namespace Binary64

/-- The reals that round to a value: their ends in quarter units of its significand, and whether
the ends belong to them. The gap below a power of two is half as wide. -/
def roundingRange (x : Binary64) : Nat × Nat × Bool :=
  let (m, q) := x.scaled
  (if m = hiddenBit ∧ 0 < q then 4 * m - 1 else 4 * m - 2, 4 * m + 2, m % 2 = 0)

/-- The power of ten of the leading digit of `num / den`, which is not zero. -/
def leadingPower (num den : Nat) : Int :=
  if den ≤ num then (Nat.toDigits 10 (num / den)).length - 1
  else
    let width := (Nat.toDigits 10 (den / num)).length
    if den ≤ num * Nat.pow 10 (width - 1) then 1 - (width : Int) else -(width : Int)

/-- The decimal number nearest to `x` among those with `count` digits, if it rounds to `x`. -/
def withDigits? (x : Binary64) (count : Nat) : Option Decimal :=
  let (m, q) := x.scaled
  let (low, high, closed) := x.roundingRange
  let unit := leadingPower (4 * m * Nat.pow 2 q) (Nat.pow 2 1076) - (count - 1 : Nat)
  let num := Nat.pow 2 q * Nat.pow 10 (-unit).toNat
  let den := Nat.pow 2 1076 * Nat.pow 10 unit.toNat
  let value := 4 * m * num
  let fits (n : Nat) : Bool :=
    if closed then low * num ≤ n * den && n * den ≤ high * num
    else low * num < n * den && n * den < high * num
  let below := value / den
  let lower := value - below * den
  let upper := (below + 1) * den - value
  let takesLower := lower < upper || (lower == upper && below % 2 == 0)
  let chosen :=
    if fits below && (takesLower || !fits (below + 1)) then some below
    else if fits (below + 1) then some (below + 1)
    else none
  chosen.map fun n => if n = Nat.pow 10 count then ⟨1, unit + count⟩ else ⟨n, unit⟩

/-- The fewest digits that round to the magnitude of `x`; seventeen always suffice. -/
def shortest (x : Binary64) : Decimal :=
  if x.magnitude.val = 0 then ⟨0, 0⟩
  else ((List.range' 1 17).findSome? x.withDigits?).getD ⟨0, 0⟩

end Binary64

namespace Decimal

/-- The powers of ten of the leading digit that are written without an exponent. -/
def positional : Int × Int := (-5, 15)

/-- A decimal number in positional form, with at least one digit after the point, or with an
exponent, which always has a sign. -/
def text (d : Decimal) : List Char :=
  let digits := Nat.toDigits 10 d.digits
  let power := d.exponent + digits.length - 1
  if positional.1 ≤ power ∧ power ≤ positional.2 then
    match power with
    | .ofNat p =>
      let whole := (digits ++ List.replicate (p + 1 - digits.length) '0').take (p + 1)
      let places := digits.drop (p + 1)
      whole ++ '.' :: (if places.isEmpty then ['0'] else places)
    | .negSucc p => '0' :: '.' :: (List.replicate p '0' ++ digits)
  else
    let places := digits.drop 1
    digits.take 1 ++ (if places.isEmpty then [] else '.' :: places) ++
      'e' :: (if power < 0 then '-' else '+') :: Nat.toDigits 10 power.natAbs

end Decimal

/-- The decimal text of a number. A real number always shows a point or an exponent. -/
def Number.text : Number → List Char
  | .natural value => Nat.toDigits 10 value.toNat
  | .negative below => '-' :: Nat.toDigits 10 (below.val + 1)
  | .real value => (if value.negative then ['-'] else []) ++ value.shortest.text

end IvrFlow
