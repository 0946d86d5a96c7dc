/-!
Numbers of a JSON document. An integer that fits 64 bits keeps its exact value; every other number
is a binary64 value, computed from a significand and a power of ten that are rounded one by one.
-/

namespace IvrFlow

/-- The bit pattern of infinity, which bounds the patterns of the finite magnitudes. -/
def Binary64.infinityBits : Nat := 0x7FF0000000000000

/-- A finite binary64 value: its sign and the 63 bits of its magnitude, exponent first. -/
structure Binary64 where
  negative : Bool
  magnitude : Fin Binary64.infinityBits
deriving DecidableEq

/-- A JSON number in one of its three forms. -/
inductive Number where
  /-- A whole number from zero up. -/
  | natural (value : UInt64)
  /-- A whole number below zero: `below` stands for `-(below + 1)`. -/
  | negative (below : Fin 0x8000000000000000)
  /-- Any other number. -/
  | real (value : Binary64)
deriving DecidableEq

namespace Binary64

/-- The weight of the lowest exponent bit in the bits of a magnitude, and the least significand of
full precision. -/
def hiddenBit : Nat := 0x10000000000000

/-- Zero with a sign. -/
def zero (negative : Bool) : Binary64 := ⟨negative, ⟨0, by decide⟩⟩

/-- The magnitude as a significand and a power of two: it is `m * 2 ^ q / 2 ^ 1074`. -/
def scaled (x : Binary64) : Nat × Nat :=
  let exponent := x.magnitude.val / hiddenBit
  let fraction := x.magnitude.val % hiddenBit
  if exponent = 0 then (fraction, 0) else (hiddenBit + fraction, exponent - 1)

/-- A quotient to the nearest whole number; a half goes to the even neighbour. -/
def roundHalfEven (num den : Nat) : Nat :=
  let floor := num / den
  let rest := num % den
  if 2 * rest < den ∨ (2 * rest = den ∧ floor % 2 = 0) then floor else floor + 1

/-- The magnitude nearest to `num / den / 2 ^ 1074`, if that is finite. Rounding up to the next
power of two carries into the exponent by itself. -/
def nearestMagnitude? (num den : Nat) : Option (Fin infinityBits) :=
  let shift := (num / den).log2 - 52
  let bits := shift * hiddenBit + roundHalfEven num (den * Nat.pow 2 shift)
  if h : bits < infinityBits then some ⟨bits, h⟩ else none

/-- The value nearest to `num / den / 2 ^ 1074`, with a sign, if it is finite. -/
def nearest? (negative : Bool) (num den : Nat) : Option Binary64 :=
  (nearestMagnitude? num den).map (⟨negative, ·⟩)

/-- The value nearest to a whole number, with a sign, if it is finite. -/
def ofNat? (negative : Bool) (n : Nat) : Option Binary64 := nearest? negative (n * Nat.pow 2 1074) 1

/-- The product of two values, rounded once, if it is finite. -/
def mul? (x y : Binary64) : Option Binary64 :=
  let (m, p) := x.scaled
  let (n, q) := y.scaled
  nearest? (x.negative != y.negative) (m * n * Nat.pow 2 (p + q)) (Nat.pow 2 1074)

/-- The quotient by a value that is not zero, rounded once, if it is finite. -/
def div? (x y : Binary64) : Option Binary64 :=
  let (m, p) := x.scaled
  let (n, q) := y.scaled
  nearest? (x.negative != y.negative) (m * Nat.pow 2 p * Nat.pow 2 1074) (n * Nat.pow 2 q)

/-- The greatest power of ten that is finite. -/
def greatestPower : Nat := 308

/-- The product with a power of ten. -/
def mulPower? (x : Binary64) (power : Nat) : Option Binary64 :=
  if power ≤ greatestPower then (ofNat? false (Nat.pow 10 power)).bind x.mul? else none

/-- The quotient by a power of ten, in two steps if the power is not finite. Two steps by the
greatest power leave nothing of a 64-bit integer, so no power needs a third. -/
def divPower? (x : Binary64) (power : Nat) : Option Binary64 :=
  let first := min power greatestPower
  let second := min (power - first) greatestPower
  let quotient := (ofNat? false (Nat.pow 10 first)).bind x.div?
  if second = 0 then quotient
  else quotient.bind fun x => (ofNat? false (Nat.pow 10 second)).bind x.div?

/-- The value of `significand * 10 ^ exponent`, if it is finite. The significand and the power are
rounded before they are multiplied or divided, so a significand beyond 53 bits or a power beyond
the 22nd may end beside the nearest value. -/
def ofDecimal? (negative : Bool) (significand : Nat) (exponent : Int) : Option Binary64 :=
  if significand = 0 then some (zero negative)
  else
    match exponent with
    | .ofNat up => (ofNat? negative significand).bind (·.mulPower? up)
    | .negSucc down => (ofNat? negative significand).bind (·.divPower? (down + 1))

end Binary64

end IvrFlow
