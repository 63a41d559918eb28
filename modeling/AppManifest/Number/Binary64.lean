namespace AppManifest

/-- The number `mantissa · 10 ^ exponent`. -/
structure Decimal where
  mantissa : Int
  exponent : Int
  deriving DecidableEq, Repr

/-- A value of the 64-bit binary format. -/
inductive Binary64
  /-- The number `mantissa · 2 ^ exponent`. -/
  | finite (mantissa exponent : Int)
  | infinite (negative : Bool)
  | nan
  deriving DecidableEq, Repr

/-- The natural number nearest to a quotient; of two that are equally near, the even one. -/
def roundDiv (num den : Nat) : Nat :=
  let twice := 2 * (num % den)
  if den < twice || (twice = den && num / den % 2 = 1) then num / den + 1 else num / den

namespace Binary64

/-- A quotient divided by a power of two, as a quotient. -/
def unscale (num den : Nat) (exponent : Int) : Nat × Nat :=
  (num * Nat.pow 2 (-exponent).toNat, den * Nat.pow 2 exponent.toNat)

/-- The exponent with which a positive quotient is stored: its mantissa takes 53 bits, or fewer
where the exponent cannot be less. -/
def exponentOf (num den : Nat) : Int :=
  let low := max (-1074) ((num.log2 : Int) - den.log2 - 53)
  let (n, d) := unscale num den low
  if n / d < Nat.pow 2 53 then low else low + 1

/-- The value nearest to a quotient, infinite where it would be too large. -/
def ofQuotient (negative : Bool) (num den : Nat) : Binary64 :=
  let exponent := exponentOf num den
  let (n, d) := unscale num den exponent
  let mantissa := roundDiv n d
  if Nat.pow 2 1024 ≤ mantissa * Nat.pow 2 exponent.toNat then infinite negative
  else finite (if negative then -mantissa else mantissa) exponent

/-- The value nearest to a decimal number. The number of places before its point tells whether it
is far too large or far too small. -/
def ofDecimal (x : Decimal) : Binary64 :=
  let n := x.mantissa.natAbs
  let places := (Nat.toDigits 10 n).length + x.exponent
  if n = 0 || places < -400 then finite 0 0
  else if 400 < places then infinite (x.mantissa < 0)
  else ofQuotient (x.mantissa < 0) (n * Nat.pow 10 x.exponent.toNat)
    (Nat.pow 10 (-x.exponent).toNat)

def toInt? : Binary64 → Option Int
  | finite mantissa exponent =>
    let den : Int := Nat.pow 2 (-exponent).toNat
    if mantissa % den = 0 then some (mantissa / den * Nat.pow 2 exponent.toNat) else none
  | infinite _ => none
  | nan => none

end Binary64

end AppManifest
