/-!
Double-precision numbers, held by their 64 bits. Every finite one is a whole multiple of the
smallest positive one, `2 ^ -1074`, so exact work with them is work with whole numbers of that
unit. Rounding is to the nearest double, and to the even significand halfway.
-/

namespace TemplateCompiler

/-- A binary floating-point number of 64 bits. Two of them are equal when all bits agree. -/
structure Double where
  bits : UInt64
deriving DecidableEq, Inhabited

namespace Double

/-- How many of the smallest positive double make one. -/
def unitsPerOne : Nat := Nat.pow 2 1074

/-- The word of positive infinity; every finite magnitude has a smaller one. -/
def infinityWord : Nat := 2047 * Nat.pow 2 52

def word (d : Double) : Nat := d.bits.toNat

def isNegative (d : Double) : Bool := Nat.pow 2 63 ≤ d.word

/-- The eleven bits of the exponent. -/
def exponent (d : Double) : Nat := d.word / Nat.pow 2 52 % Nat.pow 2 11

/-- The fifty-two bits of the fraction. -/
def fraction (d : Double) : Nat := d.word % Nat.pow 2 52

/-- Neither an infinity nor a NaN. -/
def isFinite (d : Double) : Bool := d.exponent != 2047

/-- The whole number that the exponent scales. -/
def significand (d : Double) : Nat :=
  if d.exponent = 0 then d.fraction else d.fraction + Nat.pow 2 52

/-- The power of two, in units, that the significand is multiplied by. -/
def shift (d : Double) : Nat := d.exponent - 1

/-- The absolute value of a finite double, in units. -/
def magnitude (d : Double) : Nat := d.significand * Nat.pow 2 d.shift

/-- The double with a given sign and a given word without it. -/
def ofWord (negative : Bool) (word : Nat) : Double :=
  ⟨UInt64.ofNat ((if negative then Nat.pow 2 63 else 0) + word)⟩

/-- The quotient rounded to the nearest whole number, to the even one halfway. -/
def roundDiv (num den : Nat) : Nat :=
  let quotient := num / den
  let rest := num % den
  if 2 * rest < den then quotient
  else if den < 2 * rest then quotient + 1
  else quotient + quotient % 2

/-- The double nearest to `num / den` units. Carrying out of the significand moves into the
exponent by itself, and what is too large becomes infinite. -/
def ofUnits (negative : Bool) (num den : Nat) : Double :=
  let shift := (num / den).log2 - 52
  ofWord negative (min (shift * Nat.pow 2 52 + roundDiv num (den * Nat.pow 2 shift)) infinityWord)

def ofInt (n : Int) : Double :=
  ofUnits (n < 0) (n.natAbs * unitsPerOne) 1

/-- The product of the absolute values of two finite doubles, rounded. -/
def mulMagnitude (a b : Double) : Double :=
  ofUnits false (a.magnitude * b.magnitude) unitsPerOne

/-- The quotient of the absolute values of two finite doubles, rounded. -/
def divMagnitude (a b : Double) : Double :=
  ofUnits false (a.magnitude * unitsPerOne) b.magnitude

def negate (d : Double) : Double :=
  if d.isNegative then ⟨UInt64.ofNat (d.word - Nat.pow 2 63)⟩ else ofWord true d.word

/-- Whole numbers below `2 ^ 53` in absolute value, where every integer is a double. -/
def integer? (d : Double) : Option Int :=
  let whole := d.magnitude / unitsPerOne
  if d.isFinite && d.magnitude % unitsPerOne == 0 && whole < Nat.pow 2 53 then
    some (if d.isNegative then -(whole : Int) else whole)
  else
    none

/-- Equality of values: the two zeros agree, and a NaN agrees with nothing. -/
def same (a b : Double) : Bool :=
  if a.isFinite && a.magnitude == 0 then b.isFinite && b.magnitude == 0
  else a == b && (a.isFinite || a.fraction == 0)

end Double

end TemplateCompiler
