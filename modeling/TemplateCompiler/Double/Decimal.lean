import TemplateCompiler.Double.Basic

/-!
Doubles as decimal text. `Double.decimal` gives the fewest digits that read back as the same
double, the nearest ones where several do. `Double.ofDecimal` goes the other way, with one rounding
for the digits and one for the power of ten.
-/

namespace TemplateCompiler

/-- The number `digits * 10 ^ exponent`. -/
structure Decimal where
  digits : Nat
  exponent : Int
deriving DecidableEq

namespace Decimal

/-- The same number without trailing zeros in its digits; `fuel` bounds how many are dropped. -/
def trim : Nat → Decimal → Decimal
  | 0, d => d
  | fuel + 1, d =>
    if d.digits % 10 == 0 then trim fuel ⟨d.digits / 10, d.exponent + 1⟩ else d

/-- Where positional writing is used: for a leading digit at `10 ^ first` up to `10 ^ last`. -/
structure Layout where
  first : Int
  last : Int

/-- Numbers from `0.00001` up to sixteen places before the point are written out. -/
def layout : Layout := ⟨-5, 15⟩

/-- A positive number as text. A number that is written out has a digit on both sides of the
point; any other has one digit before it and a signed exponent. -/
def text (d : Decimal) (l : Layout) : List Char :=
  let digits := (toString d.digits).toList
  let lead := d.exponent + digits.length - 1
  if l.first ≤ lead && lead ≤ l.last then
    if lead < 0 then
      ['0', '.'] ++ List.replicate (-lead - 1).toNat '0' ++ digits
    else
      let whole := lead.toNat + 1
      let rest := digits.drop whole
      digits.take whole ++ List.replicate (whole - digits.length) '0' ++
        '.' :: (if rest.isEmpty then ['0'] else rest)
  else
    digits.take 1 ++ (if digits.length ≤ 1 then [] else '.' :: digits.drop 1) ++
      'e' :: (if lead < 0 then '-' else '+') :: (toString lead.natAbs).toList

end Decimal

namespace Double

/-- The power of ten at or below a positive number of units. -/
def leadingPlace (magnitude : Nat) : Int :=
  if unitsPerOne ≤ magnitude then
    ((toString (magnitude / unitsPerOne)).length : Int) - 1
  else
    -((toString ((unitsPerOne - 1) / magnitude)).length : Int)

/-- Whether `digits * 10 ^ place`, given as `digits * up / down` units, rounds to the double: it
lies within half a gap of it, ends included when the significand is even. All bounds are in quarter
units, since the gap below a power of two is half the gap above. -/
def reaches (d : Double) (up down digits : Nat) : Bool :=
  let gap := Nat.pow 2 d.shift
  let below := if d.significand == Nat.pow 2 52 && 1 < d.exponent then gap else 2 * gap
  let low := (4 * d.magnitude - below) * down
  let high := (4 * d.magnitude + 2 * gap) * down
  let here := 4 * digits * up
  if d.significand % 2 == 0 then low ≤ here && here ≤ high else low < here && here < high

/-- The multiple of `10 ^ place` that reads back as the double and is nearest to it, if one does. -/
def onGrid? (d : Double) (place : Int) : Option Nat :=
  let up := Nat.pow 10 place.toNat * unitsPerOne
  let down := Nat.pow 10 (-place).toNat
  let below := d.magnitude * down / up
  let nearest := roundDiv (d.magnitude * down) up
  if d.reaches up down nearest then some nearest
  else if d.reaches up down below then some below
  else if d.reaches up down (below + 1) then some (below + 1)
  else none

/-- The first grid that has a candidate, from one digit on; `fuel` more grids are tried. -/
def shortestFrom (d : Double) : Nat → Int → Decimal
  | 0, place => ⟨(d.onGrid? place).getD 0, place⟩
  | fuel + 1, place =>
    match d.onGrid? place with
    | some digits => ⟨digits, place⟩
    | none => shortestFrom d fuel (place - 1)

/-- The shortest decimal that reads back as a positive finite double. Seventeen digits always do. -/
def decimal (d : Double) : Decimal :=
  (d.shortestFrom 16 (leadingPlace d.magnitude)).trim 17

def text (d : Double) : List Char :=
  (if d.isNegative then ['-'] else []) ++
    if d.magnitude == 0 then ['0', '.', '0'] else d.decimal.text Decimal.layout

def powerOfTen (n : Nat) : Double := ofUnits false (Nat.pow 10 n * unitsPerOne) 1

/-- Divides by `10 ^ places`. Beyond the largest power of ten it is done in several steps, and
after `fuel` of them nothing is left. -/
def divPowerOfTen : Nat → Double → Nat → Double
  | 0, _, _ => ofWord false 0
  | fuel + 1, d, places =>
    if places ≤ 308 then d.divMagnitude (powerOfTen places)
    else divPowerOfTen fuel (d.divMagnitude (powerOfTen 308)) (places - 308)

/-- Reads `digits * 10 ^ exponent`: the digits are rounded first, then scaled. Too large a number
has no double. -/
def ofDecimal (d : Decimal) : Option Double :=
  let start := ofUnits false (d.digits * unitsPerOne) 1
  if d.digits == 0 then some start
  else if d.exponent < 0 then some (divPowerOfTen 4 start d.exponent.natAbs)
  else if 308 < d.exponent then none
  else
    let scaled := start.mulMagnitude (powerOfTen d.exponent.toNat)
    if scaled.isFinite then some scaled else none

end Double

end TemplateCompiler
