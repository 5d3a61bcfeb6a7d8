import TemplateCompiler.Double.Basic

/-!
# Doubles that are whole numbers

A finite double is the double nearest to its own magnitude, so a whole number that came from a
double gives that double back. Only the sign of a zero is lost on the way: whole numbers have one
zero, doubles have two, which are equal as values.
-/

namespace TemplateCompiler.Double

/-! ### Sign, exponent and fraction -/

theorem word_lt (d : Double) : d.word < Nat.pow 2 64 := d.bits.toNat_lt

theorem fraction_lt (d : Double) : d.fraction < Nat.pow 2 52 :=
  Nat.mod_lt _ (by decide)

theorem exponent_lt (d : Double) : d.exponent < Nat.pow 2 11 :=
  Nat.mod_lt _ (by decide)

def unsignedWord (d : Double) : Nat := d.exponent * Nat.pow 2 52 + d.fraction

/-- A bit pattern is its sign bit and the rest. -/
theorem word_eq (d : Double) :
    d.word = (if d.isNegative then Nat.pow 2 63 else 0) + d.unsignedWord := by
  have bound := d.word_lt
  simp only [isNegative, unsignedWord, exponent, fraction, decide_eq_true_eq, Nat.pow_eq] at *
  split <;> omega

/-- A double is given by its sign and the rest of its bits. -/
theorem ofWord_unsignedWord (d : Double) : ofWord d.isNegative d.unsignedWord = d := by
  rw [ofWord, ← word_eq, word, UInt64.ofNat_toNat]

/-- The finite doubles come before infinity. -/
theorem unsignedWord_lt (d : Double) (finite : d.isFinite = true) :
    d.unsignedWord < infinityWord := by
  have fraction := d.fraction_lt
  have exponent := d.exponent_lt
  have notSpecial : d.exponent ≠ 2047 := by simpa [isFinite] using finite
  simp only [unsignedWord, infinityWord, Nat.pow_eq] at *
  omega

/-! ### Rounding what needs no rounding -/

/-- An exact quotient is not rounded. -/
theorem roundDiv_mul (n : Nat) {den : Nat} (positive : 0 < den) : roundDiv (n * den) den = n := by
  simp only [roundDiv, Nat.mul_mod_left, Nat.mul_div_cancel n positive]
  rw [if_pos (by omega)]

/-- The significand of a normal double fills its fifty-three places, so that its length gives the
exponent; a subnormal one has exponent zero. -/
theorem log2_magnitude (d : Double) : d.magnitude.log2 - 52 = d.shift := by
  have fraction := d.fraction_lt
  by_cases subnormal : d.exponent = 0
  · have noShift : d.shift = 0 := by rw [shift, subnormal]
    have plain : d.magnitude = d.fraction := by
      rw [magnitude, significand, if_pos subnormal, noShift]
      exact Nat.mul_one _
    rw [plain, noShift]
    by_cases zero : d.fraction = 0
    · rw [zero]
      rfl
    · have short : d.fraction.log2 < 52 := (Nat.log2_lt zero).mpr fraction
      omega
  · have low : Nat.pow 2 52 ≤ d.significand := by
      rw [significand, if_neg subnormal]
      exact Nat.le_add_left _ _
    have high : d.significand < Nat.pow 2 53 := by
      rw [significand, if_neg subnormal]
      simp only [Nat.pow_eq] at *
      omega
    have positive : 0 < Nat.pow 2 d.shift := Nat.two_pow_pos d.shift
    have bounded : Nat.pow 2 (52 + d.shift) ≤ d.magnitude ∧
        d.magnitude < Nat.pow 2 (52 + d.shift + 1) := by
      constructor
      · calc
          Nat.pow 2 (52 + d.shift) = Nat.pow 2 52 * Nat.pow 2 d.shift := Nat.pow_add 2 52 d.shift
          _ ≤ d.magnitude := Nat.mul_le_mul_right _ low
      · calc
          d.magnitude < Nat.pow 2 53 * Nat.pow 2 d.shift := Nat.mul_lt_mul_of_pos_right high positive
          _ = Nat.pow 2 (53 + d.shift) := (Nat.pow_add 2 53 d.shift).symm
          _ = Nat.pow 2 (52 + d.shift + 1) := by rw [Nat.add_right_comm]
    have nonzero : d.magnitude ≠ 0 := by
      have := Nat.two_pow_pos (52 + d.shift)
      have := bounded.1
      simp only [Nat.pow_eq] at *
      omega
    have filled : d.magnitude.log2 = 52 + d.shift := (Nat.log2_eq_iff nonzero).mpr bounded
    omega

/-- No rounding takes place for a number that is a double. -/
theorem ofUnits_magnitude (d : Double) (finite : d.isFinite = true) (negative : Bool) :
    ofUnits negative d.magnitude 1 = ofWord negative d.unsignedWord := by
  have positive : 0 < Nat.pow 2 d.shift := Nat.two_pow_pos d.shift
  have exact_ : roundDiv d.magnitude (Nat.pow 2 d.shift) = d.significand := roundDiv_mul _ positive
  have word : d.shift * Nat.pow 2 52 + d.significand = d.unsignedWord := by
    simp only [unsignedWord, significand, shift, Nat.pow_eq]
    split <;> omega
  simp only [ofUnits, Nat.div_one, log2_magnitude, Nat.one_mul, exact_, word]
  rw [Nat.min_eq_left (Nat.le_of_lt (d.unsignedWord_lt finite))]

/-! ### Zeros -/

/-- The same value, where a zero has no sign. -/
def unsignZero (d : Double) : Double :=
  if d.isFinite && d.magnitude == 0 then ofWord false 0 else d

theorem unsignZero_of_zero {d : Double} (finite : d.isFinite = true) (zero : d.magnitude = 0) :
    d.unsignZero = ofWord false 0 := by
  simp [unsignZero, finite, zero]

/-- Only zeros lose their sign. -/
theorem unsignZero_of_ne_zero {d : Double} (nonzero : d.magnitude ≠ 0) : d.unsignZero = d := by
  simp [unsignZero, nonzero]

theorem magnitude_zero : (ofWord false 0).magnitude = 0 := by decide

theorem unsignZero_cases (d : Double) :
    (d.isFinite = true ∧ d.magnitude = 0 ∧ d.unsignZero = ofWord false 0) ∨ d.unsignZero = d := by
  by_cases zero : d.isFinite = true ∧ d.magnitude = 0
  · exact .inl ⟨zero.1, zero.2, unsignZero_of_zero zero.1 zero.2⟩
  · exact .inr (by simpa [unsignZero] using fun finite none => (zero ⟨finite, none⟩).elim)

/-- Taking the sign off zeros keeps the finite doubles finite. -/
theorem isFinite_unsignZero (d : Double) : d.unsignZero.isFinite = d.isFinite := by
  rcases d.unsignZero_cases with ⟨finite, _, unsigned⟩ | kept
  · rw [unsigned, finite]
    rfl
  · rw [kept]

theorem unsignZero_unsignZero (d : Double) : d.unsignZero.unsignZero = d.unsignZero := by
  rcases d.unsignZero_cases with ⟨_, _, unsigned⟩ | kept
  · rw [unsigned]
    rfl
  · rw [kept, kept]

/-- Two doubles are the same number if they are equal, or are both zero. -/
theorem same_iff {a b : Double} (finite : a.isFinite = true) :
    a.same b = true ↔
      if a.magnitude = 0 then b.isFinite = true ∧ b.magnitude = 0 else a = b := by
  by_cases zero : a.magnitude = 0 <;> simp [same, finite, zero]

/-- Finite doubles have the same value if they differ in nothing but the sign of a zero. -/
theorem same_iff_unsignZero {a b : Double} (finite : a.isFinite = true)
    (other : b.isFinite = true) : a.same b = true ↔ a.unsignZero = b.unsignZero := by
  rw [same_iff finite]
  by_cases zero : a.magnitude = 0
  · rw [if_pos zero, unsignZero_of_zero finite zero]
    constructor
    · rintro ⟨_, zeroToo⟩
      rw [unsignZero_of_zero other zeroToo]
    · intro agree
      refine ⟨other, ?_⟩
      by_cases zeroToo : b.magnitude = 0
      · exact zeroToo
      · rw [unsignZero_of_ne_zero zeroToo] at agree
        exact agree ▸ magnitude_zero
  · rw [if_neg zero, unsignZero_of_ne_zero zero]
    constructor
    · rintro rfl
      rw [unsignZero_of_ne_zero zero]
    · intro agree
      by_cases zeroToo : b.magnitude = 0
      · rw [unsignZero_of_zero other zeroToo] at agree
        exact (zero (agree ▸ magnitude_zero)).elim
      · rwa [unsignZero_of_ne_zero zeroToo] at agree

/-! ### Whole numbers -/

theorem ofInt_zero : ofInt 0 = ofWord false 0 := by
  simp only [ofInt, Int.natAbs_zero, Nat.zero_mul]
  rfl

/-- A double that stands for a whole number has no units left over. -/
theorem integer?_eq_some {d : Double} {n : Int} (whole : d.integer? = some n) :
    d.isFinite = true ∧ d.magnitude / unitsPerOne * unitsPerOne = d.magnitude ∧
      n = if d.isNegative then -((d.magnitude / unitsPerOne : Nat) : Int)
        else (d.magnitude / unitsPerOne : Nat) := by
  simp only [integer?] at whole
  split at whole
  · next holds =>
    simp only [Bool.and_eq_true, beq_iff_eq] at holds
    refine ⟨holds.1.1, Nat.div_mul_cancel (Nat.dvd_of_mod_eq_zero holds.1.2), ?_⟩
    exact (Option.some.inj whole).symm
  · cases whole

/-- Whole numbers below `2 ^ 53` are exact. -/
theorem ofInt_of_integer? {d : Double} {n : Int} (whole : d.integer? = some n) :
    ofInt n = d.unsignZero := by
  obtain ⟨finite, value, signed⟩ := integer?_eq_some whole
  have size : n.natAbs = d.magnitude / unitsPerOne := by
    rw [signed]
    split
    · rw [Int.natAbs_neg, Int.natAbs_natCast]
    · rw [Int.natAbs_natCast]
  by_cases zero : d.magnitude = 0
  · have nothing : n = 0 := by
      rw [zero, Nat.zero_div] at size
      exact Int.natAbs_eq_zero.mp size
    rw [nothing, ofInt_zero, unsignZero_of_zero finite zero]
  · have positive : 0 < d.magnitude / unitsPerOne := by
      refine Nat.pos_of_ne_zero fun none => zero ?_
      rw [← value, none, Nat.zero_mul]
    have sign : decide (n < 0) = d.isNegative := by
      rw [signed]
      by_cases negative : d.isNegative = true
      · rw [if_pos negative, negative]
        exact decide_eq_true (by omega)
      · rw [if_neg negative, Bool.eq_false_iff.mpr negative]
        exact decide_eq_false (by omega)
    rw [ofInt, size, value, sign, ofUnits_magnitude d finite, ofWord_unsignedWord,
      unsignZero_of_ne_zero zero]

theorem integer?_of_zero {d : Double} (finite : d.isFinite = true) (zero : d.magnitude = 0) :
    d.integer? = some 0 := by
  have small : (0 : Nat) < Nat.pow 2 53 := by decide
  simp [integer?, finite, zero, small]

/-! ### Finite results -/

theorem isFinite_ofWord (negative : Bool) {w : Nat} (bounded : w < infinityWord) :
    (ofWord negative w).isFinite = true := by
  have word : (ofWord negative w).word = (if negative then Nat.pow 2 63 else 0) + w := by
    refine UInt64.toNat_ofNat_of_lt' ?_
    simp only [infinityWord, Nat.pow_eq, UInt64.size] at *
    split <;> omega
  have field : (ofWord negative w).exponent ≠ 2047 := by
    rw [exponent, word]
    simp only [infinityWord, Nat.pow_eq] at *
    split <;> omega
  simpa [isFinite] using field

/-- Rounding adds one at most. -/
theorem roundDiv_le (num den : Nat) : roundDiv num den ≤ num / den + 1 := by
  simp only [roundDiv]
  split
  · omega
  · split <;> omega

/-- A number with so few binary places is far from the largest double. -/
theorem isFinite_ofUnits (negative : Bool) {m places : Nat} (bounded : m < Nat.pow 2 places)
    (few : places ≤ 2000) : (ofUnits negative m 1).isFinite = true := by
  have shift : m.log2 - 52 ≤ 2000 := by
    by_cases zero : m = 0
    · rw [zero]
      exact Nat.zero_le _
    · have := (Nat.log2_lt zero).mpr bounded
      omega
  have quotient : m / Nat.pow 2 (m.log2 - 52) < Nat.pow 2 53 := by
    refine Nat.div_lt_of_lt_mul ?_
    calc
      m < Nat.pow 2 (m.log2 + 1) := Nat.lt_log2_self
      _ ≤ Nat.pow 2 (m.log2 - 52 + 53) := Nat.pow_le_pow_right (by decide) (by omega)
      _ = Nat.pow 2 (m.log2 - 52) * Nat.pow 2 53 := Nat.pow_add 2 _ 53
  have rounded := roundDiv_le m (Nat.pow 2 (m.log2 - 52))
  have word : (m.log2 - 52) * Nat.pow 2 52 + roundDiv m (Nat.pow 2 (m.log2 - 52)) <
      infinityWord := by
    have scaled : (m.log2 - 52) * Nat.pow 2 52 ≤ 2000 * Nat.pow 2 52 :=
      Nat.mul_le_mul_right _ shift
    simp only [infinityWord, Nat.pow_eq] at *
    omega
  simp only [ofUnits, Nat.div_one, Nat.one_mul]
  rw [Nat.min_eq_left (Nat.le_of_lt word)]
  exact isFinite_ofWord negative word

theorem mul_two_pow_lt {n places : Nat} (more : Nat) (bounded : n < Nat.pow 2 places) :
    n * Nat.pow 2 more < Nat.pow 2 (places + more) := by
  calc
    n * Nat.pow 2 more < Nat.pow 2 places * Nat.pow 2 more :=
      Nat.mul_lt_mul_of_pos_right bounded (Nat.two_pow_pos more)
    _ = Nat.pow 2 (places + more) := (Nat.pow_add 2 places more).symm

-- The exponent is bound here, so that nothing below tries to compute the power.
theorem exists_unitsPerOne_eq : ∃ places, unitsPerOne = Nat.pow 2 places ∧ places ≤ 1074 := by
  refine ⟨1074, ?_, Nat.le_refl _⟩
  delta unitsPerOne
  with_reducible rfl

/-- Whole numbers of the size of a machine word have a finite double near them. -/
theorem isFinite_ofInt {n : Int} (bounded : n.natAbs < Nat.pow 2 65) :
    (ofInt n).isFinite = true := by
  obtain ⟨places, units, few⟩ := exists_unitsPerOne_eq
  have enough : 65 + places ≤ 2000 := by omega
  rw [ofInt, units]
  exact isFinite_ofUnits _ (mul_two_pow_lt places bounded) enough

end TemplateCompiler.Double
