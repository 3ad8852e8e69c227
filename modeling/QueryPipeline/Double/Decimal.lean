import QueryPipeline.Double.Basic

namespace QueryPipeline

/-! Decimals and the floats nearest to them.  The shortest decimal of a float is the
one with the fewest digits to which that float is nearest. -/

structure Decimal where
  significand : Nat
  exponent : Int

namespace Decimal

def length (decimal : Decimal) : Nat :=
  (Nat.toDigits 10 decimal.significand).length

/-- The power of ten of the first digit. -/
def leading (decimal : Decimal) : Int :=
  decimal.exponent + decimal.length - 1

/-- The two decimals around this one that lack its last digits: the nearer first,
and of two equally near ones the even one. -/
def neighbours (decimal : Decimal) (dropped : Nat) : List Decimal :=
  let step := Nat.pow 10 dropped
  let quotient := decimal.significand / step
  let rest := decimal.significand % step
  let below : Decimal := ⟨quotient, decimal.exponent + dropped⟩
  let above : Decimal := ⟨quotient + 1, decimal.exponent + dropped⟩
  if 2 * rest < step ∨ (2 * rest = step ∧ quotient % 2 = 0) then [below, above]
  else [above, below]

theorem length_le_iff {decimal : Decimal} {digits : Nat} (h : 0 < digits) :
    decimal.length ≤ digits ↔ decimal.significand < Nat.pow 10 digits :=
  Nat.length_toDigits_le_iff (by decide) h

end Decimal

namespace Double

def roundDiv (n d : Nat) : Nat :=
  let quotient := n / d
  let rest := n % d
  if 2 * rest < d ∨ (2 * rest = d ∧ quotient % 2 = 0) then quotient
  else quotient + 1

/-- The rank nearest to a quotient in units.  What rounds beyond the last finite
magnitude has the rank of infinity. -/
def nearestRank (n d : Nat) : Nat :=
  let doublings := (n / d).log2 - 52
  min (doublings * binade + roundDiv n (d * Nat.pow 2 doublings)) infinityRank

/-- The rank nearest to a decimal.  Decimals with a leading power beyond all floats
need no arithmetic. -/
def rankOf (decimal : Decimal) : Nat :=
  if decimal.significand = 0 ∨ decimal.leading < -330 then 0
  else if 310 < decimal.leading then infinityRank
  else
    let units := decimal.significand * Nat.pow 2 oneExponent
    match decimal.exponent with
    | .ofNat power => nearestRank (units * Nat.pow 10 power) 1
    | .negSucc power => nearestRank units (Nat.pow 10 (power + 1))

theorem rankOf_le (decimal : Decimal) : rankOf decimal ≤ infinityRank := by
  rw [rankOf]
  split
  · exact Nat.zero_le _
  · split
    · exact Nat.le_refl _
    · dsimp only
      split <;> exact Nat.min_le_right _ _

theorem rankOf_lt (decimal : Decimal) : rankOf decimal < 2048 * binade :=
  Nat.lt_of_le_of_lt (rankOf_le decimal) (by decide)

def ofDecimal (negative : Bool) (decimal : Decimal) : Double :=
  ⟨negative, ⟨rankOf decimal, rankOf_lt decimal⟩⟩

def exactDecimal (x : Double) : Decimal :=
  ⟨x.units * Nat.pow 5 oneExponent, -(oneExponent : Int)⟩

/-- Seventeen digits tell any two floats apart. -/
def maxDigits : Nat := 17

def shortest (x : Double) : Decimal :=
  let exact := x.exactDecimal
  let length := exact.length
  let candidates := (List.range maxDigits).flatMap fun spare =>
    exact.neighbours (length - (spare + 1))
  (candidates.find? fun decimal => rankOf decimal == x.rank.val).getD exact

theorem roundDiv_mul (n : Nat) {d : Nat} (h : 0 < d) : roundDiv (n * d) d = n := by
  simp [roundDiv, Nat.mul_div_cancel n h, h]

theorem nearestRank_unitsOf {rank d : Nat} (hrank : rank ≤ infinityRank) (hd : 0 < d) :
    nearestRank (unitsOf rank * d) d = rank := by
  have hle : (rank / binade - 1) * binade ≤ rank :=
    Nat.le_trans (Nat.mul_le_mul_right _ (Nat.sub_le _ _)) (Nat.div_mul_le_self _ _)
  simp only [nearestRank, Nat.mul_div_cancel _ hd, log2_unitsOf]
  rw [unitsOf, Nat.mul_assoc, Nat.mul_comm (Nat.pow 2 _) d,
    roundDiv_mul _ (Nat.mul_pos hd (power_pos (by decide) _))]
  omega

theorem mul_five_power_mul_two_power (n power : Nat) :
    n * Nat.pow 5 power * Nat.pow 2 power = n * Nat.pow 10 power := by
  rw [Nat.mul_assoc]
  exact congrArg (n * ·) (Nat.mul_pow 5 2 power).symm

theorem rankOf_exactDecimal {x : Double} (h : x.isFinite) :
    rankOf x.exactDecimal = x.rank.val := by
  have hfinite : x.rank.val < infinityRank := by simpa [isFinite] using h
  by_cases hzero : x.rank.val = 0
  · simp [rankOf, exactDecimal, units, hzero, unitsOf]
  have hpos : 0 < x.units := unitsOf_pos (by omega)
  have hfive : 0 < Nat.pow 5 oneExponent := power_pos (by decide) oneExponent
  have hlower : oneExponent - 330 < x.exactDecimal.length := by
    rw [← Nat.not_le, Decimal.length_le_iff (by decide), Nat.not_lt]
    have hbound : Nat.pow 10 (oneExponent - 330) ≤ 1 * Nat.pow 5 oneExponent := by
      decide +kernel
    exact Nat.le_trans hbound (Nat.mul_le_mul_right _ hpos)
  have hupper : x.exactDecimal.length ≤ oneExponent + 311 := by
    rw [Decimal.length_le_iff (by decide)]
    have hbound : Nat.pow 2 (oneExponent + 1024) * Nat.pow 5 oneExponent ≤
        Nat.pow 10 (oneExponent + 311) := by
      decide +kernel
    exact Nat.lt_of_lt_of_le
      (Nat.mul_lt_mul_of_pos_right (unitsOf_lt hfinite) hfive) hbound
  have hsignificand : x.exactDecimal.significand ≠ 0 :=
    Nat.ne_of_gt (Nat.mul_pos hpos hfive)
  have hexponent : x.exactDecimal.exponent = Int.negSucc 1073 := rfl
  have hleading : x.exactDecimal.leading = x.exactDecimal.length - 1075 := by
    simp only [Decimal.leading, hexponent]
    omega
  have hone : oneExponent = 1074 := rfl
  have hten : x.exactDecimal.significand * Nat.pow 2 oneExponent =
      unitsOf x.rank.val * Nat.pow 10 oneExponent :=
    mul_five_power_mul_two_power x.units oneExponent
  rw [rankOf, if_neg (by omega), if_neg (by omega), hexponent]
  dsimp only
  rw [hten, show 1073 + 1 = oneExponent from rfl]
  exact nearestRank_unitsOf (Nat.le_of_lt hfinite) (power_pos (by decide) oneExponent)

theorem rankOf_getD_find? {candidates : List Decimal} {rank : Nat} {exact : Decimal}
    (h : rankOf exact = rank) :
    rankOf ((candidates.find? fun decimal => rankOf decimal == rank).getD exact) =
      rank := by
  cases hfind : candidates.find? fun decimal => rankOf decimal == rank with
  | none => exact h
  | some decimal => simpa using List.find?_some hfind

theorem ofDecimal_shortest {x : Double} (h : x.isFinite) :
    ofDecimal x.negative x.shortest = x := by
  have hrank : rankOf x.shortest = x.rank.val :=
    rankOf_getD_find? (rankOf_exactDecimal h)
  obtain ⟨negative, rank⟩ := x
  rw [ofDecimal, Double.mk.injEq]
  exact ⟨rfl, Fin.ext hrank⟩

end Double

end QueryPipeline
