namespace QueryPipeline

/-! Binary floats of 64 bits.  Every finite one is a whole number of units, the unit
being the least positive one, so exact questions about them are about integers. -/

def Double.binade : Nat := Nat.pow 2 52

/-- A sign, and a place among the magnitudes: rank 0 is zero, rank 1 the unit, and
so on up to infinity.  The ranks above that are no numbers. -/
structure Double where
  negative : Bool
  rank : Fin (2048 * Double.binade)
  deriving DecidableEq

namespace Double

def infinityRank : Nat := 2047 * binade

def oneExponent : Nat := 1074

def isZero (x : Double) : Bool :=
  x.rank.val == 0

def isFinite (x : Double) : Bool :=
  x.rank.val < infinityRank

def isNumber (x : Double) : Bool :=
  x.rank.val ≤ infinityRank

/-- The units of a rank: the two lowest binades step by one, each further one by
twice the step before. -/
def unitsOf (rank : Nat) : Nat :=
  let doublings := rank / binade - 1
  (rank - doublings * binade) * Nat.pow 2 doublings

def units (x : Double) : Nat :=
  unitsOf x.rank.val

def infinity (negative : Bool) : Double :=
  ⟨negative, ⟨infinityRank, by decide⟩⟩

def notANumber : Double :=
  ⟨false, ⟨infinityRank + 1, by decide⟩⟩

def integer? (x : Double) : Option Int :=
  let one := Nat.pow 2 oneExponent
  if x.isFinite && x.units % one == 0 then
    let magnitude : Int := x.units / one
    some (if x.negative then -magnitude else magnitude)
  else none

/-- Both zeros are one number, and what is no number equals nothing. -/
def same (x y : Double) : Bool :=
  x.isNumber && (x == y || x.isZero && y.isZero)

theorem binade_eq : binade = 4503599627370496 := rfl

theorem unitsOf_of_lt {rank : Nat} (h : rank < 2 * binade) : unitsOf rank = rank := by
  have hdoublings : rank / binade - 1 = 0 := by
    have := Nat.div_lt_of_lt_mul (Nat.mul_comm 2 binade ▸ h)
    omega
  simp [unitsOf, hdoublings]

theorem power_pos {base : Nat} (h : 0 < base) (exponent : Nat) :
    0 < Nat.pow base exponent :=
  Nat.pow_pos h

theorem two_power_le {least most : Nat} (h : least ≤ most) :
    Nat.pow 2 least ≤ Nat.pow 2 most :=
  Nat.pow_le_pow_right (by decide) h

theorem two_power_mul (first second : Nat) :
    Nat.pow 2 first * Nat.pow 2 second = Nat.pow 2 (first + second) :=
  (Nat.pow_add 2 first second).symm

theorem unitsOf_pos {rank : Nat} (h : 0 < rank) : 0 < unitsOf rank := by
  have hdiv := Nat.div_mul_le_self rank binade
  have hbinade := binade_eq
  apply Nat.mul_pos _ (power_pos (by decide) _)
  rw [Nat.sub_mul]
  omega

theorem unitsOf_lt {rank : Nat} (h : rank < infinityRank) :
    unitsOf rank < Nat.pow 2 (oneExponent + 1024) := by
  have hquotient : rank / binade < 2047 := Nat.div_lt_of_lt_mul (Nat.mul_comm .. ▸ h)
  have hdiv := Nat.div_add_mod' rank binade
  have hmod : rank % binade < binade := Nat.mod_lt _ (by decide)
  have hsteps : rank - (rank / binade - 1) * binade < Nat.pow 2 53 := by
    have hpower : Nat.pow 2 53 = 2 * binade := rfl
    rw [Nat.sub_mul, hpower]
    omega
  have hunits : unitsOf rank < Nat.pow 2 53 * Nat.pow 2 (rank / binade - 1) :=
    Nat.mul_lt_mul_of_pos_right hsteps (power_pos (by decide) _)
  rw [two_power_mul] at hunits
  have hone : oneExponent = 1074 := rfl
  exact Nat.lt_of_lt_of_le hunits (two_power_le (by omega))

theorem log2_unitsOf (rank : Nat) : (unitsOf rank).log2 - 52 = rank / binade - 1 := by
  have hbinade := binade_eq
  have hdiv := Nat.div_add_mod rank binade
  have hmod : rank % binade < binade := Nat.mod_lt _ (by decide)
  by_cases h : rank / binade ≤ 1
  · have hrank : rank < 2 * binade := by
      have := Nat.mul_le_mul_left binade h
      omega
    rw [unitsOf_of_lt hrank]
    by_cases hzero : rank = 0
    · subst hzero
      decide
    · have hlog : rank.log2 < 53 := (Nat.log2_lt hzero).mpr (by omega)
      omega
  · obtain ⟨doublings, hdoublings⟩ : ∃ doublings, rank / binade = doublings + 1 :=
      ⟨rank / binade - 1, by omega⟩
    have hrank : rank - doublings * binade = binade + rank % binade := by
      rw [hdoublings, Nat.mul_add, Nat.mul_one, Nat.mul_comm binade] at hdiv
      omega
    have hunits : unitsOf rank = (binade + rank % binade) * Nat.pow 2 doublings := by
      simp only [unitsOf, hdoublings, Nat.add_sub_cancel, hrank]
    have hpos : 0 < Nat.pow 2 doublings := power_pos (by decide) _
    have hne : unitsOf rank ≠ 0 := Nat.ne_of_gt (unitsOf_pos (by omega))
    have hlog : (unitsOf rank).log2 = 52 + doublings := by
      rw [Nat.log2_eq_iff hne, hunits]
      constructor
      · show Nat.pow 2 (52 + doublings) ≤ _
        rw [← two_power_mul]
        exact Nat.mul_le_mul_right _ (Nat.le_add_right _ _)
      · show _ < Nat.pow 2 (52 + doublings + 1)
        rw [show 52 + doublings + 1 = 53 + doublings by omega, ← two_power_mul]
        have hpower : Nat.pow 2 53 = 2 * binade := rfl
        exact Nat.mul_lt_mul_of_pos_right (by omega) hpos
    omega

end Double

end QueryPipeline
