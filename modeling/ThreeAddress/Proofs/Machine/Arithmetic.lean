import Mathlib.Algebra.Order.Field.Basic
import Mathlib.Algebra.Order.Field.Rat
import Mathlib.Data.Int.ModEq
import Mathlib.Order.Bounds.Defs
import Mathlib.Tactic.Linarith
import ThreeAddress.Proofs.Machine.Storing

/-!
Arithmetic of machine integers. Sums, differences and products are those of integers up to a
multiple of 2^64, and division rounds down for every dividend and every divisor.
-/

namespace ThreeAddress

/-- A machine integer stands for the integers from which it differs by a multiple of 2^64. -/
def Represents (r : Int64) (n : Int) : Prop :=
  r.toInt ≡ n [ZMOD 2 ^ 64]

/-- Operations on two integers and their result where integers are not bounded. -/
inductive Opcode.Exact : Opcode → Int → Int → Int → Prop where
  | sum (m n : Int) : Exact .add m n (m + n)
  | difference (m n : Int) : Exact .sub m n (m - n)
  | product (m n : Int) : Exact .mul m n (m * n)

/-- A quotient rounded down: what remains is less than the divisor and has the same sign, if any. -/
structure Floors (a b q : Int) : Prop where
  small : |a - q * b| < |b|
  sided : a - q * b = 0 ∨ (a - q * b).sign = b.sign

section

variable {a b r s : Int64} {n : Int}

/-- An integer is represented by one machine integer at most. -/
theorem Represents.unique (first : Represents r n) (second : Represents s n) : s = r := by
  -- Machine integers that differ by a multiple of 2^64 are the same, for they lie in its range.
  have same : s.toInt % 2 ^ 64 = r.toInt % 2 ^ 64 := second.trans first.symm
  have low := r.le_toInt
  have high := r.toInt_lt
  have low' := s.le_toInt
  have high' := s.toInt_lt
  apply Int64.toInt_inj.mp
  omega

/-- A machine integer represents what it is wrapped from. -/
theorem represents_of_bmod (wrapped : r.toInt = n.bmod (2 ^ 64)) : Represents r n := by
  -- Wrapping changes a number by a multiple of what is counted modulo.
  rw [Represents, wrapped]
  exact Int.bmod_emod

/-- Operations that have an exact result combine two sources. -/
theorem Opcode.Exact.mem_combining {opcode : Opcode} {a b : Int} (exact : opcode.Exact a b n) :
    opcode ∈ combining := by
  -- There is one such operation for each rule.
  cases exact <;> decide

/-- What combines two machine integers represents the exact result for the integers. -/
theorem Opcode.Exact.combine {opcode : Opcode} (exact : opcode.Exact a.toInt b.toInt n) :
    ∃ r, Represents r n ∧ opcode.combine (.int a) (.int b) = .ok (.int r) := by
  -- Each operation wraps the exact result of the integers.
  cases exact with
  | sum => exact ⟨a + b, represents_of_bmod (Int64.toInt_add a b), rfl⟩
  | difference => exact ⟨a - b, represents_of_bmod (Int64.toInt_sub a b), rfl⟩
  | product => exact ⟨a * b, represents_of_bmod (Int64.toInt_mul a b), rfl⟩

end

section

variable {a b q : Int}

/-- With both signs turned, a quotient is rounded down exactly if it was before. -/
theorem floors_neg_iff : Floors (-a) (-b) q ↔ Floors a b q := by
  have turn {a b : Int} (floors : Floors a b q) : Floors (-a) (-b) q := by
    -- What remains has its sign turned as well.
    have remains : -a - q * -b = -(a - q * b) := by rw [Int.mul_neg]; omega
    constructor
    · rw [remains, abs_neg, abs_neg]
      exact floors.small
    · rw [remains, Int.sign_neg, Int.sign_neg, neg_eq_zero, neg_inj]
      exact floors.sided
  constructor
  · intro turned
    have back := turn turned
    rwa [neg_neg, neg_neg] at back
  · exact turn

/-- For a positive divisor, what remains is not negative and less than the divisor. -/
theorem floors_iff_of_pos (positive : 0 < b) :
    Floors a b q ↔ 0 ≤ a - q * b ∧ a - q * b < b := by
  -- The signs of the divisor and of what remains settle both conditions.
  constructor
  · intro floors
    have small := floors.small
    rw [abs_of_pos positive, abs_lt] at small
    refine ⟨?_, small.2⟩
    rcases floors.sided with none | sided
    · exact le_of_eq none.symm
    · rw [Int.sign_eq_one_of_pos positive, Int.sign_eq_one_iff_pos] at sided
      exact le_of_lt sided
  · rintro ⟨low, high⟩
    constructor
    · rw [abs_of_pos positive, abs_of_nonneg low]
      exact high
    · rcases eq_or_lt_of_le low with none | above
      · exact .inl none.symm
      · rw [Int.sign_eq_one_of_pos positive, Int.sign_eq_one_of_pos above]
        exact .inr rfl

/-- For a negative divisor, what remains is not positive and greater than the divisor. -/
theorem floors_iff_of_neg (negative : b < 0) :
    Floors a b q ↔ b < a - q * b ∧ a - q * b ≤ 0 := by
  -- Turning both signs around keeps the quotient and makes the divisor positive.
  rw [← floors_neg_iff, floors_iff_of_pos (Int.neg_pos_of_neg negative), Int.mul_neg]
  omega

private theorem Floors.isGreatest_of_pos (positive : 0 < b) (floors : Floors a b q) :
    IsGreatest {z : ℤ | (z : ℚ) ≤ (a : ℚ) / b} q := by
  -- Multiplied by the divisor, the condition is one about integers.
  have below (z : ℤ) : (z : ℚ) ≤ (a : ℚ) / b ↔ z * b ≤ a := by
    rw [le_div_iff₀ (Int.cast_pos.mpr positive)]
    exact_mod_cast Iff.rfl
  obtain ⟨low, high⟩ := (floors_iff_of_pos positive).mp floors
  refine ⟨(below q).mpr (by linarith), fun z less => ?_⟩
  -- The next integer would already exceed the exact quotient.
  by_contra above
  have next : (q + 1) * b ≤ z * b :=
    Int.mul_le_mul_of_nonneg_right (not_le.mp above) (le_of_lt positive)
  have := (below z).mp less
  linarith

/-- The quotient rounded down is the greatest integer that the exact quotient does not exceed. -/
theorem Floors.isGreatest (divisible : b ≠ 0) (floors : Floors a b q) :
    IsGreatest {z : ℤ | (z : ℚ) ≤ (a : ℚ) / b} q := by
  -- A negative divisor is turned into a positive one.
  rcases lt_or_gt_of_ne divisible with negative | positive
  · have turned := floors_neg_iff.mpr floors
    have greatest := turned.isGreatest_of_pos (Int.neg_pos_of_neg negative)
    rwa [Int.cast_neg, Int.cast_neg, neg_div_neg_eq] at greatest
  · exact floors.isGreatest_of_pos positive

/-- What rounding towards zero leaves is less than the divisor, and on the side of the dividend. -/
theorem tmod_bounds (a : Int) (divisible : b ≠ 0) :
    (a.tmod b).natAbs < b.natAbs ∧ (0 ≤ a → 0 ≤ a.tmod b) ∧ (a ≤ 0 → a.tmod b ≤ 0) := by
  -- What remains has the sign of the dividend, whatever that of the divisor.
  refine ⟨?_, Int.tmod_nonneg b, ?_⟩
  · rw [Int.natAbs_tmod]
    exact Nat.mod_lt _ (Int.natAbs_pos.mpr divisible)
  · intro negative
    have turned := Int.tmod_nonneg b (Int.neg_nonneg_of_nonpos negative)
    rw [Int.neg_tmod] at turned
    exact Int.nonpos_of_neg_nonneg turned

/-- Rounding towards zero is rounding down if nothing is left or the quotient is not negative. -/
theorem floors_tdiv (divisible : b ≠ 0) (kept : a.tmod b = 0 ∨ (a < 0 ↔ b < 0)) :
    Floors a b (a.tdiv b) := by
  obtain ⟨small, above, below⟩ := tmod_bounds a divisible
  have remains : a - a.tdiv b * b = a.tmod b := by
    have divided := Int.tdiv_mul_add_tmod a b
    omega
  -- What is left is on the side of the divisor already.
  rcases lt_or_gt_of_ne divisible with negative | positive
  · rw [floors_iff_of_neg negative, remains]
    omega
  · rw [floors_iff_of_pos positive, remains]
    omega

/-- Rounding an inexact negative quotient towards zero gives one more than rounding it down. -/
theorem floors_tdiv_sub_one (divisible : b ≠ 0) (inexact : a.tmod b ≠ 0)
    (apart : ¬ (a < 0 ↔ b < 0)) : Floors a b (a.tdiv b - 1) := by
  obtain ⟨small, above, below⟩ := tmod_bounds a divisible
  have remains : a - (a.tdiv b - 1) * b = a.tmod b + b := by
    have divided := Int.tdiv_mul_add_tmod a b
    rw [Int.sub_mul]
    omega
  -- One more time the divisor changes the side of what is left.
  rcases lt_or_gt_of_ne divisible with negative | positive
  · rw [floors_iff_of_neg negative, remains]
    omega
  · rw [floors_iff_of_pos positive, remains]
    omega

end

section

variable {a b : Int64}

private theorem toInt_div_of_fits (fits : ¬ (a = Int64.minValue ∧ b = -1)) :
    (a / b).toInt = a.toInt.tdiv b.toInt := by
  -- Only one pair has a quotient that is out of range.
  by_cases least : a = Int64.minValue
  · exact Int64.toInt_div_of_ne_right a b fun negative => fits ⟨least, negative⟩
  · exact Int64.toInt_div_of_ne_left a b least

private theorem tmod_ne_zero (inexact : a % b ≠ 0) : a.toInt.tmod b.toInt ≠ 0 := by
  -- The remainder of machine integers is that of the integers.
  rw [← Int64.toInt_mod]
  exact fun none => inexact (Int64.toInt_inj.mp none)

/-- Where division leaves something, one less than the quotient is in range. -/
theorem toInt_correction (inexact : a % b ≠ 0) : (a / b - 1).toInt = (a / b).toInt - 1 := by
  have fits : ¬ (a = Int64.minValue ∧ b = -1) := by
    rintro ⟨rfl, rfl⟩
    exact inexact (by decide)
  -- Neither one nor minus one leaves anything, so that the quotient is half of the range at most.
  have wide : b.toInt.natAbs ≠ 1 := by
    intro one
    have remainder := Int.natAbs_tmod a.toInt b.toInt
    rw [one, Nat.mod_one, Int.natAbs_eq_zero] at remainder
    exact tmod_ne_zero inexact remainder
  have half : (a.toInt.tdiv b.toInt).natAbs ≤ 2 ^ 62 := by
    have low := a.le_toInt
    have high := a.toInt_lt
    rw [Int.natAbs_tdiv]
    rcases Nat.eq_zero_or_pos b.toInt.natAbs with zero | positive
    · rw [zero, show a.toInt.natAbs.div 0 = 0 from Nat.div_zero _]
      exact Nat.zero_le _
    · calc a.toInt.natAbs / b.toInt.natAbs
          ≤ a.toInt.natAbs / 2 := Nat.div_le_div_left (by omega) (by decide)
        _ ≤ 2 ^ 62 := by omega
  rw [Int64.toInt_sub, toInt_div_of_fits fits, Int64.toInt_one]
  apply Int.bmod_eq_of_le
  · omega
  · omega

/-- Division rounds down, except where the quotient is one more than the greatest integer. -/
theorem floors_floorDiv (divisible : b ≠ 0) (fits : ¬ (a = Int64.minValue ∧ b = -1)) :
    Floors a.toInt b.toInt (floorDiv a b).toInt := by
  -- The quotient was rounded towards zero, which is down unless the signs differ.
  have nonzero : b.toInt ≠ 0 := fun zero => divisible (Int64.toInt_inj.mp zero)
  have negative (n : Int64) : n < 0 ↔ n.toInt < 0 := Int64.lt_iff_toInt_lt
  have quotient := toInt_div_of_fits fits
  unfold floorDiv
  dsimp only
  split
  · rename_i corrected
    obtain ⟨inexact, apart⟩ := corrected
    rw [ne_eq, decide_eq_decide, negative, negative] at apart
    rw [toInt_correction inexact, quotient]
    exact floors_tdiv_sub_one nonzero (tmod_ne_zero inexact) apart
  · rename_i kept
    have kept : a.toInt.tmod b.toInt = 0 ∨ (a.toInt < 0 ↔ b.toInt < 0) := by
      rw [← negative, ← negative, ← Int64.toInt_mod, ← decide_eq_decide]
      by_contra neither
      obtain ⟨left, apart⟩ := not_or.mp neither
      exact kept ⟨fun none => left (congrArg Int64.toInt none), apart⟩
    rw [quotient]
    exact floors_tdiv nonzero kept

end

/--
Arithmetic is exact up to multiples of 2^64, and division is true division rounded down.

Sums, differences and products store the only machine integer that represents the exact result.
Dividing by zero stores nothing. Any other quotient is the greatest integer that does not exceed the
exact one, so that what remains is less than the divisor and has its sign, except for the one pair
whose quotient is out of range, where it wraps. The correction by one never leaves the range.
-/
theorem arithmetic_is_exact :
    (∀ (devices : Devices) (image : Image) (m : Machine) (i : Instruction) (x : Variable)
      (a b : Int64), image.code[m.pc]? = some i → i.operands.head? = some (.var x) →
      i.value m.frames 1 = .ok (.int a) → i.value m.frames 2 = .ok (.int b) →
        (∀ n, i.opcode.Exact a.toInt b.toInt n →
          ∃ r, Represents r n ∧ (∀ s, Represents s n → s = r) ∧
            m.Stores devices image i x (.ok (.int r))) ∧
        (i.opcode = .idiv → m.Stores devices image i x
          (if b = 0 then .error .divisionByZero else .ok (.int (floorDiv a b))))) ∧
    (∀ a b : Int64, b ≠ 0 → ¬ (a = Int64.minValue ∧ b = -1) →
      IsGreatest {q : ℤ | (q : ℚ) ≤ (a.toInt : ℚ) / b.toInt} (floorDiv a b).toInt ∧
        Floors a.toInt b.toInt (floorDiv a b).toInt) ∧
    floorDiv Int64.minValue (-1) = Int64.minValue ∧
    ∀ a b : Int64, a % b ≠ 0 → (a / b - 1).toInt = (a / b).toInt - 1 := by
  -- The step stores what is combined, and what is combined represents the exact result.
  refine ⟨?_, ?_, by decide, fun a b => toInt_correction⟩
  · intro devices image m i x a b fetched destination first second
    constructor
    · intro n exact
      obtain ⟨r, represented, combined⟩ := exact.combine
      refine ⟨r, represented, fun s => represented.unique, ?_⟩
      have stores : m.Stores devices image i x (i.opcode.combine (.int a) (.int b)) :=
        Machine.stores_combined fetched exact.mem_combining destination first second
      rwa [combined] at stores
    · intro op
      have stores : m.Stores devices image i x (i.opcode.combine (.int a) (.int b)) :=
        Machine.stores_combined fetched (by rw [op]; decide) destination first second
      rw [op] at stores
      exact stores
  · intro a b divisible fits
    have floors := floors_floorDiv divisible fits
    exact ⟨floors.isGreatest fun zero => divisible (Int64.toInt_inj.mp zero), floors⟩

/-- An addition that leaves the range at its end, and a division of the sum by zero. -/
def limits : Image :=
  let x : Operand := .var ⟨.globalFrame, "x"⟩
  { code := #[⟨.add, 1, [x, .literal (.int Int64.maxValue), .literal (.int 1)]⟩,
      ⟨.idiv, 2, [x, x, .literal (.int 0)]⟩],
    labels := [] }

/-- The sum wraps, its quotient is rounded down, and dividing it by zero leaves it as it is. -/
theorem arithmetic_is_exact_of_limits :
    (∃ n, Machine.expectant.advance .willing limits = .next n ∧
      n.frames.read ⟨.globalFrame, "x"⟩ = .ok (.int Int64.minValue) ∧
      n.advance .willing limits = .fault (.raised 2 .divisionByZero) { n with pc := 2 }) ∧
    IsGreatest {q : ℤ | (q : ℚ) ≤ (Int64.minValue.toInt : ℚ) / (-7 : Int64).toInt}
      1317624576693539401 := by
  obtain ⟨stores, quotients, _, _⟩ := arithmetic_is_exact
  refine ⟨?_, (quotients Int64.minValue (-7) (by decide) (by decide)).1⟩
  let x : Variable := ⟨.globalFrame, "x"⟩
  obtain ⟨r, _, only, summed⟩ := (stores .willing limits Machine.expectant _ x Int64.maxValue 1
    rfl rfl rfl rfl).1 _ (.sum _ _)
  obtain ⟨frames, _, read, next⟩ := summed.stored _ none rfl rfl
  -- The sum is one more than the range has, and the least machine integer represents it.
  have least : Int64.minValue = r := only Int64.minValue rfl
  rw [← least] at read
  let n : Machine := { Machine.expectant with frames, pc := 1, executed := 1, last := some .add }
  have value : limits.code[1].value n.frames 1 = .ok (.int Int64.minValue) := by
    rw [show limits.code[1].value n.frames 1 = (frames.read x).mapError .frame from rfl, read]
    rfl
  have divided := (stores .willing limits n _ x Int64.minValue 0 rfl rfl value rfl).2 rfl
  exact ⟨n, next, read, divided.refused _ rfl⟩

end ThreeAddress
