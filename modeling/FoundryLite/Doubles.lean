import FoundryLite.ScalarValues

/-!
# Numbers of double precision

A floating-point number is a rational that a double holds, an infinity, or not a number. The sign of zero
is left out. Sums and quotients are rounded to the nearest double. A comparison with what is not a number
fails; a database instead orders it behind every number, and takes it for equal to itself
(`sqlLess`, `sqlLessEqual`).
-/

namespace FoundryLite

open ScalarValues

inductive Double where
  | finite (q : ℚ)
  | infinity (isNegative : Bool)
  | nan
  deriving DecidableEq

namespace Double

/-- The double of a rational. -/
def round (q : ℚ) : Double :=
  match nearestDouble q with
  | some rounded => .finite rounded
  | none => .infinity (decide (q < 0))

def ofInt (n : ℤ) : Double := round n

def add : Double → Double → Double
  | .finite p, .finite q => round (p + q)
  | .finite _, .infinity isNegative => .infinity isNegative
  | .infinity isNegative, .finite _ => .infinity isNegative
  | .infinity isNegative, .infinity isNegative' =>
    if isNegative = isNegative' then .infinity isNegative else .nan
  | _, _ => .nan

/-- Division by a count, which is not zero. -/
def divide : Double → ℕ → Double
  | .finite q, count => round (q / count)
  | x, _ => x

/-- `<` of two floats. -/
def less : Double → Double → Bool
  | .finite p, .finite q => p < q
  | .finite _, .infinity isNegative => !isNegative
  | .infinity isNegative, .finite _ => isNegative
  | .infinity isNegative, .infinity isNegative' => isNegative && !isNegative'
  | _, _ => false

/-- `<=` of two floats. -/
def lessEqual (x y : Double) : Bool := less x y || (decide (x = y) && decide (x ≠ .nan))

/-- `<` of two doubles in the database. -/
def sqlLess (x y : Double) : Bool := if y = .nan then decide (x ≠ .nan) else less x y

/-- `<=` of two doubles in the database. -/
def sqlLessEqual (x y : Double) : Bool := sqlLess x y || decide (x = y)

variable {x y : Double}

theorem round_ne_nan (q : ℚ) : round q ≠ .nan := by
  rw [round]
  split <;> simp

theorem ofInt_ne_nan (n : ℤ) : ofInt n ≠ .nan := round_ne_nan n

@[simp]
theorem add_nan (x : Double) : add x .nan = .nan := by cases x <;> rfl

@[simp]
theorem nan_add (x : Double) : add .nan x = .nan := by cases x <;> rfl

@[simp]
theorem nan_less (x : Double) : less .nan x = false := by cases x <;> rfl

@[simp]
theorem divide_eq_nan_iff {count : ℕ} : divide x count = .nan ↔ x = .nan := by
  cases x with
  | finite q => simp [divide, round_ne_nan]
  | infinity isNegative => simp [divide]
  | nan => simp [divide]

theorem sqlLess_of_ne_nan (hy : y ≠ .nan) : sqlLess x y = less x y := if_neg hy

theorem sqlLess_nan (hx : x ≠ .nan) : sqlLess x .nan = true := by simp [sqlLess, hx]

theorem sqlLessEqual_of_ne_nan (hx : x ≠ .nan) (hy : y ≠ .nan) : sqlLessEqual x y = lessEqual x y := by
  simp [sqlLessEqual, lessEqual, sqlLess_of_ne_nan hy, hx]

end Double

end FoundryLite
