import Rotofury.ToMathlib.ExceptBind
import Rotofury.Math.Rounding

/-! # Faults and 18-decimal fixed-point numbers

Every fallible operation of the modelled code ends in a value, a returned error or a panic. A
returned error is a registered error (codespace, code, description) wrapped with a detail text. A
panic aborts the transaction just as an error does, but it is kept apart, since some results are
about panics alone.

`Dec` is the SDK's decimal: an integer counted in units of `10^-18`. Addition, subtraction and
products with integers are exact; products and quotients of decimals round half to even. Integers are
unbounded here. The SDK panics where a decimal takes more than 315 bits; results on panics say of their
decimals that they do not (`Dec.fits`).
-/

namespace Rotofury.Model.Sdk

variable {left right quotient : Dec}

/-- An error as the modules register it. -/
structure RegisteredError where
  codespace : String
  code : ℕ
  description : String
deriving DecidableEq, Repr

/-- Account addresses, 20 bytes each. -/
abbrev Address := BitVec 160

/-- Coin denominations. -/
abbrev Denom := String

/-- How a computation can fail. A debit that the debited account cannot cover keeps the account, so
that a shortage of a module's own funds can be told from a shortage of a user's. -/
inductive Fault where
  | panic (reason : String)
  | err (error : RegisteredError) (detail : String)
  | insufficientFunds (account : Address) (denom : Denom)
deriving DecidableEq, Repr

/-- Dereferencing an unset optional field panics. -/
def deref {α : Type} : Option α → Except Fault α
  | some value => .ok value
  | none => .error (.panic "invalid memory address or nil pointer dereference")

@[simp]
theorem deref_ok_iff {α : Type} {field : Option α} {value : α} :
    deref field = .ok value ↔ field = some value := by
  cases field <;> simp [deref]

/-- A decimal in units of `10^-18`. -/
structure Dec where
  raw : ℤ
deriving DecidableEq, Repr

namespace Dec

/-- `10^18`, the number of units in one. -/
def precision : ℕ := 10 ^ 18

theorem precision_pos : 0 < precision := by decide

instance : LE Dec := ⟨fun left right => left.raw ≤ right.raw⟩
instance : LT Dec := ⟨fun left right => left.raw < right.raw⟩
instance (left right : Dec) : Decidable (left ≤ right) := inferInstanceAs (Decidable (_ ≤ _))
instance (left right : Dec) : Decidable (left < right) := inferInstanceAs (Decidable (_ < _))
instance : Add Dec := ⟨fun left right => ⟨left.raw + right.raw⟩⟩
instance : Sub Dec := ⟨fun left right => ⟨left.raw - right.raw⟩⟩
instance : Neg Dec := ⟨fun value => ⟨-value.raw⟩⟩

theorem lt_def : left < right ↔ left.raw < right.raw := Iff.rfl

@[simp] theorem raw_add (left right : Dec) : (left + right).raw = left.raw + right.raw := rfl
@[simp] theorem raw_sub (left right : Dec) : (left - right).raw = left.raw - right.raw := rfl

def zero : Dec := ⟨0⟩
def one : Dec := ⟨10 ^ 18⟩

/-- `NewDecWithPrec(value, digits)`: `value · 10^-digits`. -/
def withPrec (value : ℤ) (digits : ℕ) : Dec := ⟨value * 10 ^ (18 - digits)⟩

/-- `Int.ToDec` -/
def ofInt (value : ℤ) : Dec := ⟨value * precision⟩

def isZero (value : Dec) : Prop := value.raw = 0
def isPositive (value : Dec) : Prop := 0 < value.raw
def isNegative (value : Dec) : Prop := value.raw < 0

instance (value : Dec) : Decidable value.isZero := inferInstanceAs (Decidable (_ = _))
instance (value : Dec) : Decidable value.isPositive := inferInstanceAs (Decidable (_ < _))
instance (value : Dec) : Decidable value.isNegative := inferInstanceAs (Decidable (_ < _))

/-- `MinDec` and `MaxDec` -/
def min (left right : Dec) : Dec := if left < right then left else right
def max (left right : Dec) : Dec := if left < right then right else left

/-- No more than 315 bits; a sum, product or quotient that takes more is a panic in the SDK. -/
def fits (value : Dec) : Prop := value.raw.natAbs < 2 ^ 255 * 2 ^ 60

instance (value : Dec) : Decidable value.fits := inferInstanceAs (Decidable (_ < _))

/-- The product, rounded half to even. -/
def mul (left right : Dec) : Dec := ⟨Math.roundHalfEven (left.raw * right.raw) precision⟩

/-- `MulInt` and `MulInt64`: exact. -/
def mulInt (left : Dec) (right : ℤ) : Dec := ⟨left.raw * right⟩

/-- The quotient at doubled precision that every division starts from. -/
def scaledQuo (left right : Dec) : Except Fault ℤ :=
  if right.raw = 0 then .error (.panic "division by zero")
  else .ok ((left.raw * precision * precision).tdiv right.raw)

/-- The quotient, rounded half to even. -/
def quo (left right : Dec) : Except Fault Dec := do
  let scaled ← scaledQuo left right
  pure ⟨Math.roundHalfEven scaled precision⟩

def quoTruncate (left right : Dec) : Except Fault Dec := do
  let scaled ← scaledQuo left right
  pure ⟨scaled.tdiv precision⟩

def quoRoundUp (left right : Dec) : Except Fault Dec := do
  let scaled ← scaledQuo left right
  pure ⟨Math.roundUp scaled precision⟩

/-- `QuoInt` and `QuoInt64`: truncating division by an integer. -/
def quoInt (left : Dec) (right : ℤ) : Except Fault Dec :=
  if right = 0 then .error (.panic "division by zero") else .ok ⟨left.raw.tdiv right⟩

def truncateInt (value : Dec) : ℤ := value.raw.tdiv precision

/-- `TruncateInt64`: a result outside the signed 64-bit integers panics. -/
def truncateInt64 (value : Dec) : Except Fault ℤ := do
  Except.require (-2 ^ 63 ≤ value.truncateInt ∧ value.truncateInt < 2 ^ 63) (.panic "Int64() out of bound")
  pure value.truncateInt

def roundInt (value : Dec) : ℤ := Math.roundHalfEven value.raw precision

/-- `Ceil`: a whole decimal, rounded up. -/
def ceil (value : Dec) : Dec := ⟨Math.roundUp value.raw precision * precision⟩

/-- `Dec.String`: sign, integer part and all 18 decimals. -/
def toString (value : Dec) : String :=
  let digits := Nat.repr (value.raw.natAbs % precision)
  let padding := String.ofList (List.replicate (18 - digits.length) '0')
  (if value.raw < 0 then "-" else "") ++ Nat.repr (value.raw.natAbs / precision) ++ "." ++ padding ++ digits

instance : ToString Dec := ⟨toString⟩

theorem mul_raw_bounds (left right : Dec) :
    2 * (left.raw * right.raw) ≤ 2 * precision * (left.mul right).raw + precision ∧
      2 * precision * (left.mul right).raw ≤ 2 * (left.raw * right.raw) + precision :=
  Math.roundHalfEven_bounds _ precision_pos

/-- A product with a whole number of units does not round. -/
theorem ofInt_mul (value : ℤ) (right : Dec) : ((ofInt value).mul right).raw = value * right.raw := by
  have reorder : value * (precision : ℤ) * right.raw = value * right.raw * precision := by ring
  simp only [mul, ofInt, reorder]
  exact Math.roundHalfEven_mul _ precision_pos

@[simp]
theorem mul_one (value : Dec) : value.mul one = value := by
  have exact : Math.roundHalfEven (value.raw * (10 ^ 18 : ℕ)) (10 ^ 18) = value.raw :=
    Math.roundHalfEven_mul _ precision_pos
  cases value
  simpa [mul, one, precision] using exact

theorem mul_comm (left right : Dec) : left.mul right = right.mul left := by
  rw [mul, mul, Int.mul_comm]

/-- A quotient exceeds the exact one by at most half a unit, or is zero. -/
theorem quo_raw_upper (ok : left.quo right = .ok quotient) (positive : right.isPositive) :
    2 * quotient.raw * right.raw ≤ 2 * (Max.max 0 left.raw * precision) + right.raw := by
  simp only [isPositive] at positive
  simp only [quo, scaledQuo, if_neg positive.ne', Except.ok_bind, Except.pure_ok_iff] at ok
  subst ok
  set scaled := (left.raw * precision * precision).tdiv right.raw with scaledDef
  have unitPos : (0 : ℤ) < precision := by exact_mod_cast precision_pos
  have upper : 2 * precision * Math.roundHalfEven scaled precision ≤ 2 * scaled + precision :=
    (Math.roundHalfEven_bounds scaled precision_pos).2
  have exact : scaled * right.raw ≤ Max.max 0 left.raw * precision * precision := by
    rcases le_or_gt 0 left.raw with nonnegative | negative
    · rw [max_eq_right nonnegative, scaledDef, Int.tdiv_eq_ediv_of_nonneg (by positivity)]
      exact Int.ediv_mul_le _ positive.ne'
    · have flipped : 0 ≤ (-(left.raw * precision * precision)).tdiv right.raw :=
        Int.tdiv_nonneg (by nlinarith [mul_pos unitPos unitPos]) positive.le
      rw [Int.neg_tdiv] at flipped
      rw [max_eq_left negative.le]
      nlinarith
  have scaledUp : 2 * precision * Math.roundHalfEven scaled precision * right.raw ≤
      (2 * (Max.max 0 left.raw * precision) + right.raw) * precision := by nlinarith
  nlinarith

/-- The quotient of two decimals, the divisor positive. -/
theorem quo_of_pos (left : Dec) (positive : right.isPositive) :
    left.quo right = .ok ⟨Math.roundHalfEven ((left.raw * precision * precision).tdiv right.raw) precision⟩ := by
  rw [quo, scaledQuo, if_neg (ne_of_gt positive), Except.ok_bind]
  rfl

/-- Truncating a truncated quotient leaves the integer part of the exact one. -/
theorem truncateInt_quoTruncate (ok : left.quoTruncate right = .ok quotient) (nonneg : 0 ≤ left.raw)
    (positive : right.isPositive) : quotient.truncateInt = left.raw / right.raw := by
  have unitPos : (0 : ℤ) < precision := by exact_mod_cast precision_pos
  have scaledNonneg : 0 ≤ left.raw * precision * precision := by positivity
  rw [quoTruncate, scaledQuo, if_neg (ne_of_gt positive), Except.ok_bind, Except.pure_ok_iff] at ok
  subst ok
  have first : 0 ≤ left.raw * precision * precision / right.raw := Int.ediv_nonneg scaledNonneg (le_of_lt positive)
  have second : 0 ≤ left.raw * precision * precision / right.raw / precision := Int.ediv_nonneg first unitPos.le
  rw [truncateInt, Int.tdiv_eq_ediv_of_nonneg scaledNonneg, Int.tdiv_eq_ediv_of_nonneg first,
    Int.tdiv_eq_ediv_of_nonneg second, Int.ediv_ediv_of_nonneg (le_of_lt positive),
    Int.ediv_ediv_of_nonneg (mul_nonneg (le_of_lt positive) unitPos.le),
    Int.mul_ediv_mul_of_pos_left _ _ unitPos, Int.mul_ediv_mul_of_pos_left _ _ unitPos]

theorem quo_nonneg (ok : left.quo right = .ok quotient) (nonneg : 0 ≤ left.raw) (positive : right.isPositive) :
    0 ≤ quotient.raw := by
  rw [quo_of_pos left positive] at ok
  cases ok
  apply Math.roundHalfEven_nonneg
  exact Int.tdiv_nonneg (mul_nonneg (mul_nonneg nonneg (by positivity)) (by positivity)) (le_of_lt positive)

/-- A quotient is at most that by the smallest decimal. -/
theorem natAbs_quo_le (ok : left.quo right = .ok quotient) : quotient.raw.natAbs ≤ left.raw.natAbs * precision := by
  simp only [quo, Except.bind_ok_iff, Except.pure_ok_iff] at ok
  obtain ⟨scaled, isScaled, rfl⟩ := ok
  apply Math.natAbs_roundHalfEven_le _ precision_pos
  unfold scaledQuo at isScaled
  split at isScaled
  · cases isScaled
  · cases isScaled
    apply (Int.natAbs_tdiv_le_natAbs _ _).trans
    rw [Int.natAbs_mul, Int.natAbs_mul, Int.natAbs_natCast]

/-- A quotient rounds to something positive when it exceeds half a unit. -/
theorem quo_pos_iff (ok : left.quo right = .ok quotient) (nonneg : 0 ≤ left.raw) (positive : right.isPositive) :
    quotient.isPositive ↔ (5 * 10 ^ 17 + 1) * right.raw ≤ left.raw * 10 ^ 36 := by
  have scaled : 0 ≤ left.raw * precision * precision := mul_nonneg (mul_nonneg nonneg (by positivity)) (by positivity)
  have whole : left.raw * precision * precision = left.raw * 10 ^ 36 := by
    simp only [precision]
    push_cast
    ring
  rw [quo_of_pos left positive] at ok
  cases ok
  rw [isPositive, Math.roundHalfEven_pos_iff (Int.tdiv_nonneg scaled (le_of_lt positive)) precision_pos,
    Int.tdiv_eq_ediv_of_nonneg scaled, ← whole, ← Int.le_ediv_iff_mul_le positive]
  simp only [precision]
  push_cast
  omega

/-- Dividing by one is exact. -/
theorem quo_one (value : Dec) : value.quo one = .ok value := by
  have exact : Math.roundHalfEven (value.raw * (10 ^ 18 : ℕ)) (10 ^ 18) = value.raw :=
    Math.roundHalfEven_mul _ precision_pos
  have scaled : scaledQuo value one = .ok (value.raw * (10 ^ 18 : ℕ)) := by
    rw [scaledQuo, if_neg (by decide)]
    exact congrArg Except.ok (Int.mul_tdiv_cancel _ (by decide))
  rw [quo, scaled, Except.ok_bind, precision, exact]
  rfl

/-- The number a decimal stands for. -/
def toRat (value : Dec) : ℚ := value.raw / precision

/-- A positive integer no larger than a truncated value is no larger than the value. -/
theorem ofInt_le_of_le_truncateInt {amount : ℤ} {value : Dec} (positive : 0 < amount)
    (within : amount ≤ value.truncateInt) : ofInt amount ≤ value := by
  have nonnegative : 0 ≤ value.raw := by
    by_contra negative
    have flipped := Int.tdiv_nonneg (Int.neg_nonneg.mpr (not_le.mp negative).le) (Int.natCast_nonneg precision)
    rw [Int.neg_tdiv] at flipped
    simp only [truncateInt] at within
    omega
  rw [truncateInt, Int.tdiv_eq_ediv_of_nonneg nonnegative] at within
  calc amount * precision ≤ value.raw / precision * precision :=
        mul_le_mul_of_nonneg_right within (Int.natCast_nonneg _)
    _ ≤ value.raw := Int.ediv_mul_le _ (by decide)

/-- A value truncates to something positive when it is at least one. -/
theorem truncateInt_pos_iff (value : Dec) : 0 < value.truncateInt ↔ one ≤ value := by
  change 0 < value.raw.tdiv (10 ^ 18 : ℕ) ↔ (10 ^ 18 : ℤ) ≤ value.raw
  rcases le_or_gt 0 value.raw with nonnegative | negative
  · rw [Int.tdiv_eq_ediv_of_nonneg nonnegative]
    omega
  · have flipped := Int.tdiv_nonneg (Int.neg_nonneg.mpr negative.le) (Int.natCast_nonneg (10 ^ 18))
    rw [Int.neg_tdiv] at flipped
    omega

theorem raw_min (left right : Dec) : (left.min right).raw = Min.min left.raw right.raw := by
  unfold min
  split
  · next less => exact (min_eq_left (le_of_lt less)).symm
  · next notLess => exact (min_eq_right (not_lt.mp notLess)).symm

theorem raw_max (left right : Dec) : (left.max right).raw = Max.max left.raw right.raw := by
  unfold max
  split
  · next less => exact (max_eq_right (le_of_lt less)).symm
  · next notLess => exact (max_eq_left (not_lt.mp notLess)).symm

theorem min_le_right (left right : Dec) : (left.min right).raw ≤ right.raw := by
  rw [raw_min]
  exact Int.min_le_right _ _

end Dec

/-! ## The text of a denomination

`ValidateDenom` takes a letter and two to 127 further letters, digits, slashes or hyphens.
-/

def isDenomChar (char : Char) : Bool := char.isAlphanum || char = '/' || char = '-'

/-- `ValidateDenom` -/
def validateDenom (denom : Denom) : Bool :=
  match denom.toList with
  | first :: rest => first.isAlpha && decide (2 ≤ rest.length) && decide (rest.length ≤ 127) && rest.all isDenomChar
  | [] => false

end Rotofury.Model.Sdk

/-! ## The order of decimals under rounding

A product keeps the order, and a whole number is at most a value exactly when it is at most the value truncated.
-/

namespace Rotofury.Model.Sdk.Dec

variable {left right factor value : Dec} {amount : ℤ}

theorem mul_mono (ordered : left ≤ right) (nonneg : 0 ≤ factor.raw) : left.mul factor ≤ right.mul factor :=
  Math.roundHalfEven_mono (mul_le_mul_of_nonneg_right ordered nonneg) precision_pos

/-- A share of at most one. -/
theorem mul_le_left (nonneg : 0 ≤ left.raw) (share : right ≤ one) : left.mul right ≤ left := by
  have most : left.raw * right.raw ≤ left.raw * precision := mul_le_mul_of_nonneg_left share nonneg
  have rounded := Math.roundHalfEven_mono most precision_pos
  rw [Math.roundHalfEven_mul _ precision_pos] at rounded
  exact rounded

/-- The same for values of any sign. -/
theorem natAbs_mul_le (share : right.raw.natAbs ≤ precision) : (left.mul right).raw.natAbs ≤ left.raw.natAbs := by
  apply Math.natAbs_roundHalfEven_le _ precision_pos
  rw [Int.natAbs_mul]
  exact Nat.mul_le_mul_left _ share

theorem mul_nonneg (leftNonneg : 0 ≤ left.raw) (rightNonneg : 0 ≤ right.raw) : 0 ≤ (left.mul right).raw :=
  Math.roundHalfEven_nonneg (Int.mul_nonneg leftNonneg rightNonneg) _

theorem le_truncateInt_iff (nonneg : 0 ≤ value.raw) : amount ≤ value.truncateInt ↔ ofInt amount ≤ value := by
  rw [truncateInt, Int.tdiv_eq_ediv_of_nonneg nonneg, Int.le_ediv_iff_mul_le (by decide)]
  rfl

end Rotofury.Model.Sdk.Dec
