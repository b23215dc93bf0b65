import Mathlib.Algebra.Order.Ring.Rat
import Mathlib.Data.Rat.Defs
import Mathlib.Order.Defs.LinearOrder

/-!
# Machinery/Extended — the arithmetic C code sees, and IEEE-754 with exact finite values

`Arith α` is what a program can do with a number: compare, add, subtract.  Exact numbers are one
instance; `Extended F` — the finite values of `F`, the two infinities and NaN — is another, with the
IEEE-754 rules: every comparison with NaN is false, and `∞ - ∞` is NaN.
-/

universe u

/-- **The operations of an arithmetic type**, as a program uses them. -/
class Arith (α : Type u) where
  zero : α
  lt : α → α → Bool
  le : α → α → Bool
  add : α → α → α
  sub : α → α → α

/-- Exact numbers. -/
instance : Arith ℚ where
  zero := 0
  lt a b := decide (a < b)
  le a b := decide (a ≤ b)
  add a b := a + b
  sub a b := a - b

/-- **The values of an IEEE-754 format**, with `F` for the finite ones. -/
inductive Extended (F : Type u) where
  | fin (x : F)
  | posInf
  | negInf
  | nan
  deriving DecidableEq

namespace Extended

variable {F : Type u} [LinearOrder F]

/-- `x < y`. -/
def lt : Extended F → Extended F → Bool
  | nan, _ | _, nan => false
  | fin a, fin b => decide (a < b)
  | negInf, negInf => false
  | negInf, _ => true
  | _, negInf => false
  | posInf, _ => false
  | _, posInf => true

/-- `x <= y`. -/
def le : Extended F → Extended F → Bool
  | nan, _ | _, nan => false
  | fin a, fin b => decide (a ≤ b)
  | negInf, _ => true
  | _, posInf => true
  | _, _ => false

/-- `-x`. -/
def neg [Neg F] : Extended F → Extended F
  | fin a => fin (-a)
  | posInf => negInf
  | negInf => posInf
  | nan => nan

/-- `x + y`. -/
def add [Add F] : Extended F → Extended F → Extended F
  | nan, _ | _, nan => nan
  | fin a, fin b => fin (a + b)
  | posInf, negInf | negInf, posInf => nan
  | posInf, _ | _, posInf => posInf
  | negInf, _ | _, negInf => negInf

/-- `x - y`. -/
def sub [Add F] [Neg F] (x y : Extended F) : Extended F := x.add y.neg

instance [Add F] [Neg F] [Zero F] : Arith (Extended F) where
  zero := fin 0
  lt := lt
  le := le
  add := add
  sub := sub

/-- **Off NaN the negative test is the positive test of the opposite.** -/
theorem lt_eq_not_le {x y : Extended F} (hx : x ≠ nan) (hy : y ≠ nan) : lt x y = !le y x := by
  cases x with
  | nan => exact absurd rfl hx
  | fin a =>
    cases y with
    | nan => exact absurd rfl hy
    | fin b => simp only [lt, le, ← not_le, decide_not]
    | posInf => rfl
    | negInf => rfl
  | posInf => cases y <;> first | rfl | exact absurd rfl hy
  | negInf => cases y <;> first | rfl | exact absurd rfl hy

theorem le_eq_not_lt {x y : Extended F} (hx : x ≠ nan) (hy : y ≠ nan) : le x y = !lt y x := by
  rw [lt_eq_not_le hy hx, Bool.not_not]

/-- On NaN every comparison fails. -/
theorem nan_le (y : Extended F) : le nan y = false := by cases y <;> rfl

theorem le_nan (x : Extended F) : le x nan = false := by cases x <;> rfl

theorem lt_nan (x : Extended F) : lt x nan = false := by cases x <;> rfl

/-- What something is at most is not NaN. -/
theorem ne_nan_of_le {x y : Extended F} (h : le x y = true) : y ≠ nan := by
  rintro rfl
  exact absurd ((le_nan x).symm.trans h) Bool.false_ne_true

/-- What is at most a finite number is neither NaN nor `∞`. -/
theorem of_le_fin {x : Extended F} {a : F} (h : le x (fin a) = true) : x ≠ nan ∧ x ≠ posInf := by
  constructor
  · rintro rfl
    exact absurd h Bool.false_ne_true
  · rintro rfl
    exact absurd h Bool.false_ne_true

/-- What something is below of is not NaN, and not both are `∞`. -/
theorem of_lt {x y : Extended F} (h : lt x y = true) : y ≠ nan ∧ (y = posInf → x ≠ posInf) := by
  constructor
  · rintro rfl
    exact absurd ((lt_nan x).symm.trans h) Bool.false_ne_true
  · rintro rfl rfl
    exact absurd h Bool.false_ne_true

omit [LinearOrder F] in
/-- A sum with NaN is NaN. -/
theorem add_nan [Add F] (x : Extended F) : x.add nan = nan := by cases x <;> rfl

section Order

variable [AddCommGroup F] [IsOrderedAddMonoid F]

/-- A sum of something not negative and something positive is not negative. -/
theorem zero_le_add {x y : Extended F} (hx : le (fin 0) x = true) (hy : le y (fin 0) = false)
    (hnan : y ≠ nan) : le (fin 0) (x.add y) = true := by
  have hy := le_eq_not_lt hnan (y := fin 0) (by simp) ▸ hy
  cases x with
  | nan => exact absurd hx (by simp [le])
  | negInf => exact absurd hx (by simp [le])
  | posInf => cases y <;> simp_all [le, lt, add]
  | fin a =>
    cases y with
    | nan => exact absurd rfl hnan
    | negInf => exact absurd hy (by simp [lt])
    | posInf => rfl
    | fin b =>
      have ha : 0 ≤ a := of_decide_eq_true hx
      have hb : 0 < b := by simpa [lt] using hy
      exact decide_eq_true (add_nonneg ha hb.le)

/-- **Past the guard of a deposit the sum is not negative exactly when it is not with NaN.** -/
theorem zero_le_add_iff {x y : Extended F} (hx : le (fin 0) x = true)
    (hy : le y (fin 0) = false) : le (fin 0) (x.add y) = true ↔ y ≠ nan := by
  refine ⟨fun h => ?_, zero_le_add hx hy⟩
  rintro rfl
  exact ne_nan_of_le h (add_nan x)

/-- A difference of an amount that is covered is not negative, unless it is `∞ - ∞`. -/
theorem zero_le_sub {x y : Extended F} (hx : le (fin 0) x = true) (hy : le y (fin 0) = false)
    (hxy : lt x y = false) (hnan : y ≠ nan) (hinf : y = posInf → x ≠ posInf) :
    le (fin 0) (x.sub y) = true := by
  cases x with
  | nan => exact absurd hx (by simp [le])
  | negInf => exact absurd hx (by simp [le])
  | posInf => cases y <;> simp_all [le, lt, sub, add, neg]
  | fin a =>
    cases y with
    | nan => exact absurd rfl hnan
    | negInf => exact absurd hy (by simp [le])
    | posInf => exact absurd hxy (by simp [lt])
    | fin b =>
      have hab : b ≤ a := not_lt.mp (of_decide_eq_false hxy)
      refine decide_eq_true ?_
      rw [← sub_eq_add_neg]
      exact sub_nonneg.mpr hab

/-- **Past the guards of a withdrawal the difference is not negative exactly when it is neither of
NaN nor `∞ - ∞`.** -/
theorem zero_le_sub_iff {x y : Extended F} (hx : le (fin 0) x = true) (hy : le y (fin 0) = false)
    (hxy : lt x y = false) :
    le (fin 0) (x.sub y) = true ↔ y ≠ nan ∧ (y = posInf → x ≠ posInf) := by
  refine ⟨fun h => ⟨?_, ?_⟩, fun h => zero_le_sub hx hy hxy h.1 h.2⟩
  · rintro rfl
    exact ne_nan_of_le h (add_nan x)
  · rintro rfl rfl
    exact absurd h Bool.false_ne_true

end Order

end Extended
