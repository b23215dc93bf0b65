import BankingSystem.Machinery.Bytes
import BankingSystem.Machinery.CString
import BankingSystem.Machinery.Extended
import Mathlib.Data.Nat.Log

/-!
# Common/Double — the `double` of the wire format and of the account table

A `Double` is its 64 bits, so that the eight bytes of a request are one and the eight bytes of a
response are read off one.  Every finite `double` is a whole number of units of `2 ^ -1074`:
comparisons and sums are taken on those whole numbers, and a sum is rounded to nearest, ties to
even.  Which NaN an operation gives, IEEE-754 leaves open; it is the one of `addsd` and `subsd` on
x86-64, with the left operand of the C operator as their first.
-/

namespace BankingSystem

open Bytes CString

/-- **A binary64 number**, by its bits. -/
structure Double where
  bits : ℕ
  bits_lt : bits < 2 ^ 64
  deriving DecidableEq

namespace Double

/-! ## What the bits stand for -/

/-- The sign bit. -/
def sign (x : Double) : Bool := decide (2 ^ 63 ≤ x.bits)

/-- The exponent field. -/
def exponent (x : Double) : ℕ := x.bits / 2 ^ 52 % 2 ^ 11

/-- The fraction field. -/
def fraction (x : Double) : ℕ := x.bits % 2 ^ 52

/-- The absolute value, in units of `2 ^ -1074`. -/
def magnitude (x : Double) : ℕ :=
  if x.exponent = 0 then x.fraction else (2 ^ 52 + x.fraction) * 2 ^ (x.exponent - 1)

/-- The value, in units of `2 ^ -1074`. -/
def value (x : Double) : Extended ℤ :=
  if x.exponent = 2047 then
    if x.fraction = 0 then if x.sign then .negInf else .posInf else .nan
  else .fin (if x.sign then -x.magnitude else x.magnitude)

/-! ## Arithmetic -/

/-- `n / d`, rounded to nearest, ties to even. -/
def roundDiv (n d : ℕ) : ℕ :=
  n / d + if d < 2 * (n % d) ∨ d = 2 * (n % d) ∧ n / d % 2 = 1 then 1 else 0

/-- The bits of the number nearest to `m` units.  Up to `2 ^ 53` units the bits are the number; from
there on 53 digits are kept, and a carry out of them is the next exponent. -/
def roundBits (m : ℕ) : ℕ :=
  if m < 2 ^ 53 then m else
  let k := m.log2 - 52
  min (k * 2 ^ 52 + roundDiv m (2 ^ k)) (2047 * 2 ^ 52)

theorem roundBits_lt (m : ℕ) : roundBits m < 2 ^ 63 := by
  rw [roundBits]
  split
  · omega
  · exact (min_le_right _ _).trans_lt (by decide)

/-- The number nearest to `m` units, with a sign. -/
def round (negative : Bool) (m : ℕ) : Double where
  bits := (if negative then 2 ^ 63 else 0) + roundBits m
  bits_lt := by
    have := roundBits_lt m
    split <;> omega

/-- The NaN of an operation that has no NaN for an operand. -/
def nan : Double := ⟨0xFFF8 * 2 ^ 48, by decide⟩

/-- A NaN with its quiet bit set. -/
def quiet (x : Double) : Double where
  bits := x.bits ||| 2 ^ 51
  bits_lt := Nat.or_lt_two_pow x.bits_lt (by decide)

/-- **The NaN of an operation**: that of the first operand that is one, made quiet. -/
def nanOf (x y : Double) : Double :=
  if x.value = .nan then x.quiet else if y.value = .nan then y.quiet else nan

/-- `-x`. -/
def neg (x : Double) : Double where
  bits := (x.bits + 2 ^ 63) % 2 ^ 64
  bits_lt := Nat.mod_lt _ (by decide)

/-- `x + y`. -/
def add (x y : Double) : Double :=
  match x.value, y.value with
  | .fin a, .fin b =>
    -- a sum that cancels is +0; only -0 + -0 is -0
    if a + b = 0 then round (x.sign && y.sign) 0 else round (decide (a + b < 0)) (a + b).natAbs
  | .fin _, .posInf | .fin _, .negInf => y
  | .posInf, .fin _ | .negInf, .fin _ | .posInf, .posInf | .negInf, .negInf => x
  | _, _ => nanOf x y

/-- `x - y`. -/
def sub (x y : Double) : Double :=
  -- a NaN keeps its sign
  if y.value = .nan then nanOf x y else add x y.neg

instance : Arith Double where
  zero := ⟨0, by decide⟩
  lt x y := Extended.lt x.value y.value
  le x y := Extended.le x.value y.value
  add := add
  sub := sub

theorem zero_value : (Arith.zero : Double).value = .fin 0 := by decide +kernel

/-- The sum of the numbers written `0.1` and `0.2`. -/
example : add ⟨0x3FB999999999999A, by decide⟩ ⟨0x3FC999999999999A, by decide⟩ =
    ⟨0x3FD3333333333334, by decide⟩ := by decide +kernel

/-- `INFINITY - INFINITY`. -/
example : sub ⟨0x7FF0000000000000, by decide⟩ ⟨0x7FF0000000000000, by decide⟩ = nan := by
  decide +kernel

/-! ## Bytes and text -/

/-- The number in eight bytes of memory, on a little-endian machine. -/
def load (p : CharPtr) : Double where
  bits := le ((List.range 8).map p)
  bits_lt := by
    have := le_lt ((List.range 8).map p)
    simpa using this

/-- The eight bytes of a number. -/
def bytes (x : Double) : List UInt8 := toLe 8 x.bits

/-- `%.2f`. -/
def format (x : Double) : List UInt8 :=
  (if x.sign then ascii "-" else []) ++
  if x.exponent = 2047 then ascii (if x.fraction = 0 then "inf" else "nan") else
  let cents := roundDiv (x.magnitude * 100) (2 ^ 1074)
  decimal (cents / 100) ++ ascii "." ++ decimal (cents / 10 % 10) ++ decimal (cents % 10)

example : format ⟨0x4059000000000000, by decide⟩ = ascii "100.00" := by decide +kernel

example : format nan = ascii "-nan" := by decide +kernel

/-- **Different numbers have different bytes.** -/
theorem bytes_injective : Function.Injective bytes := fun x y h => by
  have hx : le x.bytes = x.bits := (le_toLe 8 _).trans (Nat.mod_eq_of_lt x.bits_lt)
  have hy : le y.bytes = y.bits := (le_toLe 8 _).trans (Nat.mod_eq_of_lt y.bits_lt)
  have : x.bits = y.bits := by rw [← hx, ← hy, h]
  cases x
  cases y
  simpa using this

theorem bits_load (p : CharPtr) : (load p).bits = le ((List.range 8).map p) := rfl

/-- **A number is read as it was written.** -/
theorem load_bytes (x : Double) (later : List UInt8) (rest : CharPtr) :
    load (onto (x.bytes ++ later) rest) = x := by
  have hbytes := map_range_onto x.bytes later rest
  rw [show x.bytes.length = 8 from length_toLe 8 x.bits] at hbytes
  have hbits : (load (onto (x.bytes ++ later) rest)).bits = x.bits := by
    rw [bits_load, hbytes]
    exact (le_toLe 8 _).trans (Nat.mod_eq_of_lt x.bits_lt)
  cases x
  simpa [load] using hbits

/-- Two pointers give the same number exactly when their eight bytes agree. -/
theorem load_eq_iff {p q : CharPtr} : load p = load q ↔ ∀ i < 8, p i = q i := by
  refine ⟨fun h i hi => ?_, fun h => ?_⟩
  · have hle := congrArg bits h
    rw [bits_load, bits_load] at hle
    exact List.map_inj_left.mp (le_injective (by simp) hle) i (List.mem_range.mpr hi)
  · have hmap : (List.range 8).map p = (List.range 8).map q :=
      List.map_inj_left.mpr fun i hi => h i (List.mem_range.mp hi)
    simp [load, hmap]

/-- A number whose highest byte is the sign alone is not positive. -/
theorem load_le_zero {p : CharPtr} (h : p 7 = 0x80) : Arith.le (load p) Arith.zero = true := by
  have hbits : (load p).bits = le ((List.range 7).map p) + 2 ^ 63 := by
    rw [bits_load, List.range_succ, List.map_append, List.map_singleton, le_concat, h]
    simp
  have hlow : le ((List.range 7).map p) < 2 ^ 56 := by
    have := le_lt ((List.range 7).map p)
    rwa [List.length_map, List.length_range] at this
  have hsign : (load p).sign = true := by
    rw [sign, hbits]
    exact decide_eq_true (Nat.le_add_left _ _)
  have hexp : (load p).exponent ≠ 2047 := by
    rw [exponent, hbits]
    omega
  change Extended.le (load p).value (Arith.zero : Double).value = true
  rw [zero_value, value, if_neg hexp, hsign, if_pos rfl]
  exact decide_eq_true (neg_nonpos.mpr (Int.natCast_nonneg _))

end Double

end BankingSystem
