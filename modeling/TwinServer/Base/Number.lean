-- SUMMARY: JavaScript numbers: finite dyadic values, the infinities and NaN, with their comparisons.
import Mathlib.Algebra.Ring.Int.Defs

/-!
# Numbers

A finite double is a dyadic rational, so `Number` carries the exact value. The
two zeros are one value: no operation modelled here tells them apart.
-/

namespace Js

inductive Number where
  | finite (value : Dyadic)
  | infinity (negative : Bool)
  | nan
  deriving DecidableEq

namespace Number

/-- The number literal `n`. -/
def ofNat (n : Nat) : Number := .finite n

instance (n : Nat) : OfNat Number n := ⟨ofNat n⟩
instance : Coe Nat Number := ⟨ofNat⟩

/-- `Number.isFinite`. -/
def isFinite : Number → Bool
  | .finite _ => true
  | _ => false

/-- The truth value of a number: zero and NaN are falsy. -/
@[local grind] def truthy : Number → Bool
  | .finite x => x != 0
  | .infinity _ => true
  | .nan => false

/-- The comparison `a < b`, false as soon as an operand is NaN. -/
@[local grind] def lt : Number → Number → Bool
  | .finite a, .finite b => a < b
  | .finite _, .infinity negative => !negative
  | .infinity negative, .finite _ => negative
  | .infinity a, .infinity b => a && !b
  | _, _ => false

/-- The comparison `a <= b`, false as soon as an operand is NaN. -/
@[local grind] def le : Number → Number → Bool
  | .finite a, .finite b => a ≤ b
  | .finite _, .infinity negative => !negative
  | .infinity negative, .finite _ => negative
  | .infinity a, .infinity b => a || !b
  | _, _ => false

/-- The largest safe integer, `2 ** 53 - 1`. -/
def maxSafe : Nat := 9007199254740991

/-- The integer a finite number is, if it is one. -/
@[local grind] def toInt? : Number → Option Int
  | .finite .zero => some 0
  | .finite (.ofOdd n k _) => if k ≤ 0 then some (n * 2 ^ (-k).toNat) else none
  | _ => none

/-- `Number.isSafeInteger`. -/
def isSafeInteger (x : Number) : Bool :=
  match x.toInt? with
  | some n => n.natAbs ≤ maxSafe
  | none => false

/-- The natural number behind a non-negative safe integer. -/
def safeNat? (x : Number) : Option Nat :=
  match x.toInt? with
  | some (.ofNat n) => if n ≤ maxSafe then some n else none
  | _ => none

theorem toInt?_ofInt (n : Int) : toInt? (.finite (Dyadic.ofInt n)) = some n := by
  by_cases hn : n = 0
  · subst hn; rfl
  · have hshift : n >>> n.trailingZeros * 2 ^ n.trailingZeros = n := by
      rw [Int.shiftRight_eq_div_pow]
      exact Int.ediv_mul_cancel (by exact_mod_cast Int.two_pow_trailingZeros_dvd hn)
    simp [Dyadic.ofInt, Dyadic.ofIntWithPrec, hn, toInt?, hshift]

@[simp] theorem safeNat?_ofNat (n : Nat) :
    safeNat? (ofNat n) = if n ≤ maxSafe then some n else none := by
  simp only [safeNat?, ofNat]
  rw [show (n : Dyadic) = Dyadic.ofInt n from rfl, toInt?_ofInt]

theorem ofNat_injective {m n : Nat} (h : ofNat m = ofNat n) : m = n := by
  have hm : toInt? (ofNat m) = some (m : Int) := toInt?_ofInt m
  have hn : toInt? (ofNat n) = some (n : Int) := toInt?_ofInt n
  rw [h, hn] at hm
  exact Int.ofNat.inj (Option.some.inj hm).symm

theorem le_trans {a b c : Number} (hab : a.le b) (hbc : b.le c) : a.le c := by
  cases a <;> cases b <;> cases c <;>
    simp only [le, decide_eq_true_eq, Bool.or_eq_true, Bool.not_eq_true', Bool.false_eq_true] at hab hbc ⊢ <;>
    grind

/-- A number other than NaN. -/
theorem le_refl {x : Number} (h : x ≠ .nan) : x.le x := by
  cases x <;> simp_all [le]

theorem intCast_le_intCast {m n : Int} : (m : Dyadic) ≤ (n : Dyadic) ↔ m ≤ n := by
  rw [← Dyadic.toRat_le_toRat_iff, Dyadic.toRat_intCast, Dyadic.toRat_intCast]
  exact Rat.intCast_le_intCast

theorem finite_le_finite (m n : Int) : (Number.finite m).le (.finite n) = decide (m ≤ n) := by
  simp only [le, intCast_le_intCast]

theorem ofNat_le (m n : Nat) : (ofNat m).le (ofNat n) = decide (m ≤ n) := by
  have h : ((m : Dyadic) ≤ n) ↔ m ≤ n := by
    rw [← Dyadic.toRat_le_toRat_iff, Dyadic.toRat_natCast, Dyadic.toRat_natCast,
      Rat.natCast_le_natCast]
  simp only [le, ofNat, h]

theorem ofNat_lt (m n : Nat) : (ofNat m).lt (ofNat n) = decide (m < n) := by
  have h : ((m : Dyadic) < n) ↔ m < n := by
    rw [← Dyadic.toRat_lt_toRat_iff, Dyadic.toRat_natCast, Dyadic.toRat_natCast,
      Rat.natCast_lt_natCast]
  simp only [lt, ofNat, h]

theorem lt_eq_false_of_le {a b : Number} (h : a.le b) : b.lt a = false := by
  cases a with
  | nan => cases h
  | infinity s =>
    cases b with
    | nan => cases h
    | infinity t => cases s <;> cases t <;> first | rfl | cases h
    | finite y => cases s <;> first | rfl | cases h
  | finite x =>
    cases b with
    | nan => cases h
    | infinity t => cases t <;> first | rfl | cases h
    | finite y =>
      simp only [le, lt, decide_eq_true_eq, decide_eq_false_iff_not] at h ⊢
      exact Dyadic.not_le.mpr h

theorem le_of_lt_eq_false {a b : Number} (h : a.lt b = false) (ha : a ≠ .nan) (hb : b ≠ .nan) : b.le a := by
  cases a <;> cases b <;>
    simp only [lt, le, decide_eq_false_iff_not, Bool.not_eq_false', Bool.and_eq_false_iff,
      decide_eq_true_eq, Bool.or_eq_true, Bool.not_eq_true', ne_eq, not_true_eq_false] at h ha hb ⊢ <;>
    grind

theorem lt_of_le_eq_false {a b : Number} (h : a.le b = false) (ha : a ≠ .nan) (hb : b ≠ .nan) : b.lt a := by
  cases a <;> cases b <;>
    simp only [lt, le, decide_eq_false_iff_not, Bool.not_eq_false', Bool.or_eq_false_iff,
      decide_eq_true_eq, Bool.and_eq_true, Bool.not_eq_true', ne_eq, not_true_eq_false] at h ha hb ⊢ <;>
    grind

theorem ofNat_ne_nan (n : Nat) : ofNat n ≠ .nan := nofun

theorem le_eq_false_of_lt {a b : Number} (h : a.lt b) : b.le a = false := by
  cases hle : b.le a with
  | false => rfl
  | true => rw [lt_eq_false_of_le hle] at h; cases h

end Number

end Js
