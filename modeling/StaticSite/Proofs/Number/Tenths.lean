import Mathlib.Algebra.Order.Field.Basic
import Mathlib.Data.Rat.Cast.Order
import Mathlib.Tactic.FieldSimp
import Mathlib.Tactic.Linarith
import Mathlib.Tactic.NormNum
import Mathlib.Tactic.Ring
import StaticSite.Number.Decimal

/-!
# Tenths

A finite datum is a rational number. It is written with the tenths that are nearest to it, a tie
going to the even tenth. This rule alone makes the writing keep the order of numbers.
-/

namespace StaticSite.Number

/-- A quotient is rounded by its remainder: down below a half, up above it, and in the middle to the
even neighbour. -/
theorem roundDiv_cases (num den : Nat) (hd : 0 < den) :
    ∃ q r, num = q * den + r ∧ r < den ∧
      (roundDiv num den = q ∧ (2 * r < den ∨ 2 * r = den ∧ q % 2 = 0) ∨
        roundDiv num den = q + 1 ∧ (den < 2 * r ∨ 2 * r = den ∧ (q + 1) % 2 = 0)) := by
  refine ⟨num / den, num % den, (Nat.div_add_mod' num den).symm, Nat.mod_lt num hd, ?_⟩
  unfold roundDiv
  simp only
  split
  · rename_i hlow
    exact .inl ⟨rfl, hlow⟩
  · exact .inr ⟨rfl, by omega⟩

theorem roundDiv_nearest (num den : Nat) (hd : 0 < den) :
    2 * num ≤ (2 * roundDiv num den + 1) * den ∧ 2 * roundDiv num den * den ≤ 2 * num + den := by
  obtain ⟨q, r, hnum, hr, ⟨hq, hlow⟩ | ⟨hq, hhigh⟩⟩ := roundDiv_cases num den hd
  · have hle : 2 * r ≤ den := hlow.elim Nat.le_of_lt fun h => h.1.le
    rw [hq, hnum]
    constructor <;> linarith
  · have hle : den ≤ 2 * r := hhigh.elim Nat.le_of_lt fun h => h.1.ge
    rw [hq, hnum]
    constructor <;> linarith

theorem roundDiv_even (num den : Nat) (hd : 0 < den)
    (h : 2 * num = (2 * roundDiv num den + 1) * den ∨
      2 * roundDiv num den * den = 2 * num + den) : roundDiv num den % 2 = 0 := by
  obtain ⟨q, r, hnum, hr, ⟨hq, hlow⟩ | ⟨hq, hhigh⟩⟩ := roundDiv_cases num den hd
  · have hle : den ≤ 2 * r := by
      rw [hq, hnum] at h
      rcases h with h | h <;> linarith
    rw [hq]
    exact (hlow.resolve_left hle.not_gt).2
  · have hle : 2 * r ≤ den := by
      rw [hq, hnum] at h
      rcases h with h | h <;> linarith
    rw [hq]
    exact (hhigh.resolve_left hle.not_gt).2

namespace Datum

def value? : Datum → Option ℚ
  | .finite negative m e => some (if negative then -(m * 2 ^ e) else m * 2 ^ e)
  | _ => none

theorem den_magnitude_pos (m : Nat) (e : Int) : 0 < (magnitude m e).2 := by
  unfold magnitude scaleDown
  split
  · rw [Nat.one_mul]
    exact Nat.pow_pos (by decide)
  · exact Nat.one_pos

theorem num_magnitude (m : Nat) (e : Int) :
    ((magnitude m e).1 : ℚ) = m * 2 ^ e * (magnitude m e).2 := by
  unfold magnitude scaleDown
  split
  · rename_i he
    have hpow : (2 : ℚ) ^ e * 2 ^ (-e).toNat = 1 := by
      rw [← zpow_natCast, ← zpow_add₀ two_ne_zero, Int.toNat_of_nonneg he, add_neg_cancel, zpow_zero]
    simp [mul_assoc, hpow]
  · rename_i he
    have hpow : (2 : ℚ) ^ e = 2 ^ (- -e).toNat := by
      rw [← zpow_natCast, Int.toNat_of_nonneg (by omega), neg_neg]
    simp [hpow]

theorem exists_of_inUnitInterval {d : Datum} (h : d.inUnitInterval = true) :
    ∃ negative m e, d = .finite negative m e ∧ (negative = true → m = 0) ∧
      d.value? = some ((m : ℚ) * 2 ^ e) ∧ (m : ℚ) * 2 ^ e ≤ 1 := by
  cases d with
  | nan => cases h
  | infinite negative => cases h
  | finite negative m e =>
    simp only [inUnitInterval, Bool.or_eq_true, decide_eq_true_eq, Bool.and_eq_true,
      Bool.not_eq_true'] at h
    rcases h with rfl | ⟨rfl, hle⟩
    · exact ⟨negative, 0, e, rfl, fun _ => rfl, by cases negative <;> simp [value?], by simp⟩
    · refine ⟨false, m, e, rfl, fun h => (Bool.false_ne_true h).elim, rfl, ?_⟩
      have hd : (0 : ℚ) < (magnitude m e).2 := by exact_mod_cast den_magnitude_pos m e
      have hnum : (m : ℚ) * 2 ^ e * (magnitude m e).2 ≤ 1 * (magnitude m e).2 := by
        rw [← num_magnitude, one_mul]
        exact_mod_cast hle
      exact le_of_mul_le_mul_right hnum hd

end Datum

/-- So many tenths are nearest to a number, and in the middle between two of them the even one is
taken. -/
structure IsTenthsOf (p : ℚ) (t : Nat) : Prop where
  near : |(t : ℚ) / 10 - p| ≤ 1 / 20
  even : |(t : ℚ) / 10 - p| = 1 / 20 → t % 2 = 0

theorem isTenthsOf_roundDiv {p : ℚ} {num den : Nat} (hd : 0 < den) (hp : (num : ℚ) = p * den) :
    IsTenthsOf p (roundDiv (10 * num) den) := by
  have hpos : (0 : ℚ) < den := by exact_mod_cast hd
  have hscaled : ((2 * (10 * num) : Nat) : ℚ) = 20 * p * den := by
    push_cast
    rw [hp]
    ring
  obtain ⟨hup, hdown⟩ := roundDiv_nearest (10 * num) den hd
  have heven := roundDiv_even (10 * num) den hd
  -- All comparisons of natural numbers are multiples of comparisons with the number.
  generalize roundDiv (10 * num) den = t at hup hdown heven ⊢
  have hbelow : 20 * p ≤ 2 * t + 1 := by
    refine le_of_mul_le_mul_right ?_ hpos
    rw [← hscaled]
    exact_mod_cast hup
  have habove : 2 * t ≤ 20 * p + 1 := by
    refine le_of_mul_le_mul_right ?_ hpos
    rw [add_mul, ← hscaled, one_mul]
    exact_mod_cast hdown
  refine ⟨abs_le.2 ⟨by linarith, by linarith⟩, fun hmiddle => heven ?_⟩
  rcases eq_or_eq_neg_of_abs_eq hmiddle with h | h
  · right
    have heq : 2 * (t : ℚ) * den = 20 * p * den + den := by
      rw [show 2 * (t : ℚ) = 20 * p + 1 by linarith]
      ring
    rw [← hscaled] at heq
    exact_mod_cast heq
  · left
    have heq : 20 * p * den = (2 * t + 1) * den := by
      rw [show 20 * p = 2 * (t : ℚ) + 1 by linarith]
    rw [← hscaled] at heq
    exact_mod_cast heq

theorem isTenthsOf_tenths (m : Nat) (e : Int) : IsTenthsOf (m * 2 ^ e) (tenths m e) :=
  isTenthsOf_roundDiv (Datum.den_magnitude_pos m e) (Datum.num_magnitude m e)

theorem isTenthsOf_one : IsTenthsOf 1 10 := by
  constructor <;> norm_num

/-- The order of numbers is that of their tenths. -/
theorem IsTenthsOf.le {p p' : ℚ} {t t' : Nat} (h : IsTenthsOf p t) (h' : IsTenthsOf p' t')
    (hle : p ≤ p') : t ≤ t' := by
  by_contra hlt
  have hsucc : (t' : ℚ) + 1 ≤ t := by exact_mod_cast Nat.lt_of_not_le hlt
  have hnear := (abs_le.1 h.near).2
  have hnear' := (abs_le.1 h'.near).1
  -- Both numbers are in the middle between the same two tenths, and two even tenths are not next
  -- to each other.
  have hmiddle : (t : ℚ) / 10 - p = 1 / 20 := by linarith
  have hmiddle' : (t' : ℚ) / 10 - p' = -(1 / 20) := by linarith
  have heq : (t : ℚ) = t' + 1 := by linarith
  have hnat : t = t' + 1 := by exact_mod_cast heq
  have heven := h.even (by rw [hmiddle]; norm_num)
  have heven' := h'.even (by rw [hmiddle']; norm_num)
  omega

end StaticSite.Number
