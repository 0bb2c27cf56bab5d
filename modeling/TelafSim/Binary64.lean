import Mathlib.Data.Int.Log
import Mathlib.Data.NNRat.Floor
import Mathlib.Algebra.Order.Floor.Semiring
import Mathlib.Tactic

/-!
# Rounding to floats

A number that is not negative, rounded to the nearest float of 53 binary digits, to an even one from
half way. Of a natural number the float is natural: `nearest`. It is monotone, it is the number
itself if and only if that has no more than 53 digits, and from `floatBound` on it is infinite.
-/

namespace TelafSim

/-- Rounded to an integer, to an even one from half way. -/
def roundHalfEven (q : ℚ≥0) : ℕ :=
  let n := ⌊q⌋₊
  if q < n + 1 / 2 ∨ (q = n + 1 / 2 ∧ n % 2 = 0) then n else n + 1

/-- Rounded to 53 binary digits, fewer below `2 ^ (-1022)`; a number of `2 ^ 1024` is infinite. -/
def binary64 (q : ℚ≥0) : WithTop ℚ≥0 :=
  if q = 0 then 0
  else
    let ulp : ℚ≥0 := 2 ^ (max (Int.log 2 q) (-1022) - 52)
    let r := roundHalfEven (q / ulp) * ulp
    if r < 2 ^ 1024 then r else ⊤

/-- The exponent of the last of the 53 binary digits of a natural number. -/
def lastPlace (n : ℕ) : ℕ := Nat.log 2 n - 52

def nearest (n : ℕ) : ℕ := roundHalfEven (n / 2 ^ lastPlace n) * 2 ^ lastPlace n

/-- The number has no more than 53 binary digits, zeros behind them apart. -/
def FitsFloat (n : ℕ) : Prop := ∃ digits e, digits < 2 ^ 53 ∧ n = digits * 2 ^ e

/-- The least natural number that rounds to infinity. -/
def floatBound : ℕ := 2 ^ 1024 - 2 ^ 970

section Rounding

variable {p q : ℚ≥0} {n m : ℕ}

theorem floor_le_roundHalfEven (q : ℚ≥0) : ⌊q⌋₊ ≤ roundHalfEven q := by
  unfold roundHalfEven
  dsimp only
  split
  · exact le_rfl
  · exact Nat.le_succ _

theorem roundHalfEven_le_floor_add_one (q : ℚ≥0) : roundHalfEven q ≤ ⌊q⌋₊ + 1 := by
  unfold roundHalfEven
  dsimp only
  split
  · exact Nat.le_succ _
  · exact le_rfl

@[simp] theorem roundHalfEven_natCast (n : ℕ) : roundHalfEven n = n := by
  have hlt : (n : ℚ≥0) < n + 1 / 2 := lt_add_of_pos_right _ (by norm_num)
  unfold roundHalfEven
  simp only [Nat.floor_natCast, hlt, true_or, if_true]

theorem roundHalfEven_mono (h : p ≤ q) : roundHalfEven p ≤ roundHalfEven q := by
  rcases (Nat.floor_mono h).lt_or_eq with hlt | heq
  · calc roundHalfEven p ≤ ⌊p⌋₊ + 1 := roundHalfEven_le_floor_add_one p
      _ ≤ ⌊q⌋₊ := hlt
      _ ≤ roundHalfEven q := floor_le_roundHalfEven q
  · unfold roundHalfEven
    dsimp only
    rw [heq]
    split
    · split
      · exact le_rfl
      · exact Nat.le_succ _
    · rename_i hup
      rw [not_or, not_lt] at hup
      -- a number that is rounded up is no more than one that is rounded down
      have hnot : ¬ (q < ⌊q⌋₊ + 1 / 2 ∨ (q = ⌊q⌋₊ + 1 / 2 ∧ ⌊q⌋₊ % 2 = 0)) := by
        rintro (hlt | ⟨hhalf, heven⟩)
        · exact absurd (hup.1.trans h) (not_le.mpr hlt)
        · exact hup.2 ⟨le_antisymm (h.trans_eq hhalf) hup.1, heven⟩
      rw [if_neg hnot]

theorem lt_pow_lastPlace (n : ℕ) : n < 2 ^ (53 + lastPlace n) := by
  have hlt : n < 2 ^ (Nat.log 2 n + 1) := Nat.lt_pow_succ_log_self (by decide) n
  refine hlt.trans_le (Nat.pow_le_pow_right (by decide) ?_)
  unfold lastPlace
  omega

theorem fitsFloat_iff : FitsFloat n ↔ 2 ^ lastPlace n ∣ n := by
  constructor
  · rintro ⟨digits, e, hdigits, rfl⟩
    rcases Nat.eq_zero_or_pos digits with rfl | hpos
    · simp
    · have hlog : Nat.log 2 (digits * 2 ^ e) = Nat.log 2 digits + e := by
        induction e with
        | zero => simp
        | succ e ih =>
          rw [pow_succ, ← mul_assoc, Nat.log_mul_base (by decide) (by positivity), ih, add_assoc]
      have hdigit : Nat.log 2 digits < 53 := Nat.log_lt_of_lt_pow hpos.ne' hdigits
      have hle : lastPlace (digits * 2 ^ e) ≤ e := by
        rw [lastPlace, hlog]
        omega
      exact (pow_dvd_pow 2 hle).mul_left digits
  · intro hdvd
    refine ⟨n / 2 ^ lastPlace n, lastPlace n, ?_, (Nat.div_mul_cancel hdvd).symm⟩
    refine Nat.div_lt_of_lt_mul ?_
    rw [← pow_add, add_comm]
    exact lt_pow_lastPlace n

instance (n : ℕ) : Decidable (FitsFloat n) := decidable_of_iff _ fitsFloat_iff.symm

theorem FitsFloat.of_mul (hm : 0 < m) (h : FitsFloat (n * m)) : FitsFloat n := by
  rcases Nat.eq_zero_or_pos n with rfl | hn
  · exact ⟨0, 0, by decide, rfl⟩
  · obtain ⟨digits, e, hdigits, heq⟩ := h
    obtain ⟨k, odd, hodd, rfl⟩ := Nat.exists_eq_two_pow_mul_odd hn.ne'
    have hdvd : odd ∣ digits * 2 ^ e := heq ▸ ⟨2 ^ k * m, by ring⟩
    have hcoprime : Nat.Coprime odd (2 ^ e) := hodd.coprime_two_right.pow_right e
    have hpos : 0 < digits := by
      refine Nat.pos_of_ne_zero ?_
      rintro rfl
      rw [zero_mul] at heq
      exact (Nat.mul_pos hn hm).ne' heq
    have hle : odd ≤ digits := Nat.le_of_dvd hpos (hcoprime.dvd_of_dvd_mul_right hdvd)
    exact ⟨odd, k, hle.trans_lt hdigits, mul_comm _ _⟩

theorem nearest_eq_self_iff : nearest n = n ↔ FitsFloat n := by
  rw [fitsFloat_iff]
  constructor
  · intro h
    exact ⟨_, (h.symm.trans (mul_comm _ _))⟩
  · rintro ⟨c, hc⟩
    have hquot : (n : ℚ≥0) / 2 ^ lastPlace n = (c : ℕ) := by
      rw [div_eq_iff (by positivity)]
      conv_lhs => rw [hc]
      push_cast
      ring
    rw [nearest, hquot, roundHalfEven_natCast, mul_comm]
    exact hc.symm

theorem fitsFloat_nearest (n : ℕ) : FitsFloat (nearest n) := by
  have hle : roundHalfEven (n / 2 ^ lastPlace n) ≤ 2 ^ 53 := by
    rw [← roundHalfEven_natCast (2 ^ 53)]
    refine roundHalfEven_mono ?_
    rw [div_le_iff₀ (by positivity), Nat.cast_pow, Nat.cast_ofNat, ← pow_add]
    exact_mod_cast (lt_pow_lastPlace n).le
  rcases hle.lt_or_eq with hlt | heq
  · exact ⟨_, _, hlt, rfl⟩
  · exact ⟨1, 53 + lastPlace n, by decide, by rw [nearest, heq, one_mul, pow_add]⟩

/-- A power of two no less than the number is no less than its float. -/
theorem nearest_le_pow {e : ℕ} (h : n ≤ 2 ^ e) (he : lastPlace n ≤ e) : nearest n ≤ 2 ^ e := by
  have hsplit : 2 ^ e = 2 ^ (e - lastPlace n) * 2 ^ lastPlace n := by
    rw [← pow_add, Nat.sub_add_cancel he]
  have hquot : (n : ℚ≥0) / 2 ^ lastPlace n ≤ ((2 ^ (e - lastPlace n) : ℕ) : ℚ≥0) := by
    rw [div_le_iff₀ (by positivity)]
    exact_mod_cast h.trans_eq hsplit
  rw [hsplit, nearest]
  refine Nat.mul_le_mul_right _ ?_
  exact (roundHalfEven_mono hquot).trans_eq (roundHalfEven_natCast _)

theorem pow_le_nearest {e : ℕ} (h : 2 ^ e ≤ n) (he : lastPlace n ≤ e) : 2 ^ e ≤ nearest n := by
  have hsplit : 2 ^ e = 2 ^ (e - lastPlace n) * 2 ^ lastPlace n := by
    rw [← pow_add, Nat.sub_add_cancel he]
  have hquot : ((2 ^ (e - lastPlace n) : ℕ) : ℚ≥0) ≤ (n : ℚ≥0) / 2 ^ lastPlace n := by
    rw [le_div_iff₀ (by positivity)]
    exact_mod_cast hsplit.symm.trans_le h
  rw [hsplit, nearest]
  refine Nat.mul_le_mul_right _ ?_
  exact (roundHalfEven_natCast _).symm.trans_le (roundHalfEven_mono hquot)

theorem nearest_mono (h : n ≤ m) : nearest n ≤ nearest m := by
  rcases (Nat.log_mono_right (b := 2) h).lt_or_eq with hlt | heq
  · have hpos : m ≠ 0 := by
      rintro rfl
      simp at hlt
    calc nearest n ≤ 2 ^ (Nat.log 2 n + 1) :=
          nearest_le_pow (Nat.lt_pow_succ_log_self (by decide) n).le (by unfold lastPlace; omega)
      _ ≤ 2 ^ Nat.log 2 m := Nat.pow_le_pow_right (by decide) hlt
      _ ≤ nearest m := pow_le_nearest (Nat.pow_log_le_self 2 hpos) (by unfold lastPlace; omega)
  · have hplace : lastPlace n = lastPlace m := by rw [lastPlace, lastPlace, heq]
    rw [nearest, nearest, hplace]
    refine Nat.mul_le_mul_right _ (roundHalfEven_mono ?_)
    have hcast : (n : ℚ≥0) ≤ m := by exact_mod_cast h
    exact div_le_div_of_nonneg_right hcast (by positivity)

theorem nearest_lt_iff : nearest n < 2 ^ 1024 ↔ n < floatBound := by
  constructor
  · intro h
    by_contra hge
    have hbound : nearest floatBound = 2 ^ 1024 := by decide +kernel
    exact absurd (hbound.symm.trans_le (nearest_mono (not_lt.mp hge))) (not_le.mpr h)
  · intro h
    have hbound : nearest (floatBound - 1) < 2 ^ 1024 := by decide +kernel
    exact (nearest_mono (Nat.le_sub_one_of_lt h)).trans_lt hbound

theorem nearest_lt_floatBound (h : n < floatBound) : nearest n < floatBound := by
  rw [← nearest_lt_iff, nearest_eq_self_iff.mpr (fitsFloat_nearest n)]
  exact nearest_lt_iff.mpr h

theorem binary64_natCast (n : ℕ) :
    binary64 n = if n < floatBound then ((nearest n : ℚ≥0) : WithTop ℚ≥0) else ⊤ := by
  rcases Nat.eq_zero_or_pos n with rfl | hpos
  · have hzero : nearest 0 = 0 := by decide +kernel
    have hbound : 0 < floatBound := by decide +kernel
    simp [binary64, hzero, hbound]
  · have hne : (n : ℚ≥0) ≠ 0 := by exact_mod_cast hpos.ne'
    have hrounded : ∀ e : ℤ, e = max (Nat.log 2 n : ℤ) (-1022) - 52 →
        (roundHalfEven (n / (2 : ℚ≥0) ^ e) : ℚ≥0) * 2 ^ e = nearest n := by
      rintro e rfl
      have hlog : max (Nat.log 2 n : ℤ) (-1022) = Nat.log 2 n := max_eq_left (by omega)
      rw [hlog]
      rcases Nat.lt_or_ge (Nat.log 2 n) 52 with hlt | hge
      · have hfits : nearest n = n := by
          refine nearest_eq_self_iff.mpr (fitsFloat_iff.mpr ?_)
          rw [lastPlace, Nat.sub_eq_zero_of_le hlt.le, pow_zero]
          exact one_dvd n
        have hexponent : (Nat.log 2 n : ℤ) - 52 = -((52 - Nat.log 2 n : ℕ) : ℤ) := by omega
        have hquot : (n : ℚ≥0) / 2 ^ ((Nat.log 2 n : ℤ) - 52) =
            ((n * 2 ^ (52 - Nat.log 2 n) : ℕ) : ℚ≥0) := by
          rw [hexponent, zpow_neg, zpow_natCast, div_inv_eq_mul]
          push_cast
          rfl
        rw [hquot, roundHalfEven_natCast, hfits, hexponent, zpow_neg, zpow_natCast]
        push_cast
        rw [mul_assoc, mul_inv_cancel₀ (by positivity), mul_one]
      · have hexponent : (Nat.log 2 n : ℤ) - 52 = ((lastPlace n : ℕ) : ℤ) := by
          unfold lastPlace
          omega
        rw [hexponent, zpow_natCast, nearest]
        push_cast
        rfl
    have hlt : (nearest n : ℚ≥0) < 2 ^ 1024 ↔ n < floatBound := by
      rw [← nearest_lt_iff]
      exact_mod_cast Iff.rfl
    simp only [binary64, hne, if_false, Int.log_natCast, hrounded _ rfl, hlt]

theorem binary64_ne_top {bound : ℚ≥0} (hone : 1 ≤ bound) (hfar : bound * 4 ≤ 2 ^ 1024)
    (h : q ≤ bound) : binary64 q ≠ ⊤ := by
  rcases eq_or_ne q 0 with rfl | hne
  · simp [binary64]
  · have hbound : ∀ ulp : ℚ≥0, 0 < ulp → ulp ≤ q + 1 →
        (roundHalfEven (q / ulp) : ℚ≥0) * ulp < 2 ^ 1024 := by
      intro ulp hpos hulp
      have hle : (roundHalfEven (q / ulp) : ℚ≥0) ≤ q / ulp + 1 :=
        calc (roundHalfEven (q / ulp) : ℚ≥0) ≤ (⌊q / ulp⌋₊ + 1 : ℕ) := by
              exact_mod_cast roundHalfEven_le_floor_add_one _
          _ ≤ q / ulp + 1 := by
              push_cast
              exact add_le_add_left (Nat.floor_le zero_le) 1
      calc (roundHalfEven (q / ulp) : ℚ≥0) * ulp ≤ (q / ulp + 1) * ulp :=
            mul_le_mul_of_nonneg_right hle hpos.le
        _ = q + ulp := by rw [add_mul, div_mul_cancel₀ _ hpos.ne', one_mul]
        _ ≤ q + (q + 1) := add_le_add_right hulp q
        _ ≤ bound + (bound + bound) := add_le_add h (add_le_add h hone)
        _ < bound + (bound + bound) + bound := lt_add_of_pos_right _ (zero_lt_one.trans_le hone)
        _ = bound * 4 := by ring
        _ ≤ 2 ^ 1024 := hfar
    have hulp : (2 : ℚ≥0) ^ (max (Int.log 2 q) (-1022) - 52) ≤ q + 1 := by
      rcases le_total (Int.log 2 q) (-1022) with hsmall | hlarge
      · rw [max_eq_right hsmall]
        calc (2 : ℚ≥0) ^ ((-1022 : ℤ) - 52) ≤ 2 ^ (0 : ℤ) :=
              zpow_le_zpow_right₀ (by norm_num) (by decide)
          _ = 1 := zpow_zero _
          _ ≤ q + 1 := le_add_of_nonneg_left zero_le
      · rw [max_eq_left hlarge]
        calc (2 : ℚ≥0) ^ (Int.log 2 q - 52) ≤ 2 ^ Int.log 2 q :=
              zpow_le_zpow_right₀ (by norm_num) (by omega)
          _ ≤ q := by exact_mod_cast Int.zpow_log_le_self (by decide) (pos_of_ne_zero hne)
          _ ≤ q + 1 := le_add_of_nonneg_right zero_le_one
    simp only [binary64, hne, if_false, hbound _ (by positivity) hulp, if_true]
    exact WithTop.coe_ne_top

end Rounding

end TelafSim
