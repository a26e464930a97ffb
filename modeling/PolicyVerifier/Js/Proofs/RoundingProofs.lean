import Mathlib.Tactic.Linarith
import Mathlib.Tactic.NormNum
import Mathlib.Tactic.Positivity
import Mathlib.Tactic.Ring
import PolicyVerifier.Js.Rounding

/-!
# What rounding keeps

Rounding keeps the order of numbers, and halving and doubling commute with it, so a number between two doubles is
rounded to one between them.
-/

namespace Js

/-! ## The nearest integer -/

theorem roundHalfEven_le {q : ℚ} {n : ℤ} (h : q ≤ n) : roundHalfEven q ≤ n := by
  have hfloor : ⌊q⌋ ≤ n := Int.floor_le_iff.2 (h.trans_lt (lt_add_one _))
  rcases hfloor.eq_or_lt with heq | hlt
  · have hq : q = n := le_antisymm h (heq ▸ Int.floor_le q)
    rw [roundHalfEven, heq, hq, sub_self, if_pos (by norm_num)]
  · unfold roundHalfEven
    split_ifs <;> omega

theorem le_roundHalfEven {q : ℚ} {n : ℤ} (h : (n : ℚ) ≤ q) : n ≤ roundHalfEven q := by
  have hfloor : n ≤ ⌊q⌋ := Int.le_floor.2 h
  unfold roundHalfEven
  split_ifs <;> omega

theorem roundHalfEven_intCast (n : ℤ) : roundHalfEven n = n :=
  le_antisymm (roundHalfEven_le le_rfl) (le_roundHalfEven le_rfl)

theorem roundHalfEven_mono {p q : ℚ} (h : p ≤ q) : roundHalfEven p ≤ roundHalfEven q := by
  rcases (Int.floor_le_floor h).eq_or_lt with heq | hlt
  · -- between the same two integers, the nearer side is the only question
    have hsub : p - ⌊q⌋ ≤ q - ⌊q⌋ := by linarith
    unfold roundHalfEven
    rw [heq]
    split_ifs <;> first | omega | linarith
  · have hp : p ≤ ((⌊p⌋ + 1 : ℤ) : ℚ) := by
      push_cast
      exact (Int.lt_floor_add_one p).le
    calc roundHalfEven p ≤ ⌊p⌋ + 1 := roundHalfEven_le hp
      _ ≤ ⌊q⌋ := hlt
      _ ≤ roundHalfEven q := le_roundHalfEven (Int.floor_le q)

/-! ## The nearest double of a number that is not negative -/

theorem two_zpow_pos (e : ℤ) : (0 : ℚ) < 2 ^ e := zpow_pos two_pos e

theorem lastBit_mono {p q : ℚ} (hp : 0 < p) (h : p ≤ q) : lastBit p ≤ lastBit q := by
  have hlog : Int.log 2 p ≤ Int.log 2 q := Int.log_mono_right hp h
  unfold lastBit
  omega

/-- A multiple of the last bit bounds what a number is rounded to, as it bounds the number. -/
theorem toDouble_le_of_le {q : ℚ} {n : ℤ} (h : q ≤ n * 2 ^ lastBit q) : toDouble q ≤ n * 2 ^ lastBit q := by
  have hn : roundHalfEven (q / 2 ^ lastBit q) ≤ n := roundHalfEven_le ((div_le_iff₀ (two_zpow_pos _)).2 h)
  exact mul_le_mul_of_nonneg_right (Int.cast_le.2 hn) (two_zpow_pos _).le

theorem le_toDouble_of_le {q : ℚ} {n : ℤ} (h : n * 2 ^ lastBit q ≤ q) : n * 2 ^ lastBit q ≤ toDouble q := by
  have hn : n ≤ roundHalfEven (q / 2 ^ lastBit q) := le_roundHalfEven ((le_div_iff₀ (two_zpow_pos _)).2 h)
  exact mul_le_mul_of_nonneg_right (Int.cast_le.2 hn) (two_zpow_pos _).le

theorem toDouble_zero : toDouble 0 = 0 := by
  have hzero : roundHalfEven (0 / 2 ^ lastBit 0) = 0 := by
    rw [zero_div]
    exact roundHalfEven_intCast 0
  rw [toDouble, hzero, Int.cast_zero, zero_mul]

/-- A power of two that is a multiple of the last bit. -/
theorem zpow_eq_mul {e bit : ℤ} (h : bit ≤ e) : (2 : ℚ) ^ e = ((2 ^ (e - bit).toNat : ℤ) : ℚ) * 2 ^ bit := by
  have hcast : ((2 ^ (e - bit).toNat : ℤ) : ℚ) = 2 ^ (e - bit) := by
    rw [Int.cast_pow, Int.cast_ofNat, ← zpow_natCast, Int.toNat_of_nonneg (by omega)]
  rw [hcast, ← zpow_add₀ two_ne_zero, sub_add_cancel]

theorem toDouble_mono {p q : ℚ} (hp : 0 ≤ p) (h : p ≤ q) : toDouble p ≤ toDouble q := by
  rcases hp.eq_or_lt with rfl | hpos
  · rw [toDouble_zero]
    have hzero := le_toDouble_of_le (q := q) (n := 0) (by rw [Int.cast_zero, zero_mul]; exact h)
    rwa [Int.cast_zero, zero_mul] at hzero
  have hq : 0 < q := hpos.trans_le h
  rcases (lastBit_mono hpos h).eq_or_lt with hbit | hbit
  · unfold toDouble
    rw [hbit]
    refine mul_le_mul_of_nonneg_right (Int.cast_le.2 (roundHalfEven_mono ?_)) (two_zpow_pos _).le
    exact div_le_div_of_nonneg_right h (two_zpow_pos _).le
  · -- the power of two between them is a multiple of either's last bit
    have hlast : lastBit q = Int.log 2 q - 52 ∧ lastBit p < Int.log 2 q ∧ Int.log 2 p < Int.log 2 q := by
      unfold lastBit at hbit ⊢
      omega
    obtain ⟨hlastq, hlastp, hlog⟩ := hlast
    have hbelow : p ≤ (2 : ℚ) ^ Int.log 2 q := by
      have hsucc := Int.lt_zpow_succ_log_self (b := 2) (by norm_num) p
      refine hsucc.le.trans ?_
      exact zpow_le_zpow_right₀ (by norm_num) hlog
    have habove : (2 : ℚ) ^ Int.log 2 q ≤ q := by
      exact_mod_cast Int.zpow_log_le_self (b := 2) (by norm_num) hq
    calc toDouble p ≤ (2 : ℚ) ^ Int.log 2 q := by
          rw [zpow_eq_mul hlastp.le] at hbelow ⊢
          exact toDouble_le_of_le hbelow
      _ ≤ toDouble q := by
          rw [zpow_eq_mul (show lastBit q ≤ Int.log 2 q by omega)] at habove ⊢
          exact le_toDouble_of_le habove

/-- A multiple of its own last bit is left as it is. -/
theorem toDouble_of_multiple {q : ℚ} {n : ℤ} (h : q = n * 2 ^ lastBit q) : toDouble q = q :=
  le_antisymm ((toDouble_le_of_le h.le).trans_eq h.symm) (h.le.trans (le_toDouble_of_le h.symm.le))

/-- A number that holds no bit below the last one of another, and is not of a greater size, is a double. -/
theorem toDouble_of_lastBit {q : ℚ} {n bit : ℤ} (h : q = n * 2 ^ bit) (hbit : lastBit q ≤ bit) : toDouble q = q := by
  refine toDouble_of_multiple (n := n * 2 ^ (bit - lastBit q).toNat) ?_
  rw [Int.cast_mul, mul_assoc, ← zpow_eq_mul hbit]
  exact h

/-- What a number was rounded to is not rounded again. -/
theorem toDouble_toDouble {q : ℚ} (h : 0 ≤ q) : toDouble (toDouble q) = toDouble q := by
  have hleast : 0 ≤ toDouble q := toDouble_zero.symm.trans_le (toDouble_mono le_rfl h)
  rcases hleast.eq_or_lt with hzero | hpos
  · rw [← hzero, toDouble_zero]
  -- rounding does not go past the next power of two that is a multiple of the last bit
  obtain ⟨e, he⟩ : ∃ e, e = max (Int.log 2 q + 1) (lastBit q) := ⟨_, rfl⟩
  have hbit : lastBit q ≤ e := by omega
  have hmost : toDouble q ≤ 2 ^ e := by
    have hbelow : q ≤ (2 : ℚ) ^ e :=
      (Int.lt_zpow_succ_log_self (b := 2) (by norm_num) q).le.trans
        (zpow_le_zpow_right₀ (by norm_num) (by omega))
    rw [zpow_eq_mul hbit] at hbelow ⊢
    exact toDouble_le_of_le hbelow
  rcases hmost.eq_or_lt with heq | hlt
  · have hmultiple : toDouble q = ((1 : ℤ) : ℚ) * 2 ^ e := by rw [Int.cast_one, one_mul, heq]
    refine toDouble_of_lastBit hmultiple ?_
    have hlog : Int.log 2 ((2 : ℚ) ^ e) = e := by exact_mod_cast Int.log_zpow (R := ℚ) (b := 2) (by norm_num) e
    rw [heq]
    unfold lastBit at hbit ⊢
    omega
  · refine toDouble_of_lastBit (q := toDouble q) rfl ?_
    have hlog : Int.log 2 (toDouble q) < e := by
      refine (Int.lt_zpow_iff_log_lt (b := 2) (by norm_num) hpos).1 ?_
      exact_mod_cast hlt
    unfold lastBit at he ⊢
    omega

theorem log_mul_two {q : ℚ} (h : 0 < q) : Int.log 2 (q * 2) = Int.log 2 q + 1 := by
  have hlow := Int.zpow_log_le_self (b := 2) (by norm_num) h
  have hhigh := Int.lt_zpow_succ_log_self (b := 2) (by norm_num) q
  have hle : Int.log 2 q + 1 ≤ Int.log 2 (q * 2) := by
    refine (Int.zpow_le_iff_le_log (by norm_num) (by positivity)).1 ?_
    rw [zpow_add_one₀ (by norm_num)]
    push_cast at hlow ⊢
    linarith
  have hlt : Int.log 2 (q * 2) < Int.log 2 q + 1 + 1 := by
    refine (Int.lt_zpow_iff_log_lt (by norm_num) (by positivity)).1 ?_
    rw [zpow_add_one₀ (by norm_num)]
    push_cast at hhigh ⊢
    linarith
  omega

/-- Doubling a number that is not too small for it is exact. -/
theorem toDouble_mul_two {q : ℚ} (h : 1 / 2 ≤ q) : toDouble (q * 2) = toDouble q * 2 := by
  have hpos : 0 < q := by linarith
  have hlog : -1 ≤ Int.log 2 q := by
    refine (Int.zpow_le_iff_le_log (by norm_num) hpos).1 ?_
    norm_num
    linarith
  have hbit : lastBit (q * 2) = lastBit q + 1 := by
    unfold lastBit
    rw [log_mul_two hpos]
    omega
  unfold toDouble
  rw [hbit, zpow_add_one₀ two_ne_zero, mul_div_mul_right _ _ two_ne_zero]
  ring

/-! ## Doubles -/

theorem isDouble_zero : IsDouble 0 := by
  rw [IsDouble, nearestDouble, if_neg (lt_irrefl 0), toDouble_zero]

theorem nearestDouble_of_nonneg {q : ℚ} (h : 0 ≤ q) : nearestDouble q = toDouble q := if_neg (not_lt.2 h)

theorem nearestDouble_mono {p q : ℚ} (hp : 0 ≤ p) (h : p ≤ q) : nearestDouble p ≤ nearestDouble q := by
  rw [nearestDouble_of_nonneg hp, nearestDouble_of_nonneg (hp.trans h)]
  exact toDouble_mono hp h

theorem nearestDouble_isDouble {q : ℚ} (h : 0 ≤ q) : IsDouble (nearestDouble q) := by
  have hzero : 0 ≤ toDouble q := toDouble_zero.symm.trans_le (toDouble_mono le_rfl h)
  rw [IsDouble, nearestDouble_of_nonneg h, nearestDouble_of_nonneg hzero, toDouble_toDouble h]

/-- A double that bounds a number bounds what it is rounded to. -/
theorem IsDouble.nearest_le {p q : ℚ} (hq : IsDouble q) (hp : 0 ≤ p) (h : p ≤ q) : nearestDouble p ≤ q :=
  (nearestDouble_mono hp h).trans_eq hq

theorem IsDouble.le_nearest {p q : ℚ} (hp : IsDouble p) (hnonneg : 0 ≤ p) (h : p ≤ q) : p ≤ nearestDouble q :=
  hp.symm.trans_le (nearestDouble_mono hnonneg h)

theorem isDouble_mul_two_iff {q : ℚ} (h : 1 / 2 ≤ q) : IsDouble (q * 2) ↔ IsDouble q := by
  unfold IsDouble
  rw [nearestDouble_of_nonneg (by linarith), nearestDouble_of_nonneg (by linarith), toDouble_mul_two h]
  exact mul_left_inj' two_ne_zero

theorem IsDouble.half {q : ℚ} (hq : IsDouble q) (h : 1 ≤ q) : IsDouble (q / 2) := by
  refine (isDouble_mul_two_iff (by linarith)).1 ?_
  rwa [div_mul_cancel₀ q two_ne_zero]

theorem IsDouble.mul_two_pow {q : ℚ} (hq : IsDouble q) (h : 1 ≤ q) (k : ℕ) : IsDouble (q * 2 ^ k) := by
  induction k with
  | zero => simpa using hq
  | succ k ih =>
    have hpow : (1 : ℚ) ≤ 2 ^ k := one_le_pow₀ one_le_two
    rw [pow_succ, ← mul_assoc]
    exact (isDouble_mul_two_iff (by nlinarith)).2 ih

theorem IsDouble.min {p q : ℚ} (hp : IsDouble p) (hq : IsDouble q) : IsDouble (Min.min p q) := by
  rcases min_choice p q with h | h
  · rwa [h]
  · rwa [h]

end Js
