import WorkloadEnv.Number.Stepwise
import Mathlib.Algebra.Order.Field.Power
import Mathlib.Data.Rat.Cast.Order
import Mathlib.Tactic.GCongr
import Mathlib.Tactic.Linarith
import Mathlib.Tactic.Positivity
import Mathlib.Tactic.Ring

/-! # Numbers that stay finite

    A quotient that is not above the largest finite double is rounded to a finite
    one (`isFinite_ofQuotient`): its last place is at most that of the largest
    double, and there the rounded significand does not grow to another digit.
    Dividing a finite double by a number that is at least one therefore gives a
    finite double, so scaling by a power of ten gives one if it gives any
    (`isFinite_of_scale?`). -/

namespace WorkloadEnv.Double

variable {num den n d k m : Nat} {q : Int} {negative : Bool} {x y : Double}

/-! ## The fields of a double -/

theorem isFinite_ofFields {e f : Nat} (he : e < 2047) (hf : f < pow2 52) :
    (ofFields negative e f).isFinite = true := by
  have h52 : pow2 52 = 4503599627370496 := rfl
  have h63 : pow2 63 = 9223372036854775808 := rfl
  have h11 : pow2 11 = 2048 := rfl
  rw [h52] at hf
  -- the three fields stand side by side in the bits
  have hbits : (ofFields negative e f).bits.toNat =
      (if negative then 9223372036854775808 else 0) + e * 4503599627370496 + f := by
    unfold ofFields
    rw [UInt64.toNat_ofNat_of_lt', h52, h63]
    show _ < 2 ^ 64
    rw [h52, h63]
    split <;> omega
  rw [isFinite, exponentField, hbits, h52, h11]
  simp only [decide_eq_true_eq]
  split <;> omega

/-- The double of a rounded significand and the exponent of its last place. -/
def ofRounded (negative : Bool) (m : Nat) (q : Int) : Double :=
  let (m, q) := if m = pow2 53 then (pow2 52, q + 1) else (m, q)
  if m < pow2 52 then ofFields negative 0 m
  else if 971 < q then infinity negative
  else ofFields negative (q + 1075).toNat (m - pow2 52)

theorem isFinite_ofRounded (hm : m ≤ pow2 53) (hlow : -1074 ≤ q) (hhigh : q ≤ 971)
    (hlast : q = 971 → m < pow2 53) : (ofRounded negative m q).isFinite = true := by
  have h53 : pow2 53 = 2 * pow2 52 := rfl
  have h52 : 0 < pow2 52 := by decide
  unfold ofRounded
  by_cases hcarry : m = pow2 53
  · -- the significand has grown by a digit, which the last exponent has no room for
    rw [if_pos hcarry]
    dsimp only
    rw [if_neg (by omega), if_neg (by omega)]
    exact isFinite_ofFields (by omega) (by omega)
  · rw [if_neg hcarry]
    dsimp only
    split
    · next hsmall => exact isFinite_ofFields (by omega) hsmall
    · rw [if_neg (by omega)]
      exact isFinite_ofFields (by omega) (by omega)

/-! ## Rounding -/

theorem roundQuotient_le (hd : 0 < d) (h : n ≤ k * d) : roundQuotient n d ≤ k := by
  have hfloor : n / d ≤ k := Nat.div_le_of_le_mul (by rwa [Nat.mul_comm] at h)
  have hsplit := Nat.div_add_mod n d
  have hparity := Nat.mod_lt (n / d) (show 0 < 2 by omega)
  unfold roundQuotient
  dsimp only
  rcases Nat.lt_or_eq_of_le hfloor with hlt | heq
  · -- below the bound there is room to round up
    split
    · omega
    · split <;> omega
  · -- at the bound the quotient is exact
    have hexact : n % d = 0 := by
      rw [heq] at hsplit
      rw [Nat.mul_comm] at h
      omega
    rw [if_pos (by omega)]
    exact hfloor

theorem scaleDown_pos (hden : 0 < den) (num : Nat) (q : Int) : 0 < (scaleDown num den q).2 := by
  unfold scaleDown
  split
  · exact Nat.mul_pos hden (Nat.pow_pos (by omega))
  · exact hden

theorem scaleDown_div (num den : Nat) (q : Int) :
    ((scaleDown num den q).1 : ℚ) / (scaleDown num den q).2 = num / den / 2 ^ q := by
  unfold scaleDown pow2
  split
  · next h =>
    lift q to Nat using h
    simp [div_div]
  · next h =>
    obtain ⟨k, rfl⟩ : ∃ k : Nat, q = -k := ⟨(-q).toNat, by omega⟩
    simp [div_eq_mul_inv]
    ring

theorem scaleDown_le_iff (hden : 0 < den) :
    (scaleDown num den q).1 ≤ k * (scaleDown num den q).2 ↔ (num : ℚ) / den / 2 ^ q ≤ k := by
  have hpos : (0 : ℚ) < (scaleDown num den q).2 := by exact_mod_cast scaleDown_pos hden num q
  rw [← scaleDown_div, div_le_iff₀ hpos]
  exact_mod_cast Iff.rfl

theorem le_scaleDown_iff (hden : 0 < den) :
    k ≤ (scaleDown num den q).1 / (scaleDown num den q).2 ↔ (k : ℚ) ≤ (num : ℚ) / den / 2 ^ q := by
  have hpos := scaleDown_pos hden num q
  have hpos' : (0 : ℚ) < (scaleDown num den q).2 := by exact_mod_cast hpos
  rw [← scaleDown_div, Nat.le_div_iff_mul_le hpos, le_div_iff₀ hpos']
  exact_mod_cast Iff.rfl

/-! ## The last place -/

theorem cast_pow2 (k : Nat) : ((pow2 k : Nat) : ℚ) = 2 ^ (k : Int) := by
  rw [zpow_natCast]
  exact Nat.cast_pow 2 k

theorem two_zpow_mul (e e' : Int) : (2 : ℚ) ^ e * 2 ^ e' = 2 ^ (e + e') :=
  (zpow_add₀ (by norm_num) e e').symm

/-- The lengths of numerator and denominator tell the quotient up to a factor of two. -/
theorem div_mem_binade (hnum : 0 < num) (hden : 0 < den) :
    (2 : ℚ) ^ ((Nat.log2 num : Int) - (Nat.log2 den : Int) - 1) ≤ num / den ∧
      (num : ℚ) / den < 2 ^ ((Nat.log2 num : Int) - (Nat.log2 den : Int) + 1) := by
  have hnumLow : (2 : ℚ) ^ (Nat.log2 num : Int) ≤ num := by
    exact_mod_cast Nat.log2_self_le (by omega)
  have hnumHigh : (num : ℚ) < 2 ^ ((Nat.log2 num : Int) + 1) := by
    exact_mod_cast Nat.lt_log2_self
  have hdenLow : (2 : ℚ) ^ (Nat.log2 den : Int) ≤ den := by
    exact_mod_cast Nat.log2_self_le (by omega)
  have hdenHigh : (den : ℚ) < 2 ^ ((Nat.log2 den : Int) + 1) := by
    exact_mod_cast Nat.lt_log2_self
  have hpos : (0 : ℚ) < den := by exact_mod_cast hden
  generalize (Nat.log2 num : Int) = a at *
  generalize (Nat.log2 den : Int) = b at *
  constructor
  · rw [le_div_iff₀ hpos]
    calc (2 : ℚ) ^ (a - b - 1) * den ≤ 2 ^ (a - b - 1) * 2 ^ (b + 1) := by gcongr
      _ = 2 ^ a := by rw [two_zpow_mul]; congr 1; omega
      _ ≤ num := hnumLow
  · rw [div_lt_iff₀ hpos]
    calc (num : ℚ) < 2 ^ (a + 1) := hnumHigh
      _ = 2 ^ (a - b + 1) * 2 ^ b := by rw [two_zpow_mul]; congr 1; omega
      _ ≤ 2 ^ (a - b + 1) * den := by gcongr

/-- The last place is the one at which the quotient has 53 binary places, or the
    smallest there is. -/
theorem exists_lastPlace (hnum : 0 < num) (hden : 0 < den) :
    ∃ p : Int, lastPlace num den = max p (-1074) ∧
      2 ^ (p + 52) ≤ (num : ℚ) / den ∧ (num : ℚ) / den < 2 ^ (p + 53) := by
  obtain ⟨hlower, hupper⟩ := div_mem_binade hnum hden
  unfold lastPlace
  generalize (Nat.log2 num : Int) - (Nat.log2 den : Int) = e at hupper hlower ⊢
  -- the guess is one too small exactly if the quotient reaches the power in the middle
  have hguess : pow2 53 ≤ (scaleDown num den (e - 53)).1 / (scaleDown num den (e - 53)).2 ↔
      2 ^ e ≤ (num : ℚ) / den := by
    have hscale : (0 : ℚ) < 2 ^ (e - 53) := by positivity
    rw [le_scaleDown_iff hden, le_div_iff₀ hscale, cast_pow2, two_zpow_mul,
      show (53 : Nat) + (e - 53) = e by omega]
  by_cases hlarge : (2 : ℚ) ^ e ≤ (num : ℚ) / den
  · refine ⟨e - 53 + 1, congrArg (max · (-1074)) (if_pos (hguess.mpr hlarge)), ?_, ?_⟩
    · rwa [show e - 53 + 1 + 52 = e by omega]
    · rwa [show e - 53 + 1 + 53 = e + 1 by omega]
  · refine ⟨e - 53, congrArg (max · (-1074)) (if_neg fun h => hlarge (hguess.mp h)), ?_, ?_⟩
    · rwa [show e - 53 + 52 = e - 1 by omega]
    · rw [show e - 53 + 53 = e by omega]
      exact not_le.mp hlarge

/-! ## Quotients -/

/-- The largest number that is finite. -/
def largest : ℚ := (2 ^ (53 : Int) - 1) * 2 ^ (971 : Int)

theorem largest_lt : largest < 2 ^ (1024 : Int) := by
  have hpow : (2 : ℚ) ^ (1024 : Int) = 2 ^ (53 : Int) * 2 ^ (971 : Int) := by
    rw [two_zpow_mul]
    rfl
  have hpos : (0 : ℚ) < 2 ^ (971 : Int) := by positivity
  rw [hpow, largest]
  exact mul_lt_mul_of_pos_right (sub_one_lt _) hpos

/-- **A quotient that is not too large is rounded to a finite double.** -/
theorem isFinite_ofQuotient (hden : 0 < den) (h : (num : ℚ) / den ≤ largest) :
    (ofQuotient negative num den).isFinite = true := by
  by_cases hnum : num = 0
  · rw [ofQuotient, if_pos hnum]
    exact isFinite_ofFields (by omega) (by decide)
  · obtain ⟨p, hp, hlower, hupper⟩ := exists_lastPlace (Nat.pos_of_ne_zero hnum) hden
    have hrounded : ofQuotient negative num den =
        ofRounded negative (roundQuotient (scaleDown num den (lastPlace num den)).1
          (scaleDown num den (lastPlace num den)).2) (lastPlace num den) := if_neg hnum
    -- with a larger place the quotient would be too large
    have hplace : p ≤ 971 := by
      by_contra hlarge
      have hmono : (2 : ℚ) ^ (1024 : Int) ≤ 2 ^ (p + 52) :=
        zpow_le_zpow_right₀ (by norm_num) (by omega)
      linarith [largest_lt]
    rw [hrounded]
    generalize lastPlace num den = q at hp ⊢
    have hpos := scaleDown_pos hden num q
    have hscale : (0 : ℚ) < 2 ^ q := by positivity
    refine isFinite_ofRounded ?_ (by omega) (by omega) fun hlast => ?_
    · refine roundQuotient_le hpos ((scaleDown_le_iff hden).mpr ?_)
      have hmono : (2 : ℚ) ^ (p + 53) ≤ 2 ^ ((53 : Nat) + q) :=
        zpow_le_zpow_right₀ (by norm_num) (by omega)
      rw [div_le_iff₀ hscale, cast_pow2, two_zpow_mul]
      exact hupper.le.trans hmono
    · have hpow : 0 < pow2 53 := by decide
      have hbound : roundQuotient (scaleDown num den q).1 (scaleDown num den q).2 ≤
          pow2 53 - 1 := by
        refine roundQuotient_le hpos ((scaleDown_le_iff hden).mpr ?_)
        rw [div_le_iff₀ hscale, Nat.cast_pred hpow, cast_pow2, hlast]
        exact h
      omega

/-- In particular, an integer of 64 bits is. -/
theorem isFinite_ofQuotient_one (h : n < pow2 64) : (ofQuotient negative n 1).isFinite = true := by
  refine isFinite_ofQuotient (by omega) ?_
  have hn : (n : ℚ) ≤ (pow2 64 : Nat) := by exact_mod_cast h.le
  rw [cast_pow2] at hn
  rw [Nat.cast_one, div_one]
  calc (n : ℚ) ≤ 2 ^ ((64 : Nat) : Int) := hn
    _ ≤ 2 ^ (971 : Int) := zpow_le_zpow_right₀ (by norm_num) (by omega)
    _ ≤ largest := le_mul_of_one_le_left (by positivity) (by norm_num)

/-! ## Scaling -/

/-- The magnitude of a double, if it is finite. -/
def magnitude (x : Double) : ℚ := x.quotient.1 / x.quotient.2

theorem quotient_pos (x : Double) : 0 < x.quotient.2 := Nat.pow_pos (by omega)

theorem magnitude_eq (x : Double) : x.magnitude = x.significand * 2 ^ x.exponent := by
  have hquotient : ((x.significand * pow2 x.exponent.toNat : Nat) : ℚ) /
      (pow2 (-x.exponent).toNat : Nat) = x.significand * 2 ^ x.exponent := by
    generalize x.exponent = e
    rcases Int.le_total 0 e with h | h
    · lift e to Nat using h
      simp [pow2]
    · obtain ⟨k, rfl⟩ : ∃ k : Nat, e = -k := ⟨(-e).toNat, by omega⟩
      simp [pow2, div_eq_mul_inv]
  exact hquotient

theorem magnitude_le (hx : x.isFinite = true) : x.magnitude ≤ largest := by
  have hfield : x.exponentField < 2047 := by simpa [isFinite] using hx
  have hfraction : x.fraction < pow2 52 := Nat.mod_lt _ (by decide)
  have hexponent : x.exponent ≤ 971 := by
    unfold exponent
    omega
  have hsignificand : x.significand + 1 ≤ pow2 53 := by
    have h53 : pow2 53 = 2 * pow2 52 := rfl
    unfold significand
    split <;> omega
  have hcast : (x.significand : ℚ) ≤ 2 ^ (53 : Int) - 1 := by
    have hle : ((x.significand + 1 : Nat) : ℚ) ≤ (pow2 53 : Nat) := by exact_mod_cast hsignificand
    rw [cast_pow2, Nat.cast_succ] at hle
    exact le_sub_iff_add_le.mpr hle
  rw [magnitude_eq, largest]
  have hpow : (2 : ℚ) ^ x.exponent ≤ 2 ^ (971 : Int) := zpow_le_zpow_right₀ (by norm_num) hexponent
  exact mul_le_mul hcast hpow (by positivity) (by norm_num)

/-- Dividing by a number that is at least one makes no number larger. -/
theorem isFinite_div (hx : x.isFinite = true) (hy : y.quotient.2 ≤ y.quotient.1) :
    (x.div y).isFinite = true := by
  have hx2 : (0 : ℚ) < x.quotient.2 := by exact_mod_cast x.quotient_pos
  have hy2 : (0 : ℚ) < y.quotient.2 := by exact_mod_cast y.quotient_pos
  have hy1 : (y.quotient.2 : ℚ) ≤ y.quotient.1 := by exact_mod_cast hy
  have hden : 0 < x.quotient.2 * y.quotient.1 :=
    Nat.mul_pos x.quotient_pos (Nat.lt_of_lt_of_le y.quotient_pos hy)
  refine isFinite_ofQuotient hden (le_trans ?_ (magnitude_le hx))
  rw [magnitude, Nat.cast_mul, Nat.cast_mul, mul_div_mul_comm]
  refine mul_le_of_le_one_right (by positivity) ?_
  rw [div_le_one (lt_of_lt_of_le hy2 hy1)]
  exact hy1

theorem one_le_power10 : ∀ n ≤ largestPower, (power10 n).quotient.2 ≤ (power10 n).quotient.1 := by
  decide +kernel

/-- **Scaled by a power of ten, a finite double is finite or too large.** -/
theorem isFinite_of_scale? {e : Int} (hx : x.isFinite = true) (h : x.scale? e = some y) :
    y.isFinite = true := by
  fun_induction scale? x e with
  | case1 x e hsmall hneg =>
    cases h
    exact isFinite_div hx (one_le_power10 _ hsmall)
  | case2 x e hsmall hneg z hfinite =>
    rw [← Option.some.inj h]
    exact hfinite
  | case3 => cases h
  | case4 =>
    cases h
    exact hx
  | case5 => cases h
  | case6 x e hlarge hzero hneg ih => exact ih (isFinite_div hx (one_le_power10 _ le_rfl)) h

end WorkloadEnv.Double
