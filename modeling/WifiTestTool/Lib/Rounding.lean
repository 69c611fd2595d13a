import Mathlib.Algebra.Order.Field.Power
import Mathlib.Data.Int.Log
import Mathlib.Data.Rat.Floor
import Mathlib.Tactic.Linarith
import Mathlib.Tactic.NormNum
import Mathlib.Tactic.Positivity

/-!
# Rounding

The integer nearest to a rational number, ties to the even one, and from it the binary floating-point
number with a given precision and a least exponent. There is no greatest exponent: a number that is too
large for a format is not looked at here.
-/

namespace Rounding

/-- The integer nearest to `q`; of two, the even one. -/
def nearest (q : ℚ) : ℤ :=
  if q - ⌊q⌋ < 1 / 2 ∨ q - ⌊q⌋ = 1 / 2 ∧ ⌊q⌋ % 2 = 0 then ⌊q⌋ else ⌊q⌋ + 1

theorem nearest_cases (q : ℚ) :
    (nearest q = ⌊q⌋ ∧ q - ⌊q⌋ ≤ 1 / 2) ∨ (nearest q = ⌊q⌋ + 1 ∧ 1 / 2 ≤ q - ⌊q⌋) := by
  unfold nearest
  split
  · rename_i h
    left
    refine ⟨rfl, ?_⟩
    rcases h with hlt | ⟨heq, -⟩
    · exact hlt.le
    · exact heq.le
  · rename_i h
    right
    push Not at h
    exact ⟨rfl, h.1⟩

theorem nearest_le (q : ℚ) : nearest q ≤ q + 1 / 2 := by
  have hfloor := Int.floor_le q
  rcases nearest_cases q with ⟨h, -⟩ | ⟨h, hge⟩
  · rw [h]
    linarith
  · rw [h]
    push_cast
    linarith

theorem le_nearest (q : ℚ) : q - 1 / 2 ≤ nearest q := by
  have hfloor := Int.lt_floor_add_one q
  rcases nearest_cases q with ⟨h, hle⟩ | ⟨h, -⟩
  · rw [h]
    linarith
  · rw [h]
    push_cast
    linarith

theorem nearest_intCast (n : ℤ) : nearest n = n := by
  unfold nearest
  rw [Int.floor_intCast, sub_self, if_pos (.inl (by norm_num))]

theorem nearest_mono {x y : ℚ} (h : x ≤ y) : nearest x ≤ nearest y := by
  have hfloor := Int.floor_le_floor h
  by_cases hlt : ⌊x⌋ < ⌊y⌋
  · -- At most the next integer on the left, at least the integer on the right.
    have hx : nearest x ≤ ⌊x⌋ + 1 := by
      rcases nearest_cases x with ⟨h, -⟩ | ⟨h, -⟩ <;> omega
    have hy : ⌊y⌋ ≤ nearest y := by
      rcases nearest_cases y with ⟨h, -⟩ | ⟨h, -⟩ <;> omega
    omega
  · have heq : ⌊x⌋ = ⌊y⌋ := by omega
    unfold nearest
    rw [heq]
    split
    · split <;> omega
    · rename_i hx
      rw [if_neg]
      intro hy
      apply hx
      rcases hy with hy | ⟨hy, heven⟩
      · left
        linarith
      · by_cases hxy : x = y
        · rw [hxy]
          exact .inr ⟨hy, heven⟩
        · left
          have := lt_of_le_of_ne h hxy
          linarith

theorem nearest_nonneg {q : ℚ} (h : 0 ≤ q) : 0 ≤ nearest q := by
  have := nearest_mono h
  rwa [← Int.cast_zero, nearest_intCast] at this

theorem nearest_neg (q : ℚ) : nearest (-q) = -nearest q := by
  have hlow := Int.floor_le q
  have hhigh := Int.lt_floor_add_one q
  by_cases hint : q = ⌊q⌋
  · rw [hint, ← Int.cast_neg, nearest_intCast, nearest_intCast]
  · have hlt : (⌊q⌋ : ℚ) < q := lt_of_le_of_ne hlow (Ne.symm hint)
    have hfloor : ⌊-q⌋ = -⌊q⌋ - 1 := by
      rw [Int.floor_eq_iff]
      push_cast
      constructor <;> linarith
    have hpart : -q - ⌊-q⌋ = 1 - (q - ⌊q⌋) := by
      rw [hfloor]
      push_cast
      ring
    unfold nearest
    rw [hpart, hfloor]
    generalize q - ⌊q⌋ = d
    rcases lt_trichotomy d (1 / 2) with hd | rfl | hd
    · rw [if_neg (by rintro (h | ⟨h, -⟩) <;> linarith), if_pos (.inl hd)]
      ring
    · have hhalf : (1 - 1 / 2 : ℚ) = 1 / 2 := by norm_num
      rw [hhalf]
      -- One of the two integers is even.
      by_cases heven : ⌊q⌋ % 2 = 0
      · have hodd : ¬ (-⌊q⌋ - 1) % 2 = 0 := by omega
        rw [if_neg (by simp [hodd]), if_pos (.inr ⟨rfl, heven⟩)]
        ring
      · have heven' : (-⌊q⌋ - 1) % 2 = 0 := by omega
        rw [if_pos (.inr ⟨rfl, heven'⟩), if_neg (by simp [heven])]
        ring
    · rw [if_pos (.inl (by linarith)), if_neg (by rintro (h | ⟨h, -⟩) <;> linarith)]
      ring

/-- The unit in the last place of the floating-point numbers near `q`. -/
def ulp (precision : ℕ) (least : ℤ) (q : ℚ) : ℚ := 2 ^ (max (Int.log 2 |q|) least - (precision - 1 : ℤ))

/-- The floating-point number nearest to `q`. -/
def toFloat (precision : ℕ) (least : ℤ) (q : ℚ) : ℚ :=
  nearest (q / ulp precision least q) * ulp precision least q

section ToFloat

variable (precision : ℕ) (least : ℤ) {q : ℚ}

theorem ulp_pos (q : ℚ) : 0 < ulp precision least q := by
  unfold ulp
  positivity

theorem toFloat_nonneg (h : 0 ≤ q) : 0 ≤ toFloat precision least q := by
  have hulp := ulp_pos precision least q
  apply mul_nonneg _ hulp.le
  exact_mod_cast nearest_nonneg (div_nonneg h hulp.le)

theorem toFloat_neg (q : ℚ) : toFloat precision least (-q) = -toFloat precision least q := by
  have hulp : ulp precision least (-q) = ulp precision least q := by rw [ulp, abs_neg, ulp]
  rw [toFloat, hulp, neg_div, nearest_neg, Int.cast_neg, neg_mul, toFloat]

/-- Rounding at most doubles a number. -/
theorem toFloat_le (h : 0 ≤ q) : toFloat precision least q ≤ 2 * q := by
  have hulp := ulp_pos precision least q
  have hdiv : 0 ≤ q / ulp precision least q := div_nonneg h hulp.le
  have hq : q / ulp precision least q * ulp precision least q = q := div_mul_cancel₀ q hulp.ne'
  unfold toFloat
  generalize q / ulp precision least q = x at *
  have hx : (nearest x : ℚ) ≤ 2 * x := by
    by_cases hhalf : x < 1 / 2
    · -- A number below one half is rounded to zero.
      have hfloor : ⌊x⌋ = 0 := by
        rw [Int.floor_eq_zero_iff]
        exact ⟨hdiv, by linarith⟩
      have hzero : nearest x = 0 := by
        unfold nearest
        rw [hfloor, if_pos]
        left
        push_cast
        linarith
      rw [hzero]
      push_cast
      linarith
    · have := nearest_le x
      linarith
  calc (nearest x : ℚ) * ulp precision least q ≤ 2 * x * ulp precision least q :=
        mul_le_mul_of_nonneg_right hx hulp.le
    _ = 2 * q := by rw [mul_assoc, hq]

/-- Rounding at most halves a number that is not too small. -/
theorem le_toFloat (hprec : 0 < precision) (hleast : least ≤ 0) (h : 1 ≤ q) :
    q ≤ 2 * toFloat precision least q := by
  have hulp := ulp_pos precision least q
  have hq : q / ulp precision least q * ulp precision least q = q := div_mul_cancel₀ q hulp.ne'
  have hone : ulp precision least q ≤ q := by
    have hlog : 0 ≤ Int.log 2 |q| := by
      rw [abs_of_nonneg (by linarith)]
      exact Int.log_of_one_le_right 2 h ▸ Int.natCast_nonneg _
    calc ulp precision least q ≤ (2 : ℚ) ^ Int.log 2 |q| := by
          unfold ulp
          apply zpow_le_zpow_right₀ (by norm_num)
          omega
      _ ≤ |q| := by
          have := Int.zpow_log_le_self (R := ℚ) (b := 2) (r := |q|) (by norm_num)
            (abs_pos.2 (by linarith))
          exact_mod_cast this
      _ = q := abs_of_nonneg (by linarith)
  have hdiv : 1 ≤ q / ulp precision least q := (one_le_div₀ hulp).2 hone
  unfold toFloat
  generalize q / ulp precision least q = x at *
  have hx : x ≤ 2 * nearest x := by
    have := le_nearest x
    linarith
  calc q = x * ulp precision least q := hq.symm
    _ ≤ 2 * nearest x * ulp precision least q := mul_le_mul_of_nonneg_right hx hulp.le
    _ = 2 * (nearest x * ulp precision least q) := mul_assoc ..

end ToFloat

/-! ## The order of the floating-point numbers -/

section Order

variable {precision : ℕ} {least : ℤ} {x y q : ℚ}

theorem ulp_mono (hx : 0 < x) (h : x ≤ y) : ulp precision least x ≤ ulp precision least y := by
  have hlog : Int.log 2 |x| ≤ Int.log 2 |y| := by
    rw [abs_of_pos hx, abs_of_pos (hx.trans_le h)]
    exact Int.log_mono_right hx h
  unfold ulp
  refine zpow_le_zpow_right₀ (by norm_num) ?_
  omega

/-- A number is at most `2 ^ precision` units in its last place. -/
theorem lt_ulp_mul (q : ℚ) : |q| < 2 ^ precision * ulp precision least q := by
  have hlt : |q| < 2 ^ (Int.log 2 |q| + 1) := by
    have := Int.lt_zpow_succ_log_self (R := ℚ) (b := 2) (by norm_num) |q|
    exact_mod_cast this
  refine hlt.trans_le ?_
  unfold ulp
  rw [← zpow_natCast, ← zpow_add₀ (by norm_num)]
  refine zpow_le_zpow_right₀ (by norm_num) ?_
  omega

/-- A number whose unit in the last place is not the least one is at least `2 ^ (precision - 1)` of them. -/
theorem ulp_mul_le (hq : 0 < q) (hleast : least ≤ Int.log 2 q) :
    2 ^ (precision - 1 : ℤ) * ulp precision least q ≤ q := by
  have hle : (2 : ℚ) ^ Int.log 2 q ≤ q := by
    have := Int.zpow_log_le_self (R := ℚ) (b := 2) (r := q) (by norm_num) hq
    exact_mod_cast this
  unfold ulp
  rw [abs_of_pos hq, ← zpow_add₀ (by norm_num), max_eq_left hleast]
  rwa [add_sub_cancel]

theorem toFloat_zero : toFloat precision least 0 = 0 := by
  unfold toFloat
  rw [zero_div, show nearest 0 = 0 from nearest_intCast 0, Int.cast_zero, zero_mul]

/-- Rounding keeps the order. -/
theorem toFloat_mono (hprec : 0 < precision) (hx : 0 ≤ x) (h : x ≤ y) :
    toFloat precision least x ≤ toFloat precision least y := by
  rcases hx.eq_or_lt with rfl | hx
  · rw [toFloat_zero]
    exact toFloat_nonneg _ _ h
  have hy := hx.trans_le h
  have hux := ulp_pos precision least x
  have huy := ulp_pos precision least y
  have hulp : ulp precision least x ≤ ulp precision least y := ulp_mono hx h
  rcases hulp.eq_or_lt with heq | hlt
  · unfold toFloat
    rw [heq]
    refine mul_le_mul_of_nonneg_right ?_ huy.le
    exact_mod_cast nearest_mono (div_le_div_of_nonneg_right h huy.le)
  · -- A power of 2 is in between.
    have hexp : max (Int.log 2 x) least < Int.log 2 y := by
      unfold ulp at hlt
      rw [abs_of_pos hx, abs_of_pos hy] at hlt
      have := (zpow_lt_zpow_iff_right₀ (by norm_num)).1 hlt
      omega
    have hlow : toFloat precision least x ≤ 2 ^ precision * ulp precision least x := by
      refine mul_le_mul_of_nonneg_right ?_ hux.le
      have hle : x / ulp precision least x ≤ ((2 ^ precision : ℤ) : ℚ) := by
        rw [div_le_iff₀ hux]
        have : |x| ≤ 2 ^ precision * ulp precision least x := (lt_ulp_mul x).le
        rw [abs_of_pos hx] at this
        exact_mod_cast this
      have := nearest_mono hle
      rw [nearest_intCast] at this
      exact_mod_cast this
    have hhigh : 2 ^ (precision - 1 : ℤ) * ulp precision least y ≤ toFloat precision least y := by
      refine mul_le_mul_of_nonneg_right ?_ huy.le
      have hpow : (2 : ℚ) ^ (precision - 1 : ℤ) = ((2 ^ (precision - 1) : ℤ) : ℚ) := by
        rw [← Nat.cast_pred hprec, zpow_natCast]
        norm_cast
      have hle : ((2 ^ (precision - 1) : ℤ) : ℚ) ≤ y / ulp precision least y := by
        rw [le_div_iff₀ huy, ← hpow]
        exact ulp_mul_le hy (by omega)
      have := nearest_mono hle
      rw [nearest_intCast] at this
      rw [hpow]
      exact_mod_cast this
    refine hlow.trans (le_trans ?_ hhigh)
    unfold ulp
    rw [← zpow_natCast, ← zpow_add₀ (by norm_num), ← zpow_add₀ (by norm_num), abs_of_pos hx, abs_of_pos hy]
    refine zpow_le_zpow_right₀ (by norm_num) ?_
    omega

/-- A number with few digits is a floating-point number. -/
theorem toFloat_eq_self {n e : ℤ} (hn : |n| < 2 ^ precision) (he : least - (precision - 1 : ℤ) ≤ e) :
    toFloat precision least (n * 2 ^ e) = n * 2 ^ e := by
  by_cases hzero : n = 0
  · rw [hzero, Int.cast_zero, zero_mul, toFloat_zero]
  have hpos : 0 < |(n * 2 ^ e : ℚ)| := by positivity
  have hlog : Int.log 2 |(n * 2 ^ e : ℚ)| < precision + e := by
    have hlt : |(n * 2 ^ e : ℚ)| < 2 ^ (precision + e : ℤ) := by
      rw [abs_mul, abs_of_pos (by positivity : (0 : ℚ) < 2 ^ e), zpow_add₀ (by norm_num), zpow_natCast]
      refine mul_lt_mul_of_pos_right ?_ (by positivity)
      exact_mod_cast hn
    refine (Int.lt_zpow_iff_log_lt (b := 2) (by norm_num) hpos).1 ?_
    exact_mod_cast hlt
  -- Its unit in the last place divides it.
  obtain ⟨k, hk⟩ : ∃ k : ℕ, (2 : ℚ) ^ e = 2 ^ k * ulp precision least (n * 2 ^ e) := by
    refine ⟨(e - (max (Int.log 2 |(n * 2 ^ e : ℚ)|) least - (precision - 1 : ℤ))).toNat, ?_⟩
    unfold ulp
    rw [← zpow_natCast, ← zpow_add₀ (by norm_num)]
    congr 1
    omega
  have hulp := ulp_pos precision least (n * 2 ^ e)
  have hdiv : (n * 2 ^ e : ℚ) / ulp precision least (n * 2 ^ e) = ((n * 2 ^ k : ℤ) : ℚ) := by
    rw [div_eq_iff hulp.ne']
    push_cast
    rw [mul_assoc, ← hk]
  unfold toFloat
  rw [hdiv, nearest_intCast, ← hdiv, div_mul_cancel₀ _ hulp.ne']

/-- An integer is rounded to an integer. -/
theorem toFloat_intCast (n : ℤ) (hleast : least ≤ precision - 1) : ∃ m : ℤ, toFloat precision least n = m := by
  by_cases hn : |n| < 2 ^ precision
  · refine ⟨n, ?_⟩
    have hself := @toFloat_eq_self precision least n 0 hn (by omega)
    rwa [zpow_zero, mul_one] at hself
  · have hlog : (precision : ℤ) ≤ Int.log 2 |(n : ℚ)| := by
      refine (Int.zpow_le_iff_le_log (b := 2) (by norm_num) ?_).1 ?_
      · have : (0 : ℤ) < |n| := lt_of_lt_of_le (by positivity) (not_lt.1 hn)
        exact_mod_cast this
      · rw [zpow_natCast]
        exact_mod_cast not_lt.1 hn
    refine ⟨nearest (n / ulp precision least n) * 2 ^ (max (Int.log 2 |(n : ℚ)|) least - (precision - 1)).toNat, ?_⟩
    unfold toFloat
    have hpow : ulp precision least n =
        (2 : ℚ) ^ (max (Int.log 2 |(n : ℚ)|) least - (precision - 1)).toNat := by
      rw [ulp, ← zpow_natCast, Int.toNat_of_nonneg]
      have := le_max_left (Int.log 2 |(n : ℚ)|) least
      omega
    push_cast
    rw [hpow]

/-- Rounding to a floating-point number gives one. -/
theorem toFloat_toFloat (hprec : 0 < precision) (hq : 0 ≤ q) :
    toFloat precision least (toFloat precision least q) = toFloat precision least q := by
  have hulp := ulp_pos precision least q
  have hn : 0 ≤ nearest (q / ulp precision least q) := nearest_nonneg (div_nonneg hq hulp.le)
  have hle : nearest (q / ulp precision least q) ≤ 2 ^ precision := by
    have hle : q / ulp precision least q ≤ ((2 ^ precision : ℤ) : ℚ) := by
      rw [div_le_iff₀ hulp]
      have : |q| ≤ 2 ^ precision * ulp precision least q := (lt_ulp_mul q).le
      rw [abs_of_nonneg hq] at this
      exact_mod_cast this
    have := nearest_mono hle
    rwa [nearest_intCast] at this
  obtain ⟨n, hnq⟩ : ∃ n, n = nearest (q / ulp precision least q) := ⟨_, rfl⟩
  obtain ⟨e, he⟩ : ∃ e, e = max (Int.log 2 |q|) least - (precision - 1 : ℤ) := ⟨_, rfl⟩
  have hfloat : toFloat precision least q = n * 2 ^ e := by
    rw [hnq, he]
    rfl
  rw [← hnq] at hn hle
  rw [hfloat]
  rcases hle.lt_or_eq with hlt | heq
  · exact toFloat_eq_self (by rwa [abs_of_nonneg hn]) (by omega)
  · -- A power of 2 has one digit.
    have hpow : (n * 2 ^ e : ℚ) = ((1 : ℤ) : ℚ) * 2 ^ (precision + e : ℤ) := by
      rw [heq, zpow_add₀ (by norm_num), zpow_natCast]
      push_cast
      ring
    rw [hpow]
    refine toFloat_eq_self ?_ (by omega)
    rw [abs_one]
    exact one_lt_pow₀ (by norm_num) hprec.ne'

/-- The floating-point number before `m * 2 ^ e`. -/
theorem le_pred_of_lt (hprec : 0 < precision) {m e : ℤ} (hm : 2 ^ (precision - 1) < m) (hm' : m ≤ 2 ^ precision)
    (he : least - (precision - 1 : ℤ) ≤ e) (hx : toFloat precision least x = x) (hlt : x < m * 2 ^ e) :
    x ≤ (m - 1) * 2 ^ e := by
  have hpow : (0 : ℚ) < 2 ^ e := by positivity
  have hmq : (2 : ℚ) ^ (precision - 1) ≤ m - 1 := by
    have : (2 : ℤ) ^ (precision - 1) ≤ m - 1 := by omega
    exact_mod_cast this
  by_cases hsmall : x < 2 ^ (precision - 1) * 2 ^ e
  · exact hsmall.le.trans (mul_le_mul_of_nonneg_right hmq hpow.le)
  · rw [not_lt] at hsmall
    have hpos : 0 < x := lt_of_lt_of_le (by positivity) hsmall
    have hlow : (precision - 1 : ℤ) + e ≤ Int.log 2 x := by
      refine (Int.zpow_le_iff_le_log (by norm_num) hpos).1 ?_
      push_cast
      rw [zpow_add₀ (by norm_num), ← Nat.cast_pred hprec, zpow_natCast]
      exact hsmall
    have hhigh : Int.log 2 x < precision + e := by
      refine (Int.lt_zpow_iff_log_lt (b := 2) (by norm_num) hpos).1 ?_
      push_cast
      rw [zpow_add₀ (by norm_num), zpow_natCast]
      refine hlt.trans_le (mul_le_mul_of_nonneg_right ?_ hpow.le)
      exact_mod_cast hm'
    have hulp : ulp precision least x = 2 ^ e := by
      unfold ulp
      rw [abs_of_pos hpos]
      congr 1
      omega
    have hfloat : x = nearest (x / 2 ^ e) * 2 ^ e := by
      conv_lhs => rw [← hx]
      unfold toFloat
      rw [hulp]
    rw [hfloat] at hlt
    have hk : nearest (x / 2 ^ e) < m := by
      have := lt_of_mul_lt_mul_right hlt hpow.le
      exact_mod_cast this
    have hk' : ((nearest (x / 2 ^ e) : ℤ) : ℚ) ≤ m - 1 := by
      have : nearest (x / 2 ^ e) ≤ m - 1 := by omega
      exact_mod_cast this
    rw [hfloat]
    exact mul_le_mul_of_nonneg_right hk' hpow.le

/-- Rounding is off by half a unit in the last place. -/
theorem abs_toFloat_sub_le (q : ℚ) : |toFloat precision least q - q| ≤ ulp precision least q / 2 := by
  have hulp := ulp_pos precision least q
  have hq : q / ulp precision least q * ulp precision least q = q := div_mul_cancel₀ q hulp.ne'
  have hlow := le_nearest (q / ulp precision least q)
  have hhigh := nearest_le (q / ulp precision least q)
  have heq : toFloat precision least q - q =
      (nearest (q / ulp precision least q) - q / ulp precision least q) * ulp precision least q := by
    rw [sub_mul, hq]
    rfl
  have hhalf : ulp precision least q / 2 = 1 / 2 * ulp precision least q := by ring
  rw [heq, abs_mul, abs_of_pos hulp, hhalf]
  refine mul_le_mul_of_nonneg_right ?_ hulp.le
  rw [abs_le]
  constructor <;> linarith

end Order

/-! ## Relative errors -/

/-- `x` is `q` up to `n` relative errors of at most `u` each. -/
def Within (u : ℚ) (n : Nat) (x q : ℚ) : Prop := (1 - u) ^ n * q ≤ x ∧ x ≤ (1 + u) ^ n * q

instance (u : ℚ) (n : Nat) (x q : ℚ) : Decidable (Within u n x q) := inferInstanceAs (Decidable (_ ∧ _))

section Within

variable {u x y z q r : ℚ} {n m : Nat}

theorem Within.trans (hu : 0 ≤ u) (hu' : u ≤ 1) (h : Within u n x y) (h' : Within u m y z) :
    Within u (n + m) x z := by
  have hlow : 0 ≤ (1 - u) ^ n := pow_nonneg (by linarith) n
  have hhigh : 0 ≤ (1 + u) ^ n := pow_nonneg (by linarith) n
  constructor
  · calc (1 - u) ^ (n + m) * z = (1 - u) ^ n * ((1 - u) ^ m * z) := by rw [pow_add, mul_assoc]
      _ ≤ (1 - u) ^ n * y := mul_le_mul_of_nonneg_left h'.1 hlow
      _ ≤ x := h.1
  · calc x ≤ (1 + u) ^ n * y := h.2
      _ ≤ (1 + u) ^ n * ((1 + u) ^ m * z) := mul_le_mul_of_nonneg_left h'.2 hhigh
      _ = (1 + u) ^ (n + m) * z := by rw [pow_add, mul_assoc]

theorem Within.mul (hu : u ≤ 1) (hq : 0 ≤ q) (hr : 0 ≤ r) (h : Within u n x q)
    (h' : Within u m y r) : Within u (n + m) (x * y) (q * r) := by
  have hlow : 0 ≤ (1 - u) ^ n * q := mul_nonneg (pow_nonneg (by linarith) n) hq
  have hlow' : 0 ≤ (1 - u) ^ m * r := mul_nonneg (pow_nonneg (by linarith) m) hr
  constructor
  · calc (1 - u) ^ (n + m) * (q * r) = (1 - u) ^ n * q * ((1 - u) ^ m * r) := by rw [pow_add]; ring
      _ ≤ x * y := mul_le_mul h.1 h'.1 hlow' (hlow.trans h.1)
  · calc x * y ≤ (1 + u) ^ n * q * ((1 + u) ^ m * r) :=
        mul_le_mul h.2 h'.2 (hlow'.trans h'.1) ((hlow.trans h.1).trans h.2)
      _ = (1 + u) ^ (n + m) * (q * r) := by rw [pow_add]; ring

/-- Rounding makes one relative error, unless the number is too small. -/
theorem toFloat_within {precision : ℕ} {least : ℤ} (hq : 2 ^ least ≤ q) :
    Within (1 / 2 ^ precision) 1 (toFloat precision least q) q := by
  have hpos : 0 < q := lt_of_lt_of_le (by positivity) hq
  have hlog : least ≤ Int.log 2 q := (Int.zpow_le_iff_le_log (by norm_num) hpos).1 (by exact_mod_cast hq)
  have hulp : 2 ^ (precision - 1 : ℤ) * ulp precision least q ≤ q := ulp_mul_le hpos hlog
  have hpow : (2 : ℚ) ^ (precision - 1 : ℤ) * 2 = 2 ^ precision := by
    rw [← zpow_natCast, ← zpow_add_one₀ (by norm_num)]
    congr 1
    omega
  have hhalf : ulp precision least q / 2 ≤ 1 / 2 ^ precision * q := by
    rw [one_div_mul_eq_div, le_div_iff₀ (by positivity), ← hpow]
    linarith
  have herror : |toFloat precision least q - q| ≤ ulp precision least q / 2 := abs_toFloat_sub_le q
  rw [abs_le] at herror
  constructor
  · rw [pow_one, sub_mul, one_mul]
    linarith [herror.1]
  · rw [pow_one, add_mul, one_mul]
    linarith [herror.2]

end Within

end Rounding
