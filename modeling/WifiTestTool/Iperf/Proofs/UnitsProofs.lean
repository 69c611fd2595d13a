import WifiTestTool.Iperf.Units

/-!
# The numbers in the reports

The texts of `%f` and of `unit_snprintf`: a number in `%f` is that of the nearest decimal fraction, and
`unit_snprintf` in adaptive mode prints at least 4 characters, with a blank in front if and only if the
number has 3 digits and no decimals.
-/

namespace Iperf

/-! ## `%f` -/

/-- The number that is printed in `%f`. -/
def printed (precision : Nat) (q : ℚ) : ℚ := fixedUnits precision q / 10 ^ precision

theorem fixed_of_nonneg {precision : Nat} {q : ℚ} (h : 0 ≤ q) :
    fixed precision q = Nat.toDigits 10 (fixedUnits precision q / 10 ^ precision) ++
      if precision = 0 then [] else '.' :: digits precision (fixedUnits precision q % 10 ^ precision) := by
  unfold fixed
  dsimp only
  rw [decide_eq_false (not_lt.2 h)]
  rfl

theorem digits_isDigit {width n : Nat} {c : Char} (hc : c ∈ digits width n) : c.isDigit = true := by
  unfold digits at hc
  rcases List.mem_append.1 hc with hc | hc
  · rw [List.eq_of_mem_replicate hc]
    rfl
  · exact Nat.isDigit_of_mem_toDigits (by decide) (by decide) hc

theorem digits_length {width n : Nat} (hwidth : 0 < width) (hn : n < 10 ^ width) :
    (digits width n).length = width := by
  have := (Nat.length_toDigits_le_iff (b := 10) (n := n) (k := width) (by decide) hwidth).2 hn
  unfold digits
  rw [List.length_append, List.length_replicate]
  omega

theorem ofDigitChars_digits (width n : Nat) : Nat.ofDigitChars 10 (digits width n) 0 = n := by
  have hzeros : ∀ k : Nat, Nat.ofDigitChars 10 (List.replicate k '0') 0 = 0 := by
    intro k
    induction k with
    | zero => rfl
    | succ k ih => rw [List.replicate_succ, Nat.ofDigitChars_cons]; exact ih
  unfold digits
  rw [Nat.ofDigitChars_append, hzeros, Nat.ofDigitChars_ten_toDigits]

theorem fixed_length (precision : Nat) {q : ℚ} (h : 0 ≤ q) :
    (fixed precision q).length = (Nat.toDigits 10 (fixedUnits precision q / 10 ^ precision)).length +
      if precision = 0 then 0 else 1 + precision := by
  rw [fixed_of_nonneg h, List.length_append]
  by_cases hp : precision = 0
  · rw [if_pos hp, if_pos hp]
    rfl
  · have hmod := Nat.mod_lt (fixedUnits precision q) (Nat.pos_of_ne_zero (n := 10 ^ precision) (by positivity))
    rw [if_neg hp, if_neg hp, List.length_cons, digits_length (by omega) hmod]
    omega

theorem fixedUnits_le {precision n : Nat} {q c : ℚ} (h : 0 ≤ q) (hq : q * 10 ^ precision ≤ c)
    (hc : Rounding.nearest c ≤ n) : fixedUnits precision q ≤ n := by
  have := Rounding.nearest_mono hq
  unfold fixedUnits
  rw [abs_of_nonneg h]
  omega

theorem le_fixedUnits {precision n : Nat} {q c : ℚ} (h : 0 ≤ q) (hq : c ≤ q * 10 ^ precision)
    (hc : n ≤ Rounding.nearest c) : n ≤ fixedUnits precision q := by
  have := Rounding.nearest_mono hq
  unfold fixedUnits
  rw [abs_of_nonneg h]
  omega

/-! ## `unit_snprintf` -/

/-- The numbers of 3 digits without decimals. -/
def ThreeDigits (inNum : ℚ) : Prop := double (9995 / 100) ≤ inNum ∧ inNum < double (9995 / 10)

instance (inNum : ℚ) : Decidable (ThreeDigits inNum) := inferInstanceAs (Decidable (_ ∧ _))

theorem double_9_995 : 999 / 100 ≤ double (9995 / 1000) := by decide +kernel

theorem double_99_95 : 999 / 10 ≤ double (9995 / 100) := by decide +kernel

theorem double_999_5 : double (9995 / 10) = 9995 / 10 := by decide +kernel

theorem double_intCast {n : ℤ} (h : |n| < 2 ^ 53) : double n = n := by
  have hself : Rounding.toFloat 53 (-1022) (n * 2 ^ (0 : ℤ)) = n * 2 ^ (0 : ℤ) :=
    Rounding.toFloat_eq_self h (by norm_num)
  rwa [zpow_zero, mul_one] at hself

theorem double_mono {x y : ℚ} (hx : 0 ≤ x) (h : x ≤ y) : double x ≤ double y :=
  Rounding.toFloat_mono (by decide) hx h

theorem double_9_995_le_99_95 : double (9995 / 1000) ≤ double (9995 / 100) :=
  double_mono (by norm_num) (by norm_num)

theorem double_9_995_le : double (9995 / 1000) ≤ 10 :=
  (double_mono (by norm_num) (by norm_num)).trans_eq (double_intCast (n := 10) (by norm_num))

theorem double_99_95_le : double (9995 / 100) ≤ 100 :=
  (double_mono (by norm_num) (by norm_num)).trans_eq (double_intCast (n := 100) (by norm_num))

theorem le_nearest_99_9 : ((100 : ℕ) : ℤ) ≤ Rounding.nearest (999 / 10) := by
  have hlow := Rounding.le_nearest (999 / 10)
  have hlt : (99 : ℚ) < Rounding.nearest (999 / 10) := by linarith
  have hint : 99 < Rounding.nearest (999 / 10) := by exact_mod_cast hlt
  omega

theorem timevalDiff_nonneg (tv0 tv1 : Timeval) : 0 ≤ timevalDiff tv0 tv1 := by
  unfold timevalDiff
  dsimp only
  split_ifs with h
  · linarith
  · exact not_lt.1 h

/-- A time between two readings of the clock is a whole number of microseconds. -/
theorem timevalDiff_usecs (tv0 tv1 : Timeval) : ∃ n : ℕ, timevalDiff tv0 tv1 = n / 10 ^ 6 := by
  have hnonneg := timevalDiff_nonneg tv0 tv1
  have habs : timevalDiff tv0 tv1 =
      |(((tv0.tvSec - tv1.tvSec) * 1000000 + (tv0.tvUsec - tv1.tvUsec) : ℤ) : ℚ)| / 10 ^ 6 := by
    rw [← abs_of_nonneg hnonneg, eq_div_iff (by norm_num), ← abs_of_nonneg (a := (10 : ℚ) ^ 6) (by norm_num),
      ← abs_mul]
    unfold timevalDiff
    push_cast
    split_ifs
    · rw [← abs_neg]
      congr 1
      ring
    · congr 1
      ring
  refine ⟨((tv0.tvSec - tv1.tvSec) * 1000000 + (tv0.tvUsec - tv1.tvUsec) : ℤ).natAbs, ?_⟩
  rw [habs, Nat.cast_natAbs]
  push_cast
  rfl

/-- A bandwidth. No bandwidth is larger than all bytes that can be counted in a microsecond. -/
theorem bandwidth_bound (bytes : UInt64) (tv0 tv1 : Timeval) :
    0 ≤ ratio (bytesRat bytes) (timevalDiff tv0 tv1) ∧
      ratio (bytesRat bytes) (timevalDiff tv0 tv1) ≤ 2 ^ 64 * 10 ^ 6 := by
  have hbytes : 0 ≤ bytesRat bytes := Nat.cast_nonneg _
  have hbytes' : bytesRat bytes ≤ 2 ^ 64 := by
    have : bytes.toNat ≤ 2 ^ 64 := bytes.toNat_lt.le
    unfold bytesRat
    exact_mod_cast this
  refine ⟨div_nonneg hbytes (timevalDiff_nonneg _ _), ?_⟩
  obtain ⟨n, hn⟩ := timevalDiff_usecs tv0 tv1
  unfold ratio
  rw [hn]
  rcases Nat.eq_zero_or_pos n with rfl | hpos
  · simp
  · have hone : (1 : ℚ) ≤ n := by exact_mod_cast hpos
    rw [div_div_eq_mul_div]
    calc bytesRat bytes * 10 ^ 6 / n ≤ bytesRat bytes * 10 ^ 6 := div_le_self (by positivity) hone
      _ ≤ 2 ^ 64 * 10 ^ 6 := mul_le_mul_of_nonneg_right hbytes' (by norm_num)

theorem double_nonneg {q : ℚ} (h : 0 ≤ q) : 0 ≤ double q := Rounding.toFloat_nonneg _ _ h

theorem double_le {q : ℚ} (h : 0 ≤ q) : double q ≤ 2 * q := Rounding.toFloat_le _ _ h

theorem le_double {q : ℚ} (h : 1 ≤ q) : q ≤ 2 * double q :=
  Rounding.le_toFloat 53 (-1022) (by decide) (by decide) h

/-- A number in 4 places: a blank is put in front of the numbers of 3 digits. -/
theorem pad_unit {inNum : ℚ} (h : 0 ≤ inNum) :
    pad false 4 (fixed (unitPrecision inNum) inNum) =
      if ThreeDigits inNum then ' ' :: fixed 0 inNum else fixed (unitPrecision inNum) inNum := by
  have hpos : ∀ n, 1 ≤ (Nat.toDigits 10 n).length := fun n => Nat.length_toDigits_pos
  have hlong : ∀ {s : List Char}, 4 ≤ s.length → pad false 4 s = s := by
    intro s hs
    unfold pad
    rw [Nat.sub_eq_zero_of_le hs]
    rfl
  have hdigits : ∀ {n k : Nat}, 0 < k → 10 ^ k ≤ n → k < (Nat.toDigits 10 n).length := by
    intro n k hk hn
    by_contra hle
    have := (Nat.length_toDigits_le_iff (b := 10) (by decide) hk).1 (not_lt.1 hle)
    omega
  have h₁ := double_9_995
  have h₂ := double_99_95
  have h₃ := double_999_5
  unfold unitPrecision
  by_cases hsmall : inNum < double (9995 / 1000)
  · have hnot : ¬ ThreeDigits inNum := by
      intro hthree
      have := double_9_995_le_99_95
      linarith [hthree.1]
    rw [if_pos hsmall, if_neg hnot]
    apply hlong
    rw [fixed_length _ h]
    have := hpos (fixedUnits 2 inNum / 10 ^ 2)
    simp
    omega
  · rw [if_neg hsmall]
    by_cases hmiddle : inNum < double (9995 / 100)
    · have hnot : ¬ ThreeDigits inNum := fun hthree => absurd hthree.1 (not_le.2 hmiddle)
      rw [if_pos hmiddle, if_neg hnot]
      apply hlong
      have hn : 100 ≤ fixedUnits 1 inNum := by
        refine le_fixedUnits (c := 999 / 10) h ?_ le_nearest_99_9
        rw [pow_one]
        linarith
      have := @hdigits (fixedUnits 1 inNum / 10 ^ 1) 1 (by decide) (by omega)
      rw [fixed_length _ h]
      simp at this ⊢
      omega
    · rw [if_neg hmiddle, ite_self]
      have hn : 100 ≤ fixedUnits 0 inNum := by
        refine le_fixedUnits (c := 999 / 10) h ?_ le_nearest_99_9
        rw [pow_zero, mul_one]
        linarith
      have hlength := fixed_length 0 h
      rw [if_pos rfl, pow_zero, Nat.div_one, add_zero] at hlength
      by_cases hlarge : inNum < double (9995 / 10)
      · rw [if_pos ⟨not_lt.1 hmiddle, hlarge⟩]
        have hle : fixedUnits 0 inNum ≤ 999 := by
          have hround := Rounding.nearest_le inNum
          have hlt : (Rounding.nearest inNum : ℚ) < 1000 := by linarith
          have hint : Rounding.nearest inNum < 1000 := by exact_mod_cast hlt
          refine fixedUnits_le (c := inNum) h ?_ (by omega)
          rw [pow_zero, mul_one]
        have hge := @hdigits (fixedUnits 0 inNum) 2 (by decide) (by omega)
        have hle := (Nat.length_toDigits_le_iff (b := 10) (n := fixedUnits 0 inNum) (k := 3) (by decide)
          (by decide)).2 (by omega)
        unfold pad
        rw [hlength, show 4 - (Nat.toDigits 10 (fixedUnits 0 inNum)).length = 1 by omega]
        rfl
      · rw [if_neg fun hthree => hlarge hthree.2]
        apply hlong
        have hn : 1000 ≤ fixedUnits 0 inNum := by
          refine le_fixedUnits (c := 9995 / 10) h ?_ (by decide +kernel)
          rw [pow_zero, mul_one]
          linarith
        rw [hlength]
        exact @hdigits (fixedUnits 0 inNum) 3 (by decide) hn

/-- Every pass of the loop makes the number smaller by a factor between the half and the double of the
base. -/
theorem adaptive_bound {base : ℚ} (hbase : 1 ≤ base) {passes conv : Nat} {tmpNum : ℚ}
    (hpasses : conv + passes = GIGA_CONV + 1) (hconv : adaptive base passes tmpNum conv ≤ GIGA_CONV) :
    conv ≤ adaptive base passes tmpNum conv ∧
      tmpNum < base * (2 * base) ^ (adaptive base passes tmpNum conv - conv) := by
  have hpos : 0 < base := by linarith
  induction passes generalizing tmpNum conv with
  | zero =>
    have hend : adaptive base 0 tmpNum conv = conv := rfl
    omega
  | succ passes ih =>
    unfold adaptive at hconv ⊢
    by_cases hmore : base ≤ tmpNum ∧ conv ≤ GIGA_CONV
    · rw [if_pos hmore] at hconv ⊢
      obtain ⟨hle, hlt⟩ := ih (by omega) hconv
      have hquot : 1 ≤ tmpNum / base := (one_le_div₀ hpos).2 hmore.1
      have hdouble := le_double hquot
      refine ⟨by omega, ?_⟩
      generalize adaptive base passes (double (tmpNum / base)) (conv + 1) = c at *
      calc tmpNum = base * (tmpNum / base) := (mul_div_cancel₀ tmpNum hpos.ne').symm
        _ ≤ base * (2 * double (tmpNum / base)) := mul_le_mul_of_nonneg_left hdouble hpos.le
        _ < base * (2 * (base * (2 * base) ^ (c - (conv + 1)))) :=
            mul_lt_mul_of_pos_left (by linarith) hpos
        _ = base * (2 * base) ^ (c - conv) := by
            rw [show c - conv = c - (conv + 1) + 1 by omega, pow_succ]
            ring
    · rw [if_neg hmore] at hconv ⊢
      refine ⟨le_rfl, ?_⟩
      rw [Nat.sub_self, pow_zero, mul_one]
      by_contra hge
      exact hmore ⟨not_lt.1 hge, hconv⟩

theorem scaled_bound {base inNum factor : ℚ} {conv : Nat} (hbase : 1 ≤ base) (hbase' : base ≤ 1024)
    (hconv : conv ≤ 3) (hnum : 0 ≤ inNum) (hnum' : inNum < base * (2 * base) ^ conv) (hfactor : 0 ≤ factor)
    (hfactor' : factor ≤ (2 / base) ^ conv) : double (inNum * factor) ≤ 131072 := by
  have hpos : 0 < base := by linarith
  calc double (inNum * factor) ≤ 2 * (inNum * factor) := double_le (mul_nonneg hnum hfactor)
    _ ≤ 2 * (base * (2 * base) ^ conv * (2 / base) ^ conv) := by
        have := mul_le_mul hnum'.le hfactor' hfactor (by positivity)
        linarith
    _ = 2 * (base * 4 ^ conv) := by
        rw [mul_assoc base, ← mul_pow, show 2 * base * (2 / base) = 4 by field_simp; norm_num]
    _ ≤ 2 * (1024 * 4 ^ 3) := by
        have hpow : (4 : ℚ) ^ conv ≤ 4 ^ 3 := pow_le_pow_right₀ (by norm_num) hconv
        have := mul_le_mul hbase' hpow (by positivity) (by norm_num)
        linarith
    _ = 131072 := by norm_num

/-- Adaptive mode, in bits or in bytes. -/
def Adaptive (inFormat : Char) : Prop := inFormat = 'a' ∨ inFormat = 'A'

/-- What `unit_snprintf` prints in adaptive mode. -/
structure UnitScaled (inNum : ℚ) (suffix : String) : Prop where
  nonneg : 0 ≤ inNum
  bounded : inNum ≤ 131072
  label : suffix ∈ labelByte ++ labelBit

theorem unitScale_adaptive {inNum scaled : ℚ} {inFormat : Char} {suffix : String} (h : 0 ≤ inNum)
    (hformat : Adaptive inFormat) (hscale : unitScale inNum inFormat = some (scaled, suffix)) :
    UnitScaled scaled suffix := by
  have htable : ∀ {base x factor : ℚ} {conversion : List ℚ} {label : List String}, 1 ≤ base → base ≤ 1024 →
      0 ≤ x → (∀ c ≤ 3, ∀ f ∈ conversion[c]?, 0 ≤ f ∧ f ≤ (2 / base) ^ c) → conversion.length = 4 →
      (∀ s ∈ label, s ∈ labelByte ++ labelBit) →
      conversion[adaptive base (GIGA_CONV + 1) x 0]? = some factor →
      label[adaptive base (GIGA_CONV + 1) x 0]? = some suffix → scaled = double (x * factor) →
      UnitScaled scaled suffix := by
    intro base x factor conversion label hbase hbase' hx hfactors hlength hlabels hfactor hlabel heq
    have hconv : adaptive base (GIGA_CONV + 1) x 0 ≤ GIGA_CONV := by
      have := (List.getElem?_eq_some_iff.1 hfactor).1
      rw [hlength] at this
      exact Nat.le_of_lt_succ this
    obtain ⟨-, hlt⟩ := adaptive_bound hbase (by rfl) hconv
    obtain ⟨hf, hf'⟩ := hfactors _ hconv factor hfactor
    rw [heq]
    exact ⟨double_nonneg (mul_nonneg hx hf), scaled_bound hbase hbase' hconv hx hlt hf hf',
      hlabels suffix (List.mem_of_getElem? hlabel)⟩
  have hbits : ∀ c ≤ 3, ∀ f ∈ conversionBits[c]?, 0 ≤ f ∧ f ≤ (2 / 1000 : ℚ) ^ c := by decide +kernel
  have hbytes : ∀ c ≤ 3, ∀ f ∈ conversionBytes[c]?, 0 ≤ f ∧ f ≤ (2 / 1024 : ℚ) ^ c := by decide +kernel
  unfold unitScale at hscale
  dsimp only at hscale
  split at hscale
  · rename_i factor suffix' hfactor hlabel
    simp only [Option.some.injEq, Prod.mk.injEq] at hscale
    obtain ⟨heq, rfl⟩ := hscale
    rcases hformat with rfl | rfl
    · exact htable (by norm_num) (by norm_num) (double_nonneg (by linarith)) hbits rfl
        (fun s hs => List.mem_append_right _ hs) hfactor hlabel heq.symm
    · exact htable (by norm_num) (by norm_num) h hbytes rfl (fun s hs => List.mem_append_left _ hs) hfactor
        hlabel heq.symm
  · cases hscale

theorem unitPrecision_cases (inNum : ℚ) :
    unitPrecision inNum = 0 ∨ unitPrecision inNum = 1 ∧ inNum ≤ 100 ∨ unitPrecision inNum = 2 ∧ inNum ≤ 10 := by
  have h₁ := double_9_995_le
  have h₂ := double_99_95_le
  unfold unitPrecision
  split_ifs with hsmall hmiddle
  · exact .inr (.inr ⟨rfl, by linarith⟩)
  · exact .inr (.inl ⟨rfl, by linarith⟩)
  · exact .inl rfl
  · exact .inl rfl

/-- The places that a number takes. -/
theorem unit_length {inNum : ℚ} {k : Nat} (h : 0 ≤ inNum) (hk : 5 ≤ k) (hle : inNum ≤ 10 ^ k - 1) :
    (pad false 4 (fixed (unitPrecision inNum) inNum)).length ≤ k := by
  have hdigits : ∀ {n j : Nat}, 0 < j → n < 10 ^ j → (Nat.toDigits 10 n).length ≤ j :=
    fun hj hn => (Nat.length_toDigits_le_iff (by decide) hj).2 hn
  have hfixed : (fixed (unitPrecision inNum) inNum).length ≤ k := by
    have hlength := fixed_length (unitPrecision inNum) h
    rcases unitPrecision_cases inNum with hp | ⟨hp, hsmall⟩ | ⟨hp, hsmall⟩
    · have hpow : 1 ≤ 10 ^ k := Nat.one_le_pow _ _ (by decide)
      have hunits : fixedUnits 0 inNum ≤ 10 ^ k - 1 := by
        refine fixedUnits_le (c := ((10 ^ k - 1 : Nat) : ℤ)) h ?_ (by rw [Rounding.nearest_intCast])
        push_cast [hpow]
        linarith
      rw [hp, if_pos rfl, pow_zero, Nat.div_one] at hlength
      rw [hp, hlength]
      exact hdigits (by omega) (by omega)
    · have hunits : fixedUnits 1 inNum ≤ 1000 :=
        fixedUnits_le (c := (1000 : ℤ)) h (by push_cast; linarith) (by rw [Rounding.nearest_intCast]; rfl)
      have := @hdigits (fixedUnits 1 inNum / 10 ^ 1) 3 (by decide) (by omega)
      rw [hp, if_neg (by decide)] at hlength
      rw [hp]
      omega
    · have hunits : fixedUnits 2 inNum ≤ 1000 :=
        fixedUnits_le (c := (1000 : ℤ)) h (by push_cast; linarith) (by rw [Rounding.nearest_intCast]; rfl)
      have := @hdigits (fixedUnits 2 inNum / 10 ^ 2) 2 (by decide) (by omega)
      rw [hp, if_neg (by decide)] at hlength
      rw [hp]
      omega
  unfold pad
  simp only [Bool.false_eq_true, if_false, List.length_append, List.length_replicate]
  omega

/-- The buffer is large enough. -/
theorem unitSnprintf_eq {inNum : ℚ} {inFormat : Char} {s : List Char} (h : 0 ≤ inNum)
    (hformat : Adaptive inFormat) (hs : unitSnprintf UNIT_LEN inNum inFormat = some s) :
    ∃ scaled suffix, unitScale inNum inFormat = some (scaled, suffix) ∧ UnitScaled scaled suffix ∧
      s = pad false 4 (fixed (unitPrecision scaled) scaled) ++ ' ' :: suffix.toList := by
  unfold unitSnprintf at hs
  obtain ⟨⟨scaled, suffix⟩, hscale, rfl⟩ := Option.map_eq_some_iff.1 hs
  have hscaled := unitScale_adaptive h hformat hscale
  refine ⟨scaled, suffix, hscale, hscaled, List.take_of_length_le ?_⟩
  have hsuffix : suffix.toList.length ≤ 5 := by
    have hall : ∀ s ∈ labelByte ++ labelBit, s.toList.length ≤ 5 := by decide
    exact hall suffix hscaled.label
  have hlength := unit_length (k := 6) hscaled.nonneg (by decide) (by linarith [hscaled.bounded])
  have hlen : UNIT_LEN - 1 = 31 := rfl
  rw [List.length_append, List.length_cons]
  omega

/-- So it is for a number of bits in a fixed unit, up to all that can be sent in a microsecond. -/
theorem unitSnprintf_bits {inNum : ℚ} {inFormat : Char} {s : List Char} (h : 0 ≤ inNum)
    (hle : inNum ≤ 2 ^ 64 * 10 ^ 6) (hlower : inFormat.isUpper = false)
    (hs : unitSnprintf UNIT_LEN inNum inFormat = some s) :
    ∃ scaled suffix, 0 ≤ scaled ∧ suffix ∈ labelBit ∧
      s = pad false 4 (fixed (unitPrecision scaled) scaled) ++ ' ' :: suffix.toList := by
  have htable : ∀ conv < 4, ∀ factor ∈ conversionBits[conv]?, ∀ suffix ∈ labelBit[conv]?,
      0 ≤ factor ∧ factor * 10 ^ suffix.toList.length ≤ 1000 ∧ suffix.toList.length ≤ 4 := by decide +kernel
  unfold unitSnprintf at hs
  obtain ⟨⟨scaled, suffix⟩, hscale, rfl⟩ := Option.map_eq_some_iff.1 hs
  unfold unitScale at hscale
  rw [hlower] at hscale
  simp only [Bool.not_false, if_true] at hscale
  split at hscale
  · rename_i factor suffix' hfactor hlabel
    simp only [Option.some.injEq, Prod.mk.injEq] at hscale
    obtain ⟨rfl, rfl⟩ := hscale
    obtain ⟨hpos, hbound, hsuffix⟩ :=
      htable _ (List.getElem?_eq_some_iff.1 hfactor).1 factor hfactor suffix' hlabel
    have hbits : 0 ≤ double (inNum * 8) := double_nonneg (by linarith)
    have hbits' : double (inNum * 8) ≤ 2 * (inNum * 8) := double_le (by linarith)
    have hscaled := double_nonneg (mul_nonneg hbits hpos)
    refine ⟨_, suffix', hscaled, List.mem_of_getElem? hlabel, List.take_of_length_le ?_⟩
    have hdouble := double_le (mul_nonneg hbits hpos)
    have hlength : (pad false 4 (fixed (unitPrecision (double (double (inNum * 8) * factor)))
        (double (double (inNum * 8) * factor)))).length ≤ 30 - suffix'.toList.length := by
      refine unit_length hscaled (by omega) ?_
      generalize hk : suffix'.toList.length = k at *
      have hpow : (10 : ℚ) ^ k ≤ 10 ^ 4 := pow_le_pow_right₀ (by norm_num) hsuffix
      have hsplit : (10 : ℚ) ^ (30 - k) * 10 ^ k = 10 ^ 30 := by
        rw [← pow_add]
        congr 1
        omega
      have hpos' : (0 : ℚ) < 10 ^ k := by positivity
      refine le_of_mul_le_mul_right ?_ hpos'
      calc double (double (inNum * 8) * factor) * 10 ^ k
          ≤ 2 * (2 * (inNum * 8) * factor) * 10 ^ k := by
            refine mul_le_mul_of_nonneg_right (hdouble.trans ?_) hpos'.le
            have := mul_le_mul_of_nonneg_right hbits' hpos
            linarith
        _ = 32 * inNum * (factor * 10 ^ k) := by ring
        _ ≤ 32 * (2 ^ 64 * 10 ^ 6) * 1000 :=
            mul_le_mul (by linarith) hbound (mul_nonneg hpos hpos'.le) (by norm_num)
        _ ≤ 10 ^ 30 - 10 ^ 4 := by norm_num
        _ ≤ (10 ^ (30 - k) - 1) * 10 ^ k := by
            rw [sub_mul, hsplit, one_mul]
            linarith
    have hlen : UNIT_LEN - 1 = 31 := rfl
    rw [List.length_append, List.length_cons]
    omega
  · cases hscale

/-! ## The lines of an interval report -/

/-- A line with the texts of its fields. -/
def intervalLine (socket start finish ubuf nbuf tail : List Char) : List Char :=
  '[' :: (socket ++ ']' :: ' ' :: (start ++ '-' :: (finish ++ " sec  ".toList ++ ubuf ++ "s  ".toList ++
    nbuf ++ "s/sec  ".toList ++ tail)))

/-- What the formats have in common. -/
def intervalDirectives : List Directive :=
  [.char '[', .conversion false 3 none 'd', .char ']', .char ' ', .conversion false 6 (some 2) 'f',
    .char '-', .conversion true 6 (some 2) 'f', .char ' ', .char 's', .char 'e', .char 'c', .char ' ',
    .char ' ', .conversion false 0 none 's', .char 's', .char ' ', .char ' ', .conversion false 0 none 's',
    .char 's', .char '/', .char 's', .char 'e', .char 'c', .char ' ', .char ' ']

theorem intervalFormat_directives {fmt : Format} {s : String} (h : intervalFormat fmt = some s) :
    ∃ ds, scanFormat .text s.toList = some (intervalDirectives ++ ds) := by
  unfold intervalFormat at h
  split at h <;> cases h
  all_goals exact ⟨_, rfl⟩

theorem vsprintf_interval {fmt : Format} {socket : Int} {start finish bandwidth : ℚ} {bytes : UInt64}
    {unitFormat : Char} {args : List Arg} {line : List Char}
    (h : vsprintf fmt (intervalArgs (some socket) start finish bytes bandwidth unitFormat ++ args) =
      some line) :
    ∃ ubuf nbuf tail, unitSnprintf UNIT_LEN (bytesRat bytes) 'A' = some ubuf ∧
      unitSnprintf UNIT_LEN bandwidth unitFormat = some nbuf ∧
      line = intervalLine (pad false 3 (signed (socket < 0) (Nat.toDigits 10 socket.natAbs)))
        (pad false 6 (fixed 2 start)) (pad true 6 (fixed 2 finish)) ubuf nbuf tail := by
  unfold vsprintf at h
  simp only [Option.bind_eq_bind, Option.bind_eq_some_iff] at h
  obtain ⟨s, hs, ds, hds, hrender⟩ := h
  obtain ⟨rest, hrest⟩ := intervalFormat_directives hs
  rw [hds, Option.some.injEq] at hrest
  subst hrest
  have hpad : ∀ s, pad false 0 s = s := by
    intro s
    unfold pad
    simp
  simp only [intervalDirectives, intervalArgs, List.cons_append, List.nil_append, render, convert,
    Option.bind_eq_bind, Option.bind_some, Option.map_eq_some_iff, Option.bind_eq_some_iff,
    Option.pure_def, Option.some.injEq, hpad, exists_exists_and_eq_and] at hrender
  obtain ⟨_, ⟨ubuf, hubuf, _, ⟨nbuf, hnbuf, tail, -, rfl⟩, rfl⟩, rfl⟩ := hrender
  refine ⟨ubuf, nbuf, tail, hubuf, hnbuf, ?_⟩
  unfold intervalLine
  simp only [List.append_assoc]
  rfl

end Iperf
