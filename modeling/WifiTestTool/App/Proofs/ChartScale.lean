import Mathlib.Tactic.IntervalCases
import WifiTestTool.Iperf.Proofs.UnitChoice
import WifiTestTool.App.Proofs.ReportLine

/-!
# What the chart shows

The axis of the chart is in Mbit/s. What is drawn is the number of the line, in the unit that
`unit_snprintf` has chosen for it: the number is that of the bandwidth in Mbit/s exactly when the unit is
Mbit, or when so little is sent that the number is 0 (`shownAs_iff`).

What `unit_snprintf` prints is the bandwidth in its unit, up to a few roundings of doubles
(`scaled_within`), and grows with the bandwidth as long as the unit is the same (`printed_mono`).
-/

namespace WifiTest

open Iperf (printed double ThreeDigits unitPrecision unitScale unitQuantity unitConv conversions
  fixedUnits GIGA_CONV)
open Rounding (Within)

/-! ## The number in its unit -/

/-- The bits per second of a bandwidth, as `unit_snprintf` computes them. -/
def bitRate (b : ℚ) : ℚ := double (b * 8)

/-- The factor of the unit `k`, as in `conversion_bits`. -/
def bitFactor : Nat → ℚ
  | 0 => 1
  | k + 1 => double (bitFactor k / 1000)

theorem bitFactor_within : ∀ k < 4, Within (1 / 2 ^ 53) k (bitFactor k) (1 / 1000 ^ k) := by decide +kernel

theorem bitFactor_nonneg (k : Nat) : 0 ≤ bitFactor k := by
  induction k with
  | zero => exact zero_le_one
  | succ k ih => exact Iperf.double_nonneg (div_nonneg ih (by norm_num))

theorem bitRate_nonneg {b : ℚ} (h : 0 ≤ b) : 0 ≤ bitRate b :=
  Iperf.double_nonneg (mul_nonneg h (by norm_num))

theorem double_bitRate {b : ℚ} (h : 0 ≤ b) : double (bitRate b) = bitRate b :=
  Iperf.double_double (mul_nonneg h (by norm_num))

/-- The number that is printed for a bandwidth below 2^36 bytes a second. -/
theorem unitScale_bits {b scaled : ℚ} {suffix : String} (hb : 0 ≤ b) (hmax : b < 2 ^ 36)
    (h : unitScale b 'a' = some (scaled, suffix)) :
    ∃ k < 4, scaled = double (bitRate b * bitFactor k) ∧ (0 < k → 1000 ^ k ≤ bitRate b) ∧
      bitRate b < 1000 ^ (k + 1) := by
  have hquantity : unitQuantity double b 'a' = bitRate b := rfl
  have hbase : Iperf.unitBase 'a' = 1000 := rfl
  obtain ⟨k, hk, hconv, hlow, hhigh⟩ :=
    Iperf.unitConv_spec (Iperf.keepsUnits_code 'a') (bitRate_nonneg hb) (double_bitRate hb)
      (by decide : Iperf.AdaptiveFormat 'a')
  rw [hquantity, hbase] at hlow hhigh
  have htop : bitRate b ≤ 2 ^ 39 := by
    have hexact : double (2 ^ 39) = 2 ^ 39 := by
      have hint := Iperf.double_intCast (n := 2 ^ 39) (by norm_num)
      exact_mod_cast hint
    rw [← hexact]
    refine Iperf.double_mono (mul_nonneg hb (by norm_num)) ?_
    linarith
  have hk4 : k < 4 := by
    by_contra hnot
    obtain rfl : k = 4 := by
      have : k ≤ 3 + 1 := hk
      omega
    have := hlow (by norm_num)
    norm_num at this htop
    linarith
  refine ⟨k, hk4, ?_, hlow, hhigh hk4⟩
  have hscaled := Iperf.unitScale_eq b 'a'
  rw [h, Iperf.unitScaled, hconv, hquantity, hbase] at hscaled
  have hfactor : (conversions double 1000)[k]? = some (bitFactor k) := by
    interval_cases k <;> rfl
  rw [hfactor] at hscaled
  exact Option.some.inj hscaled

/-- The printed number is the bandwidth in its unit, up to the rounding of doubles. -/
theorem scaled_within {b : ℚ} (hb : 0 ≤ b) (hrate : 1 / 200 < bitRate b) {k : Nat} (hk : k < 4) :
    Within (1 / 2 ^ 50) 1 (double (bitRate b * bitFactor k)) (b * 8 / 1000 ^ k) := by
  have hu : (0 : ℚ) ≤ 1 / 2 ^ 53 := by norm_num
  have hu' : (1 : ℚ) / 2 ^ 53 ≤ 1 := by norm_num
  have htiny : (2 : ℚ) ^ (-1022 : ℤ) ≤ 1 / 2 ^ 100 :=
    (zpow_le_zpow_right₀ (by norm_num) (by norm_num : (-1022 : ℤ) ≤ -100)).trans (by norm_num)
  have hfactor : ∀ k < 4, 1 / 10 ^ 10 ≤ bitFactor k := by decide +kernel
  have hb8 : 0 ≤ b * 8 := mul_nonneg hb (by norm_num)
  have hrate8 : (2 : ℚ) ^ (-1022 : ℤ) ≤ b * 8 := by
    have := Iperf.double_le hb8
    unfold bitRate at hrate
    linarith
  have hproduct : (2 : ℚ) ^ (-1022 : ℤ) ≤ bitRate b * bitFactor k := by
    have := mul_le_mul hrate.le (hfactor k hk) (by norm_num) (bitRate_nonneg hb)
    refine htiny.trans (le_trans ?_ this)
    norm_num
  have hwithin : Within (1 / 2 ^ 53) (1 + (1 + k)) (double (bitRate b * bitFactor k))
      (b * 8 * (1 / 1000 ^ k)) :=
    (Rounding.toFloat_within hproduct).trans hu hu'
      ((Rounding.toFloat_within hrate8).mul hu' hb8 (by positivity) (bitFactor_within k hk))
  have hpow : ∀ n ≤ 5, (1 : ℚ) - 1 / 2 ^ 50 ≤ (1 - 1 / 2 ^ 53) ^ n ∧
      (1 + 1 / 2 ^ 53 : ℚ) ^ n ≤ 1 + 1 / 2 ^ 50 := by
    intro n hn
    interval_cases n <;> norm_num
  obtain ⟨hlow, hhigh⟩ := hpow (1 + (1 + k)) (by omega)
  have hnonneg : 0 ≤ b * 8 * (1 / 1000 ^ k) := by positivity
  rw [Within, pow_one, pow_one, div_eq_mul_one_div (b * 8)]
  exact ⟨(mul_le_mul_of_nonneg_right hlow hnonneg).trans hwithin.1,
    hwithin.2.trans (mul_le_mul_of_nonneg_right hhigh hnonneg)⟩

/-! ## The printed digits -/

section Printed

variable {precision : Nat} {q : ℚ}

theorem printed_nonneg (precision : Nat) (q : ℚ) : 0 ≤ printed precision q := by
  unfold printed
  positivity

theorem abs_printed_sub_le (precision : Nat) (h : 0 ≤ q) :
    |printed precision q - q| ≤ 1 / 2 / 10 ^ precision := by
  have hpow : (0 : ℚ) < 10 ^ precision := by positivity
  have hunits : (fixedUnits precision q : ℚ) = Rounding.nearest (q * 10 ^ precision) := by
    rw [fixedUnits, abs_of_nonneg h]
    exact_mod_cast Int.toNat_of_nonneg (Rounding.nearest_nonneg (mul_nonneg h hpow.le))
  have hlow := Rounding.le_nearest (q * 10 ^ precision)
  have hhigh := Rounding.nearest_le (q * 10 ^ precision)
  have heq : printed precision q - q =
      (Rounding.nearest (q * 10 ^ precision) - q * 10 ^ precision) / 10 ^ precision := by
    rw [printed, hunits, sub_div, mul_div_cancel_right₀ _ hpow.ne']
  rw [heq, abs_div, abs_of_pos hpow]
  refine div_le_div_of_nonneg_right ?_ hpow.le
  rw [abs_le]
  constructor <;> linarith

theorem printed_le {n : Nat} {c : ℚ} (h : 0 ≤ q) (hq : q ≤ c)
    (hc : Rounding.nearest (c * 10 ^ precision) ≤ n) : printed precision q ≤ n / 10 ^ precision := by
  have := Iperf.fixedUnits_le h (mul_le_mul_of_nonneg_right hq (by positivity)) hc
  unfold printed
  gcongr

theorem le_printed {n : Nat} {c : ℚ} (h : 0 ≤ q) (hq : c ≤ q)
    (hc : n ≤ Rounding.nearest (c * 10 ^ precision)) : n / 10 ^ precision ≤ printed precision q := by
  have := Iperf.le_fixedUnits h (mul_le_mul_of_nonneg_right hq (by positivity)) hc
  unfold printed
  gcongr

theorem printed_mono_left {q' : ℚ} (h : 0 ≤ q) (hq : q ≤ q') :
    printed precision q ≤ printed precision q' := by
  have hpow : (0 : ℚ) ≤ 10 ^ precision := by positivity
  have hnearest := Rounding.nearest_nonneg (mul_nonneg (h.trans hq) hpow)
  have hunits : ((fixedUnits precision q' : ℤ)) = Rounding.nearest (q' * 10 ^ precision) := by
    rw [fixedUnits, abs_of_nonneg (h.trans hq)]
    exact Int.toNat_of_nonneg hnearest
  exact printed_le h hq hunits.ge

end Printed

/-- The number of decimals, by the size of the number. -/
theorem unitPrecision_cases (s : ℚ) :
    (s < double (9995 / 1000) ∧ unitPrecision s = 2) ∨
    (double (9995 / 1000) ≤ s ∧ s < double (9995 / 100) ∧ unitPrecision s = 1) ∨
    (double (9995 / 100) ≤ s ∧ unitPrecision s = 0) := by
  have horder := Iperf.double_9_995_le_99_95
  unfold unitPrecision
  by_cases h2 : s < double (9995 / 1000)
  · exact .inl ⟨h2, if_pos h2⟩
  · rw [if_neg h2]
    by_cases h1 : s < double (9995 / 100)
    · exact .inr (.inl ⟨not_lt.1 h2, h1, if_pos h1⟩)
    · refine .inr (.inr ⟨not_lt.1 h1, ?_⟩)
      rw [if_neg h1, ite_self]

theorem nearest_le_thousand {q : ℚ} (h : q ≤ 1000) : Rounding.nearest q ≤ (1000 : ℕ) := by
  have hmono : Rounding.nearest q ≤ Rounding.nearest ((1000 : ℤ) : ℚ) := Rounding.nearest_mono (by exact_mod_cast h)
  rwa [Rounding.nearest_intCast] at hmono

/-- A greater number is not printed as a smaller one, also where the number of decimals changes. -/
theorem printed_mono {s s' : ℚ} (h : 0 ≤ s) (hs : s ≤ s') :
    printed (unitPrecision s) s ≤ printed (unitPrecision s') s' := by
  have h' : 0 ≤ s' := h.trans hs
  -- What is printed just below and just above the two switches.
  have hten : Rounding.nearest (double (9995 / 1000) * 10 ^ 2) ≤ (1000 : ℕ) ∧
      ((100 : ℕ) : ℤ) ≤ Rounding.nearest (double (9995 / 1000) * 10 ^ 1) :=
    ⟨nearest_le_thousand (by linarith [Iperf.double_9_995_le]),
      Iperf.le_nearest_99_9.trans (Rounding.nearest_mono (by linarith [Iperf.double_9_995]))⟩
  have hhundred : Rounding.nearest (double (9995 / 100) * 10 ^ 1) ≤ (1000 : ℕ) ∧
      ((100 : ℕ) : ℤ) ≤ Rounding.nearest (double (9995 / 100) * 10 ^ 0) :=
    ⟨nearest_le_thousand (by linarith [Iperf.double_99_95_le]),
      Iperf.le_nearest_99_9.trans (Rounding.nearest_mono (by linarith [Iperf.double_99_95]))⟩
  have hlow2 : s < double (9995 / 1000) → printed 2 s ≤ 10 := fun hlt => by
    have := printed_le h hlt.le hten.1
    norm_num at this
    exact this
  have hlow1 : s < double (9995 / 100) → printed 1 s ≤ 100 := fun hlt => by
    have := printed_le h hlt.le hhundred.1
    norm_num at this
    exact this
  have hhigh1 : double (9995 / 1000) ≤ s' → 10 ≤ printed 1 s' := fun hle => by
    have := le_printed h' hle hten.2
    norm_num at this
    exact this
  have hhigh0 : double (9995 / 100) ≤ s' → 100 ≤ printed 0 s' := fun hle => by
    have := le_printed h' hle hhundred.2
    norm_num at this
    exact this
  have horder := Iperf.double_9_995_le_99_95
  rcases unitPrecision_cases s with ⟨hs2, hp⟩ | ⟨hs2, hs1, hp⟩ | ⟨hs1, hp⟩ <;>
    rcases unitPrecision_cases s' with ⟨hs2', hp'⟩ | ⟨hs2', hs1', hp'⟩ | ⟨hs1', hp'⟩ <;> rw [hp, hp']
  · exact printed_mono_left h hs
  · exact (hlow2 hs2).trans (hhigh1 hs2')
  · linarith [hlow2 hs2, hhigh0 hs1']
  · exact absurd (hs2.trans hs) (not_le.2 hs2')
  · exact printed_mono_left h hs
  · exact (hlow1 hs1).trans (hhigh0 hs1')
  · exact absurd ((horder.trans hs1).trans hs) (not_le.2 hs2')
  · exact absurd (hs1.trans hs) (not_le.2 hs1')
  · exact printed_mono_left h hs

/-- A `float` holds the printed number. -/
theorem float_printed_within (s : ℚ) : Within (1 / 2 ^ 24) 1
    (Rounding.toFloat 24 (-126) (printed (unitPrecision s) s)) (printed (unitPrecision s) s) := by
  have hp : unitPrecision s ≤ 2 := by
    rcases unitPrecision_cases s with ⟨-, hp⟩ | ⟨-, -, hp⟩ | ⟨-, hp⟩ <;> rw [hp] <;> norm_num
  rcases Nat.eq_zero_or_pos (fixedUnits (unitPrecision s) s) with hzero | hpos
  · have : printed (unitPrecision s) s = 0 := by rw [printed, hzero, Nat.cast_zero, zero_div]
    rw [this, Rounding.toFloat_zero]
    norm_num [Within]
  · refine Rounding.toFloat_within ?_
    have hone : (1 : ℚ) ≤ fixedUnits (unitPrecision s) s := by exact_mod_cast hpos
    have hpow : (10 : ℚ) ^ unitPrecision s ≤ 10 ^ 2 := pow_le_pow_right₀ (by norm_num) hp
    rw [printed, le_div_iff₀ (by positivity)]
    refine le_trans ?_ hone
    calc (2 : ℚ) ^ (-126 : ℤ) * 10 ^ unitPrecision s ≤ 2 ^ (-126 : ℤ) * 10 ^ 2 := by gcongr
      _ ≤ 1 := by norm_num

/-- The value that is drawn for a printed number. -/
def chartValue (s : ℚ) : ℚ := Rounding.toFloat 24 (-126) (printed (unitPrecision s) s)

theorem chartValue_mono {s s' : ℚ} (h : 0 ≤ s) (hs : s ≤ s') : chartValue s ≤ chartValue s' :=
  Rounding.toFloat_mono (by decide) (printed_nonneg _ _) (printed_mono h hs)

/-- The last printed digit is worth less than a 99th of a number that has digits before the point, and the
number at most 1001 of its last digits. -/
theorem precision_bounds {s : ℚ} (hs : s ≤ 1001) :
    s ≤ 1001 * (1 / 10 ^ unitPrecision s) ∧ (999 / 1000 ≤ s → 99 * (1 / 10 ^ unitPrecision s) ≤ s) ∧
      (1 / 200 < s → 1 / 2 * (1 / 10 ^ unitPrecision s) < s) := by
  have hten := Iperf.double_9_995_le
  have hhundred := Iperf.double_99_95_le
  have hten' := Iperf.double_9_995
  have hhundred' := Iperf.double_99_95
  rcases unitPrecision_cases s with ⟨hs2, hp⟩ | ⟨hs2, hs1, hp⟩ | ⟨hs1, hp⟩
  · rw [hp]
    exact ⟨by linarith, fun hlow => by linarith, fun hlow => by linarith⟩
  · rw [hp]
    exact ⟨by linarith, fun _ => by linarith, fun _ => by linarith⟩
  · rw [hp]
    exact ⟨by linarith, fun _ => by linarith, fun _ => by linarith⟩

/-- The drawn value is the number up to half a unit of its last digit, and what a `float` loses. -/
theorem chartValue_near {s : ℚ} (hs : 0 ≤ s) :
    (1 - 1 / 2 ^ 24) * (s - 1 / 2 * (1 / 10 ^ unitPrecision s)) ≤ chartValue s ∧
      chartValue s ≤ (1 + 1 / 2 ^ 24) * (s + 1 / 2 * (1 / 10 ^ unitPrecision s)) := by
  have hfloat := float_printed_within s
  rw [Within, pow_one, pow_one] at hfloat
  have hprinted := abs_le.1 (abs_printed_sub_le (unitPrecision s) hs)
  rw [div_eq_mul_one_div (1 / 2 : ℚ)] at hprinted
  constructor
  · refine le_trans ?_ hfloat.1
    exact mul_le_mul_of_nonneg_left (by linarith [hprinted.1]) (by norm_num)
  · refine hfloat.2.trans ?_
    exact mul_le_mul_of_nonneg_left (by linarith [hprinted.2]) (by norm_num)

/-- A number that is not printed as 0 is drawn at least as high as its last digit. -/
theorem le_chartValue {s : ℚ} (hs : 0 ≤ s) (hdigit : 1 / 2 * (1 / 10 ^ unitPrecision s) < s) :
    (1 - 1 / 2 ^ 24) * (1 / 10 ^ unitPrecision s) ≤ chartValue s := by
  have hfloat := float_printed_within s
  rw [Within, pow_one, pow_one] at hfloat
  have hprinted := abs_le.1 (abs_printed_sub_le (unitPrecision s) hs)
  rw [div_eq_mul_one_div (1 / 2 : ℚ)] at hprinted
  have hpos : 0 < fixedUnits (unitPrecision s) s := by
    have : 0 < printed (unitPrecision s) s := by linarith [hprinted.1]
    rw [printed] at this
    by_contra hnot
    rw [Nat.eq_zero_of_not_pos hnot, Nat.cast_zero, zero_div] at this
    exact lt_irrefl _ this
  have hone : 1 / 10 ^ unitPrecision s ≤ printed (unitPrecision s) s := by
    rw [printed]
    gcongr
    exact_mod_cast hpos
  exact (mul_le_mul_of_nonneg_left hone (by norm_num)).trans hfloat.1

/-! ## The chart -/

open Iperf (Mem IperfStream IperfIntervalResults)

/-- A line that `print_interval_results` prints, in the default format of the units, for a bandwidth of `b`
bytes a second. -/
inductive ReportOf (b : ℚ) (line : Text) : Prop where
  | intro {m : Mem} {sp : Nat} {st : IperfStream} {irp : IperfIntervalResults} (socket : 0 ≤ st.socket)
    (duration : 0 < irp.intervalDuration) (format : m.test.settings.unitFormat = 'a')
    (stream : m.test.streams[sp]? = some st) (report : st.result.intervalResults.getLast? = some irp)
    (bandwidth : reportBandwidth irp = b) (printed : PrintsLine m sp line)

/-- A bandwidth in Mbit/s. -/
def mbits (b : ℚ) : ℚ := b * 8 / 10 ^ 6

/-- The number of decimals that are printed for a bandwidth. -/
def printedDecimals (b : ℚ) : Nat :=
  match unitScale b 'a' with
  | some (scaled, _) => unitPrecision scaled
  | none => 0

/-- The line is read as the point `p`, whose value is the bandwidth in Mbit/s up to the rounding of the
printed digits: it is off by at most half a unit of the last one, and a thousandth of a unit for what
`double` and `float` cannot hold. -/
structure ShownAs (b : ℚ) (line : Text) (p : PointValue) : Prop where
  read : readReport line = .ok p
  value : |p.y - mbits b| ≤ 501 / 1000 / 10 ^ printedDecimals b

/-- Both lines are shown in Mbit/s, and the second one not lower than the first. -/
def ChartShows (b₁ b₂ : ℚ) (line₁ line₂ : Text) : Prop :=
  ∃ p₁ p₂, ShownAs b₁ line₁ p₁ ∧ ShownAs b₂ line₂ p₂ ∧ p₁.y ≤ p₂.y

/-- The bandwidth is printed as 0, or in Mbit and not with three digits. -/
def ShownInMbits (b : ℚ) : Prop :=
  bitRate b ≤ 1 / 200 ∨ (10 ^ 6 ≤ bitRate b ∧ bitRate b ≤ 99950000) ∨
    (999500000 ≤ bitRate b ∧ bitRate b < 10 ^ 9)

instance (b : ℚ) : Decidable (ShownInMbits b) := inferInstanceAs (Decidable (_ ∨ _ ∨ _))

/-- A greater bit rate is not a smaller number of Mbit. -/
theorem mbit_mono {x y : ℚ} (hx : 0 ≤ x) (h : x ≤ y) :
    double (x * bitFactor 2) ≤ double (y * bitFactor 2) := by
  have hfactor := bitFactor_nonneg 2
  exact Iperf.double_mono (mul_nonneg hx hfactor) (mul_le_mul_of_nonneg_right h hfactor)

/-- The last bit rate that is printed with two digits and a decimal. -/
theorem mbit_lt_iff {b : ℚ} (hb : 0 ≤ b) :
    double (bitRate b * bitFactor 2) < double (9995 / 100) ↔ bitRate b ≤ 99950000 := by
  have hlast : double (99950000 * bitFactor 2) < double (9995 / 100) := by decide +kernel
  have hnext : double (9995 / 100) ≤ double (((6707530956800001 : ℤ) : ℚ) * 2 ^ (-26 : ℤ) * bitFactor 2) := by
    decide +kernel
  constructor
  · intro hlt
    have hbelow : bitRate b < ((6707530956800001 : ℤ) : ℚ) * 2 ^ (-26 : ℤ) := by
      by_contra hnot
      exact absurd hlt (not_lt.2 (hnext.trans (mbit_mono (by norm_num) (not_lt.1 hnot))))
    have hpred := Rounding.le_pred_of_lt (by decide) (by norm_num) (by norm_num) (by norm_num)
      (double_bitRate hb) hbelow
    norm_num at hpred
    exact hpred
  · intro hle
    exact (mbit_mono (bitRate_nonneg hb) hle).trans_lt hlast

/-- The first bit rate that is printed as 1000. -/
theorem le_mbit_iff {b : ℚ} (hb : 0 ≤ b) :
    double (9995 / 10) ≤ double (bitRate b * bitFactor 2) ↔ 999500000 ≤ bitRate b := by
  have hfirst : double (9995 / 10) ≤ double (999500000 * bitFactor 2) := by decide +kernel
  have hprev : double ((((8384413696000000 : ℤ) : ℚ) - 1) * 2 ^ (-23 : ℤ) * bitFactor 2) < double (9995 / 10) := by
    decide +kernel
  constructor
  · intro hle
    by_contra hnot
    have hbelow : bitRate b < ((8384413696000000 : ℤ) : ℚ) * 2 ^ (-23 : ℤ) := by
      norm_num
      exact not_le.1 hnot
    have hpred := Rounding.le_pred_of_lt (by decide) (by norm_num) (by norm_num) (by norm_num)
      (double_bitRate hb) hbelow
    exact absurd hle (not_le.2 ((mbit_mono (bitRate_nonneg hb) hpred).trans_lt hprev))
  · intro hle
    exact hfirst.trans (mbit_mono (by norm_num) hle)

/-- In Mbit, the numbers with three digits. -/
theorem threeDigits_mbit {b : ℚ} (hb : 0 ≤ b) (hlow : 10 ^ 6 ≤ bitRate b) (hhigh : bitRate b < 10 ^ 9) :
    ThreeDigits (double (bitRate b * bitFactor 2)) ↔ ¬ ShownInMbits b := by
  have hbits : ¬ bitRate b ≤ 1 / 200 := by
    intro hle
    norm_num at hlow
    linarith
  rw [ThreeDigits, ← not_lt, mbit_lt_iff hb, ← not_le (b := double (bitRate b * bitFactor 2)), le_mbit_iff hb]
  unfold ShownInMbits
  tauto

/-! ### One line -/

theorem ReportOf.nonneg {b : ℚ} {line : Text} (h : ReportOf b line) : 0 ≤ b := by
  obtain ⟨-, hduration, -, -, -, hb, -⟩ := h
  rw [← hb]
  exact div_nonneg (Nat.cast_nonneg _) hduration.le

/-- What is drawn for a line. -/
theorem ReportOf.read {b : ℚ} {line : Text} (h : ReportOf b line) (hmax : b < 2 ^ 36) :
    ∃ k < 4, ∃ x, (0 < k → 1000 ^ k ≤ bitRate b) ∧ bitRate b < 1000 ^ (k + 1) ∧
      printedDecimals b = unitPrecision (double (bitRate b * bitFactor k)) ∧
      readReport line = if ThreeDigits (double (bitRate b * bitFactor k)) then .error .numberFormat
        else .ok ⟨x, chartValue (double (bitRate b * bitFactor k))⟩ := by
  have hb := h.nonneg
  obtain ⟨hsocket, hduration, hformat, hst, hirp, hbandwidth, hprinted⟩ := h
  obtain ⟨scaled, suffix, hscale, hread⟩ :=
    readReport_printed hsocket hduration.le (.inl hformat) hst hirp hprinted
  rw [hbandwidth, hformat] at hscale
  obtain ⟨k, hk, rfl, hlow, hhigh⟩ := unitScale_bits hb hmax hscale
  have hdecimals : printedDecimals b = unitPrecision (double (bitRate b * bitFactor k)) := by
    rw [printedDecimals, hscale]
  exact ⟨k, hk, _, hlow, hhigh, hdecimals, hread⟩

/-- The number is at most 1001, and about 1 or more behind the first unit. -/
theorem scaled_bounds {b : ℚ} (hb : 0 ≤ b) {k : Nat} (hk : k < 4) (hlow : 0 < k → 1000 ^ k ≤ bitRate b)
    (hhigh : bitRate b < 1000 ^ (k + 1)) :
    0 ≤ double (bitRate b * bitFactor k) ∧ double (bitRate b * bitFactor k) ≤ 1001 ∧
      (0 < k → 999 / 1000 ≤ double (bitRate b * bitFactor k)) := by
  have hends : ∀ k < 4, 999 / 1000 ≤ double (1000 ^ k * bitFactor k) ∧
      double (1000 ^ (k + 1) * bitFactor k) ≤ 1001 := by decide +kernel
  have hrate := bitRate_nonneg hb
  refine ⟨Iperf.double_nonneg (mul_nonneg hrate (bitFactor_nonneg k)), ?_, fun hpos => ?_⟩
  · refine le_trans ?_ (hends k hk).2
    exact Iperf.double_mono (mul_nonneg hrate (bitFactor_nonneg k))
      (mul_le_mul_of_nonneg_right hhigh.le (bitFactor_nonneg k))
  · refine (hends k hk).1.trans ?_
    exact Iperf.double_mono (mul_nonneg (by positivity) (bitFactor_nonneg k))
      (mul_le_mul_of_nonneg_right (hlow hpos) (bitFactor_nonneg k))

/-- In a unit other than Mbit, the value is not the one in Mbit/s. -/
theorem chartValue_far {b : ℚ} (hb : 0 ≤ b) (hrate : 1 / 200 < bitRate b) {k : Nat} (hk : k < 4)
    (hlow : 0 < k → 1000 ^ k ≤ bitRate b) (hhigh : bitRate b < 1000 ^ (k + 1)) (hmbit : k ≠ 2) :
    501 / 1000 / 10 ^ unitPrecision (double (bitRate b * bitFactor k)) <
      |chartValue (double (bitRate b * bitFactor k)) - mbits b| := by
  obtain ⟨hnonneg, hmax, hmin⟩ := scaled_bounds hb hk hlow hhigh
  have hwithin := scaled_within hb hrate hk
  have hbits : k = 0 → double (bitRate b * bitFactor k) = bitRate b := by
    rintro rfl
    rw [bitFactor, mul_one, double_bitRate hb]
  have hmbits : b * 8 = mbits b * 10 ^ 6 := by
    unfold mbits
    ring
  rw [Within, pow_one, pow_one, hmbits] at hwithin
  generalize double (bitRate b * bitFactor k) = s at *
  obtain ⟨hdigits, hunits, hzero⟩ := precision_bounds hmax
  obtain ⟨hvalue, hvalue'⟩ := chartValue_near hnonneg
  have hone : 1 / 200 < s → (1 - 1 / 2 ^ 24) * (1 / 10 ^ unitPrecision s) ≤ chartValue s :=
    fun hpos => le_chartValue hnonneg (hzero hpos)
  have hdigit : (0 : ℚ) < 1 / 10 ^ unitPrecision s := by positivity
  rw [div_eq_mul_one_div, lt_abs]
  generalize (1 : ℚ) / 10 ^ unitPrecision s = digit at *
  interval_cases k
  · -- A number of bits is a million times too large; its last digit is more than the number of Mbit.
    have hone := hone (hbits rfl ▸ hrate)
    left
    norm_num at hwithin hone
    linarith [hwithin.1]
  · -- A number of Kbit is a thousand times too large.
    have := hunits (hmin (by norm_num))
    left
    norm_num at hwithin hvalue
    linarith [hwithin.1]
  · exact absurd rfl hmbit
  · -- A number of Gbit is a thousand times too small.
    have := hunits (hmin (by norm_num))
    right
    norm_num at hwithin hvalue'
    linarith [hwithin.2]

/-- In Mbit, it is. -/
theorem chartValue_mbit {b : ℚ} (hb : 0 ≤ b) (hlow : 10 ^ 6 ≤ bitRate b) (hhigh : bitRate b < 10 ^ 9) :
    |chartValue (double (bitRate b * bitFactor 2)) - mbits b| ≤
      501 / 1000 / 10 ^ unitPrecision (double (bitRate b * bitFactor 2)) := by
  have hrate : 1 / 200 < bitRate b := lt_of_lt_of_le (by norm_num) hlow
  obtain ⟨hnonneg, hmax, -⟩ := scaled_bounds hb (by norm_num : 2 < 4)
    (fun _ => by norm_num at hlow ⊢; exact hlow) (by norm_num at hhigh ⊢; exact hhigh)
  have hwithin := scaled_within hb hrate (by norm_num : 2 < 4)
  have hmbits : b * 8 / 1000 ^ 2 = mbits b := by
    unfold mbits
    norm_num
  rw [Within, pow_one, pow_one, hmbits] at hwithin
  generalize double (bitRate b * bitFactor 2) = s at *
  obtain ⟨hdigits, -, -⟩ := precision_bounds hmax
  obtain ⟨hvalue, hvalue'⟩ := chartValue_near hnonneg
  have hdigit : (0 : ℚ) < 1 / 10 ^ unitPrecision s := by positivity
  rw [div_eq_mul_one_div, abs_le]
  generalize (1 : ℚ) / 10 ^ unitPrecision s = digit at *
  norm_num at hwithin hvalue hvalue'
  constructor
  · linarith [hwithin.1, hwithin.2]
  · linarith [hwithin.1, hwithin.2]

/-- Next to nothing is drawn as 0. -/
theorem chartValue_zero {b : ℚ} (hb : 0 ≤ b) (hrate : bitRate b ≤ 1 / 200) :
    chartValue (double (bitRate b * bitFactor 0)) = 0 ∧ mbits b ≤ 1 / 1000 ∧
      unitPrecision (double (bitRate b * bitFactor 0)) = 2 := by
  have hnonneg := bitRate_nonneg hb
  have hprecision : unitPrecision (bitRate b) = 2 := by
    have := Iperf.double_9_995
    exact if_pos (by linarith)
  rw [bitFactor, mul_one, double_bitRate hb]
  refine ⟨?_, ?_, hprecision⟩
  · have hnearest : Rounding.nearest (1 / 200 * 10 ^ 2) ≤ (0 : ℕ) := by decide +kernel
    have hle := printed_le hnonneg hrate hnearest
    rw [Nat.cast_zero, zero_div] at hle
    rw [chartValue, hprecision, le_antisymm hle (printed_nonneg _ _), Rounding.toFloat_zero]
  · unfold mbits
    by_cases hone : 1 ≤ b * 8
    · have := Iperf.le_double hone
      unfold bitRate at hrate
      linarith
    · linarith

/-- Above 0, the condition leaves the numbers whose unit is Mbit. -/
theorem ShownInMbits.range {b : ℚ} (h : ShownInMbits b) (hrate : 1 / 200 < bitRate b) :
    10 ^ 6 ≤ bitRate b ∧ bitRate b < 10 ^ 9 := by
  rcases h with h | ⟨hlow, hhigh⟩ | ⟨hlow, hhigh⟩
  · exact absurd h (not_le.2 hrate)
  · refine ⟨hlow, ?_⟩
    norm_num
    linarith
  · refine ⟨?_, hhigh⟩
    norm_num
    linarith

/-- The unit of these numbers is Mbit, and of no others. -/
theorem unit_eq_two_iff {b : ℚ} {k : Nat} (hk : k < 4) (hlow : 0 < k → 1000 ^ k ≤ bitRate b)
    (hhigh : bitRate b < 1000 ^ (k + 1)) : k = 2 ↔ 10 ^ 6 ≤ bitRate b ∧ bitRate b < 10 ^ 9 := by
  constructor
  · rintro rfl
    have hlow := hlow (by norm_num)
    norm_num at hlow hhigh ⊢
    exact ⟨hlow, hhigh⟩
  · rintro ⟨hmin, hmax⟩
    by_contra hne
    rcases Nat.lt_or_gt_of_ne hne with hless | hmore
    · have hpow : (1000 : ℚ) ^ (k + 1) ≤ 1000 ^ 2 := pow_le_pow_right₀ (by norm_num) (by omega)
      norm_num at hpow hmin
      linarith
    · obtain rfl : k = 3 := by omega
      have hlow := hlow (by norm_num)
      norm_num at hlow hmax
      linarith

/-- **One line.** It is shown in Mbit/s exactly if its unit is Mbit and it has not three digits, or if it
shows that nothing was sent. -/
theorem shownAs_iff {b : ℚ} {line : Text} (h : ReportOf b line) (hmax : b < 2 ^ 36) :
    (∃ p, ShownAs b line p) ↔ ShownInMbits b := by
  have hb := h.nonneg
  obtain ⟨k, hk, x, hlow, hhigh, hdecimals, hread⟩ := h.read hmax
  by_cases hrate : bitRate b ≤ 1 / 200
  · obtain rfl : k = 0 := by
      by_contra hpos
      have hone : (1 : ℚ) ≤ 1000 ^ k := one_le_pow₀ (by norm_num)
      linarith [hlow (Nat.pos_of_ne_zero hpos)]
    obtain ⟨hzero, hsmall, hprecision⟩ := chartValue_zero hb hrate
    have hthree : ¬ ThreeDigits (double (bitRate b * bitFactor 0)) := by
      rintro ⟨hthree, -⟩
      rw [bitFactor, mul_one, double_bitRate hb] at hthree
      linarith [Iperf.double_99_95]
    rw [if_neg hthree, hzero] at hread
    refine ⟨fun _ => .inl hrate, fun _ => ⟨⟨x, 0⟩, hread, ?_⟩⟩
    have hmbits : 0 ≤ mbits b := by
      unfold mbits
      positivity
    rw [hdecimals, hprecision, zero_sub, abs_neg, abs_of_nonneg hmbits]
    norm_num
    linarith
  · have hrate := not_le.1 hrate
    have hunit := unit_eq_two_iff hk hlow hhigh
    by_cases hmbit : k = 2
    · obtain ⟨hlow', hhigh'⟩ := hunit.1 hmbit
      subst hmbit
      have hiff := threeDigits_mbit hb hlow' hhigh'
      by_cases hthree : ThreeDigits (double (bitRate b * bitFactor 2))
      · rw [if_pos hthree] at hread
        refine ⟨fun ⟨p, hp⟩ => ?_, fun hshown => absurd hshown (hiff.1 hthree)⟩
        rw [hp.read] at hread
        cases hread
      · rw [if_neg hthree] at hread
        refine ⟨fun _ => not_not.1 (mt hiff.2 hthree), fun _ => ⟨⟨x, _⟩, hread, ?_⟩⟩
        rw [hdecimals]
        exact chartValue_mbit hb hlow' hhigh'
    · refine ⟨fun ⟨p, hp⟩ => ?_, fun hshown => absurd (hunit.2 (hshown.range hrate)) hmbit⟩
      have hfar := chartValue_far hb hrate hk hlow hhigh hmbit
      have hvalue := hp.value
      rw [hp.read] at hread
      split_ifs at hread
      obtain rfl := Except.ok.inj hread
      rw [hdecimals] at hvalue
      exact absurd hvalue (not_le.2 hfar)

/-! ### Two lines -/

/-- Of two lines in Mbit/s, the one for the greater bandwidth is not drawn lower. -/
theorem shownAs_mono {b₁ b₂ : ℚ} {line₁ line₂ : Text} {p₁ p₂ : PointValue} (h₁ : ReportOf b₁ line₁)
    (h₂ : ReportOf b₂ line₂) (hle : b₁ ≤ b₂) (hmax : b₂ < 2 ^ 36) (hp₁ : ShownAs b₁ line₁ p₁)
    (hp₂ : ShownAs b₂ line₂ p₂) : p₁.y ≤ p₂.y := by
  have hmax₁ := hle.trans_lt hmax
  obtain ⟨k₁, hk₁, x₁, hlow₁, hhigh₁, -, hread₁⟩ := h₁.read hmax₁
  obtain ⟨k₂, hk₂, x₂, hlow₂, hhigh₂, -, hread₂⟩ := h₂.read hmax
  have hbounds₁ := scaled_bounds h₁.nonneg hk₁ hlow₁ hhigh₁
  have hbounds₂ := scaled_bounds h₂.nonneg hk₂ hlow₂ hhigh₂
  rw [hp₁.read] at hread₁
  rw [hp₂.read] at hread₂
  split_ifs at hread₁ hread₂
  obtain rfl := Except.ok.inj hread₁
  obtain rfl := Except.ok.inj hread₂
  have hrates : bitRate b₁ ≤ bitRate b₂ :=
    Iperf.double_mono (mul_nonneg h₁.nonneg (by norm_num)) (by linarith)
  have hshown₁ := (shownAs_iff h₁ hmax₁).1 ⟨_, hp₁⟩
  have hshown₂ := (shownAs_iff h₂ hmax).1 ⟨_, hp₂⟩
  by_cases hrate : bitRate b₁ ≤ 1 / 200
  · obtain rfl : k₁ = 0 := by
      by_contra hpos
      have hone : (1 : ℚ) ≤ 1000 ^ k₁ := one_le_pow₀ (by norm_num)
      linarith [hlow₁ (Nat.pos_of_ne_zero hpos)]
    dsimp only
    rw [(chartValue_zero h₁.nonneg hrate).1]
    exact Rounding.toFloat_nonneg _ _ (printed_nonneg _ _)
  · have hrate₁ := not_le.1 hrate
    obtain rfl := (unit_eq_two_iff hk₁ hlow₁ hhigh₁).2 (hshown₁.range hrate₁)
    obtain rfl := (unit_eq_two_iff hk₂ hlow₂ hhigh₂).2 (hshown₂.range (hrate₁.trans_le hrates))
    exact chartValue_mono hbounds₁.1 (mbit_mono (bitRate_nonneg h₁.nonneg) hrates)

/-- **What the chart shows.** Two lines of interval reports are shown in Mbit/s and in the order of their
bandwidths exactly if each bandwidth is printed as 0, or in Mbit and not with three digits. -/
theorem chart_shows_mbits_iff {b₁ b₂ : ℚ} {line₁ line₂ : Text} (h₁ : ReportOf b₁ line₁)
    (h₂ : ReportOf b₂ line₂) (hle : b₁ ≤ b₂) (hmax : b₂ < 2 ^ 36) :
    ChartShows b₁ b₂ line₁ line₂ ↔ ShownInMbits b₁ ∧ ShownInMbits b₂ := by
  rw [← shownAs_iff h₁ (hle.trans_lt hmax), ← shownAs_iff h₂ hmax]
  constructor
  · rintro ⟨p₁, p₂, hp₁, hp₂, -⟩
    exact ⟨⟨p₁, hp₁⟩, ⟨p₂, hp₂⟩⟩
  · rintro ⟨⟨p₁, hp₁⟩, ⟨p₂, hp₂⟩⟩
    exact ⟨p₁, p₂, hp₁, hp₂, shownAs_mono h₁ h₂ hle hmax hp₁ hp₂⟩

theorem ReportOf.of_drive {bytes : UInt64} {line : Text}
    (hline : lineAt (Reactive.Prog.drive Reactive.Prog.free (fun _ => Iperf.Req.quiet) 2 0
      (Iperf.printIntervalResults 0, reportMem bytes, ())).1 = some line) :
    ReportOf (reportBandwidth (secondReport bytes)) line := by
  have hsocket : (reportStream bytes).socket = 5 := rfl
  have hduration : (secondReport bytes).intervalDuration = 1 := rfl
  have hst : (reportMem bytes).test.streams[0]? = some (reportStream bytes) := rfl
  have hirp : (reportStream bytes).result.intervalResults.getLast? = some (secondReport bytes) := rfl
  exact .intro (by rw [hsocket]; norm_num) (by rw [hduration]; norm_num) rfl hst hirp rfl (.of_drive 2 hline)

theorem reportOf_two_mbits :
    ReportOf 250000 "[  5]   1.00-2.00   sec   244 KBytes  2.00 Mbits/sec                  \n".toList :=
  (by decide +kernel : reportBandwidth (secondReport 250000) = 250000) ▸ .of_drive (by decide +kernel)

/-- 2 Mbit/s and 10 Mbit/s -/
theorem chart_shows_mbits_ten : ∃ line₁ line₂, ReportOf 250000 line₁ ∧ ReportOf 1250000 line₂ ∧
    ChartShows 250000 1250000 line₁ line₂ := by
  have h₂ : ReportOf 1250000
      "[  5]   1.00-2.00   sec  1.19 MBytes  10.0 Mbits/sec                  \n".toList :=
    (by decide +kernel : reportBandwidth (secondReport 1250000) = 1250000) ▸ .of_drive (by decide +kernel)
  have hiff := chart_shows_mbits_iff reportOf_two_mbits h₂ (by norm_num) (by norm_num)
  exact ⟨_, _, reportOf_two_mbits, h₂, hiff.2 (by decide +kernel)⟩

/-- 70 Kbit/s are drawn higher than 2 Mbit/s. -/
theorem chart_refuted : ¬ ∀ (b₁ b₂ : ℚ) (line₁ line₂ : Text), ReportOf b₁ line₁ → ReportOf b₂ line₂ →
    b₁ ≤ b₂ → b₂ < 2 ^ 36 → ChartShows b₁ b₂ line₁ line₂ := by
  intro hall
  have h₁ : ReportOf 8750
      "[  5]   1.00-2.00   sec  8.54 KBytes  70.0 Kbits/sec                  \n".toList :=
    (by decide +kernel : reportBandwidth (secondReport 8750) = 8750) ▸ .of_drive (by decide +kernel)
  have hread₁ : readReport
      "[  5]   1.00-2.00   sec  8.54 KBytes  70.0 Kbits/sec                  \n".toList = .ok ⟨2, 70⟩ := by
    decide +kernel
  have hread₂ : readReport
      "[  5]   1.00-2.00   sec   244 KBytes  2.00 Mbits/sec                  \n".toList = .ok ⟨2, 2⟩ := by
    decide +kernel
  obtain ⟨p₁, p₂, hp₁, hp₂, hle⟩ := hall 8750 250000 _ _ h₁ reportOf_two_mbits (by norm_num) (by norm_num)
  obtain rfl := Except.ok.inj (hread₁.symm.trans hp₁.read)
  obtain rfl := Except.ok.inj (hread₂.symm.trans hp₂.read)
  norm_num at hle

end WifiTest
