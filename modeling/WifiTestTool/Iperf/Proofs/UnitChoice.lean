import WifiTestTool.Iperf.Proofs.UnitsProofs

/-!
# The unit that `unit_snprintf` chooses

In adaptive mode a loop divides the number by 1000 or 1024 until it is less than that. Its bound on the index lets
it go one unit too far: a number of `base ^ 4` or more gets an index behind the ends of the tables
(`unit_valid_iff`). Below that the number is less than the base unless the unit is the last one, and at least 1
unless it is the first one.

The results of the operations are rounded by `r`: nothing for exact arithmetic, and `double` for the code.
-/

namespace Iperf

/-- The loop that finds the unit of a number. -/
def unitLoop (r : ℚ → ℚ) (base : ℚ) : Nat → ℚ → Nat → Nat
  | 0, _, conv => conv
  | passes + 1, tmpNum, conv =>
    if base ≤ tmpNum ∧ conv ≤ GIGA_CONV then unitLoop r base passes (r (tmpNum / base)) (conv + 1) else conv

/-- The factors of the units. -/
def conversions (r : ℚ → ℚ) (base : ℚ) : List ℚ :=
  [1, r (1 / base), r (r (1 / base) / base), r (r (r (1 / base) / base) / base)]

/-- The number of bits or bytes. -/
def unitQuantity (r : ℚ → ℚ) (inNum : ℚ) (inFormat : Char) : ℚ := if !inFormat.isUpper then r (inNum * 8) else inNum

/-- Bits come in thousands. -/
def unitBase (inFormat : Char) : ℚ := if inFormat.isUpper then 1024 else 1000

/-- The index that `unit_snprintf` uses in its tables. -/
def unitConv (r : ℚ → ℚ) (inNum : ℚ) (inFormat : Char) : Nat :=
  match inFormat.toUpper with
  | 'B' => 0
  | 'K' => KILO_CONV
  | 'M' => MEGA_CONV
  | 'G' => GIGA_CONV
  | _ => unitLoop r (unitBase inFormat) (GIGA_CONV + 1) (unitQuantity r inNum inFormat) 0

/-- The number that `unit_snprintf` prints, if the index is one of the tables. -/
def unitScaled (r : ℚ → ℚ) (inNum : ℚ) (inFormat : Char) : Option ℚ :=
  ((conversions r (unitBase inFormat))[unitConv r inNum inFormat]?).map fun factor =>
    r (unitQuantity r inNum inFormat * factor)

/-- The format leaves the choice of the unit to `unit_snprintf`. -/
def AdaptiveFormat (inFormat : Char) : Prop := inFormat.toUpper ∉ ['B', 'K', 'M', 'G']

instance (inFormat : Char) : Decidable (AdaptiveFormat inFormat) := inferInstanceAs (Decidable (¬ _))

/-- In exact arithmetic, the unit is one of the tables and suits the number. -/
structure UnitValid (inNum : ℚ) (inFormat : Char) : Prop where
  index : unitConv id inNum inFormat ≤ GIGA_CONV
  below : AdaptiveFormat inFormat → unitConv id inNum inFormat ≠ GIGA_CONV →
    ∀ scaled, unitScaled id inNum inFormat = some scaled → scaled < unitBase inFormat
  atLeast : AdaptiveFormat inFormat → unitConv id inNum inFormat ≠ 0 →
    ∀ scaled, unitScaled id inNum inFormat = some scaled → 1 ≤ scaled

/-! ## The code -/

theorem adaptive_eq (base : ℚ) (passes : Nat) (tmpNum : ℚ) (conv : Nat) :
    adaptive base passes tmpNum conv = unitLoop double base passes tmpNum conv := by
  induction passes generalizing tmpNum conv with
  | zero => rfl
  | succ passes ih => rw [adaptive, unitLoop, ih]

/-- This is what the code computes, in doubles. -/
theorem unitScale_eq (inNum : ℚ) (inFormat : Char) :
    (unitScale inNum inFormat).map Prod.fst = unitScaled double inNum inFormat := by
  have hbits : conversionBits = conversions double 1000 := rfl
  have hbytes : conversionBytes = conversions double 1024 := rfl
  unfold unitScale unitScaled unitConv unitQuantity unitBase
  rw [hbits, hbytes]
  simp only [adaptive_eq]
  by_cases hB : inFormat.toUpper = 'B'
  · simp only [hB]
    cases inFormat.isUpper <;> rfl
  by_cases hK : inFormat.toUpper = 'K'
  · simp only [hK]
    cases inFormat.isUpper <;> rfl
  by_cases hM : inFormat.toUpper = 'M'
  · simp only [hM]
    cases inFormat.isUpper <;> rfl
  by_cases hG : inFormat.toUpper = 'G'
  · simp only [hG]
    cases inFormat.isUpper <;> rfl
  simp only
  generalize unitLoop double _ _ _ _ = conv
  cases inFormat.isUpper with
  | true => rcases conv with _ | _ | _ | _ | conv <;> rfl
  | false => rcases conv with _ | _ | _ | _ | conv <;> rfl

/-! ## The loop -/

/-- Rounding that keeps numbers in their units; `F` are the numbers that can be results. -/
structure KeepsUnits (r : ℚ → ℚ) (F : ℚ → Prop) (base : ℚ) : Prop where
  result : ∀ x, 0 ≤ x → F (r x)
  nonneg : ∀ x, 0 ≤ x → 0 ≤ r x
  up : ∀ k < 4, ∀ x, base ^ (k + 1) ≤ x → base ^ k ≤ r (x / base)
  down : ∀ k < 4, ∀ x, 0 ≤ x → F x → x < base ^ (k + 1) → r (x / base) < base ^ k

/-- The loop counts the units in the number, up to one more than there are. -/
theorem unitLoop_spec {r : ℚ → ℚ} {F : ℚ → Prop} {base : ℚ} (hr : KeepsUnits r F base) (hbase : 0 < base)
    {passes conv : Nat} (hpasses : conv + passes = GIGA_CONV + 1) {x : ℚ} (hx : 0 ≤ x) (hF : F x) :
    ∃ k ≤ passes, unitLoop r base passes x conv = conv + k ∧ (0 < k → base ^ k ≤ x) ∧
      (k < passes → x < base ^ (k + 1)) := by
  induction passes generalizing x conv with
  | zero => exact ⟨0, le_rfl, rfl, fun h => absurd h (lt_irrefl 0), fun h => absurd h (lt_irrefl 0)⟩
  | succ passes ih =>
    have hgiga : GIGA_CONV = 3 := rfl
    by_cases hmore : base ≤ x ∧ conv ≤ GIGA_CONV
    · have hdiv : 0 ≤ x / base := div_nonneg hx hbase.le
      have hpasses' : (conv + 1) + passes = GIGA_CONV + 1 := by omega
      obtain ⟨k, hk, heq, hlow, hhigh⟩ := ih hpasses' (hr.nonneg _ hdiv) (hr.result _ hdiv)
      refine ⟨k + 1, by omega, ?_, fun _ => ?_, fun hlt => ?_⟩
      · rw [unitLoop, if_pos hmore, heq]
        omega
      · by_contra hnot
        rcases Nat.eq_zero_or_pos k with rfl | hpos
        · rw [zero_add, pow_one] at hnot
          exact hnot hmore.1
        · have := hr.down k (by omega) x hx hF (not_le.1 hnot)
          linarith [hlow hpos]
      · by_contra hnot
        have := hr.up (k + 1) (by omega) x (not_lt.1 hnot)
        linarith [hhigh (by omega)]
    · refine ⟨0, by omega, ?_, fun h => absurd h (lt_irrefl 0), fun _ => ?_⟩
      · rw [unitLoop, if_neg hmore]
        rfl
      · rw [not_and_or, not_le, not_le] at hmore
        rw [zero_add, pow_one]
        rcases hmore with h | h
        · exact h
        · omega

theorem unitBase_pos (inFormat : Char) : 1 < unitBase inFormat := by
  unfold unitBase
  split <;> norm_num

/-- The choice of the unit in adaptive mode. -/
theorem unitConv_spec {r : ℚ → ℚ} {F : ℚ → Prop} {inNum : ℚ} {inFormat : Char}
    (hr : KeepsUnits r F (unitBase inFormat)) (hx : 0 ≤ unitQuantity r inNum inFormat)
    (hF : F (unitQuantity r inNum inFormat)) (hadaptive : AdaptiveFormat inFormat) :
    ∃ k ≤ GIGA_CONV + 1, unitConv r inNum inFormat = k ∧
      (0 < k → unitBase inFormat ^ k ≤ unitQuantity r inNum inFormat) ∧
      (k < GIGA_CONV + 1 → unitQuantity r inNum inFormat < unitBase inFormat ^ (k + 1)) := by
  have hbase : 0 < unitBase inFormat := by linarith [unitBase_pos inFormat]
  obtain ⟨k, hk, heq, hlow, hhigh⟩ := unitLoop_spec hr hbase (Nat.zero_add (GIGA_CONV + 1)) hx hF
  refine ⟨k, hk, ?_, hlow, hhigh⟩
  simp only [AdaptiveFormat, List.mem_cons, List.not_mem_nil, or_false, not_or] at hadaptive
  obtain ⟨hB, hK, hM, hG⟩ := hadaptive
  rw [← Nat.zero_add k, ← heq]
  unfold unitConv
  simp only

/-- The other formats name the unit. -/
theorem unitConv_le_of_not_adaptive (r : ℚ → ℚ) (inNum : ℚ) {inFormat : Char} (h : ¬ AdaptiveFormat inFormat) :
    unitConv r inNum inFormat ≤ GIGA_CONV := by
  simp only [AdaptiveFormat, List.mem_cons, List.not_mem_nil, or_false, not_not] at h
  unfold unitConv
  rcases h with h | h | h | h
  all_goals
    rw [h]
    exact Nat.le_of_ble_eq_true rfl

/-- When the index is one of the tables. -/
theorem unitConv_le_iff {r : ℚ → ℚ} {F : ℚ → Prop} {inNum : ℚ} {inFormat : Char}
    (hr : KeepsUnits r F (unitBase inFormat)) (hx : 0 ≤ unitQuantity r inNum inFormat)
    (hF : F (unitQuantity r inNum inFormat)) :
    unitConv r inNum inFormat ≤ GIGA_CONV ↔
      (AdaptiveFormat inFormat → unitQuantity r inNum inFormat < unitBase inFormat ^ (GIGA_CONV + 1)) := by
  by_cases hadaptive : AdaptiveFormat inFormat
  · obtain ⟨k, hk, heq, hlow, hhigh⟩ := unitConv_spec hr hx hF hadaptive
    rw [heq]
    constructor
    · intro hle _
      exact (hhigh (by omega)).trans_le (pow_le_pow_right₀ (unitBase_pos inFormat).le (by omega))
    · intro hsmall
      by_contra hnot
      obtain rfl : k = GIGA_CONV + 1 := by omega
      exact absurd (hlow (by omega)) (not_le.2 (hsmall hadaptive))
  · exact iff_of_true (unitConv_le_of_not_adaptive r inNum hadaptive) fun h => absurd h hadaptive

/-! ## Exact arithmetic -/

/-- Exact numbers stay in their units. -/
theorem keepsUnits_id {base : ℚ} (hbase : 0 < base) : KeepsUnits id (fun _ => True) base := by
  refine ⟨fun _ _ => trivial, fun _ h => h, ?_, ?_⟩
  · intro k _ x hx
    rw [id, le_div_iff₀ hbase, ← pow_succ]
    exact hx
  · intro k _ x _ _ hx
    rw [id, div_lt_iff₀ hbase, ← pow_succ]
    exact hx

theorem conversions_id {base factor : ℚ} {k : Nat} (hk : k < 4) (h : (conversions id base)[k]? = some factor) :
    factor = 1 / base ^ k := by
  rcases k with _ | _ | _ | _ | k
  · obtain rfl := Option.some.inj h
    rw [pow_zero, div_one]
  · obtain rfl := Option.some.inj h
    rw [zero_add, pow_one]
    rfl
  · obtain rfl := Option.some.inj h
    show 1 / base / base = _
    rw [div_div, ← pow_two]
  · obtain rfl := Option.some.inj h
    show 1 / base / base / base = _
    rw [div_div, div_div, ← pow_two, ← pow_succ']
  · omega

/-- In exact arithmetic an index of the tables is enough. -/
theorem unitValid_iff_index {inNum : ℚ} {inFormat : Char} (hx : 0 ≤ unitQuantity id inNum inFormat) :
    UnitValid inNum inFormat ↔ unitConv id inNum inFormat ≤ GIGA_CONV := by
  have hbase : 0 < unitBase inFormat := by linarith [unitBase_pos inFormat]
  have hgiga : GIGA_CONV = 3 := rfl
  constructor
  · exact UnitValid.index
  · intro hindex
    refine ⟨hindex, fun hadaptive _ scaled hscaled => ?_, fun hadaptive hne scaled hscaled => ?_⟩
    all_goals
      obtain ⟨k, hk, heq, hlow, hhigh⟩ := unitConv_spec (keepsUnits_id hbase) hx trivial hadaptive
      obtain ⟨factor, hfactor, rfl⟩ := Option.map_eq_some_iff.1 hscaled
      rw [heq] at hindex hfactor
      rw [conversions_id (by omega) hfactor, id, mul_one_div]
    · rw [div_lt_iff₀ (pow_pos hbase k), ← pow_succ']
      exact hhigh (by omega)
    · rw [one_le_div₀ (pow_pos hbase k)]
      exact hlow (Nat.pos_of_ne_zero (heq ▸ hne))

/-! ## Doubles -/

theorem double_double {x : ℚ} (hx : 0 ≤ x) : double (double x) = double x :=
  Rounding.toFloat_toFloat (by decide) hx

/-- The double before `base ^ (k + 1)`. -/
def unitPred (base : ℚ) (k : Nat) : ℚ := base ^ (k + 1) - 2 ^ (10 * k - 43 : ℤ)

theorem le_unitPred {base : ℕ} (hbase : base = 1000 ∨ base = 1024) {k : Nat} (hk : k < 4) {x : ℚ}
    (hx : double x = x) (hlt : x < base ^ (k + 1)) : x ≤ unitPred base k := by
  have hm : ∀ base ∈ [(1000 : ℕ), 1024], ∀ k < 4, (2 : ℤ) ^ (53 - 1) < base ^ (k + 1) * 2 ^ (43 - 10 * k) ∧
      (base ^ (k + 1) * 2 ^ (43 - 10 * k) : ℤ) ≤ 2 ^ 53 := by decide
  obtain ⟨hlow, hhigh⟩ := hm base (by simpa using hbase) k hk
  have hpow : ((base ^ (k + 1) * 2 ^ (43 - 10 * k) : ℤ) : ℚ) * 2 ^ (10 * k - 43 : ℤ) = base ^ (k + 1) := by
    push_cast
    rw [mul_assoc, ← zpow_natCast (2 : ℚ), ← zpow_add₀ (by norm_num)]
    have : ((43 - 10 * k : ℕ) : ℤ) + (10 * k - 43) = 0 := by omega
    rw [this, zpow_zero, mul_one]
  have hle : x ≤ (((base ^ (k + 1) * 2 ^ (43 - 10 * k) : ℤ) : ℚ) - 1) * 2 ^ (10 * k - 43 : ℤ) := by
    refine Rounding.le_pred_of_lt (by decide) hlow hhigh (by omega) hx ?_
    rw [hpow]
    exact hlt
  rw [sub_mul, hpow, one_mul] at hle
  exact hle

/-- The ends of the units. -/
theorem unit_ends : ∀ base ∈ [(1000 : ℚ), 1024], ∀ k < 4,
    base ^ k ≤ double (base ^ (k + 1) / base) ∧ double (unitPred base k / base) < base ^ k := by decide +kernel

/-- Doubles stay in their units. -/
theorem keepsUnits_double {base : ℕ} (hbase : base = 1000 ∨ base = 1024) :
    KeepsUnits double (fun x => double x = x) base := by
  have hmem : (base : ℚ) ∈ [(1000 : ℚ), 1024] := by rcases hbase with rfl | rfl <;> simp
  have hpos : (0 : ℚ) < base := by rcases hbase with rfl | rfl <;> norm_num
  refine ⟨fun _ => double_double, fun _ => double_nonneg, ?_, ?_⟩
  · intro k hk x hx
    refine (unit_ends base hmem k hk).1.trans (double_mono ?_ (div_le_div_of_nonneg_right hx hpos.le))
    positivity
  · intro k hk x hx₀ hF hx
    refine lt_of_le_of_lt (double_mono (div_nonneg hx₀ hpos.le) ?_) (unit_ends base hmem k hk).2
    exact div_le_div_of_nonneg_right (le_unitPred hbase hk hF hx) hpos.le

theorem keepsUnits_code (inFormat : Char) : KeepsUnits double (fun x => double x = x) (unitBase inFormat) := by
  unfold unitBase
  split
  · exact keepsUnits_double (.inr rfl)
  · exact keepsUnits_double (.inl rfl)

theorem unitQuantity_double {inNum : ℚ} (h : 0 ≤ inNum) (hdouble : double inNum = inNum) (inFormat : Char) :
    0 ≤ unitQuantity double inNum inFormat ∧
      double (unitQuantity double inNum inFormat) = unitQuantity double inNum inFormat := by
  have h8 : 0 ≤ inNum * 8 := mul_nonneg h (by norm_num)
  unfold unitQuantity
  split
  · exact ⟨double_nonneg h8, double_double h8⟩
  · exact ⟨h, hdouble⟩

/-- **When `unit_snprintf` selects a valid unit.** In exact arithmetic the index is one of the tables, and the unit
suits the number, if and only if the format is not adaptive or the number is below the fourth power of the base. In
doubles the index is one of the tables under the same condition. -/
theorem unit_valid_iff {inNum : ℚ} (h : 0 ≤ inNum) (inFormat : Char) :
    (UnitValid inNum inFormat ↔
      (AdaptiveFormat inFormat → unitQuantity id inNum inFormat < unitBase inFormat ^ (GIGA_CONV + 1))) ∧
    (double inNum = inNum → (unitConv double inNum inFormat ≤ GIGA_CONV ↔
      (AdaptiveFormat inFormat → unitQuantity double inNum inFormat < unitBase inFormat ^ (GIGA_CONV + 1)))) := by
  constructor
  · have hx : 0 ≤ unitQuantity id inNum inFormat := by
      unfold unitQuantity
      split
      · exact mul_nonneg h (by norm_num)
      · exact h
    have hbase : 0 < unitBase inFormat := by linarith [unitBase_pos inFormat]
    rw [unitValid_iff_index hx]
    exact unitConv_le_iff (keepsUnits_id hbase) hx trivial
  · intro hdouble
    obtain ⟨hx, hF⟩ := unitQuantity_double h hdouble inFormat
    exact unitConv_le_iff (keepsUnits_code inFormat) hx hF

/-- 125 gigabytes less a byte, in bits. -/
theorem unit_valid_iff_bits : UnitValid 124999999999 'a' := by
  refine (unit_valid_iff (by norm_num) 'a').1.2 fun _ => ?_
  have hquantity : unitQuantity id 124999999999 'a' = 124999999999 * 8 := if_pos rfl
  have hbase : unitBase 'a' = 1000 := if_neg (by decide)
  rw [hquantity, hbase]
  norm_num [GIGA_CONV]

/-- The index of a terabyte is behind the ends of the tables. -/
theorem unit_valid_refuted : ¬ ∀ inNum : ℚ, 0 ≤ inNum → ∀ inFormat : Char, UnitValid inNum inFormat := by
  intro h
  have hindex := (h (1024 ^ 4) (by norm_num) 'A').index
  have hconv : unitConv id (1024 ^ 4) 'A' = 4 := by decide +kernel
  rw [hconv] at hindex
  exact absurd hindex (by decide)

end Iperf
