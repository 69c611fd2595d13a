import WifiTestTool.Iperf.Proofs.CJsonText

/-!
# Documents that are read back as they were

A number that `print_number` prints with `%lld` comes back as it was, also above `2 ^ 53`, where its `valuefloat`
does not tell what it is; only the conversion of a `double` of `2 ^ 63` to an `int64_t` has to be kept out. So a
document whose numbers are such integers comes back whole (`parse_print_whole`).
-/

namespace Iperf

/-! ## Integers as `double`s -/

theorem double_neg (q : ℚ) : double (-q) = -double q := Rounding.toFloat_neg 53 (-1022) q

theorem double_of_double (q : ℚ) : double (double q) = double q := by
  rcases le_total 0 q with h | h
  · exact Rounding.toFloat_toFloat (by decide) h
  · have hneg := @Rounding.toFloat_toFloat 53 (-1022) (-q) (by decide) (neg_nonneg.2 h)
    change double (double (-q)) = double (-q) at hneg
    rwa [double_neg, double_neg, neg_inj] at hneg

/-- The bounds of the integers that `print_number` can look at as `double`s -/
structure Convertible (v : Int) : Prop where
  low : -2 ^ 63 < v
  high : v + 512 < 2 ^ 63

theorem double_pow_63 : double ((2 ^ 63 : ℤ) : ℚ) = ((2 ^ 63 : ℤ) : ℚ) := by
  have hself := @Rounding.toFloat_eq_self 53 (-1022) 1 63 (by norm_num) (by norm_num)
  have hpow : (((1 : ℤ) : ℚ) * 2 ^ (63 : ℤ)) = ((2 ^ 63 : ℤ) : ℚ) := by norm_num
  rwa [hpow] at hself

/-- Half a unit in the last place is at most 512. -/
theorem abs_double_sub_le {v : Int} (h : |v| < 2 ^ 63) : |double v - v| ≤ 512 := by
  refine (Rounding.abs_toFloat_sub_le (v : ℚ)).trans ?_
  have hulp : Rounding.ulp 53 (-1022) (v : ℚ) ≤ 2 ^ (10 : ℤ) := by
    unfold Rounding.ulp
    refine zpow_le_zpow_right₀ (by norm_num) ?_
    by_cases hv : v = 0
    · rw [hv]
      norm_num
    · have hlog : Int.log 2 |(v : ℚ)| < 63 := by
        refine (Int.lt_zpow_iff_log_lt (b := 2) (by norm_num) (by positivity)).1 ?_
        rw [← Int.cast_abs]
        exact (Int.cast_lt.2 h).trans_eq (by norm_num)
      omega
  have h10 : (2 : ℚ) ^ (10 : ℤ) = 1024 := by norm_num
  linarith

/-- The `double` of such an integer is an integer that an `int64_t` can hold. -/
theorem Convertible.double {v : Int} (h : Convertible v) :
    ∃ m : Int, double v = m ∧ -2 ^ 63 ≤ m ∧ m < 2 ^ 63 := by
  obtain ⟨hlow, hhigh⟩ := h
  obtain ⟨m, hm⟩ := @Rounding.toFloat_intCast 53 (-1022) v (by norm_num)
  change Iperf.double v = m at hm
  refine ⟨m, hm, ?_, ?_⟩
  · rcases le_total 0 v with hv | hv
    · have hnonneg := double_nonneg (Int.cast_nonneg (R := ℚ) hv)
      rw [hm, Int.cast_nonneg_iff] at hnonneg
      omega
    · have hle : ((-v : ℤ) : ℚ) ≤ ((2 ^ 63 : ℤ) : ℚ) := Int.cast_le.2 (by omega)
      have hdouble := double_mono (Int.cast_nonneg (R := ℚ) (neg_nonneg.2 hv)) hle
      rw [double_pow_63, Int.cast_neg, double_neg, hm, ← Int.cast_neg, Int.cast_le] at hdouble
      omega
  · have hclose := abs_double_sub_le (v := v) (by rw [abs_lt]; constructor <;> omega)
    rw [hm, ← Int.cast_sub, ← Int.cast_abs] at hclose
    have hclose : |m - v| ≤ 512 := by exact_mod_cast hclose
    rw [abs_le] at hclose
    omega

/-! ## Items -/

/-- Its numbers are integers. -/
inductive CJsonItem.Whole : CJsonItem → Prop where
  | null : Whole .null
  | bool (b : Bool) : Whole (.bool b)
  | number {v : Int} (h : Convertible v) : Whole (.number v (double v))
  | string (s : List UInt8) : Whole (.string s)
  | array {child : List CJsonItem} (h : ∀ item ∈ child, Whole item) : Whole (.array child)
  | object {child : List (List UInt8 × CJsonItem)} (h : ∀ member ∈ child, Whole member.2) : Whole (.object child)

section Whole

variable {P : Platform}

/-- An integer is printed with `%lld`. -/
theorem printNumber_int (hP : P.Conforms) {v : Int} (h : Convertible v) :
    printNumber P v (double v) = printInt v := by
  obtain ⟨m, hm, hlow, hhigh⟩ := h.double
  have htrunc : truncRat (double v) = m := by
    rw [hm, truncRat]
    split
    · exact Int.floor_intCast m
    · rw [← Int.cast_neg, Int.floor_intCast, neg_neg]
  have hback : double (P.toInt64 (double v)) = double v := by
    rw [hP.toInt64 (double v) (by rwa [htrunc]) (by rwa [htrunc]), htrunc, ← hm, double_of_double]
  have hmax := h.high
  exact if_pos ⟨hback, h.low.le, by omega⟩

theorem CJsonItem.Whole.reread (hP : P.Conforms) {item : CJsonItem} (h : item.Whole) : item.reread P = item := by
  induction h with
  | null | bool | string => rfl
  | @number v h =>
    have hmax := h.high
    have hread := @parseNumber_printInt P v h.low (by omega) [] (by rintro _ ⟨⟩)
    rw [List.append_nil] at hread
    rw [CJsonItem.reread, printNumber_int hP h, hread]
  | array _ ih =>
    rw [CJsonItem.reread, rereadEntries_eq]
    exact congrArg CJsonItem.array ((List.map_congr_left ih).trans (List.map_id _))
  | object _ ih =>
    rw [CJsonItem.reread, rereadMembers_eq]
    refine congrArg CJsonItem.object ((List.map_congr_left fun m hm => ?_).trans (List.map_id _))
    exact Prod.ext rfl (ih m hm)

theorem CJsonItem.Whole.parse_text (hP : P.Conforms) {item : CJsonItem} (hw : item.Whole) (h : item.Sound)
    (fmt : Bool) : cJSON_Parse P (printValue P fmt 0 item) = .ok item := by
  rw [h.parse_text hP, hw.reread hP]

/-- A document of integers is read back as it was, from either text. -/
theorem parse_print_whole (hP : P.Conforms) {item : CJsonItem} (h : item.Sound) (hw : item.Whole) :
    cJSON_Parse P (cJSON_Print P item) = .ok item ∧ cJSON_Parse P (cJSON_PrintUnformatted P item) = .ok item :=
  ⟨hw.parse_text hP h true, hw.parse_text hP h false⟩

/-- `[9007199254740993]`: its `valuefloat` is 9007199254740992. -/
theorem parse_print_whole_above :
    let item : CJsonItem := .array [.number (2 ^ 53 + 1) (double ((2 ^ 53 + 1 : Int) : ℚ))]
    cJSON_Parse .x86 (cJSON_Print .x86 item) = .ok item ∧ cJSON_Parse .x86 (cJSON_PrintUnformatted .x86 item) = .ok item := by
  refine parse_print_whole x86_conforms (.array fun item hitem => ?_) (.array fun item hitem => ?_)
  · obtain rfl := List.mem_singleton.1 hitem
    exact .number _ _
  · obtain rfl := List.mem_singleton.1 hitem
    exact .number ⟨by norm_num, by norm_num⟩

end Whole

/-! ## Documents of the program -/

/-- A document of integers, without a NUL in its strings -/
inductive Json.Sendable : Json → Prop where
  | null : Sendable .null
  | bool (b : Bool) : Sendable (.bool b)
  | int {v : Int} (h : Convertible v) : Sendable (.int v)
  | str {s : String} (h : 0 ∉ stringBytes s) : Sendable (.str s)
  | arr {items : List Json} (h : ∀ j ∈ items, Sendable j) : Sendable (.arr items)
  | obj {items : List (String × Json)} (hnames : ∀ kv ∈ items, 0 ∉ stringBytes kv.1)
      (h : ∀ kv ∈ items, Sendable kv.2) : Sendable (.obj items)

theorem itemEntries_eq (items : List Json) : itemEntries items = items.map Json.item := by
  induction items with
  | nil => rfl
  | cons j items ih => rw [itemEntries, ih, List.map_cons]

theorem itemMembers_eq (items : List (String × Json)) :
    itemMembers items = items.map fun kv => (stringBytes kv.1, kv.2.item) := by
  induction items with
  | nil => rfl
  | cons kv items ih => rw [itemMembers, ih, List.map_cons]

theorem Json.Sendable.sound {j : Json} (h : j.Sendable) : j.item.Sound ∧ j.item.Whole := by
  induction h with
  | null => exact ⟨.null, .null⟩
  | bool b => exact ⟨.bool b, .bool b⟩
  | int h => exact ⟨.number _ _, .number h⟩
  | str h => exact ⟨.string h, .string _⟩
  | arr _ ih =>
    rw [Json.item, itemEntries_eq]
    exact ⟨.array (List.forall_mem_map.2 fun j hj => (ih j hj).1),
      .array (List.forall_mem_map.2 fun j hj => (ih j hj).2)⟩
  | obj hnames _ ih =>
    rw [Json.item, itemMembers_eq]
    exact ⟨.object (List.forall_mem_map.2 hnames) (List.forall_mem_map.2 fun kv hkv => (ih kv hkv).1),
      .object (List.forall_mem_map.2 fun kv hkv => (ih kv hkv).2)⟩

/-- The text of a document of integers is read back as the document. -/
theorem Json.Sendable.parse_text {P : Platform} (hP : P.Conforms) {j : Json} (h : j.Sendable) :
    cJSON_Parse P (cJSON_PrintUnformatted P j.item) = .ok j.item :=
  h.sound.2.parse_text hP h.sound.1 false

end Iperf
