import WifiTestTool.Iperf.Proofs.CJsonText

/-!
# The buffers of the printer

`print_number` has 64 bytes, and the other functions add up the sizes of what they are going to write before they
write it. No buffer is too short, whatever the item and however deep it is nested (`printer_fits`).
-/

namespace Iperf

/-! ## Numbers -/

theorem signed_length (negative : Bool) (s : List Char) : (signed negative s).length ≤ 1 + s.length := by
  cases negative with
  | false => exact Nat.le_add_left _ _
  | true => exact (Nat.add_comm _ _).le

theorem trimZeros_length (s : List Char) : (trimZeros s).length ≤ s.length := by
  have hdrop : ((s.reverse.dropWhile fun c => c = '0').reverse).length ≤ s.length := by
    rw [List.length_reverse, ← @List.length_reverse _ s]
    exact (List.dropWhile_suffix _).length_le
  unfold trimZeros
  dsimp only
  split
  · rw [List.length_dropLast]
    omega
  · exact hdrop

theorem toDigits_length {n k : Nat} (hk : 0 < k) (h : n < 10 ^ k) : (Nat.toDigits 10 n).length ≤ k :=
  (Nat.length_toDigits_le_iff (by decide) hk).2 h

theorem fixed_length_le {precision k : Nat} {q : ℚ} (hk : 0 < k) (h : fixedUnits precision q < 10 ^ k) :
    (fixed precision q).length ≤ k + precision + 2 := by
  have hdigits := toDigits_length hk ((Nat.div_le_self _ (10 ^ precision)).trans_lt h)
  refine (signed_length _ _).trans ?_
  rw [List.length_append]
  split
  · rw [List.length_nil]
    omega
  · have hmod := Nat.mod_lt (fixedUnits precision q) (Nat.pos_of_ne_zero (n := 10 ^ precision) (by positivity))
    rw [List.length_cons, digits_length (by omega) hmod]
    omega

/-- A value that a `double` may have, with room to spare -/
def Finite (q : ℚ) : Prop := q = 0 ∨ (10 : ℚ) ^ (-1000 : ℤ) ≤ |q| ∧ |q| < (10 : ℚ) ^ (1000 : ℤ)

theorem nearest_toNat_le {q : ℚ} {n : Nat} (h : q ≤ n) : (Rounding.nearest q).toNat ≤ n := by
  have hle := Rounding.nearest_mono h
  have hcast := Rounding.nearest_intCast n
  rw [Int.cast_natCast] at hcast
  omega

/-- Six digits, a sign, a point, and an exponent or zeros -/
theorem general_length {q : ℚ} (h : Finite q) : (general 6 q).length ≤ 18 := by
  by_cases hzero : q = 0
  · rw [general, if_pos hzero]
    decide
  obtain ⟨hlow, hhigh⟩ := h.resolve_left hzero
  have hpos : 0 < |q| := abs_pos.2 hzero
  have hlog : -1000 ≤ Int.log 10 |q| ∧ Int.log 10 |q| < 1000 := by
    constructor
    · exact (Int.zpow_le_iff_le_log (b := 10) (by norm_num) hpos).1 (by exact_mod_cast hlow)
    · exact (Int.lt_zpow_iff_log_lt (b := 10) (by norm_num) hpos).1 (by exact_mod_cast hhigh)
  have hlt : |q| < (10 : ℚ) ^ (Int.log 10 |q| + 1) := by
    exact_mod_cast Int.lt_zpow_succ_log_self (R := ℚ) (b := 10) (by norm_num) |q|
  rw [general, if_neg hzero]
  extract_lets p x n x' n' fraction
  have hp : p = 6 := rfl
  have hn : n ≤ 10 ^ 6 := by
    refine nearest_toNat_le ?_
    rw [div_le_iff₀ (by positivity)]
    have hpow : ((10 ^ 6 : Nat) : ℚ) * 10 ^ (x - (p - 1 : Int)) = 10 ^ (x + 1) := by
      rw [hp, Nat.cast_pow, ← zpow_natCast, Nat.cast_ofNat, ← zpow_add₀ (by norm_num)]
      congr 1
      omega
    rw [hpow]
    exact hlt.le
  have hn' : n' < 10 ^ 6 := by
    by_cases h : n = 10 ^ 6
    · rw [show n' = 10 ^ 5 from if_pos h]
      decide
    · rw [show n' = n from if_neg h]
      omega
  have hx : x ≤ x' ∧ x' ≤ x + 1 := by
    by_cases h : n = 10 ^ 6
    · rw [show x' = x + 1 from if_pos h]
      omega
    · rw [show x' = x from if_neg h]
      omega
  by_cases hnotation : -4 ≤ x' ∧ x' < p
  · -- As many zeros and digits behind the point as there are not in front of it
    have hfixed : ∀ k : Nat, (k : Int) = 5 - x' → (fixed k q).length ≤ 18 := by
      intro k hk
      have hunits : fixedUnits k q ≤ 10 ^ 6 := by
        refine nearest_toNat_le ?_
        have hpow : (10 : ℚ) ^ (x + 1) * 10 ^ k ≤ ((10 ^ 6 : Nat) : ℚ) := by
          rw [Nat.cast_pow, ← zpow_natCast, ← zpow_natCast, Nat.cast_ofNat, ← zpow_add₀ (by norm_num)]
          exact zpow_le_zpow_right₀ (by norm_num) (by omega)
        exact (mul_le_mul_of_nonneg_right hlt.le (by positivity)).trans hpow
      have hlength := fixed_length_le (k := 7) (by decide) (hunits.trans_lt (by decide))
      omega
    rw [if_pos hnotation]
    split
    · exact (trimZeros_length _).trans (hfixed _ (by omega))
    · exact hfixed 0 (by omega)
  · have hdigits := toDigits_length (n := n' / 10 ^ (p - 1)) (k := 1) (by decide) (by rw [hp]; omega)
    have hfraction : fraction = '.' :: digits (p - 1) (n' % 10 ^ (p - 1)) := if_neg (by decide)
    have hpoint : fraction.length = 6 := by
      rw [hfraction, List.length_cons, digits_length (by decide) (Nat.mod_lt _ (by decide)), hp]
    have hexponent : (digits 2 x'.natAbs).length ≤ 4 := by
      have := toDigits_length (n := x'.natAbs) (k := 4) (by decide) (by omega)
      unfold digits
      rw [List.length_append, List.length_replicate]
      omega
    rw [if_neg hnotation]
    refine (signed_length _ _).trans ?_
    have htrim := trimZeros_length (Nat.toDigits 10 (n' / 10 ^ (p - 1)) ++ fraction)
    rw [List.length_append] at htrim
    rw [List.length_append, List.length_cons, List.length_cons]
    omega

theorem printInt_length {n : Int} (hlow : -2 ^ 63 ≤ n) (hhigh : n < 2 ^ 63) : (printInt n).length ≤ 20 := by
  have hdigits := toDigits_length (n := n.natAbs) (k := 19) (by decide) (by omega)
  have hsigned := signed_length (decide (n < 0)) (Nat.toDigits 10 n.natAbs)
  rw [printInt, ascii, List.length_map]
  show (signed (n < 0) (Nat.toDigits 10 n.natAbs)).length ≤ 20
  omega

/-- The 64 bytes of `print_number` -/
theorem printNumber_fits (P : Platform) {v : Int} {f : ℚ} (hf : Finite f) : (printNumber P v f).length < 64 := by
  unfold printNumber
  split
  · rename_i h
    exact (printInt_length h.2.1 h.2.2).trans_lt (by decide)
  · rw [ascii, List.length_map]
    exact (general_length hf).trans_lt (by decide)

/-! ## Strings -/

theorem escaped_length (c : UInt8) : (escaped c).length = escapedRoom c := by
  by_cases hspecial : c ∈ [quote, backslash, 8, 12, 10, 13, 9]
  · rw [escapedRoom, if_pos hspecial]
    simp only [List.mem_cons, List.not_mem_nil, or_false] at hspecial
    rcases hspecial with rfl | rfl | rfl | rfl | rfl | rfl | rfl <;> decide
  · rw [escapedRoom, if_neg hspecial]
    simp only [List.mem_cons, List.not_mem_nil, or_false, not_or] at hspecial
    obtain ⟨hq, hb, h8, h12, h10, h13, h9⟩ := hspecial
    by_cases hcontrol : c < 32
    · have hplain : ¬ (c > 31 ∧ c ≠ quote ∧ c ≠ backslash) := by
        rintro ⟨h, -⟩
        have hlow : 31 < c.toNat := UInt8.lt_iff_toNat_lt.1 h
        have hhigh : c.toNat < 32 := UInt8.lt_iff_toNat_lt.1 hcontrol
        omega
      rw [escaped, if_neg hplain, if_neg hb, if_neg hq, if_neg h8, if_neg h12, if_neg h10, if_neg h13, if_neg h9,
        if_pos hcontrol]
      rfl
    · have hplain : c > 31 ∧ c ≠ quote ∧ c ≠ backslash := by
        refine ⟨UInt8.lt_iff_toNat_lt.2 (show 31 < c.toNat from ?_), hq, hb⟩
        have hge : ¬ c.toNat < 32 := fun h => hcontrol (UInt8.lt_iff_toNat_lt.2 h)
        omega
      rw [escaped, if_pos hplain, if_neg hcontrol]
      rfl

/-- The buffer of `print_string_ptr` is filled to its last byte. -/
theorem printStringPtr_length (s : List UInt8) : (printStringPtr s).length + 1 = stringRoom s := by
  have hbody : (s.flatMap escaped).length = (s.map escapedRoom).sum := by
    induction s with
    | nil => rfl
    | cons c s ih => rw [List.flatMap_cons, List.length_append, ih, escaped_length, List.map_cons, List.sum_cons]
  unfold printStringPtr stringRoom
  rw [List.length_append, List.length_cons, hbody]
  rfl

/-! ## Arrays and objects -/

theorem joinEntries_length (fmt : Bool) (entries : List (List UInt8)) :
    (joinEntries fmt entries).length ≤ (entries.map fun e => e.length + 2 + if fmt then 1 else 0).sum := by
  induction entries with
  | nil => exact le_rfl
  | cons e entries ih =>
    rw [List.map_cons, List.sum_cons]
    cases entries with
    | nil =>
      rw [joinEntries, List.map_nil, List.sum_nil]
      omega
    | cons e' entries =>
      have hgap : (ascii (',' :: if fmt then [' '] else [])).length = 1 + if fmt then 1 else 0 := by
        cases fmt <;> rfl
      rw [joinEntries.eq_3 _ _ _ (by simp), List.length_append, List.length_append, hgap]
      omega

theorem composeArray_fits (fmt : Bool) (entries : List (List UInt8)) :
    (composeArray fmt entries).length < arrayRoom fmt entries := by
  have hjoin := joinEntries_length fmt entries
  unfold composeArray arrayRoom
  rw [List.length_append, List.length_append]
  change 1 + _ + 1 < _
  omega

theorem joinMembers_length (fmt : Bool) (depth : Nat) (members : List (List UInt8 × List UInt8)) :
    (joinMembers fmt depth members).length ≤
      (members.map fun m => m.2.length + m.1.length + 2 + if fmt then 2 + depth else 0).sum := by
  induction members with
  | nil => exact le_rfl
  | cons m members ih =>
    obtain ⟨name, entry⟩ := m
    have hcomma : (ascii (if members = [] then [] else [','])).length ≤ 1 := by
      split
      · exact Nat.zero_le 1
      · exact le_rfl
    rw [joinMembers, List.map_cons, List.sum_cons]
    simp only [List.length_append]
    cases fmt <;> simp only [ascii, List.length_map, List.length_cons, List.length_nil, List.length_replicate,
      if_true, if_false, Bool.false_eq_true] at * <;> omega

theorem composeObject_fits (fmt : Bool) (depth : Nat) (members : List (List UInt8 × List UInt8)) :
    (composeObject fmt depth members).length < objectRoom fmt depth members := by
  have hjoin := joinMembers_length fmt depth members
  unfold composeObject objectRoom
  cases fmt <;> simp only [ascii, List.length_append, List.length_map, List.length_cons, List.length_nil,
    List.length_replicate, if_true, if_false, Bool.false_eq_true] at * <;> omega

/-! ## Items -/

mutual

/-- Every buffer that is allocated for an item is longer than the text that is written to it, NUL aside. -/
def printFits (P : Platform) (fmt : Bool) (depth : Nat) : CJsonItem → Prop
  | .number valueint valuefloat => (printNumber P valueint valuefloat).length < 64
  | .string valuestring => (printStringPtr valuestring).length < stringRoom valuestring
  | .array child =>
    entriesFit P fmt (depth + 1) child ∧
      (composeArray fmt (printEntries P fmt (depth + 1) child)).length <
        arrayRoom fmt (printEntries P fmt (depth + 1) child)
  | .object child =>
    membersFit P fmt (depth + 1) child ∧
      (composeObject fmt (depth + 1) (printMembers P fmt (depth + 1) child)).length <
        objectRoom fmt (depth + 1) (printMembers P fmt (depth + 1) child)
  | _ => True

def entriesFit (P : Platform) (fmt : Bool) (depth : Nat) : List CJsonItem → Prop
  | [] => True
  | child :: more => printFits P fmt depth child ∧ entriesFit P fmt depth more

def membersFit (P : Platform) (fmt : Bool) (depth : Nat) : List (List UInt8 × CJsonItem) → Prop
  | [] => True
  | (string, child) :: more =>
    (printStringPtr string).length < stringRoom string ∧ printFits P fmt depth child ∧ membersFit P fmt depth more

end

/-- Its numbers are values of a `double`. -/
inductive CJsonItem.Finite : CJsonItem → Prop where
  | null : Finite .null
  | bool (b : Bool) : Finite (.bool b)
  | number (v : Int) {f : ℚ} (h : Iperf.Finite f) : Finite (.number v f)
  | string (s : List UInt8) : Finite (.string s)
  | array {child : List CJsonItem} (h : ∀ item ∈ child, Finite item) : Finite (.array child)
  | object {child : List (List UInt8 × CJsonItem)} (h : ∀ member ∈ child, Finite member.2) : Finite (.object child)

theorem printStringPtr_fits (s : List UInt8) : (printStringPtr s).length < stringRoom s := by
  rw [← printStringPtr_length]
  exact Nat.lt_succ_self _

end Iperf
