import Mathlib.Algebra.Group.Nat.Defs
import Mathlib.Tactic.Common

/-!
# Leading digits

The first digits of a numeral are the numeral of a quotient, so that two numerals agree in their first
digits if and only if these quotients are equal.
-/

namespace Digits

/-- The digits are ASCII characters from the star to the letter f. -/
theorem digitChar_bounds (d : Nat) : 42 ≤ (Nat.digitChar d).toNat ∧ (Nat.digitChar d).toNat ≤ 102 := by
  match d with
  | 0 | 1 | 2 | 3 | 4 | 5 | 6 | 7 | 8 | 9 | 10 | 11 | 12 | 13 | 14 | 15 => decide
  | _ + 16 => simp [Nat.digitChar]

theorem mem_toDigits {b n : Nat} (hb : 1 < b) {c : Char} (hc : c ∈ Nat.toDigits b n) :
    ∃ d, c = Nat.digitChar d := by
  induction n using Nat.strongRecOn with
  | _ n ih =>
    rw [Nat.toDigits_eq_if hb] at hc
    split at hc
    · exact ⟨n, List.mem_singleton.1 hc⟩
    · rename_i hn
      rcases List.mem_append.1 hc with hc | hc
      · exact ih (n / b) (Nat.div_lt_self (by omega) hb) hc
      · exact ⟨n % b, List.mem_singleton.1 hc⟩

theorem toDigits_inj {m n : Nat} (h : Nat.toDigits 10 m = Nat.toDigits 10 n) : m = n := by
  rw [← Nat.ofDigitChars_ten_toDigits (n := m), h, Nat.ofDigitChars_ten_toDigits]

/-- The first `k` digits of a numeral. -/
theorem take_toDigits {b : Nat} (hb : 1 < b) {k : Nat} (hk : 0 < k) {n : Nat}
    (h : k ≤ (Nat.toDigits b n).length) :
    (Nat.toDigits b n).take k = Nat.toDigits b (n / b ^ ((Nat.toDigits b n).length - k)) := by
  induction n using Nat.strongRecOn with
  | _ n ih =>
    by_cases hn : n < b
    · rw [Nat.toDigits_of_lt_base hn, List.length_singleton] at h
      have hone : k = 1 := by omega
      rw [Nat.toDigits_of_lt_base hn, hone, List.length_singleton, Nat.sub_self, Nat.pow_zero, Nat.div_one,
        Nat.toDigits_of_lt_base hn]
      rfl
    · have hsplit := Nat.toDigits_of_base_le hb (Nat.le_of_not_lt hn)
      have hlength : (Nat.toDigits b n).length = (Nat.toDigits b (n / b)).length + 1 := by
        rw [hsplit, List.length_append, List.length_singleton]
      by_cases hall : k = (Nat.toDigits b n).length
      · rw [hall, List.take_length, Nat.sub_self, Nat.pow_zero, Nat.div_one]
      · have hk' : k ≤ (Nat.toDigits b (n / b)).length := by omega
        have hpow : (Nat.toDigits b n).length - k = (Nat.toDigits b (n / b)).length - k + 1 := by omega
        rw [hpow, hsplit, List.take_append_of_le_length hk',
          ih (n / b) (Nat.div_lt_self (by omega) hb) hk', Nat.div_div_eq_div_mul, Nat.pow_succ, Nat.mul_comm]

/-- Two numerals agree in their first `k` digits if and only if the quotients do. -/
theorem take_toDigits_eq_iff {k m n : Nat} (hm : k ≤ (Nat.toDigits 10 m).length)
    (hn : k ≤ (Nat.toDigits 10 n).length) :
    (Nat.toDigits 10 m).take k = (Nat.toDigits 10 n).take k ↔
      m / 10 ^ ((Nat.toDigits 10 m).length - k) = n / 10 ^ ((Nat.toDigits 10 n).length - k) := by
  rcases Nat.eq_zero_or_pos k with rfl | hk
  · have hzero : ∀ i : Nat, i / 10 ^ ((Nat.toDigits 10 i).length - 0) = 0 := fun i =>
      Nat.div_eq_of_lt ((Nat.length_toDigits_le_iff (by omega) Nat.length_toDigits_pos).1 (Nat.le_refl _))
    rw [hzero m, hzero n, List.take_zero, List.take_zero]
    exact iff_of_true rfl rfl
  · rw [take_toDigits (by omega) hk hm, take_toDigits (by omega) hk hn]
    exact ⟨toDigits_inj, fun h => congrArg _ h⟩

end Digits
