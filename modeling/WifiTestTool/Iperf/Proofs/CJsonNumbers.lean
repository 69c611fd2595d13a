import WifiTestTool.Iperf.CJson
import WifiTestTool.Iperf.Proofs.UnitsProofs

/-!
# Numbers in the texts of cJSON

`parse_number` stops where a printed number stops (`NumberText.read`), whether `print_number` has chosen `%lld` or
`%g`. A number that was printed with `%lld` is read back as it was (`parseNumber_printInt`).
-/

namespace Iperf

/-- The number that digits stand for -/
def decimalValue (ds : List UInt8) : Nat := ds.foldl (fun n c => n * 10 + digitValue c) 0

/-- What follows does not belong to a number in front of it. -/
def EndsNumber (rest : List UInt8) : Prop :=
  ∀ c ∈ rest.head?, isDigit c = false ∧ c ≠ '.'.toUInt8 ∧ c ≠ 'e'.toUInt8 ∧ c ≠ 'E'.toUInt8

/-! ## Digits -/

theorem isDigit_iff {c : UInt8} : isDigit c = true ↔ 48 ≤ c.toNat ∧ c.toNat ≤ 57 := by
  rw [isDigit, decide_eq_true_iff]
  rfl

theorem toNat_ofChar {c : Char} (h : c.isDigit = true) : (UInt8.ofNat c.toNat).toNat = c.toNat := by
  have hc := Char.isDigit_iff_toNat.1 h
  rw [UInt8.toNat_ofNat']
  have : c.toNat ≤ 57 := hc.2
  omega

theorem isDigit_ascii {s : List Char} (h : ∀ c ∈ s, c.isDigit = true) : ∀ c ∈ ascii s, isDigit c = true := by
  intro c hc
  obtain ⟨d, hd, rfl⟩ := List.mem_map.1 hc
  rw [isDigit_iff, toNat_ofChar (h d hd)]
  exact Char.isDigit_iff_toNat.1 (h d hd)

theorem ascii_append (s t : List Char) : ascii (s ++ t) = ascii s ++ ascii t := List.map_append

theorem toDigits_isDigit (n : Nat) : ∀ c ∈ ascii (Nat.toDigits 10 n), isDigit c = true :=
  isDigit_ascii fun _ => Nat.isDigit_of_mem_toDigits (by decide) (by decide)

theorem decimalValue_toDigits (n : Nat) : decimalValue (ascii (Nat.toDigits 10 n)) = n := by
  have hfold : ∀ (s : List Char) (i : Nat), (∀ c ∈ s, c.isDigit = true) →
      (ascii s).foldl (fun n c => n * 10 + digitValue c) i = Nat.ofDigitChars 10 s i := by
    intro s
    induction s with
    | nil =>
      intro i _
      simp [ascii]
    | cons c s ih =>
      intro i hs
      rw [Nat.ofDigitChars_cons, ← ih _ fun d hd => hs d (List.mem_cons_of_mem _ hd)]
      show List.foldl _ (i * 10 + digitValue (UInt8.ofNat c.toNat)) (ascii s) = _
      rw [digitValue, toNat_ofChar (hs c List.mem_cons_self), Nat.mul_comm]
      rfl
  rw [decimalValue, hfold _ _ fun _ => Nat.isDigit_of_mem_toDigits (by decide) (by decide),
    Nat.ofDigitChars_ten_toDigits]

/-- A numeral begins with a zero only if it is one. -/
theorem toDigits_head (n : Nat) : n = 0 ∧ Nat.toDigits 10 n = ['0'] ∨
    0 < n ∧ ∃ c s, ascii (Nat.toDigits 10 n) = c :: s ∧ '1'.toUInt8 ≤ c ∧ c ≤ '9'.toUInt8 := by
  induction n using Nat.strongRecOn with
  | _ n ih =>
    by_cases hzero : n = 0
    · left
      rw [hzero]
      exact ⟨rfl, Nat.toDigits_zero 10⟩
    · right
      refine ⟨Nat.pos_of_ne_zero hzero, ?_⟩
      by_cases hn : n < 10
      · have hdigit : ∀ n < 10, n ≠ 0 → '1'.toUInt8 ≤ UInt8.ofNat (Nat.digitChar n).toNat ∧
            UInt8.ofNat (Nat.digitChar n).toNat ≤ '9'.toUInt8 := by decide
        rw [Nat.toDigits_of_lt_base hn]
        exact ⟨_, [], rfl, hdigit n hn hzero⟩
      · rw [Nat.toDigits_of_base_le (by decide) (Nat.le_of_not_lt hn), ascii_append]
        rcases ih (n / 10) (by omega) with ⟨h, -⟩ | ⟨-, c, s, hs, hc⟩
        · omega
        · rw [hs]
          exact ⟨c, _, rfl, hc⟩

theorem digit_ne {c d : UInt8} (hc : isDigit c = true) (hd : isDigit d = false) : c ≠ d := by
  rintro rfl
  rw [hc] at hd
  cases hd

/-! ## The loops -/

section Loops

variable {ds rest : List UInt8}

theorem readDigits_append (hds : ∀ c ∈ ds, isDigit c = true) (hrest : ∀ c ∈ rest.head?, isDigit c = false)
    (i : Int) (f : ℚ) : readDigits i f (ds ++ rest) =
      (ds.foldl (fun i c => int64 (i * 10 + digitValue c)) i, ds.foldl addDigit f, rest) := by
  induction ds generalizing i f with
  | nil =>
    cases rest with
    | nil => rfl
    | cons c rest =>
      show readDigits i f (c :: rest) = _
      rw [readDigits, hrest c rfl]
      rfl
  | cons c ds ih =>
    rw [List.cons_append, readDigits, if_pos (hds c List.mem_cons_self)]
    exact ih (fun d hd => hds d (List.mem_cons_of_mem _ hd)) _ _

theorem readFraction_append (hds : ∀ c ∈ ds, isDigit c = true) (hrest : ∀ c ∈ rest.head?, isDigit c = false)
    (f : ℚ) (scale : Int) :
    readFraction f scale (ds ++ rest) = (ds.foldl addDigit f, scale - ds.length, rest) := by
  induction ds generalizing f scale with
  | nil =>
    rw [List.length_nil, Int.natCast_zero, Int.sub_zero]
    cases rest with
    | nil => rfl
    | cons c rest =>
      show readFraction f scale (c :: rest) = _
      rw [readFraction, hrest c rfl]
      rfl
  | cons c ds ih =>
    rw [List.cons_append, readFraction, if_pos (hds c List.mem_cons_self),
      ih (fun d hd => hds d (List.mem_cons_of_mem _ hd)), List.length_cons]
    have hscale : scale - 1 - (ds.length : Int) = scale - ((ds.length + 1 : Nat) : Int) := by omega
    rw [hscale]
    rfl

theorem readExponent_append (hds : ∀ c ∈ ds, isDigit c = true) (hrest : ∀ c ∈ rest.head?, isDigit c = false)
    (subscale : Int) : readExponent subscale (ds ++ rest) =
      (ds.foldl (fun (s : Int) c => s * 10 + digitValue c) subscale, rest) := by
  induction ds generalizing subscale with
  | nil =>
    cases rest with
    | nil => rfl
    | cons c rest =>
      show readExponent subscale (c :: rest) = _
      rw [readExponent, hrest c rfl]
      rfl
  | cons c ds ih =>
    rw [List.cons_append, readExponent, if_pos (hds c List.mem_cons_self)]
    exact ih (fun d hd => hds d (List.mem_cons_of_mem _ hd)) _

end Loops

theorem int64_eq {n : Int} (h : -2 ^ 63 ≤ n) (h' : n < 2 ^ 63) : int64 n = n := by
  unfold int64
  rw [Int.bmod_eq_of_le_mul_two] <;> omega

/-- Digits of a number that fits into an `int64_t` do not overflow on the way. -/
theorem foldl_int64 {ds : List UInt8} {n : Nat}
    (h : ds.foldl (fun n c => n * 10 + digitValue c) n < 2 ^ 63) :
    ds.foldl (fun i c => int64 (i * 10 + digitValue c)) (n : Int) =
      (ds.foldl (fun n c => n * 10 + digitValue c) n : Nat) := by
  have hmono : ∀ (ds : List UInt8) (n : Nat), n ≤ ds.foldl (fun n c => n * 10 + digitValue c) n := by
    intro ds
    induction ds with
    | nil => exact fun _ => le_rfl
    | cons c ds ih =>
      intro n
      have hle := ih (n * 10 + digitValue c)
      show n ≤ ds.foldl (fun n c => n * 10 + digitValue c) (n * 10 + digitValue c)
      omega
  induction ds generalizing n with
  | nil => rfl
  | cons c ds ih =>
    have hle := hmono ds (n * 10 + digitValue c)
    change ds.foldl (fun n c => n * 10 + digitValue c) (n * 10 + digitValue c) < 2 ^ 63 at h
    have hnext : int64 ((n : Int) * 10 + digitValue c) = ((n * 10 + digitValue c : Nat) : Int) := by
      rw [int64_eq (by omega) (by omega)]
      push_cast
      rfl
    rw [List.foldl_cons, List.foldl_cons, hnext]
    exact ih h

/-! ## The numbers of `%lld` -/

theorem readSign_digits {s : List UInt8} (h : ∀ c ∈ s.head?, isDigit c = true) : readSign s = (1, s) := by
  cases s with
  | nil => rfl
  | cons c s => exact if_neg (digit_ne (h c rfl) (by decide))

theorem readSign_signed (negative : Bool) (n : Nat) (rest : List UInt8) :
    readSign (ascii (signed negative (Nat.toDigits 10 n)) ++ rest) =
      (if negative = true then -1 else 1, ascii (Nat.toDigits 10 n) ++ rest) := by
  cases negative with
  | true => rfl
  | false =>
    refine readSign_digits fun c hc => ?_
    show isDigit c = true
    cases hdigits : ascii (Nat.toDigits 10 n) with
    | nil => exact absurd (List.map_eq_nil_iff.1 hdigits) Nat.toDigits_ne_nil
    | cons d s =>
      have hmem := toDigits_isDigit n d (by rw [hdigits]; exact List.mem_cons_self)
      change c ∈ (ascii (Nat.toDigits 10 n) ++ rest).head? at hc
      rw [hdigits] at hc
      cases hc
      exact hmem

/-- The integer part of a number, behind its sign -/
theorem readInteger_toDigits (n : Nat) {rest : List UInt8} (hrest : ∀ c ∈ rest.head?, isDigit c = false) :
    readInteger (skipZero (ascii (Nat.toDigits 10 n) ++ rest)) =
      ((ascii (Nat.toDigits 10 n)).foldl (fun i c => int64 (i * 10 + digitValue c)) 0,
        if n = 0 then 0 else (ascii (Nat.toDigits 10 n)).foldl addDigit 0, rest) := by
  rcases toDigits_head n with ⟨hn, hdigits⟩ | ⟨hn, c, s, hdigits, hc⟩
  · rw [hdigits, if_pos hn]
    have hzero : (ascii ['0']).foldl (fun i c => int64 (i * 10 + digitValue c)) 0 = 0 := by decide
    rw [hzero]
    show readInteger rest = _
    cases rest with
    | nil => rfl
    | cons c rest =>
      refine if_neg fun hc => ?_
      have hdigit : isDigit c = true := by
        rw [isDigit, decide_eq_true_iff]
        exact ⟨UInt8.le_trans (by decide) hc.1, hc.2⟩
      rw [hrest c rfl] at hdigit
      cases hdigit
  · have hne : c ≠ '0'.toUInt8 := by
      rintro rfl
      exact absurd hc.1 (by decide)
    rw [hdigits, List.cons_append, skipZero, if_neg hne, readInteger, if_pos hc, ← List.cons_append, ← hdigits,
      readDigits_append (toDigits_isDigit n) hrest, if_neg hn.ne']

theorem readPoint_ends {rest : List UInt8} (h : ∀ c ∈ rest.head?, c ≠ '.'.toUInt8) (f : ℚ) :
    readPoint f rest = (true, f, 0, rest) := by
  unfold readPoint
  split
  · exact if_neg fun hc => h _ rfl hc.1
  · rfl

theorem readScale_ends {rest : List UInt8} (h : EndsNumber rest) : readScale rest = (true, 0, rest) := by
  cases rest with
  | nil => rfl
  | cons c rest =>
    have hc := h c rfl
    exact if_neg fun he => he.elim hc.2.2.1 hc.2.2.2

/-- What `%lld` prints is read back. -/
theorem parseNumber_printInt (P : Platform) {n : Int} (hlow : -2 ^ 63 < n) (hhigh : n < 2 ^ 63)
    {rest : List UInt8} (hrest : EndsNumber rest) :
    parseNumber P (printInt n ++ rest) = (.number n (double n), rest) := by
  have hend : ∀ c ∈ rest.head?, isDigit c = false := fun c hc => (hrest c hc).1
  have hfold : (ascii (Nat.toDigits 10 n.natAbs)).foldl (fun i c => int64 (i * 10 + digitValue c)) 0 =
      (n.natAbs : Int) := by
    have hvalue := decimalValue_toDigits n.natAbs
    unfold decimalValue at hvalue
    have h := @foldl_int64 (ascii (Nat.toDigits 10 n.natAbs)) 0 (by rw [hvalue]; omega)
    rwa [hvalue] at h
  have hinteger := readInteger_toDigits n.natAbs hend
  rw [hfold] at hinteger
  have hsign := readSign_signed (decide (n < 0)) n.natAbs rest
  simp only [decide_eq_true_eq] at hsign
  have hvalue : int64 ((if n < 0 then -1 else 1) * (n.natAbs : Int)) = n := by
    have heq : (if n < 0 then -1 else 1) * (n.natAbs : Int) = n := by split <;> omega
    rw [heq, int64_eq hlow.le hhigh]
  unfold parseNumber printInt decimal
  simp only [hsign, hinteger, readPoint_ends fun c hc => (hrest c hc).2.1, readScale_ends hrest, Bool.and_self, if_true,
    hvalue]

/-! ## The numbers of `%g` -/

/-- A fraction with its point, or nothing -/
inductive FractionText : List UInt8 → Prop where
  | none : FractionText []
  | digits {c : UInt8} {ds : List UInt8} (h : ∀ d ∈ c :: ds, isDigit d = true) :
      FractionText ('.'.toUInt8 :: c :: ds)

/-- An exponent with its sign, or nothing -/
inductive ExponentText : List UInt8 → Prop where
  | none : ExponentText []
  | digits {s : UInt8} {ds : List UInt8} (hs : s = '+'.toUInt8 ∨ s = '-'.toUInt8)
      (h : ∀ d ∈ ds, isDigit d = true) : ExponentText ('e'.toUInt8 :: s :: ds)

/-- The texts of `%g` -/
inductive NumberText : List UInt8 → Prop where
  | mk (negative : Bool) (n : Nat) {fraction exponent : List UInt8} (hfraction : FractionText fraction)
      (hexponent : ExponentText exponent) :
      NumberText (ascii (signed negative (Nat.toDigits 10 n)) ++ (fraction ++ exponent))

theorem FractionText.read {fraction : List UInt8} (h : FractionText fraction) (f : ℚ) :
    ∃ whole f' scale, ∀ rest : List UInt8,
      (∀ c ∈ rest.head?, isDigit c = false ∧ c ≠ '.'.toUInt8) →
      readPoint f (fraction ++ rest) = (whole, f', scale, rest) := by
  cases h with
  | none => exact ⟨true, f, 0, fun rest hrest => readPoint_ends (fun c hc => (hrest c hc).2) f⟩
  | @digits c ds hds =>
    refine ⟨false, (c :: ds).foldl addDigit f, 0 - (c :: ds).length, fun rest hrest => ?_⟩
    show (if _ ∧ _ then (false, readFraction f 0 (c :: ds ++ rest)) else _) = _
    rw [if_pos ⟨rfl, hds c List.mem_cons_self⟩, readFraction_append hds fun c hc => (hrest c hc).1]

theorem ExponentText.read {exponent : List UInt8} (h : ExponentText exponent) :
    ∃ plain subscale, ∀ rest : List UInt8, EndsNumber rest →
      readScale (exponent ++ rest) = (plain, subscale, rest) := by
  cases h with
  | none => exact ⟨true, 0, fun rest hrest => readScale_ends hrest⟩
  | @digits s ds hs hds =>
    have hexponent : ∀ rest : List UInt8, EndsNumber rest → readExponent 0 (ds ++ rest) =
        (ds.foldl (fun (s : Int) c => s * 10 + digitValue c) 0, rest) :=
      fun rest hrest => readExponent_append hds (fun c hc => (hrest c hc).1) 0
    rcases hs with rfl | rfl
    · refine ⟨false, ds.foldl (fun (s : Int) c => s * 10 + digitValue c) 0, fun rest hrest => ?_⟩
      show (false, readExponent 0 (ds ++ rest)) = _
      rw [hexponent rest hrest]
    · refine ⟨false, -ds.foldl (fun (s : Int) c => s * 10 + digitValue c) 0, fun rest hrest => ?_⟩
      show (false, -(readExponent 0 (ds ++ rest)).1, (readExponent 0 (ds ++ rest)).2) = _
      rw [hexponent rest hrest]

theorem ExponentText.head {exponent rest : List UInt8} (h : ExponentText exponent) (hrest : EndsNumber rest) :
    ∀ c ∈ (exponent ++ rest).head?, isDigit c = false ∧ c ≠ '.'.toUInt8 := by
  intro c hc
  cases h with
  | none => exact ⟨(hrest c hc).1, (hrest c hc).2.1⟩
  | digits _ _ =>
    cases hc
    exact ⟨by decide, by decide⟩

theorem FractionText.head {fraction rest : List UInt8} (h : FractionText fraction)
    (hrest : ∀ c ∈ rest.head?, isDigit c = false) : ∀ c ∈ (fraction ++ rest).head?, isDigit c = false := by
  intro c hc
  cases h with
  | none => exact hrest c hc
  | digits _ =>
    cases hc
    decide

/-- `parse_number` takes the whole text of a number, and nothing behind it. -/
theorem NumberText.read {text : List UInt8} (h : NumberText text) (P : Platform) :
    ∃ item, ∀ rest, EndsNumber rest → parseNumber P (text ++ rest) = (item, rest) := by
  obtain ⟨negative, n, hfraction, hexponent⟩ := h
  rename_i fraction exponent
  obtain ⟨plain, subscale, hscale⟩ := hexponent.read
  obtain ⟨whole, f, scale, hpoint⟩ := hfraction.read (if n = 0 then 0 else
    (ascii (Nat.toDigits 10 n)).foldl addDigit 0)
  let sign : Int := if negative = true then -1 else 1
  let i := int64 (sign * (ascii (Nat.toDigits 10 n)).foldl (fun i c => int64 (i * 10 + digitValue c)) 0)
  let value := double (sign * f * ipow 10 (scale + subscale))
  refine ⟨if whole && plain then .number i (double i) else .number (P.toInt64 value) value, fun rest hrest => ?_⟩
  have hhead := hexponent.head hrest
  rw [List.append_assoc, List.append_assoc, parseNumber]
  simp only [readSign_signed, readInteger_toDigits n (hfraction.head fun c hc => (hhead c hc).1), hpoint _ hhead,
    hscale rest hrest]
  split <;> rfl

/-- A text, with a point and digits behind it or without -/
def WithFraction (a s : List Char) : Prop :=
  s = a ∨ ∃ c ds, s = a ++ '.' :: c :: ds ∧ ∀ d ∈ c :: ds, d.isDigit = true

/-- The zeros at the end of a fraction are dropped, and a point with nothing behind it. -/
theorem trimZeros_point (a : List Char) {ds : List Char} (hds : ∀ d ∈ ds, d.isDigit = true) :
    WithFraction a (trimZeros (a ++ '.' :: ds)) := by
  have hreverse : (a ++ '.' :: ds).reverse = ds.reverse ++ '.' :: a.reverse := by simp
  unfold trimZeros
  rw [hreverse, List.dropWhile_append]
  cases hkept : ds.reverse.dropWhile fun c => decide (c = '0') with
  | nil =>
    left
    simp
  | cons d s =>
    right
    have hmem : ∀ c ∈ d :: s, c.isDigit = true := by
      intro c hc
      rw [← hkept] at hc
      exact hds c (List.mem_reverse.1 ((List.dropWhile_suffix _).subset hc))
    have hlast : d ≠ '.' := by
      rintro rfl
      exact absurd (hmem '.' List.mem_cons_self) (by decide)
    obtain ⟨c, ds', hback⟩ : ∃ c ds', (d :: s).reverse = c :: ds' :=
      List.exists_cons_of_ne_nil (by simp)
    have hwhole : (d :: s ++ '.' :: a.reverse).reverse = a ++ '.' :: c :: ds' := by
      rw [List.reverse_append, hback]
      simp
    have hend : (a ++ '.' :: c :: ds').getLast? = some d := by
      rw [← hwhole, List.getLast?_reverse]
      rfl
    refine ⟨c, ds', ?_, fun e he => hmem e ?_⟩
    · simp only [List.isEmpty_cons, Bool.false_eq_true, if_false, hwhole, hend]
      exact if_neg fun h => hlast (Option.some.inj h)
    · rw [← hback] at he
      exact List.mem_reverse.1 he

theorem signed_append (negative : Bool) (s t : List Char) : signed negative (s ++ t) = signed negative s ++ t := by
  cases negative <;> rfl

theorem WithFraction.signed {a s : List Char} (h : WithFraction a s) (negative : Bool) :
    WithFraction (signed negative a) (signed negative s) := by
  rcases h with rfl | ⟨c, ds, rfl, hds⟩
  · exact .inl rfl
  · exact .inr ⟨c, ds, signed_append _ _ _, hds⟩

theorem WithFraction.text {negative : Bool} {n : Nat} {s : List Char}
    (h : WithFraction (Iperf.signed negative (Nat.toDigits 10 n)) s) {exponent : List UInt8}
    (hexponent : ExponentText exponent) : NumberText (ascii s ++ exponent) := by
  rcases h with rfl | ⟨c, ds, rfl, hds⟩
  · exact .mk negative n .none hexponent
  · rw [ascii_append, List.append_assoc]
    exact .mk negative n (.digits (isDigit_ascii hds)) hexponent

/-- What `%g` prints is the text of a number. -/
theorem general_text (q : ℚ) : NumberText (ascii (general 6 q)) := by
  have hdigits : ∀ width n, ∀ d ∈ digits width n, d.isDigit = true := fun _ _ _ => digits_isDigit
  unfold general
  split
  · exact NumberText.mk false 0 .none .none
  · extract_lets p x n x' n' fraction
    by_cases hnotation : -4 ≤ x' ∧ x' < p
    · rw [if_pos hnotation]
      split
      · rename_i hx
        have hpos : (p - 1 - x' : Int).toNat ≠ 0 := by omega
        rw [fixed, if_neg hpos, signed_append, ← List.append_nil (ascii _)]
        exact (trimZeros_point _ (hdigits _ _)).text .none
      · rw [fixed, if_pos rfl, List.append_nil, ← List.append_nil (ascii _)]
        exact .mk _ _ .none .none
    · rw [if_neg hnotation, signed_append, ascii_append]
      have hfraction : fraction = '.' :: digits (p - 1) (n' % 10 ^ (p - 1)) := if_neg (by decide)
      rw [hfraction]
      refine ((trimZeros_point _ (hdigits _ _)).signed _).text (.digits ?_ (isDigit_ascii (hdigits 2 x'.natAbs)))
      by_cases hx : x' < 0
      · exact .inr (by rw [if_pos hx]; rfl)
      · exact .inl (by rw [if_neg hx]; rfl)

/-- A number begins with its sign or with a digit. -/
theorem NumberText.head {text : List UInt8} (h : NumberText text) :
    ∃ c more, text = c :: more ∧ (c = '-'.toUInt8 ∨ isDigit c = true) := by
  obtain ⟨negative, n, hfraction, hexponent⟩ := h
  cases negative with
  | true => exact ⟨_, _, rfl, .inl rfl⟩
  | false =>
    have hdigits := toDigits_isDigit n
    show ∃ c more, ascii (Nat.toDigits 10 n) ++ _ = _ ∧ _
    obtain ⟨c, ds, hds⟩ := List.exists_cons_of_ne_nil (Nat.toDigits_ne_nil (n := n) (b := 10))
    rw [hds] at hdigits ⊢
    exact ⟨_, _, rfl, .inr (hdigits _ List.mem_cons_self)⟩

theorem printNumber_text (P : Platform) (valueint : Int) (valuefloat : ℚ) :
    NumberText (printNumber P valueint valuefloat) := by
  unfold printNumber
  split
  · have h := NumberText.mk (valueint < 0) valueint.natAbs .none .none
    rwa [List.append_nil, List.append_nil] at h
  · exact general_text valuefloat

end Iperf
