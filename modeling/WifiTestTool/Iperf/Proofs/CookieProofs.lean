import WifiTestTool.Iperf.Cookie
import WifiTestTool.Iperf.Proofs.UnitsProofs
import WifiTestTool.Lib.Digits

/-!
# What a cookie identifies

A cookie is the beginning of a text in which the host name comes first and the time second, so a long host
name pushes the time out of it. Two cookies of one host are different if and only if the times differ in a
digit that is still inside.
-/

namespace Iperf

/-! ## The texts -/

/-- 36 characters and a terminator. -/
def IsCookie (cookie : List UInt8) : Prop :=
  ∃ s : List UInt8, s.length = 36 ∧ 0 ∉ s ∧ cookie = s ++ [0]

/-- A time that `gettimeofday` gives. -/
structure IsClock (tv : Timeval) : Prop where
  sec : 0 ≤ tv.tvSec
  usec : 0 ≤ tv.tvUsec ∧ tv.tvUsec < 1000000

/-- The number of digits of the seconds. -/
def secDigits (tv : Timeval) : Nat := (Nat.toDigits 10 tv.tvSec.natAbs).length

/-- The printed times agree in their first `room` characters: either the room ends in the seconds, and they
agree without the digits that are cut off, or the seconds are the same and so are the microseconds without
the digits that are cut off. -/
def AgreeWithin (room : Nat) (tv₁ tv₂ : Timeval) : Prop :=
  (room ≤ secDigits tv₁ ∧ room ≤ secDigits tv₂ ∧
    tv₁.tvSec.natAbs / 10 ^ (secDigits tv₁ - room) = tv₂.tvSec.natAbs / 10 ^ (secDigits tv₂ - room)) ∨
  (secDigits tv₁ < room ∧ tv₁.tvSec = tv₂.tvSec ∧
    tv₁.tvUsec.natAbs / 10 ^ (6 - (room - (secDigits tv₁ + 1))) =
      tv₂.tvUsec.natAbs / 10 ^ (6 - (room - (secDigits tv₁ + 1))))

theorem digits_succ {width : Nat} (hwidth : 0 < width) (n : Nat) :
    digits (width + 1) n = digits width (n / 10) ++ [Nat.digitChar (n % 10)] := by
  unfold digits
  by_cases hn : n < 10
  · obtain ⟨k, rfl⟩ := Nat.exists_eq_add_of_lt hwidth
    rw [Nat.toDigits_of_lt_base hn, Nat.div_eq_of_lt hn, Nat.mod_eq_of_lt hn, Nat.toDigits_zero,
      List.length_singleton, List.length_singleton, List.append_assoc, Nat.add_sub_cancel, Nat.add_sub_cancel,
      List.replicate_succ', List.append_assoc]
  · rw [Nat.toDigits_of_base_le (by omega) (not_lt.1 hn), List.length_append, List.length_singleton,
      Nat.add_sub_add_right, List.append_assoc]

/-- The first `k` digits of a number that is printed with a fixed width. -/
theorem take_digits {k width n : Nat} (hk : 0 < k) (hwidth : k ≤ width) (hn : n < 10 ^ width) :
    (digits width n).take k = digits k (n / 10 ^ (width - k)) := by
  induction width, hwidth using Nat.le_induction generalizing n with
  | base =>
    rw [Nat.sub_self, pow_zero, Nat.div_one, List.take_of_length_le (digits_length hk hn).le]
  | succ width hle ih =>
    have hn' : n / 10 < 10 ^ width := by
      rw [Nat.div_lt_iff_lt_mul (by omega), ← pow_succ]
      exact hn
    have hlength := digits_length (hk.trans_le hle) hn'
    rw [digits_succ (hk.trans_le hle), List.take_append_of_le_length (by omega), ih hn', Nat.div_div_eq_div_mul,
      ← pow_succ', Nat.sub_add_comm hle]

theorem take_digits_eq_iff {k width m n : Nat} (hwidth : k ≤ width) (hm : m < 10 ^ width)
    (hn : n < 10 ^ width) :
    (digits width m).take k = (digits width n).take k ↔ m / 10 ^ (width - k) = n / 10 ^ (width - k) := by
  rcases Nat.eq_zero_or_pos k with rfl | hk
  · rw [Nat.sub_zero, Nat.div_eq_of_lt hm, Nat.div_eq_of_lt hn, List.take_zero, List.take_zero]
    exact iff_of_true rfl rfl
  · rw [take_digits hk hwidth hm, take_digits hk hwidth hn]
    refine ⟨fun h => ?_, fun h => congrArg _ h⟩
    rw [← ofDigitChars_digits k (m / _), h, ofDigitChars_digits]

/-- Texts up to a point that is inside the first `k` characters. -/
theorem take_point_eq_iff {k : Nat} {a b x y : List Char} (ha : '.' ∉ a) (hb : '.' ∉ b) (hk : a.length < k) :
    (a ++ '.' :: x).take k = (b ++ '.' :: y).take k ↔
      a = b ∧ x.take (k - (a.length + 1)) = y.take (k - (a.length + 1)) := by
  induction a generalizing b k with
  | nil =>
    obtain ⟨k, rfl⟩ := Nat.exists_eq_add_of_lt hk
    cases b with
    | nil => simp
    | cons c b =>
      have hc : '.' ≠ c := fun h => hb (h ▸ List.mem_cons_self)
      simp [hc]
  | cons c a ih =>
    obtain ⟨k, rfl⟩ : ∃ j, k = j + 1 := ⟨k - 1, by omega⟩
    have hk' : a.length < k := Nat.lt_of_succ_lt_succ hk
    cases b with
    | nil =>
      have hc : c ≠ '.' := fun h => ha (h ▸ List.mem_cons_self)
      simp [hc]
    | cons c' b =>
      have ih' := ih (List.not_mem_of_not_mem_cons ha) (List.not_mem_of_not_mem_cons hb) hk'
      rw [List.cons_append, List.cons_append, List.take_succ_cons, List.take_succ_cons, List.cons.injEq,
        List.cons.injEq, ih', List.length_cons, Nat.add_sub_add_right, and_assoc]

theorem point_notMem {s : List Char} (h : ∀ c ∈ s, c.isDigit = true) : '.' ∉ s := by
  intro hmem
  exact absurd (h _ hmem) (by simp)

theorem toDigits_point (n : Nat) : '.' ∉ Nat.toDigits 10 n :=
  point_notMem fun _ hc => Nat.isDigit_of_mem_toDigits (by omega) (by omega) hc

theorem cookieTail_eq {tv : Timeval} (h : IsClock tv) (random₁ random₂ : Nat) :
    cookieTail tv random₁ random₂ = Nat.toDigits 10 tv.tvSec.natAbs ++ '.' ::
      (digits 6 tv.tvUsec.natAbs ++ '.' :: (hex08 random₁ ++ (hex08 random₂ ++ '.' :: filler.toList))) := by
  have hsec : ¬ tv.tvSec < 0 := not_lt.2 h.sec
  have husec : ¬ tv.tvUsec < 0 := not_lt.2 h.usec.1
  unfold cookieTail decimal decimal06
  rw [decide_eq_false hsec, decide_eq_false husec, if_neg husec]
  rfl

theorem IsClock.usec_lt {tv : Timeval} (h : IsClock tv) : tv.tvUsec.natAbs < 10 ^ 6 := by
  have := h.usec
  omega

theorem timeval_eq {tv₁ tv₂ : Timeval} (hsec : tv₁.tvSec = tv₂.tvSec) (husec : tv₁.tvUsec = tv₂.tvUsec) :
    tv₁ = tv₂ := by
  cases tv₁
  cases tv₂
  rw [Timeval.mk.injEq]
  exact ⟨hsec, husec⟩

/-- Texts behind the same seconds agree in `room` characters if the microseconds do. -/
theorem take_usec_eq_iff {tv₁ tv₂ : Timeval} (h₁ : IsClock tv₁) (h₂ : IsClock tv₂)
    (hne : tv₁.tvUsec ≠ tv₂.tvUsec) (room : Nat) (x y : List Char) :
    (digits 6 tv₁.tvUsec.natAbs ++ '.' :: x).take room = (digits 6 tv₂.tvUsec.natAbs ++ '.' :: y).take room ↔
      tv₁.tvUsec.natAbs / 10 ^ (6 - room) = tv₂.tvUsec.natAbs / 10 ^ (6 - room) := by
  have hlen₁ := digits_length (by omega : 0 < 6) h₁.usec_lt
  have hlen₂ := digits_length (by omega : 0 < 6) h₂.usec_lt
  have husec₁ := h₁.usec
  have husec₂ := h₂.usec
  by_cases hroom : room ≤ 6
  · rw [List.take_append_of_le_length (by omega), List.take_append_of_le_length (by omega),
      take_digits_eq_iff hroom h₁.usec_lt h₂.usec_lt]
  · have hpoint : ∀ n, '.' ∉ digits 6 n := fun n => point_notMem fun _ => digits_isDigit
    rw [take_point_eq_iff (hpoint _) (hpoint _) (by omega), Nat.sub_eq_zero_of_le (by omega : 6 ≤ room),
      pow_zero, Nat.div_one, Nat.div_one]
    refine iff_of_false (fun h => ?_) (by omega)
    have heq := congrArg (fun s => Nat.ofDigitChars 10 s 0) h.1
    rw [ofDigitChars_digits, ofDigitChars_digits] at heq
    omega

/-- **The printed times**: the texts behind two host names agree in their first `room` characters if and only
if the times do. -/
theorem take_cookieTail_eq_iff {tv₁ tv₂ : Timeval} (h₁ : IsClock tv₁) (h₂ : IsClock tv₂) (hne : tv₁ ≠ tv₂)
    (room a b c d : Nat) :
    (cookieTail tv₁ a b).take room = (cookieTail tv₂ c d).take room ↔ AgreeWithin room tv₁ tv₂ := by
  have hsec₁ := h₁.sec
  have hsec₂ := h₂.sec
  rw [cookieTail_eq h₁, cookieTail_eq h₂]
  unfold AgreeWithin secDigits
  by_cases hin : room ≤ (Nat.toDigits 10 tv₁.tvSec.natAbs).length ∧
      room ≤ (Nat.toDigits 10 tv₂.tvSec.natAbs).length
  · -- The room ends in the seconds of both.
    obtain ⟨hin₁, hin₂⟩ := hin
    rw [List.take_append_of_le_length hin₁, List.take_append_of_le_length hin₂,
      Digits.take_toDigits_eq_iff hin₁ hin₂]
    exact ⟨fun h => .inl ⟨hin₁, hin₂, h⟩, fun h => by
      rcases h with ⟨-, -, h⟩ | ⟨hlt, -, -⟩
      · exact h
      · omega⟩
  · -- The point behind the seconds is in the room of one of them, so both have the same seconds.
    have hsame : (Nat.toDigits 10 tv₁.tvSec.natAbs).length < room → tv₁.tvSec = tv₂.tvSec →
        tv₁.tvUsec ≠ tv₂.tvUsec := fun _ hsec husec => hne (timeval_eq hsec husec)
    by_cases hlt : (Nat.toDigits 10 tv₁.tvSec.natAbs).length < room
    · rw [take_point_eq_iff (toDigits_point _) (toDigits_point _) hlt]
      constructor
      · rintro ⟨hdigits, hrest⟩
        have hsec : tv₁.tvSec = tv₂.tvSec := by
          have := Digits.toDigits_inj hdigits
          omega
        exact .inr ⟨hlt, hsec, (take_usec_eq_iff h₁ h₂ (hsame hlt hsec) _ _ _).1 hrest⟩
      · rintro (⟨hle, -, -⟩ | ⟨-, hsec, husec⟩)
        · omega
        · exact ⟨by rw [hsec], (take_usec_eq_iff h₁ h₂ (hsame hlt hsec) _ _ _).2 husec⟩
    · refine iff_of_false (fun h => ?_) ?_
      · have h' := (take_point_eq_iff (toDigits_point _) (toDigits_point _) (by omega)).1 h.symm
        have := congrArg List.length h'.1
        omega
      · rintro (⟨hle₁, hle₂, -⟩ | ⟨hlt', -, -⟩)
        · exact hin ⟨hle₁, hle₂⟩
        · exact hlt hlt'

/-! ## The bytes -/

/-- The characters of the text behind the host name are ASCII characters other than NUL. -/
theorem cookieTail_bounds (tv : Timeval) (random₁ random₂ : Nat) {c : Char}
    (hc : c ∈ cookieTail tv random₁ random₂) : 0 < c.toNat ∧ c.toNat < 128 := by
  have hdigits : ∀ {b n : Nat}, 1 < b → c ∈ Nat.toDigits b n → 0 < c.toNat ∧ c.toNat < 128 := by
    intro b n hb hc
    obtain ⟨d, rfl⟩ := Digits.mem_toDigits hb hc
    have := Digits.digitChar_bounds d
    omega
  have hpadded : ∀ {k b n : Nat}, 1 < b → c ∈ List.replicate k '0' ++ Nat.toDigits b n →
      0 < c.toNat ∧ c.toNat < 128 := by
    intro k b n hb hc
    rcases List.mem_append.1 hc with hc | hc
    · rw [List.eq_of_mem_replicate hc]
      decide
    · exact hdigits hb hc
  have hsigned : ∀ {negative : Bool} {s : List Char}, c ∈ signed negative s →
      (c ∈ s → 0 < c.toNat ∧ c.toNat < 128) → 0 < c.toNat ∧ c.toNat < 128 := by
    intro negative s hc hs
    cases negative with
    | false => exact hs hc
    | true =>
      rcases List.mem_cons.1 hc with rfl | hc
      · decide
      · exact hs hc
  unfold cookieTail at hc
  simp only [List.mem_append, List.mem_cons] at hc
  rcases hc with hc | rfl | hc | rfl | hc | hc | rfl | hc
  · exact hsigned hc (hdigits (by omega))
  · decide
  · exact hsigned hc (hpadded (by omega))
  · decide
  · exact hpadded (by omega) hc
  · exact hpadded (by omega) hc
  · decide
  · have hall : (filler.toList.all fun c => 0 < c.toNat ∧ c.toNat < 128) = true := by rfl
    exact of_decide_eq_true (List.all_eq_true.1 hall c hc)

theorem ascii_inj {s t : List Char} (hs : ∀ c ∈ s, c.toNat < 128) (ht : ∀ c ∈ t, c.toNat < 128)
    (h : ascii s = ascii t) : s = t := by
  induction s generalizing t with
  | nil => exact (List.map_eq_nil_iff.1 h.symm).symm
  | cons c s ih =>
    cases t with
    | nil => cases h
    | cons d t =>
      obtain ⟨hhead, htail⟩ := List.cons.inj h
      have hc := hs c List.mem_cons_self
      have hd := ht d List.mem_cons_self
      have hnat := congrArg UInt8.toNat hhead
      rw [UInt8.toNat_ofNat', UInt8.toNat_ofNat', Nat.mod_eq_of_lt (by omega), Nat.mod_eq_of_lt (by omega)]
        at hnat
      rw [Char.toNat_inj.1 hnat, ih (fun c' h' => hs c' (List.mem_cons_of_mem _ h'))
        (fun c' h' => ht c' (List.mem_cons_of_mem _ h')) htail]

/-! ## Cookies -/

/-- The characters that the host name leaves for what comes behind its point. -/
def timeRoom (hostname : List UInt8) : Nat := 36 - (hostname.length + 1)

theorem makeCookie_eq (hostname : List UInt8) (tv : Timeval) (random₁ random₂ : Nat) :
    makeCookie hostname tv random₁ random₂ = hostname.take 36 ++
      (ascii ('.' :: cookieTail tv random₁ random₂)).take (36 - hostname.length) ++ [0] := by
  unfold makeCookie
  dsimp only
  rw [List.take_take, Nat.min_eq_left (by omega), List.take_append]

/-- **Every cookie has 36 characters and a terminator.** -/
theorem makeCookie_isCookie {hostname : List UInt8} (hhost : 0 ∉ hostname) (tv : Timeval)
    (random₁ random₂ : Nat) : IsCookie (makeCookie hostname tv random₁ random₂) := by
  have hfiller : 40 ≤ (cookieTail tv random₁ random₂).length := by
    have hlength : filler.toList.length = 40 := by rfl
    unfold cookieTail
    simp only [List.length_append, List.length_cons, hlength]
    omega
  refine ⟨_, ?_, ?_, makeCookie_eq hostname tv random₁ random₂⟩
  · simp only [List.length_append, List.length_take, ascii, List.length_map, List.length_cons]
    omega
  · intro hmem
    rcases List.mem_append.1 hmem with hmem | hmem
    · exact hhost (List.mem_of_mem_take hmem)
    · obtain ⟨c, hc, hzero⟩ := List.mem_map.1 (List.mem_of_mem_take hmem)
      have hbounds : 0 < c.toNat ∧ c.toNat < 128 := by
        rcases List.mem_cons.1 hc with rfl | hc
        · decide
        · exact cookieTail_bounds tv random₁ random₂ hc
      have hnat := congrArg UInt8.toNat hzero
      rw [UInt8.toNat_ofNat', Nat.mod_eq_of_lt (by omega)] at hnat
      exact absurd hnat (Nat.ne_of_gt hbounds.1)

/-- Two cookies of one host are equal if and only if the printed times agree in the room that there is. -/
theorem makeCookie_eq_iff (hostname : List UInt8) {tv₁ tv₂ : Timeval} (h₁ : IsClock tv₁) (h₂ : IsClock tv₂)
    (hne : tv₁ ≠ tv₂) (a b c d : Nat) :
    makeCookie hostname tv₁ a b = makeCookie hostname tv₂ c d ↔ AgreeWithin (timeRoom hostname) tv₁ tv₂ := by
  rw [makeCookie_eq, makeCookie_eq, List.append_left_inj, List.append_right_inj,
    ← take_cookieTail_eq_iff h₁ h₂ hne _ a b c d]
  have htail : ∀ tv r r', (ascii ('.' :: cookieTail tv r r')).take (36 - hostname.length) =
      ascii (('.' :: cookieTail tv r r').take (36 - hostname.length)) := fun _ _ _ => List.map_take.symm
  rw [htail, htail]
  by_cases hroom : 36 ≤ hostname.length
  · rw [timeRoom, Nat.sub_eq_zero_of_le hroom, Nat.sub_eq_zero_of_le (by omega)]
    exact iff_of_true rfl rfl
  · have hsucc : 36 - hostname.length = timeRoom hostname + 1 := by
      unfold timeRoom
      omega
    have hascii : ∀ {tv r r'}, ∀ c' ∈ '.' :: (cookieTail tv r r').take (timeRoom hostname), c'.toNat < 128 := by
      intro tv r r' c' hc'
      rcases List.mem_cons.1 hc' with rfl | hc'
      · decide
      · exact (cookieTail_bounds tv r r' (List.mem_of_mem_take hc')).2
    rw [hsucc, List.take_succ_cons, List.take_succ_cons]
    refine ⟨fun h => ?_, fun h => by rw [h]⟩
    exact (List.cons.inj (ascii_inj hascii hascii h)).2

/-- Two cookies are told apart by `strcmp` if and only if they are different. -/
theorem IsCookie.strcmpEq {a b : List UInt8} (ha : IsCookie a) (hb : IsCookie b) :
    strcmpEq a b = some (decide (a = b)) := by
  obtain ⟨s, -, hs, rfl⟩ := ha
  obtain ⟨t, -, ht, rfl⟩ := hb
  have hcstr : ∀ u : List UInt8, 0 ∉ u → cstr (u ++ [0]) = u := by
    intro u hu
    unfold cstr
    have hnonzero : ∀ x ∈ u, decide (x ≠ 0) = true := by
      intro x hx
      refine decide_eq_true fun hzero => ?_
      rw [hzero] at hx
      exact hu hx
    rw [List.takeWhile_append_of_pos hnonzero, List.takeWhile_cons_of_neg (by simp), List.append_nil]
  unfold Iperf.strcmpEq
  rw [if_pos (.inl (List.mem_append_right s (List.mem_singleton_self 0))), hcstr s hs, hcstr t ht]
  exact congrArg some (decide_eq_decide.2 (List.append_left_inj [0]).symm)

/-! ## Host names -/

theorem secDigits_pow {w : Nat} (hw : 0 < w) (usec : Int) : secDigits ⟨10 ^ (w - 1), usec⟩ = w := by
  have hnat : ((10 : Int) ^ (w - 1)).natAbs = 10 ^ (w - 1) := by
    rw [Int.natAbs_pow]
    rfl
  unfold secDigits
  dsimp only
  rw [hnat]
  refine le_antisymm ((Nat.length_toDigits_le_iff (by omega) hw).2 (Nat.pow_lt_pow_right (by omega) (by omega)))
    (not_lt.1 fun hlt => ?_)
  have hpos := Nat.length_toDigits_pos (b := 10) (n := 10 ^ (w - 1))
  have hle := (Nat.length_toDigits_le_iff (b := 10) (n := 10 ^ (w - 1)) (k := w - 1) (by omega)
    (by omega)).1 (by omega)
  exact absurd hle (lt_irrefl _)

/-- All times with `w` digits of seconds are told apart if and only if the seconds and microseconds are in
the cookie as a whole. -/
theorem agreeWithin_iff {w : Nat} (hw : 0 < w) (room : Nat) :
    (∀ tv₁ tv₂, IsClock tv₁ → IsClock tv₂ → secDigits tv₁ = w → secDigits tv₂ = w → tv₁ ≠ tv₂ →
      ¬ AgreeWithin room tv₁ tv₂) ↔ w + 7 ≤ room := by
  constructor
  · intro h
    by_contra hroom
    have hclock : ∀ usec : Int, 0 ≤ usec ∧ usec < 1000000 → IsClock ⟨10 ^ (w - 1), usec⟩ := fun usec husec =>
      ⟨by positivity, husec⟩
    refine h ⟨10 ^ (w - 1), 0⟩ ⟨10 ^ (w - 1), 1⟩ (hclock 0 (by omega)) (hclock 1 (by omega))
      (secDigits_pow hw 0) (secDigits_pow hw 1) (by simp) ?_
    unfold AgreeWithin
    rw [secDigits_pow hw, secDigits_pow hw]
    by_cases hin : room ≤ w
    · exact .inl ⟨hin, hin, rfl⟩
    · refine .inr ⟨by omega, rfl, ?_⟩
      obtain ⟨k, hk⟩ : ∃ k, 6 - (room - (w + 1)) = k + 1 := ⟨6 - (room - (w + 1)) - 1, by omega⟩
      have hone : 1 / 10 ^ (k + 1) = 0 := Nat.div_eq_of_lt (Nat.one_lt_pow (by omega) (by omega))
      rw [hk]
      exact (Nat.zero_div _).trans hone.symm
  · rintro hroom tv₁ tv₂ h₁ h₂ hw₁ - hne (⟨hin, -, -⟩ | ⟨-, hsec, husec⟩)
    · omega
    · rw [hw₁, Nat.sub_eq_zero_of_le (by omega : 6 ≤ room - (w + 1)), pow_zero, Nat.div_one, Nat.div_one] at husec
      have husec₁ := h₁.usec
      have husec₂ := h₂.usec
      exact hne (timeval_eq hsec (by omega))

/-- **Cookies identify tests**, as far as the host name lets them: two cookies of a host are cookies, and
different, if and only if the printed times do not agree in the characters that the host name leaves for
them; and whatever times with `w` digits of seconds are given, if and only if the host name has at most
`28 - w` characters. -/
theorem cookies_differ_iff {hostname : List UInt8} (hhost : 0 ∉ hostname) :
    (∀ tv₁ tv₂, IsClock tv₁ → IsClock tv₂ → tv₁ ≠ tv₂ → ∀ a b c d,
      (IsCookie (makeCookie hostname tv₁ a b) ∧ IsCookie (makeCookie hostname tv₂ c d) ∧
        makeCookie hostname tv₁ a b ≠ makeCookie hostname tv₂ c d) ↔
      ¬ AgreeWithin (36 - (hostname.length + 1)) tv₁ tv₂) ∧
    ∀ w, 0 < w →
      ((∀ tv₁ tv₂, IsClock tv₁ → IsClock tv₂ → secDigits tv₁ = w → secDigits tv₂ = w → tv₁ ≠ tv₂ →
        ∀ a b c d, makeCookie hostname tv₁ a b ≠ makeCookie hostname tv₂ c d) ↔
      hostname.length + w + 8 ≤ 36) := by
  constructor
  · intro tv₁ tv₂ h₁ h₂ hne a b c d
    have heq := makeCookie_eq_iff hostname h₁ h₂ hne a b c d
    exact ⟨fun h hagree => h.2.2 (heq.2 hagree), fun h =>
      ⟨makeCookie_isCookie hhost tv₁ a b, makeCookie_isCookie hhost tv₂ c d, fun h' => h (heq.1 h')⟩⟩
  · intro w hw
    have hroom := agreeWithin_iff hw (timeRoom hostname)
    have hlength : w + 7 ≤ timeRoom hostname ↔ hostname.length + w + 8 ≤ 36 := by
      unfold timeRoom
      omega
    rw [← hlength, ← hroom]
    constructor
    · intro h tv₁ tv₂ h₁ h₂ hw₁ hw₂ hne hagree
      exact h tv₁ tv₂ h₁ h₂ hw₁ hw₂ hne 0 0 0 0 ((makeCookie_eq_iff hostname h₁ h₂ hne 0 0 0 0).2 hagree)
    · intro h tv₁ tv₂ h₁ h₂ hw₁ hw₂ hne a b c d heq
      exact h tv₁ tv₂ h₁ h₂ hw₁ hw₂ hne ((makeCookie_eq_iff hostname h₁ h₂ hne a b c d).1 heq)

instance (room : Nat) (tv₁ tv₂ : Timeval) : Decidable (AgreeWithin room tv₁ tv₂) :=
  inferInstanceAs (Decidable ((_ ∧ _ ∧ _ = _) ∨ (_ ∧ _ ∧ _ = _)))

/-- A device without a name of its own, and two times that are a microsecond apart. -/
theorem cookies_differ_localhost :
    makeCookie (ascii "localhost".toList) ⟨1500000000, 0⟩ 7 9 ≠
      makeCookie (ascii "localhost".toList) ⟨1500000000, 1⟩ 7 9 :=
  (((cookies_differ_iff (by decide)).1 ⟨1500000000, 0⟩ ⟨1500000000, 1⟩ ⟨by decide, by decide⟩
    ⟨by decide, by decide⟩ (by decide) 7 9 7 9).2 (by decide)).2.2

/-- A host name that leaves no room: the cookie is the beginning of the name, at any time. -/
theorem cookies_refuted :
    ¬ ∀ hostname : List UInt8, 0 ∉ hostname → ∀ tv₁ tv₂, IsClock tv₁ → IsClock tv₂ → tv₁ ≠ tv₂ →
      ∀ a b c d, IsCookie (makeCookie hostname tv₁ a b) ∧ IsCookie (makeCookie hostname tv₂ c d) ∧
        makeCookie hostname tv₁ a b ≠ makeCookie hostname tv₂ c d := by
  intro h
  have hdiffer := (h (ascii "ip-10-0-0-1.eu-central-1.compute.internal".toList) (by decide) ⟨1500000000, 0⟩
    ⟨1600000000, 0⟩ ⟨by decide, by decide⟩ ⟨by decide, by decide⟩ (by decide) 1 2 3 4).2.2
  exact hdiffer (by decide)

end Iperf
