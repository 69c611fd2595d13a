import WifiTestTool.Iperf.Streams
import WifiTestTool.App.Proofs.TextProofs
import WifiTestTool.Iperf.Proofs.UnitsProofs
import WifiTestTool.Lib.Frame

/-!
# What the app reads in a line of an interval report

The app looks for the bit rate between two pairs of blanks. There are two blanks in front of the number that
`unit_snprintf` prints; with a blank that it puts in front of a number of 3 digits there are three, the third
one becomes a part of the bit rate, and what stands in front of its first blank is no number.
-/

namespace WifiTest

open Iperf (intervalLine fixed printed pad double ThreeDigits UnitScaled Adaptive)
open Text (blanks pieces IsNumber)

/-! ## The end of the interval -/

theorem findEndtime_pieces {ps rest : List Text} {data : Text} (hps : ∀ p ∈ ps, '-' ∉ p) (hdata : '-' ∈ data) :
    findEndtime (ps ++ data :: rest) = Text.item (data.split "-".toList) 1 := by
  induction ps with
  | nil =>
    have hcontains : data.contains "-".toList = true := by
      obtain ⟨u, v, rfl⟩ := List.append_of_mem hdata
      exact Text.contains_append u ['-'] v
    show (if data.contains "-".toList = true then _ else _) = _
    rw [if_pos hcontains]
  | cons p ps ih =>
    have hcontains : p.contains "-".toList = false :=
      Text.contains_eq_false (hps p List.mem_cons_self)
    show (if p.contains "-".toList = true then _ else _) = _
    rw [hcontains, if_neg Bool.false_ne_true]
    exact ih fun q hq => hps q (List.mem_cons_of_mem p hq)

theorem findEndtime_line {front start finish rest : Text} (hfront : '-' ∉ front) (hs : ' ' ∉ start ∧ '-' ∉ start)
    (hf : ' ' ∉ finish ∧ '-' ∉ finish) (hne : finish ≠ []) :
    findEndtime (Text.split (front ++ ' ' :: (start ++ '-' :: finish ++ ' ' :: rest)) " ".toList) =
      .ok finish := by
  have hblank : ' ' ∉ start ++ '-' :: finish := by
    rw [List.mem_append, List.mem_cons]
    rintro (h | h | h)
    · exact hs.1 h
    · exact absurd h (by decide)
    · exact hf.1 h
  have hpieces : pieces [' '] 0 [] (front ++ ' ' :: (start ++ '-' :: finish ++ ' ' :: rest)) =
      pieces [' '] 0 [] front ++ (start ++ '-' :: finish) :: pieces [' '] 0 [] rest := by
    rw [Text.pieces_char_append, Text.pieces_char_append, Text.pieces_char_of_notMem _ hblank]
    rfl
  have hbefore := Text.pieces_ne_nil [' '] front 0 []
  obtain ⟨after, hsplit⟩ := Text.split_eq (by simp) hpieces (.inl hbefore)
  rw [show (" ".toList : Text) = [' '] from rfl, hsplit, findEndtime_pieces ?_ (by simp)]
  · have hpieces' : pieces ['-'] 0 [] (start ++ '-' :: finish) = [start] ++ finish :: [] := by
      rw [Text.pieces_char_append, Text.pieces_char_of_notMem _ hs.2, Text.pieces_char_of_notMem _ hf.2]
      rfl
    obtain ⟨after', hsplit'⟩ := Text.split_eq hne hpieces' (.inl (List.cons_ne_nil _ _))
    rw [show ("-".toList : Text) = ['-'] from rfl, hsplit']
    rfl
  · intro p hp hmem
    rcases Text.mem_of_mem_pieces front 0 [] hp hmem with h | h
    · exact absurd h List.not_mem_nil
    · exact hfront h

/-! ## The bit rate -/

theorem findBitrate_pieces {ps rest : List Text} {bit : Text} (hps : ∀ p ∈ ps, '/' ∉ p)
    (hbit : bit.contains "/sec".toList = true) (transfer : Text) :
    ∃ transfer', findBitrate (ps ++ bit :: rest) transfer = (bit, transfer') := by
  induction ps generalizing transfer with
  | nil =>
    refine ⟨transfer, ?_⟩
    show (if bit.contains "/sec".toList = true then _ else _) = _
    rw [if_pos hbit]
  | cons p ps ih =>
    have hcontains : p.contains "/sec".toList = false :=
      Text.contains_eq_false (hps p List.mem_cons_self)
    show ∃ transfer', (if p.contains "/sec".toList = true then _ else _) = _
    rw [hcontains, if_neg Bool.false_ne_true]
    exact ih (fun q hq => hps q (List.mem_cons_of_mem p hq)) _

/-- The bit rate is what stands between the transfer and two blanks. -/
theorem findBitrate_line {front bit rest : Text} {d : Char} (hfront : '/' ∉ front) (hd : d ≠ ' ')
    (hbit : (bit ++ [d]).contains "/sec".toList = true) (hone : pieces blanks 0 [] (bit ++ [d]) = [bit ++ [d]]) :
    ∃ transfer, findBitrate
      (Text.split (front ++ 's' :: ' ' :: ' ' :: (bit ++ d :: ' ' :: ' ' :: rest)) "  ".toList) [] =
        (bit ++ [d], transfer) := by
  have hpieces : pieces blanks 0 [] (front ++ 's' :: ' ' :: ' ' :: (bit ++ d :: ' ' :: ' ' :: rest)) =
      pieces blanks 0 [] (front ++ ['s']) ++ (bit ++ [d]) :: pieces blanks 0 [] rest := by
    rw [Text.pieces_blanks_split (by decide), Text.pieces_blanks_split hd, hone]
    rfl
  have hbefore := Text.pieces_ne_nil blanks (front ++ ['s']) 0 []
  obtain ⟨after, hsplit⟩ := Text.split_eq (by simp) hpieces (.inl hbefore)
  rw [show ("  ".toList : Text) = blanks from rfl, hsplit]
  apply findBitrate_pieces _ hbit
  intro p hp hmem
  rcases Text.mem_of_mem_pieces (front ++ ['s']) 0 [] hp hmem with h | h
  · exact absurd h List.not_mem_nil
  · rcases List.mem_append.1 h with h | h
    · exact hfront h
    · exact absurd (List.mem_singleton.1 h) (by decide)

/-! ## The line -/

theorem blank_comm (n : Nat) (s : Text) :
    ' ' :: (List.replicate n ' ' ++ s) = List.replicate n ' ' ++ ' ' :: s := by
  induction n with
  | zero => rfl
  | succ n ih => rw [List.replicate_succ, List.cons_append, List.cons_append, ih]

theorem parseData_line {socket start finish ubuf nbuf tail : Text} {i j : Nat} (hsocket : '-' ∉ socket)
    (hsocket' : '/' ∉ socket) (hstart : IsNumber start) (hfinish : IsNumber finish) (hubuf : '/' ∉ ubuf)
    (hone : pieces blanks 0 [] (nbuf ++ "s/sec".toList) = [nbuf ++ "s/sec".toList]) :
    ∃ transfer, parseData (intervalLine socket (List.replicate i ' ' ++ start)
      (finish ++ List.replicate j ' ') ubuf nbuf tail) = .ok ⟨finish, nbuf ++ "s/sec".toList, transfer⟩ := by
  have hend : findEndtime (Text.split (intervalLine socket (List.replicate i ' ' ++ start)
      (finish ++ List.replicate j ' ') ubuf nbuf tail) " ".toList) = .ok finish := by
    have hline : intervalLine socket (List.replicate i ' ' ++ start) (finish ++ List.replicate j ' ') ubuf
        nbuf tail = ('[' :: (socket ++ ']' :: List.replicate i ' ')) ++ ' ' :: (start ++ '-' :: finish ++
          ' ' :: (List.replicate j ' ' ++ ("sec  ".toList ++ ubuf ++ "s  ".toList ++ nbuf ++
            "s/sec  ".toList ++ tail))) := by
      unfold intervalLine
      rw [blank_comm j]
      simp only [List.append_assoc, List.cons_append, blank_comm i]
      rfl
    rw [hline]
    refine findEndtime_line ?_ ⟨hstart.notMem rfl (by decide), hstart.notMem rfl (by decide)⟩
      ⟨hfinish.notMem rfl (by decide), hfinish.notMem rfl (by decide)⟩ hfinish.1
    simp only [List.mem_cons, List.mem_append, List.mem_replicate]
    rintro (h | h | h | h)
    · exact absurd h (by decide)
    · exact hsocket h
    · exact absurd h (by decide)
    · exact absurd h.2 (by decide)
  have hrate : ∃ transfer, findBitrate (Text.split (intervalLine socket (List.replicate i ' ' ++ start)
      (finish ++ List.replicate j ' ') ubuf nbuf tail) "  ".toList) [] =
        (nbuf ++ "s/sec".toList, transfer) := by
    have hline : intervalLine socket (List.replicate i ' ' ++ start) (finish ++ List.replicate j ' ') ubuf
        nbuf tail = ('[' :: (socket ++ ']' :: ' ' :: (List.replicate i ' ' ++ start ++ '-' ::
          (finish ++ List.replicate j ' ' ++ " sec  ".toList ++ ubuf)))) ++ 's' :: ' ' :: ' ' ::
            ((nbuf ++ "s/se".toList) ++ 'c' :: ' ' :: ' ' :: tail) := by
      unfold intervalLine
      simp only [List.append_assoc, List.cons_append]
      rfl
    have hbit : nbuf ++ "s/sec".toList = (nbuf ++ "s/se".toList) ++ ['c'] := by
      rw [List.append_assoc]
      rfl
    rw [hline, hbit]
    refine findBitrate_line ?_ (by decide) ?_ (hbit ▸ hone)
    · simp only [List.mem_cons, List.mem_append, List.mem_replicate]
      rintro (h | h | h | h | (h | h) | h | ((h | h) | h) | h)
      · exact absurd h (by decide)
      · exact hsocket' h
      · exact absurd h (by decide)
      · exact absurd h (by decide)
      · exact absurd h.2 (by decide)
      · exact hstart.notMem rfl (by decide) h
      · exact absurd h (by decide)
      · exact hfinish.notMem rfl (by decide) h
      · exact absurd h.2 (by decide)
      · exact absurd h (by decide)
      · exact hubuf h
    · rw [← hbit, show nbuf ++ "s/sec".toList = (nbuf ++ ['s']) ++ ("/sec".toList ++ []) by
        rw [List.append_assoc]; rfl]
      exact Text.contains_append _ _ _
  obtain ⟨transfer, hrate⟩ := hrate
  obtain ⟨text, hsubstring⟩ := Text.substring_bracket (socket ++ ']' :: ' ' ::
    ((List.replicate i ' ' ++ start) ++ '-' :: ((finish ++ List.replicate j ' ') ++ " sec  ".toList ++ ubuf ++
      "s  ".toList ++ nbuf ++ "s/sec  ".toList ++ tail)))
  refine ⟨transfer, ?_⟩
  unfold parseData
  rw [hend, hrate]
  unfold intervalLine
  rw [hsubstring]
  rfl

/-! ## The point -/

section Point

variable {endtime number label transfer : Text}

/-- A number at the front of the bit rate. -/
theorem drawLinePort_number {x y : ℚ} (hnumber : IsNumber number) (hlabel : ' ' ∉ label)
    (hx : floatValueOf endtime = .ok x) (hy : floatValueOf number = .ok y) :
    drawLinePort ⟨endtime, number ++ ' ' :: label, transfer⟩ = .ok ⟨x, y⟩ := by
  have hpieces : pieces [' '] 0 [] (number ++ ' ' :: label) = [] ++ number :: [label] := by
    rw [Text.pieces_char_append, Text.pieces_char_of_notMem _ (hnumber.notMem rfl (by decide)),
      Text.pieces_char_of_notMem _ hlabel]
    rfl
  obtain ⟨after, hsplit⟩ := Text.split_eq hnumber.1 hpieces (.inr (List.cons_ne_nil _ _))
  unfold drawLinePort
  dsimp only
  rw [show (" ".toList : Text) = [' '] from rfl, hsplit]
  show (do
    let bitrate ← floatValueOf number
    let endTime ← floatValueOf endtime
    pure (PointValue.mk endTime bitrate)) = _
  rw [hy, hx]
  rfl

/-- A blank at the front of the bit rate. -/
theorem drawLinePort_blank (hnumber : IsNumber number) :
    drawLinePort ⟨endtime, ' ' :: (number ++ ' ' :: label), transfer⟩ = .error .numberFormat := by
  have hpieces : pieces [' '] 0 [] (' ' :: (number ++ ' ' :: label)) =
      [[]] ++ number :: pieces [' '] 0 [] label := by
    rw [Text.pieces_char_cons, if_pos rfl, Text.pieces_char_append,
      Text.pieces_char_of_notMem _ (hnumber.notMem rfl (by decide))]
    rfl
  obtain ⟨after, hsplit⟩ := Text.split_eq hnumber.1 hpieces (.inl (List.cons_ne_nil _ _))
  unfold drawLinePort
  dsimp only
  rw [show (" ".toList : Text) = [' '] from rfl, hsplit]
  rfl

end Point

/-! ## The numbers of the line -/

section Numbers

variable (precision : Nat) {q : ℚ}

theorem fixed_eq_decimalText (h : 0 ≤ q) : ∃ whole fraction : Text, whole ≠ [] ∧
    (∀ c ∈ whole, c.isDigit = true) ∧ (∀ c ∈ fraction, c.isDigit = true) ∧
    fixed precision q = decimalText whole fraction ∧ decimal whole fraction = printed precision q := by
  have hwhole : ∀ n, Nat.toDigits 10 n ≠ [] := fun n => Nat.toDigits_ne_nil
  have hdigit : ∀ n, ∀ c ∈ Nat.toDigits 10 n, c.isDigit = true :=
    fun n c hc => Nat.isDigit_of_mem_toDigits (by decide) (by decide) hc
  rw [Iperf.fixed_of_nonneg h]
  unfold printed decimalText decimal
  generalize Iperf.fixedUnits precision q = n
  by_cases hp : precision = 0
  · refine ⟨Nat.toDigits 10 (n / 10 ^ precision), [], hwhole _, hdigit _, nofun, ?_, ?_⟩
    · rw [if_pos hp, if_pos rfl]
    · rw [hp, Nat.ofDigitChars_ten_toDigits]
      simp [Nat.ofDigitChars]
  · have hlength := Iperf.digits_length (Nat.pos_of_ne_zero hp)
      (Nat.mod_lt n (Nat.pos_of_ne_zero (n := 10 ^ precision) (by positivity)))
    refine ⟨Nat.toDigits 10 (n / 10 ^ precision), Iperf.digits precision (n % 10 ^ precision), hwhole _,
      hdigit _, fun c hc => Iperf.digits_isDigit hc, ?_, ?_⟩
    · rw [if_neg hp, if_neg]
      intro hnil
      rw [hnil] at hlength
      exact hp hlength.symm
    · rw [Nat.ofDigitChars_ten_toDigits, Iperf.ofDigitChars_digits, hlength, eq_div_iff (by positivity),
        add_mul, div_mul_cancel₀ _ (by positivity)]
      have hsum := Nat.div_add_mod' n (10 ^ precision)
      exact_mod_cast hsum

theorem fixed_isNumber (h : 0 ≤ q) : IsNumber (fixed precision q) := by
  obtain ⟨whole, fraction, hne, hw, hf, heq, -⟩ := fixed_eq_decimalText precision h
  rw [heq]
  exact decimalText_isNumber hne hw hf

/-- What is printed is read. -/
theorem floatValueOf_fixed (h : 0 ≤ q) :
    floatValueOf (fixed precision q) = .ok (Rounding.toFloat 24 (-126) (printed precision q)) := by
  obtain ⟨whole, fraction, hne, hw, hf, heq, hvalue⟩ := fixed_eq_decimalText precision h
  rw [heq, floatValueOf_decimalText hne hw hf, hvalue]

end Numbers

theorem label_chars {suffix : String} (h : suffix ∈ Iperf.labelByte ++ Iperf.labelBit) :
    ' ' ∉ suffix.toList ∧ '/' ∉ suffix.toList ∧ '\n' ∉ suffix.toList := by
  have hall : ∀ s ∈ Iperf.labelByte ++ Iperf.labelBit,
      ' ' ∉ s.toList ∧ '/' ∉ s.toList ∧ '\n' ∉ s.toList := by decide
  exact hall suffix h

/-- What `unit_snprintf` has printed: no character that the app looks for. -/
theorem unit_notMem {scaled : ℚ} {suffix : String} (h : 0 ≤ scaled) {c : Char}
    (hdigit : c.isDigit = false) (hpoint : c ≠ '.') (hblank : c ≠ ' ') (hlabel : c ∉ suffix.toList) :
    c ∉ pad false 4 (fixed (Iperf.unitPrecision scaled) scaled) ++ ' ' :: suffix.toList := by
  have hnumber := fixed_isNumber (Iperf.unitPrecision scaled) h
  unfold pad
  simp only [Bool.false_eq_true, if_false, List.mem_append, List.mem_replicate, List.mem_cons]
  rintro ((h | h) | h | h)
  · exact hblank h.2
  · exact hnumber.notMem hdigit hpoint h
  · exact hblank h
  · exact hlabel h

theorem socket_notMem {socket : Int} (h : 0 ≤ socket) {c : Char} (hdigit : c.isDigit = false)
    (hblank : c ≠ ' ') :
    c ∉ pad false 3 (Iperf.signed (socket < 0) (Nat.toDigits 10 socket.natAbs)) := by
  unfold pad Iperf.signed
  simp only [Bool.false_eq_true, if_false, List.mem_append, List.mem_replicate, decide_eq_false (not_lt.2 h)]
  rintro (h | h)
  · exact hblank h.2
  · rw [Nat.isDigit_of_mem_toDigits (by decide) (by decide) h] at hdigit
    cases hdigit

/-- The line ends with the end of the text. -/
theorem readLine_intervalLine {socket start finish ubuf nbuf : Text} (tail : Text) (hsocket : '\n' ∉ socket)
    (hstart : '\n' ∉ start) (hfinish : '\n' ∉ finish) (hubuf : '\n' ∉ ubuf) (hnbuf : '\n' ∉ nbuf) :
    readLine (intervalLine socket start finish ubuf nbuf tail) =
      intervalLine socket start finish ubuf nbuf (readLine tail) := by
  have happend : ∀ tail, intervalLine socket start finish ubuf nbuf tail =
      intervalLine socket start finish ubuf nbuf [] ++ tail := by
    intro tail
    unfold intervalLine
    simp only [List.append_assoc, List.cons_append, List.append_nil]
  have hline : ∀ c ∈ intervalLine socket start finish ubuf nbuf [], decide (c ≠ '\n') = true := by
    intro c hc
    rw [decide_eq_true_iff]
    rintro rfl
    unfold intervalLine at hc
    simp only [List.mem_cons, List.mem_append] at hc
    rcases hc with h | h | h | h | h | h | ((((((h | h) | h) | h) | h) | h) | h)
    · exact absurd h (by decide)
    · exact hsocket h
    · exact absurd h (by decide)
    · exact absurd h (by decide)
    · exact hstart h
    · exact absurd h (by decide)
    · exact hfinish h
    · exact absurd h (by decide)
    · exact hubuf h
    · exact absurd h (by decide)
    · exact hnbuf h
    · exact absurd h (by decide)
    · exact absurd h List.not_mem_nil
  unfold readLine
  rw [happend tail, List.takeWhile_append_of_pos hline, ← happend]

/-- There are no two blanks in a rate: it is one piece. -/
theorem pieces_rate {scaled : ℚ} {suffix : Text} (h : 0 ≤ scaled) (hsuffix : ' ' ∉ suffix) :
    pieces blanks 0 [] ((pad false 4 (fixed (Iperf.unitPrecision scaled) scaled) ++ ' ' :: suffix) ++
      "s/sec".toList) =
        [(pad false 4 (fixed (Iperf.unitPrecision scaled) scaled) ++ ' ' :: suffix) ++ "s/sec".toList] := by
  have hwords : ' ' ∉ suffix ++ "s/sec".toList := by
    rw [List.mem_append]
    rintro (h | h)
    · exact hsuffix h
    · exact absurd h (by decide)
  have hne : suffix ++ "s/sec".toList ≠ [] := by simp
  have hassoc : ∀ number : Text, (number ++ ' ' :: suffix) ++ "s/sec".toList =
      number ++ ' ' :: (suffix ++ "s/sec".toList) := by
    intro number
    simp only [List.append_assoc, List.cons_append]
  rw [hassoc, Iperf.pad_unit h]
  by_cases hthree : ThreeDigits scaled
  · have hn := fixed_isNumber 0 h
    have hblank := hn.notMem (c := ' ') rfl (by decide)
    obtain ⟨c, rest, hcons⟩ := List.exists_cons_of_ne_nil hn.1
    rw [if_pos hthree]
    rw [hcons, List.mem_cons, not_or] at hblank
    rw [hcons, List.cons_append, List.cons_append, Text.pieces_blanks_blank (Ne.symm hblank.1),
      Text.pieces_blanks_words hblank.2 hwords hne]
    rfl
  · have hn := fixed_isNumber (Iperf.unitPrecision scaled) h
    rw [if_neg hthree, Text.pieces_blanks_words (hn.notMem rfl (by decide)) hwords hne]
    rfl

section Printed

variable {socket : Int} {start finish bytes scaled : ℚ} {label suffix : String} (tail : Text)

/-- The line that is read. -/
theorem readLine_printed (hsocket : 0 ≤ socket) (hstart : 0 ≤ start) (hfinish : 0 ≤ finish)
    (hbytes : UnitScaled bytes label) (hscaled : 0 ≤ scaled) (hsuffix : suffix ∈ Iperf.labelByte ++ Iperf.labelBit) :
    readLine (intervalLine (pad false 3 (Iperf.signed (socket < 0) (Nat.toDigits 10 socket.natAbs)))
        (pad false 6 (fixed 2 start)) (pad true 6 (fixed 2 finish))
        (pad false 4 (fixed (Iperf.unitPrecision bytes) bytes) ++ ' ' :: label.toList)
        (pad false 4 (fixed (Iperf.unitPrecision scaled) scaled) ++ ' ' :: suffix.toList) tail) =
      intervalLine (pad false 3 (Iperf.signed (socket < 0) (Nat.toDigits 10 socket.natAbs)))
        (pad false 6 (fixed 2 start)) (pad true 6 (fixed 2 finish))
        (pad false 4 (fixed (Iperf.unitPrecision bytes) bytes) ++ ' ' :: label.toList)
        (pad false 4 (fixed (Iperf.unitPrecision scaled) scaled) ++ ' ' :: suffix.toList) (readLine tail) := by
  have hpadded : ∀ {left : Bool} {s : Text}, IsNumber s → '\n' ∉ pad left 6 s := by
    intro left s hs hmem
    unfold pad at hmem
    have hnot := hs.notMem (c := '\n') rfl (by decide)
    split at hmem
    · rcases List.mem_append.1 hmem with h | h
      · exact hnot h
      · exact absurd (List.eq_of_mem_replicate h) (by decide)
    · rcases List.mem_append.1 hmem with h | h
      · exact absurd (List.eq_of_mem_replicate h) (by decide)
      · exact hnot h
  exact readLine_intervalLine tail (socket_notMem hsocket rfl (by decide)) (hpadded (fixed_isNumber 2 hstart))
    (hpadded (fixed_isNumber 2 hfinish))
    (unit_notMem hbytes.nonneg rfl (by decide) (by decide) (label_chars hbytes.label).2.2)
    (unit_notMem hscaled rfl (by decide) (by decide) (label_chars hsuffix).2.2)

/-- What the app finds in a line. -/
theorem parseData_printed (hsocket : 0 ≤ socket) (hstart : 0 ≤ start) (hfinish : 0 ≤ finish)
    (hbytes : UnitScaled bytes label) (hscaled : 0 ≤ scaled) (hsuffix : suffix ∈ Iperf.labelByte ++ Iperf.labelBit) :
    ∃ transfer, parseData (intervalLine
        (pad false 3 (Iperf.signed (socket < 0) (Nat.toDigits 10 socket.natAbs)))
        (pad false 6 (fixed 2 start)) (pad true 6 (fixed 2 finish))
        (pad false 4 (fixed (Iperf.unitPrecision bytes) bytes) ++ ' ' :: label.toList)
        (pad false 4 (fixed (Iperf.unitPrecision scaled) scaled) ++ ' ' :: suffix.toList) tail) =
      .ok ⟨fixed 2 finish,
        (pad false 4 (fixed (Iperf.unitPrecision scaled) scaled) ++ ' ' :: suffix.toList) ++ "s/sec".toList,
        transfer⟩ :=
  parseData_line (socket_notMem hsocket rfl (by decide)) (socket_notMem hsocket rfl (by decide))
    (fixed_isNumber 2 hstart) (fixed_isNumber 2 hfinish)
    (unit_notMem hbytes.nonneg rfl (by decide) (by decide) (label_chars hbytes.label).2.1)
    (pieces_rate hscaled (label_chars hsuffix).1)

/-- The point for a line: there is one if the bit rate does not have 3 digits. -/
theorem readReport_line (hsocket : 0 ≤ socket) (hstart : 0 ≤ start) (hfinish : 0 ≤ finish)
    (hbytes : UnitScaled bytes label) (hscaled : UnitScaled scaled suffix) :
    readReport (intervalLine (pad false 3 (Iperf.signed (socket < 0) (Nat.toDigits 10 socket.natAbs)))
        (pad false 6 (fixed 2 start)) (pad true 6 (fixed 2 finish))
        (pad false 4 (fixed (Iperf.unitPrecision bytes) bytes) ++ ' ' :: label.toList)
        (pad false 4 (fixed (Iperf.unitPrecision scaled) scaled) ++ ' ' :: suffix.toList) tail) =
      if ThreeDigits scaled then .error .numberFormat
      else .ok ⟨Rounding.toFloat 24 (-126) (printed 2 finish),
        Rounding.toFloat 24 (-126) (printed (Iperf.unitPrecision scaled) scaled)⟩ := by
  have hwords : ' ' ∉ suffix.toList ++ "s/sec".toList := by
    rw [List.mem_append]
    rintro (h | h)
    · exact (label_chars hscaled.label).1 h
    · exact absurd h (by decide)
  obtain ⟨transfer, hparsed⟩ :=
    parseData_printed (readLine tail) hsocket hstart hfinish hbytes hscaled.nonneg hscaled.label
  unfold readReport
  rw [readLine_printed tail hsocket hstart hfinish hbytes hscaled.nonneg hscaled.label, hparsed,
    Iperf.pad_unit hscaled.nonneg]
  have hassoc : ∀ number : Text, (number ++ ' ' :: suffix.toList) ++ "s/sec".toList =
      number ++ ' ' :: (suffix.toList ++ "s/sec".toList) := by
    intro number
    simp only [List.append_assoc, List.cons_append]
  rw [hassoc]
  by_cases hthree : ThreeDigits scaled
  · rw [if_pos hthree, if_pos hthree]
    exact drawLinePort_blank (fixed_isNumber 0 hscaled.nonneg)
  · rw [if_neg hthree, if_neg hthree]
    exact drawLinePort_number (fixed_isNumber (Iperf.unitPrecision scaled) hscaled.nonneg) hwords
      (floatValueOf_fixed 2 hfinish) (floatValueOf_fixed _ hscaled.nonneg)

end Printed

/-! ## The interval report -/

open Reactive (Prog)
open Iperf (Mem Format Arg Req Halt IperfStream IperfIntervalResults)

/-- `print_interval_results` prints the line for the stream at `sp`. -/
def PrintsLine (m : Mem) (sp : Nat) (line : Text) : Prop :=
  ∃ (fmt : Format) (args : List Arg) (k : Unit → Iperf.IperfProg Unit) (m' : Mem),
    Prog.Reach Prog.free (Iperf.printIntervalResults sp, m, ())
      (.call (.output (.iprintf fmt args)) k, m', ()) ∧
    Iperf.vsprintf fmt args = some line

/-- The times and the bandwidth that an interval report is about. -/
def reportStart (st : IperfStream) (irp : IperfIntervalResults) : ℚ :=
  Iperf.timevalDiff st.result.startTime irp.intervalStartTime

def reportEnd (st : IperfStream) (irp : IperfIntervalResults) : ℚ :=
  Iperf.timevalDiff st.result.startTime irp.intervalEndTime

def reportBandwidth (irp : IperfIntervalResults) : ℚ :=
  Iperf.ratio (Iperf.bytesRat irp.bytesTransferred) irp.intervalDuration

/-- The observer who looks at the lines. -/
def lineContract (ok : Format → List Arg → Prop) : Reactive.Contract Mem Req.Ans Halt Unit where
  onCall _ _ _ _ := ()
  onWrite _ _ := ()
  allows _ _ _ _ := True
  ok _ _ r := ∀ fmt args, r = .output (.iprintf fmt args) → ok fmt args
  inv _ _ := True
  mayHalt _ _ _ := True

/-- The line is one with these arguments, if it is a line of the interval report at all. -/
def LineOf (m : Mem) (st : IperfStream) (irp : IperfIntervalResults) (fmt : Format) (args : List Arg) : Prop :=
  ∀ line, Iperf.vsprintf fmt args = some line → ∃ rest,
    args = Iperf.intervalArgs (some st.socket) (reportStart st irp) (reportEnd st irp) irp.bytesTransferred
      (reportBandwidth irp) m.test.settings.unitFormat ++ rest

section Lines

variable {ok : Format → List Arg → Prop} {m : Mem}

theorem iprintf_lines {fmt : Format} {args : List Arg} (h : ok fmt args) :
    (Iperf.iprintf fmt args).Safe (lineContract ok) (fun _ m' _ => m' = m) m () := by
  refine ⟨fun fmt' args' heq => ?_, fun _ _ => rfl⟩
  cases heq
  exact h

theorem printIntervalHeader_lines (t : Iperf.IperfTest) (st st' : IperfStream)
    (irp irp' : IperfIntervalResults) :
    (Iperf.printIntervalHeader t st' irp').Safe (lineContract (LineOf m st irp)) (fun _ m' _ => m' = m) m () := by
  unfold Iperf.printIntervalHeader
  split_ifs
  all_goals first
    | exact iprintf_lines fun _ hline => absurd hline nofun
    | exact rfl

theorem printIntervalLine_lines (st : IperfStream) (irp : IperfIntervalResults) :
    (Iperf.printIntervalLine m.test st irp).Safe (lineContract (LineOf m st irp)) (fun _ _ _ => True) m () := by
  have hprint : ∀ fmt rest, (Iperf.iprintf fmt (Iperf.intervalArgs (some st.socket) (reportStart st irp)
      (reportEnd st irp) irp.bytesTransferred (reportBandwidth irp) m.test.settings.unitFormat ++ rest)).Safe
        (lineContract (LineOf m st irp)) (fun _ _ _ => True) m () :=
    fun fmt rest => (iprintf_lines fun _ _ => ⟨rest, rfl⟩).mono fun _ _ _ _ => trivial
  unfold Iperf.printIntervalLine Iperf.report
  dsimp only
  split_ifs
  all_goals first
    | exact hprint _ _
    | exact ⟨nofun, fun _ _ => hprint _ _⟩
    | exact ⟨nofun, fun _ _ => trivial⟩

end Lines

theorem printIntervalResults_lines {m : Mem} {sp : Nat} {st : IperfStream} {irp : IperfIntervalResults}
    (hst : m.test.streams[sp]? = some st) (hirp : st.result.intervalResults.getLast? = some irp) :
    (Iperf.printIntervalResults sp).Safe (lineContract (LineOf m st irp)) (fun _ _ _ => True) m () := by
  unfold Iperf.printIntervalResults Iperf.getStream Iperf.getTest
  rw [Prog.safe_bind, Prog.safe_bind, Prog.safe_get, Prog.safe_pure, Prog.safe_bind, Prog.safe_bind,
    Prog.safe_bind, Prog.safe_get, Prog.safe_pure, hst]
  dsimp only
  rw [Prog.safe_pure, hirp]
  dsimp only
  have hline : ∀ m', m' = m → (Iperf.printIntervalLine m.test st irp).Safe (lineContract (LineOf m st irp))
      (fun _ _ _ => True) m' () := by
    rintro m' rfl
    exact printIntervalLine_lines st irp
  split_ifs
  · exact (printIntervalHeader_lines m.test st st irp irp).bind fun _ m' _ hm' => hline m' hm'
  · exact hline m rfl

theorem printsLine_args {m : Mem} {sp : Nat} {line : Text} {st : IperfStream} {irp : IperfIntervalResults}
    (hst : m.test.streams[sp]? = some st) (hirp : st.result.intervalResults.getLast? = some irp)
    (h : PrintsLine m sp line) : ∃ fmt rest,
      Iperf.vsprintf fmt (Iperf.intervalArgs (some st.socket) (reportStart st irp) (reportEnd st irp)
        irp.bytesTransferred (reportBandwidth irp) m.test.settings.unitFormat ++ rest) = some line := by
  obtain ⟨fmt, args, k, m', hreach, hline⟩ := h
  have hsafe := (printIntervalResults_lines hst hirp).reach_free (fun _ _ _ => trivial) hreach
  obtain ⟨rest, rfl⟩ := hsafe.1 fmt args rfl line hline
  exact ⟨fmt, rest, hline⟩

/-- What the app makes of a line that `print_interval_results` prints in adaptive mode. -/
theorem readReport_printed {m : Mem} {sp : Nat} {line : Text} {st : IperfStream}
    {irp : IperfIntervalResults} (hsocket : 0 ≤ st.socket) (hduration : 0 ≤ irp.intervalDuration)
    (hformat : Adaptive m.test.settings.unitFormat) (hst : m.test.streams[sp]? = some st)
    (hirp : st.result.intervalResults.getLast? = some irp) (h : PrintsLine m sp line) :
    ∃ scaled suffix,
      Iperf.unitScale (reportBandwidth irp) m.test.settings.unitFormat = some (scaled, suffix) ∧
      readReport line = if ThreeDigits scaled then .error .numberFormat
        else .ok ⟨Rounding.toFloat 24 (-126) (printed 2 (reportEnd st irp)),
          Rounding.toFloat 24 (-126) (printed (Iperf.unitPrecision scaled) scaled)⟩ := by
  obtain ⟨fmt, rest, hline⟩ := printsLine_args hst hirp h
  obtain ⟨ubuf, nbuf, tail, hubuf, hnbuf, rfl⟩ := Iperf.vsprintf_interval hline
  have hbytes : 0 ≤ Iperf.bytesRat irp.bytesTransferred := Nat.cast_nonneg _
  have hbandwidth : 0 ≤ reportBandwidth irp := div_nonneg hbytes hduration
  obtain ⟨bytes, label, -, hbytes, rfl⟩ := Iperf.unitSnprintf_eq hbytes (.inr rfl) hubuf
  obtain ⟨scaled, suffix, hscale, hscaled, rfl⟩ := Iperf.unitSnprintf_eq hbandwidth hformat hnbuf
  have hstart : 0 ≤ reportStart st irp := Iperf.timevalDiff_nonneg _ _
  have hend : 0 ≤ reportEnd st irp := Iperf.timevalDiff_nonneg _ _
  exact ⟨scaled, suffix, hscale, readReport_line tail hsocket hstart hend hbytes hscaled⟩

/-- The line that a program is about to print. -/
def lineAt {α : Type} : Iperf.IperfProg α → Option Text
  | .call (.output (.iprintf fmt args)) _ => Iperf.vsprintf fmt args
  | _ => none

theorem PrintsLine.of_drive {m : Mem} {sp : Nat} {line : Text} (steps : Nat)
    (h : lineAt (Prog.drive Prog.free (fun _ => Req.quiet) steps 0 (Iperf.printIntervalResults sp, m, ())).1 =
      some line) : PrintsLine m sp line := by
  have hreach := Prog.drive_reach Prog.free (fun _ => Req.quiet) steps 0 (Iperf.printIntervalResults sp, m, ())
  generalize Prog.drive Prog.free (fun _ => Req.quiet) steps 0 (Iperf.printIntervalResults sp, m, ()) = c
    at h hreach
  obtain ⟨p, m', u⟩ := c
  cases p with
  | call r k =>
    cases r with
    | output o =>
      cases o with
      | iprintf fmt args => exact ⟨fmt, args, k, m', hreach, h⟩
      | _ => cases h
    | _ => cases h
  | _ => cases h

/-- The report of the second second, in which the given number of bytes was received. -/
def secondReport (bytes : UInt64) : IperfIntervalResults :=
  { Req.quiet .stackInterval with
    bytesTransferred := bytes, intervalStartTime := ⟨1, 0⟩, intervalEndTime := ⟨2, 0⟩, intervalDuration := 1 }

/-- A receiver with this report. -/
def reportStream (bytes : UInt64) : IperfStream :=
  let st := Iperf.newStream Iperf.mainTest 5 4 (-1) []
  { st with result := { st.result with startTime := ⟨0, 0⟩, intervalResults := [secondReport bytes] } }

def reportMem (bytes : UInt64) : Mem :=
  Mem.start { Iperf.mainTest with streams := [reportStream bytes] }

end WifiTest
