import WifiTestTool.Iperf.Locale
import WifiTestTool.Iperf.Proofs.UnitsProofs

/-!
# The characters of the messages

A text has no characters but those of its format and of its arguments (`render_notMem`), and a number has
few (`convert_notMem`). Where a format is a chain of parts, so is the text (`render_append`).
-/

namespace Iperf

/-! ## What is in a text -/

/-- A character that no number has, and no unit of bytes. -/
def Unusual (c : Char) : Prop :=
  c.isDigit = false ∧ c ∉ ['-', '.', 'e', '+', ' '] ∧ c ∉ reportOmitted.toList ∧
    ∀ s ∈ labelByte, c ∉ s.toList

instance (c : Char) : Decidable (Unusual c) := inferInstanceAs (Decidable (_ ∧ _ ∧ _ ∧ _))

/-- The argument does not bring in the character `c`. -/
def Arg.Lacks (c : Char) : Arg → Prop
  | .text s => c ∉ s.toList
  | .unit _ format => format.isUpper = true ∨ ∀ s ∈ labelBit, c ∉ s.toList
  | _ => True

section Characters

variable {c : Char}

theorem signed_notMem (hc : Unusual c) (negative : Bool) {s : List Char} (h : c ∉ s) :
    c ∉ signed negative s := by
  unfold signed
  cases negative with
  | false => exact h
  | true =>
    intro hmem
    rcases List.mem_cons.1 hmem with heq | hmem
    · exact hc.2.1 (by simp [heq])
    · exact h hmem

theorem toDigits_notMem (hc : Unusual c) (n : Nat) : c ∉ Nat.toDigits 10 n := by
  intro hmem
  have := Nat.isDigit_of_mem_toDigits (by decide) (by decide) hmem
  rw [hc.1] at this
  exact absurd this (by simp)

theorem digits_notMem (hc : Unusual c) (width n : Nat) : c ∉ digits width n := by
  intro hmem
  have := digits_isDigit hmem
  rw [hc.1] at this
  exact absurd this (by simp)

theorem fixed_notMem (hc : Unusual c) (precision : Nat) (q : ℚ) : c ∉ fixed precision q := by
  unfold fixed
  refine signed_notMem hc _ ?_
  rw [List.mem_append, not_or]
  refine ⟨toDigits_notMem hc _, ?_⟩
  split
  · exact List.not_mem_nil
  · rw [List.mem_cons, not_or]
    exact ⟨fun heq => hc.2.1 (by simp [heq]), digits_notMem hc _ _⟩

theorem trimZeros_subset {s : List Char} {c : Char} (h : c ∈ trimZeros s) : c ∈ s := by
  have hsub : ∀ {c}, c ∈ (s.reverse.dropWhile fun c => c = '0').reverse → c ∈ s := by
    intro c hc
    rw [List.mem_reverse] at hc
    exact List.mem_reverse.1 ((List.dropWhile_suffix _).subset hc)
  unfold trimZeros at h
  dsimp only at h
  split at h
  · exact hsub ((List.dropLast_subset _) h)
  · exact hsub h

theorem general_notMem (hc : Unusual c) (precision : Nat) (q : ℚ) : c ∉ general precision q := by
  have hne : ∀ d ∈ ['-', '.', 'e', '+', ' '], c ≠ d := fun d hd heq => hc.2.1 (heq ▸ hd)
  have hzero : c ≠ '0' := by
    rintro rfl
    exact absurd hc.1 (by decide)
  unfold general
  split
  · simp [hzero]
  · extract_lets p x n x' n' fraction
    have hfraction : c ∉ fraction := by
      by_cases hp : p = 1
      · simp [fraction, hp]
      · simp only [fraction, if_neg hp, List.mem_cons, not_or]
        exact ⟨hne '.' (by simp), digits_notMem hc _ _⟩
    have hmantissa : c ∉ trimZeros (Nat.toDigits 10 (n' / 10 ^ (p - 1)) ++ fraction) := by
      intro h
      rcases List.mem_append.1 (trimZeros_subset h) with h | h
      · exact toDigits_notMem hc _ h
      · exact hfraction h
    have hsign : c ≠ if x' < 0 then '-' else '+' := by
      by_cases hx : x' < 0
      · rw [if_pos hx]
        exact hne '-' (by simp)
      · rw [if_neg hx]
        exact hne '+' (by simp)
    by_cases hnotation : -4 ≤ x' ∧ x' < p
    · rw [if_pos hnotation]
      split
      · exact fun h => fixed_notMem hc _ _ (trimZeros_subset h)
      · exact fixed_notMem hc _ _
    · rw [if_neg hnotation]
      refine signed_notMem hc _ ?_
      rw [List.mem_append, not_or, List.mem_cons, not_or, List.mem_cons, not_or]
      exact ⟨hmantissa, hne 'e' (by simp), hsign, digits_notMem hc _ _⟩

theorem pad_notMem (hc : Unusual c) (left : Bool) (width : Nat) {s : List Char} (h : c ∉ s) :
    c ∉ pad left width s := by
  have hblanks : ∀ n, c ∉ List.replicate n ' ' := by
    intro n hmem
    exact hc.2.1 (by simp [List.eq_of_mem_replicate hmem])
  unfold pad
  split
  · rw [List.mem_append, not_or]
    exact ⟨h, hblanks _⟩
  · rw [List.mem_append, not_or]
    exact ⟨hblanks _, h⟩

theorem unitScale_label {inNum scaled : ℚ} {inFormat : Char} {suffix : String}
    (h : unitScale inNum inFormat = some (scaled, suffix)) :
    suffix ∈ if inFormat.isUpper then labelByte else labelBit := by
  unfold unitScale at h
  dsimp only at h
  split at h
  · next factor label _ hlabel =>
    cases h
    have hmem := List.mem_of_getElem? hlabel
    cases hupper : inFormat.isUpper <;> simpa [hupper] using hmem
  · cases h

theorem unitSnprintf_notMem (hc : Unusual c) {inLen : Nat} {inNum : ℚ} {inFormat : Char} {s : List Char}
    (h : unitSnprintf inLen inNum inFormat = some s) (hlacks : (Arg.unit inNum inFormat).Lacks c) : c ∉ s := by
  unfold unitSnprintf at h
  obtain ⟨⟨scaled, suffix⟩, hscale, rfl⟩ := Option.map_eq_some_iff.1 h
  intro hmem
  have hmem := List.mem_of_mem_take hmem
  rw [List.mem_append, List.mem_cons] at hmem
  rcases hmem with hmem | hmem | hmem
  · exact pad_notMem hc _ _ (fixed_notMem hc _ _) hmem
  · exact hc.2.1 (by simp [hmem])
  · have hlabel := unitScale_label hscale
    cases hupper : inFormat.isUpper with
    | true =>
      rw [hupper, if_pos rfl] at hlabel
      exact hc.2.2.2 suffix hlabel hmem
    | false =>
      rw [hupper, if_neg (by simp)] at hlabel
      rcases hlacks with hlacks | hlacks
      · rw [hupper] at hlacks
        exact absurd hlacks (by simp)
      · exact hlacks suffix hlabel hmem

/-- A conversion has no unusual characters but those of a text or of a label. -/
theorem convert_notMem (hc : Unusual c) {precision : Option Nat} {type : Char} {arg : Arg} {s : List Char}
    (h : convert precision type arg = some s) (hlacks : arg.Lacks c) : c ∉ s := by
  unfold convert at h
  split at h
  · cases h
    exact signed_notMem hc _ (toDigits_notMem hc _)
  · cases h
    exact toDigits_notMem hc _
  · cases h
    exact fixed_notMem hc _ _
  · cases h
    exact general_notMem hc _ _
  · cases h
    exact hlacks
  · exact unitSnprintf_notMem hc h hlacks
  · cases h
    split
    · exact hc.2.2.1
    · exact List.not_mem_nil
  · cases h

end Characters

/-- A text has no unusual characters but those of its format and its arguments. -/
theorem render_notMem {c : Char} (hc : Unusual c) {ds : List Directive} {args : List Arg} {s : List Char}
    (h : render ds args = some s) (hds : .char c ∉ ds) (hargs : ∀ arg ∈ args, arg.Lacks c) : c ∉ s := by
  induction ds generalizing args s with
  | nil =>
    cases h
    exact List.not_mem_nil
  | cons d ds ih =>
    rw [List.mem_cons, not_or] at hds
    cases d with
    | char d =>
      obtain ⟨rest, hrest, rfl⟩ := Option.map_eq_some_iff.1 h
      rw [List.mem_cons, not_or]
      exact ⟨fun heq => hds.1 (by rw [heq]), ih hrest hds.2 hargs⟩
    | conversion left width precision type =>
      cases args with
      | nil => cases h
      | cons arg args =>
        simp only [render, Option.bind_eq_bind, Option.pure_def, Option.bind_eq_some_iff,
          Option.some.injEq] at h
        obtain ⟨t, ht, rest, hrest, rfl⟩ := h
        rw [List.mem_append, not_or]
        exact ⟨pad_notMem hc _ _ (convert_notMem hc ht (hargs arg List.mem_cons_self)),
          ih hrest hds.2 fun a ha => hargs a (List.mem_cons_of_mem _ ha)⟩

/-- The characters of a scanned format are characters of the format. -/
theorem mem_of_scanFormat {c : Char} {ds : List Directive} {s : List Char} {scan : Scan}
    (h : scanFormat scan s = some ds) (hc : .char c ∈ ds) : c ∈ s := by
  induction s generalizing scan ds with
  | nil =>
    cases scan with
    | text =>
      cases h
      exact absurd hc List.not_mem_nil
    | conversion => cases h
  | cons d s ih =>
    rw [List.mem_cons]
    have hchar : ∀ {scan'}, (scanFormat scan' s).map (.char d :: ·) = some ds → c = d ∨ c ∈ s := by
      intro scan' h
      obtain ⟨ds', hds', rfl⟩ := Option.map_eq_some_iff.1 h
      rcases List.mem_cons.1 hc with heq | hc
      · cases heq
        exact .inl rfl
      · exact .inr (ih hds' hc)
    have hconversion : ∀ {d' scan'}, (scanFormat scan' s).map (d' :: ·) = some ds → d' ≠ .char c →
        c = d ∨ c ∈ s := by
      intro d' scan' h hd'
      obtain ⟨ds', hds', rfl⟩ := Option.map_eq_some_iff.1 h
      rcases List.mem_cons.1 hc with heq | hc
      · exact absurd heq.symm hd'
      · exact .inr (ih hds' hc)
    cases scan with
    | text =>
      rw [scanFormat] at h
      split at h
      · exact .inr (ih h hc)
      · exact hchar h
    | conversion left width precision =>
      cases precision with
      | none =>
        rw [scanFormat] at h
        split_ifs at h
        · exact hchar h
        · exact .inr (ih h hc)
        · exact .inr (ih h hc)
        · exact .inr (ih h hc)
        · exact hconversion h (by simp)
      | some p =>
        rw [scanFormat] at h
        split_ifs at h
        · exact hchar h
        · exact .inr (ih h hc)
        · exact .inr (ih h hc)
        · exact .inr (ih h hc)
        · exact hconversion h (by simp)

/-- The number of conversions, which is the number of arguments that are printed. -/
def arity : List Directive → Nat
  | [] => 0
  | .char _ :: ds => arity ds
  | .conversion _ _ _ _ :: ds => arity ds + 1

/-- The parts of a format are printed one after the other. -/
theorem render_append {ds ds' : List Directive} {args args' : List Arg} (h : arity ds = args.length)
    {text : List Char} (hrender : render (ds ++ ds') (args ++ args') = some text) :
    ∃ front back, render ds args = some front ∧ render ds' args' = some back ∧ text = front ++ back := by
  induction ds generalizing args text with
  | nil =>
    rw [List.eq_nil_of_length_eq_zero h.symm] at hrender ⊢
    exact ⟨[], text, rfl, hrender, rfl⟩
  | cons d ds ih =>
    cases d with
    | char c =>
      obtain ⟨rest, hrest, rfl⟩ := Option.map_eq_some_iff.1 hrender
      obtain ⟨front, back, hfront, hback, rfl⟩ := ih h hrest
      exact ⟨c :: front, back, by rw [render, hfront]; rfl, hback, rfl⟩
    | conversion left width precision type =>
      cases args with
      | nil => cases h
      | cons arg args =>
        simp only [List.cons_append, render, Option.bind_eq_bind, Option.pure_def, Option.bind_eq_some_iff,
          Option.some.injEq] at hrender ⊢
        obtain ⟨t, ht, rest, hrest, rfl⟩ := hrender
        obtain ⟨front, back, hfront, hback, rfl⟩ := ih (Nat.succ.inj h) hrest
        exact ⟨pad left width t ++ front, back, ⟨t, ht, front, hfront, rfl⟩, hback,
          (List.append_assoc _ _ _).symm⟩

theorem render_chars (s : List Char) (ds : List Directive) (args : List Arg) :
    render (s.map .char ++ ds) args = (render ds args).map (s ++ ·) := by
  induction s with
  | nil => simp
  | cons c s ih =>
    rw [List.map_cons, List.cons_append, render, ih, Option.map_map]
    rfl

/-! ## Messages -/

/-- A format with a text behind a blank, behind the parts `ds`, which print `n` arguments. -/
def HasWord (fmt : Format) (n : Nat) (ds back : List Directive) : Prop :=
  ∃ string, messageFormat fmt = some string ∧
    scanFormat .text string.toList = some (ds ++ .char ' ' :: .conversion false 0 none 's' :: back) ∧
    arity ds = n

variable {t : IperfTest} {fmt : Format} {args : List Arg} {text : List Char}

theorem MessageText.word {front rest : List Arg} {word : Arg} {ds back : List Directive}
    (h : MessageText t fmt args text) (hword : HasWord fmt front.length ds back)
    (hargs : ∀ more, SystemArgs t fmt more → args ++ more = front ++ word :: rest) :
    ∃ u s v, render ds front = some u ∧ convert none 's' word = some s ∧ render back rest = some v ∧
      text = u ++ ' ' :: (s ++ v) := by
  obtain ⟨string, ds', more, hstring, hscan, hmore, hrender⟩ := h
  obtain ⟨string', hstring', hscan', harity⟩ := hword
  cases hstring.symm.trans hstring'
  cases hscan.symm.trans hscan'
  rw [hargs more hmore] at hrender
  obtain ⟨u, b, hu, hb, rfl⟩ := render_append harity hrender
  simp only [render, Option.bind_eq_bind, Option.pure_def, Option.map_eq_some_iff, Option.bind_eq_some_iff,
    Option.some.injEq] at hb
  obtain ⟨_, ⟨s, hs, v, hv, rfl⟩, rfl⟩ := hb
  refine ⟨u, s, v, hu, hs, hv, ?_⟩
  unfold pad
  simp

/-- A character that neither the format nor the arguments have. -/
theorem MessageText.notMem {c : Char} (h : MessageText t fmt args text) (hc : Unusual c)
    (hfmt : ∀ string ∈ messageFormat fmt, c ∉ string.toList)
    (hargs : ∀ more, SystemArgs t fmt more → ∀ arg ∈ args ++ more, arg.Lacks c) : c ∉ text := by
  obtain ⟨string, ds, more, hstring, hscan, hmore, hrender⟩ := h
  exact render_notMem hc hrender (fun hmem => hfmt string hstring (mem_of_scanFormat hscan hmem))
    (hargs more hmore)

theorem intervalArgs_lacks {c : Char} {socket : Int} {start finish bandwidth : ℚ} {bytes : UInt64}
    {unitFormat : Char} (hunit : (Arg.unit bandwidth unitFormat).Lacks c) :
    ∀ arg ∈ intervalArgs (some socket) start finish bytes bandwidth unitFormat, arg.Lacks c := by
  intro arg harg
  simp only [intervalArgs, List.cons_append, List.nil_append, List.mem_cons, List.not_mem_nil, or_false] at harg
  rcases harg with rfl | rfl | rfl | rfl | rfl
  · trivial
  · trivial
  · trivial
  · exact .inl rfl
  · exact hunit

/-- The system gives no arguments for the lines of a report. -/
theorem SystemArgs.eq_nil {more : List Arg} (h : SystemArgs t fmt more)
    (hfmt : fmt ∉ [.reportTime, .reportAccepted, .reportCookie, Format.reportConnected]) : more = [] := by
  cases h with
  | none _ => rfl
  | _ => exact absurd (by simp) hfmt

theorem intervalFormat_system {string : String} (h : intervalFormat fmt = some string) :
    fmt ∉ [.reportTime, .reportAccepted, .reportCookie, Format.reportConnected] := by
  intro hmem
  simp only [List.mem_cons, List.not_mem_nil, or_false] at hmem
  rcases hmem with rfl | rfl | rfl | rfl <;> cases h

theorem messageFormat_interval {string : String} (h : intervalFormat fmt = some string) :
    messageFormat fmt = some string := by
  cases fmt <;> first | exact h | cases h

/-- The text of an interval report is what `vsprintf` makes of it. -/
theorem MessageText.interval {string : String} (h : MessageText t fmt args text)
    (hfmt : intervalFormat fmt = some string) : vsprintf fmt args = some text := by
  obtain ⟨string', ds, more, hstring, hscan, hmore, hrender⟩ := h
  cases hstring.symm.trans (messageFormat_interval hfmt)
  rw [hmore.eq_nil (intervalFormat_system hfmt), List.append_nil] at hrender
  unfold vsprintf
  rw [hfmt]
  simp only [Option.bind_eq_bind, Option.bind_some]
  rw [hscan]
  exact hrender

/-- No format has a `b` in it. -/
theorem messageFormat_notMem {string : String} (h : messageFormat fmt = some string) : 'b' ∉ string.toList := by
  unfold messageFormat at h
  split at h
  case h_21 =>
    unfold intervalFormat at h
    split at h <;> cases h <;> decide +kernel
  all_goals
    cases h
    decide +kernel

/-! ## The lines about a stream -/

/-- The formats of the lines about a stream, in an interval report or in the summary. -/
def lineFormats : List Format :=
  [.reportBwFormat, .reportBwRetransFormat, .reportBwRetransCwndFormat, .reportBwUdpFormat,
    .reportBwUdpSenderFormat]

/-- The parts of such a format in front of the blank before its last word. -/
def lineFront : Format → List Directive
  | .reportBwFormat => intervalDirectives ++ List.replicate 15 (.char ' ')
  | .reportBwRetransFormat =>
    intervalDirectives ++ .conversion false 3 none 'u' :: List.replicate 12 (.char ' ')
  | .reportBwRetransCwndFormat =>
    intervalDirectives ++ .conversion false 3 none 'u' :: .char ' ' :: .char ' ' :: .char ' ' ::
      .conversion false 0 none 's' :: .char 's' :: List.replicate 6 (.char ' ')
  | .reportBwUdpFormat =>
    intervalDirectives ++ [.conversion false 5 (some 3) 'f', .char ' ', .char 'm', .char 's', .char ' ', .char ' ',
      .conversion false 0 none 'd', .char '/', .conversion false 0 none 'd', .char ' ', .char '(',
      .conversion false 0 (some 2) 'g', .char '%', .char ')', .char ' ']
  | .reportBwUdpSenderFormat => intervalDirectives ++ [.conversion false 0 none 'd', .char ' ']
  | _ => []

theorem lineFront_word (h : fmt ∈ lineFormats) :
    HasWord fmt (arity (lineFront fmt)) (lineFront fmt) [.char '\n'] := by
  simp only [lineFormats, List.mem_cons, List.not_mem_nil, or_false] at h
  rcases h with rfl | rfl | rfl | rfl | rfl
  all_goals exact ⟨_, rfl, by decide +kernel, rfl⟩

theorem lineFront_newline (h : fmt ∈ lineFormats) : .char '\n' ∉ lineFront fmt := by
  simp only [lineFormats, List.mem_cons, List.not_mem_nil, or_false] at h
  rcases h with rfl | rfl | rfl | rfl | rfl <;> decide +kernel

theorem lineFormats_system (h : fmt ∈ lineFormats) :
    fmt ∉ [.reportTime, .reportAccepted, .reportCookie, Format.reportConnected] := by
  simp only [lineFormats, List.mem_cons, List.not_mem_nil, or_false] at h
  rcases h with rfl | rfl | rfl | rfl | rfl <;> simp

end Iperf
