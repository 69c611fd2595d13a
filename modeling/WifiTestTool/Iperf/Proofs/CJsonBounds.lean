import WifiTestTool.Iperf.Proofs.CJsonText

/-!
# The parser and the bounds of its text

Every part of the parser ends at a tail of its text, and takes at least one byte of it (`parseValue_advances`), so
that the length of the text bounds its passes and its nested calls. What the parser may do besides failing depends on
its strings alone: where every escape is whole, it neither reads behind the NUL nor writes behind a buffer
(`parse_stays_inside`); where a `\u` is cut off by the end of the string, it writes what follows behind the buffer
(`parse_overflows`).
-/

namespace Iperf

variable {P : Platform} {α : Type}

/-! ## What a part of the parser takes -/

/-- What is left of a text, and what it inherits from the text -/
structure Follows (C : List UInt8 → Prop) (rest text : List UInt8) : Prop where
  suffix : rest <:+ text
  keeps : C text → C rest

/-- It stops in an allowed way, or somewhere in the text. -/
def Stays (allowed : Stop → Prop) (C : List UInt8 → Prop) (text : List UInt8) :
    Except Stop (α × List UInt8) → Prop
  | .error e => allowed e
  | .ok (_, rest) => Follows C rest text

/-- It stops in an allowed way, or behind the first byte of the text. -/
def Advances (allowed : Stop → Prop) (C : List UInt8 → Prop) (text : List UInt8) :
    Except Stop (α × List UInt8) → Prop
  | .error e => allowed e
  | .ok (_, rest) => Follows C rest text ∧ rest.length < text.length

section Takes

variable {allowed : Stop → Prop} {C : List UInt8 → Prop} {text text' text'' : List UInt8}

theorem Follows.refl (text : List UInt8) : Follows C text text := ⟨List.suffix_rfl, id⟩

theorem Follows.trans (h : Follows C text'' text') (h' : Follows C text' text) : Follows C text'' text :=
  ⟨h.suffix.trans h'.suffix, fun hC => h.keeps (h'.keeps hC)⟩

theorem Follows.length_le (h : Follows C text' text) : text'.length ≤ text.length := h.suffix.length_le

theorem Advances.stays {r : Except Stop (α × List UInt8)} (h : Advances allowed C text r) :
    Stays allowed C text r := by
  cases r with
  | error e => exact h
  | ok p => exact h.1

theorem Advances.map {β : Type} {r : Except Stop (α × List UInt8)} (h : Advances allowed C text r) (f : α → β) :
    Advances allowed C text (r.map (.map f id)) := by
  cases r with
  | error e => exact h
  | ok p => exact h

/-- A part, and another one where it ends -/
theorem Stays.bind {β : Type} {r : Except Stop (α × List UInt8)} {f : α × List UInt8 → Except Stop (β × List UInt8)}
    (h : Stays allowed C text r) (hf : ∀ a rest, Follows C rest text → Stays allowed C text (f (a, rest))) :
    Stays allowed C text (r >>= f) := by
  cases r with
  | error e => exact h
  | ok p => exact hf p.1 p.2 h

theorem Advances.bind {β : Type} {r : Except Stop (α × List UInt8)} {f : α × List UInt8 → Except Stop (β × List UInt8)}
    (h : Advances allowed C text r)
    (hf : ∀ a rest, Follows C rest text → rest.length < text.length → Advances allowed C text (f (a, rest))) :
    Advances allowed C text (r >>= f) := by
  cases r with
  | error e => exact h
  | ok p => exact hf p.1 p.2 h.1 h.2

/-- What stays in what is left of a text stays in the text. -/
theorem Stays.trans {r : Except Stop (α × List UInt8)} (h : Stays allowed C text' r) (h' : Follows C text' text) :
    Stays allowed C text r := by
  cases r with
  | error e => exact h
  | ok p => exact Follows.trans h h'

theorem Stays.advances {r : Except Stop (α × List UInt8)} (h : Stays allowed C text' r) (h' : Follows C text' text)
    (hlt : text'.length < text.length) : Advances allowed C text r := by
  cases r with
  | error e => exact h
  | ok p => exact ⟨Follows.trans h h', (Follows.length_le h).trans_lt hlt⟩

end Takes

/-! ## Numbers -/

section Numbers

variable {C : List UInt8 → Prop} (hC : ∀ {c : UInt8} {s : List UInt8}, c ≠ backslash → C (c :: s) → C s)

include hC

theorem follows_cons {c : UInt8} (h : c ≠ backslash) (s : List UInt8) : Follows C s (c :: s) :=
  ⟨List.suffix_cons c s, hC h⟩

theorem follows_digit {c : UInt8} (h : isDigit c = true) (s : List UInt8) : Follows C s (c :: s) :=
  follows_cons hC (digit_ne h (by decide)) s

theorem follows_append {taken : List UInt8} (h : backslash ∉ taken) (s : List UInt8) : Follows C s (taken ++ s) := by
  induction taken with
  | nil => exact .refl s
  | cons c taken ih =>
    obtain ⟨hc, htaken⟩ := List.ne_and_not_mem_of_not_mem_cons h
    exact (ih htaken).trans (follows_cons hC hc.symm _)

theorem skip_follows (text : List UInt8) : Follows C (skip text) text := by
  induction text with
  | nil => exact .refl _
  | cons c text ih =>
    rw [skip]
    split
    · rename_i hblank
      refine ih.trans (follows_cons hC ?_ text)
      rintro rfl
      exact absurd hblank (by decide)
    · exact .refl _

theorem readSign_follows (num : List UInt8) : Follows C (readSign num).2 num := by
  unfold readSign
  split
  · exact .refl _
  · split
    · rename_i hminus
      exact follows_cons hC (by rw [hminus]; decide) _
    · exact .refl _

theorem skipZero_follows (num : List UInt8) : Follows C (skipZero num) num := by
  unfold skipZero
  split
  · exact .refl _
  · split
    · rename_i hzero
      exact follows_cons hC (by rw [hzero]; decide) _
    · exact .refl _

theorem readDigits_follows (i : Int) (f : ℚ) (num : List UInt8) : Follows C (readDigits i f num).2.2 num := by
  induction num generalizing i f with
  | nil => exact .refl _
  | cons c num ih =>
    rw [readDigits]
    split
    · exact (ih _ _).trans (follows_digit hC ‹_› num)
    · exact .refl _

theorem readFraction_follows (f : ℚ) (scale : Int) (num : List UInt8) :
    Follows C (readFraction f scale num).2.2 num := by
  induction num generalizing f scale with
  | nil => exact .refl _
  | cons c num ih =>
    rw [readFraction]
    split
    · exact (ih _ _).trans (follows_digit hC ‹_› num)
    · exact .refl _

theorem readExponent_follows (subscale : Int) (num : List UInt8) : Follows C (readExponent subscale num).2 num := by
  induction num generalizing subscale with
  | nil => exact .refl _
  | cons c num ih =>
    rw [readExponent]
    split
    · exact (ih _).trans (follows_digit hC ‹_› num)
    · exact .refl _

theorem readInteger_follows (num : List UInt8) : Follows C (readInteger num).2.2 num := by
  unfold readInteger
  split
  · exact .refl _
  · split
    · exact readDigits_follows hC _ _ _
    · exact .refl _

theorem readPoint_follows (f : ℚ) (num : List UInt8) : Follows C (readPoint f num).2.2.2 num := by
  unfold readPoint
  split
  · split
    · rename_i hpoint
      exact (readFraction_follows hC _ _ _).trans (follows_cons hC (by rw [hpoint.1]; decide) _)
    · exact .refl _
  · exact .refl _

theorem readScale_follows (num : List UInt8) : Follows C (readScale num).2.2 num := by
  unfold readScale
  split
  · exact .refl _
  · rename_i c rest
    split
    · rename_i he
      have hexponent : Follows C rest (c :: rest) := follows_cons hC (by rcases he with rfl | rfl <;> decide) rest
      split
      · exact hexponent
      · rename_i s rest'
        split
        · rename_i hsign
          have hrest := follows_cons hC (c := s) (by rw [hsign]; decide) rest'
          exact ((readExponent_follows hC _ _).trans hrest).trans hexponent
        · split
          · rename_i hsign
            have hrest := follows_cons hC (c := s) (by rw [hsign]; decide) rest'
            exact ((readExponent_follows hC _ _).trans hrest).trans hexponent
          · exact (readExponent_follows hC _ _).trans hexponent
    · exact .refl _

theorem parseNumber_rest (P : Platform) (num : List UInt8) :
    Follows C (parseNumber P num).2 (readInteger (skipZero (readSign num).2)).2.2 := by
  unfold parseNumber
  dsimp only
  split
  · exact (readScale_follows hC _).trans (readPoint_follows hC _ _)
  · exact (readScale_follows hC _).trans (readPoint_follows hC _ _)

/-- A number that begins with its sign or with a digit takes that byte. -/
theorem parseNumber_advances (P : Platform) {c : UInt8} (rest : List UInt8)
    (hc : c = '-'.toUInt8 ∨ isDigit c = true) : Follows C (parseNumber P (c :: rest)).2 rest := by
  refine (parseNumber_rest hC P _).trans ?_
  by_cases hminus : c = '-'.toUInt8
  · have hsign : readSign (c :: rest) = (-1, rest) := if_pos hminus
    rw [hsign]
    exact (readInteger_follows hC _).trans (skipZero_follows hC _)
  · have hsign : readSign (c :: rest) = (1, c :: rest) := if_neg hminus
    have hdigit := hc.resolve_left hminus
    rw [hsign]
    by_cases hzero : c = '0'.toUInt8
    · have hskip : skipZero (c :: rest) = rest := if_pos hzero
      dsimp only
      rw [hskip]
      exact readInteger_follows hC _
    · have hskip : skipZero (c :: rest) = c :: rest := if_neg hzero
      have hrange : '1'.toUInt8 ≤ c ∧ c ≤ '9'.toUInt8 := by
        obtain ⟨hlow, hhigh⟩ := isDigit_iff.1 hdigit
        have hne : c.toNat ≠ 48 := fun h => hzero (UInt8.toNat_inj.1 h)
        exact ⟨UInt8.le_iff_toNat_le.2 (show 49 ≤ c.toNat by omega), UInt8.le_iff_toNat_le.2 hhigh⟩
      have hread : readInteger (c :: rest) = readDigits 0 0 (c :: rest) := if_pos hrange
      dsimp only
      rw [hskip, hread, readDigits, if_pos hdigit]
      exact readDigits_follows hC _ _ _

end Numbers

/-! ## Values -/

section Values

variable {allowed : Stop → Prop} {C : List UInt8 → Prop}
  (hC : ∀ {c : UInt8} {s : List UInt8}, c ≠ backslash → C (c :: s) → C s) (hfail : allowed .fail)

include hC in
theorem follows_tail {c : UInt8} {text : List UInt8} (hhead : text.head? = some c) (hc : c ≠ backslash) :
    Follows C text.tail text ∧ text.tail.length < text.length := by
  cases text with
  | nil => cases hhead
  | cons d text =>
    cases hhead
    exact ⟨follows_cons hC hc text, Nat.lt_succ_self _⟩

include hC in
/-- The loop over the children behind the first one -/
theorem parseMore_stays {parse : Parser α} {m : Nat}
    (hparse : ∀ text, C text → text.length < m → Advances allowed C text (parse text)) (n : Nat) {text : List UInt8}
    (htext : C text) (hn : text.length < n) (hm : text.length ≤ m) : Stays allowed C text (parseMore parse n text) := by
  induction n generalizing text with
  | zero => exact absurd hn (Nat.not_lt_zero _)
  | succ n ih =>
    cases text with
    | nil => exact .refl _
    | cons c rest =>
      rw [parseMore]
      split
      · rename_i hcomma
        have hskip : Follows C (skip rest) (c :: rest) :=
          (skip_follows hC rest).trans (follows_cons hC (by rw [hcomma]; decide) rest)
        have hle := (skip_follows hC rest).length_le
        rw [List.length_cons] at hn hm
        refine (Stays.bind (hparse _ (hskip.keeps htext) (by omega)).stays fun child value hvalue => ?_).trans hskip
        have hskip' := (skip_follows hC value).trans hvalue
        have hle' := hskip'.length_le
        have hmore := ih ((hskip'.trans hskip).keeps htext) (by omega) (by omega)
        exact Stays.bind (hmore.trans hskip') fun more rest' h => h
      · exact .refl _

include hC hfail in
/-- `parse_array` and `parse_object` behind the bracket -/
theorem parseChildren_stays {parse : Parser α} {close : UInt8} {n : Nat} (hclose : close ≠ backslash)
    (hparse : ∀ text, C text → text.length < n → Advances allowed C text (parse text)) {text : List UInt8}
    (htext : C text) (hn : text.length < n) : Stays allowed C text (parseChildren parse close n text) := by
  have hskip := skip_follows hC text
  have hle := hskip.length_le
  unfold parseChildren
  refine Stays.trans ?_ hskip
  dsimp only
  split
  · exact (follows_tail hC ‹_› hclose).1
  · refine Stays.bind (hparse _ (hskip.keeps htext) (by omega)).stays fun child value hvalue => ?_
    have hskip' := (skip_follows hC value).trans hvalue
    have hle' := hskip'.length_le
    have hmore := parseMore_stays hC hparse n ((hskip'.trans hskip).keeps htext) (by omega) (by omega)
    refine Stays.bind (hmore.trans hskip') fun more rest hrest => ?_
    split
    · exact (follows_tail hC ‹_› hclose).1.trans hrest
    · exact hfail

include hC hfail in
/-- A member of an object -/
theorem parseMember_advances {parse : Parser CJsonItem} {n : Nat}
    (hstring : ∀ text, C text → Advances allowed C text (parseString P text))
    (hparse : ∀ text, C text → text.length < n → Advances allowed C text (parse text)) {text : List UInt8}
    (htext : C text) (hn : text.length < n) : Advances allowed C text (parseMember P parse text) := by
  unfold parseMember
  refine (hstring text htext).bind fun name value hvalue hlt => ?_
  have hskip := (skip_follows hC value).trans hvalue
  have hle := (skip_follows hC value).length_le
  dsimp only
  split
  · obtain ⟨htail, hshorter⟩ := follows_tail hC ‹_› (by decide)
    have hvalue' := (skip_follows hC (skip value).tail).trans (htail.trans hskip)
    have hle' := (skip_follows hC (skip value).tail).length_le
    refine Stays.advances ?_ hvalue' (by omega)
    exact Stays.bind (hparse _ (hvalue'.keeps htext) (by omega)).stays fun child rest h => h
  · exact hfail

include hC hfail in
/-- `parse_value` takes something of its text and stops as `parse_string` may; its passes and its nested calls are
fewer than the bytes of the text. -/
theorem parseValue_advances (hstring : ∀ text, C text → Advances allowed C text (parseString P text)) (n : Nat)
    {text : List UInt8} (htext : C text) (hn : text.length < n) : Advances allowed C text (parseValue P n text) := by
  induction n generalizing text with
  | zero => exact absurd hn (Nat.not_lt_zero _)
  | succ n ih =>
    have hliteral : ∀ {s : List UInt8} {k : Nat}, backslash ∉ s → s.length = k → 0 < k → s <+: text →
        Follows C (text.drop k) text ∧ (text.drop k).length < text.length := by
      rintro s k hs hk hpos ⟨rest, rfl⟩
      rw [← hk, List.drop_left, List.length_append]
      exact ⟨follows_append hC hs rest, by omega⟩
    rw [parseValue.eq_def]
    dsimp only
    split
    · exact hliteral (s := ascii ['n', 'u', 'l', 'l']) (by decide) rfl (by decide) ‹_›
    split
    · exact hliteral (s := ascii ['f', 'a', 'l', 's', 'e']) (by decide) rfl (by decide) ‹_›
    split
    · exact hliteral (s := ascii ['t', 'r', 'u', 'e']) (by decide) rfl (by decide) ‹_›
    cases text with
    | nil => exact hfail
    | cons c rest =>
      have hlt : rest.length < (c :: rest).length := Nat.lt_succ_self _
      rw [List.length_cons] at hn
      dsimp only
      split
      · exact (hstring _ htext).map _
      split
      · rename_i hnumber
        have hrest : Follows C rest (c :: rest) := by
          rcases hnumber with rfl | hdigit
          · exact follows_cons hC (by decide) rest
          · exact follows_digit hC hdigit rest
        have hadvances := parseNumber_advances hC P rest hnumber
        exact ⟨hadvances.trans hrest, hadvances.length_le.trans_lt hlt⟩
      split
      · rename_i hopen
        have hrest : Follows C rest (c :: rest) := follows_cons hC (by rw [hopen]; decide) rest
        have hchildren := parseChildren_stays hC hfail (show ']'.toUInt8 ≠ backslash by decide)
          (fun text h h' => ih h h')
          (hrest.keeps htext) (Nat.lt_of_succ_lt_succ hn)
        exact (hchildren.advances hrest hlt).map _
      split
      · rename_i hopen
        have hrest : Follows C rest (c :: rest) := follows_cons hC (by rw [hopen]; decide) rest
        have hchildren := parseChildren_stays hC hfail (show '\x7d'.toUInt8 ≠ backslash by decide)
          (fun text h h' => parseMember_advances hC hfail hstring (fun text h h' => ih h h') h h')
          (hrest.keeps htext) (Nat.lt_of_succ_lt_succ hn)
        exact (hchildren.advances hrest hlt).map _
      · exact hfail

variable (allowed) in
include hC hfail in
/-- `cJSON_Parse` fails as `parse_string` may. -/
theorem cJSON_Parse_allowed (hstring : ∀ text, C text → Advances allowed C text (parseString P text))
    {text : List UInt8} (htext : C text) {e : Stop} (h : cJSON_Parse P text = .error e) : allowed e := by
  have hskip := skip_follows hC text
  have hvalue := parseValue_advances hC hfail hstring (text.length + 1) (hskip.keeps htext)
    (Nat.lt_succ_of_le hskip.length_le)
  unfold cJSON_Parse at h
  cases hparse : parseValue P (text.length + 1) (skip text) with
  | error e' =>
    rw [hparse] at h hvalue
    cases h
    exact hvalue
  | ok p =>
    rw [hparse] at h
    cases h

end Values

/-! ## Strings -/

section Strings

/-- What is written, and what the loop goes on with -/
abbrev written (bytes : List UInt8) (r : Option (List UInt8 × List UInt8)) : Option (List UInt8 × List UInt8) :=
  r.map (.map (bytes ++ ·) id)

theorem written_nil (r : Option (List UInt8 × List UInt8)) : written [] r = r := by
  cases r <;> rfl

theorem utf8Bytes_length (len n : Nat) (uc : UInt32) : (utf8Bytes len n uc).length = n := by
  induction n using Nat.strongRecOn generalizing uc with
  | _ n ih =>
    match n, ih with
    | 0, _ => rfl
    | 1, _ => rfl
    | n + 2, ih =>
      rw [utf8Bytes, List.length_append, ih (n + 1) (by omega)]
      rfl

theorem utf8Length_le (uc : UInt32) : utf8Length uc ≤ 4 := by
  unfold utf8Length
  split_ifs <;> decide

/-- Four bytes, or fewer -/
theorem four_or_short (ptr : List UInt8) : ptr.length < 4 ∨ ∃ a b c d ptr', ptr = a :: b :: c :: d :: ptr' := by
  rcases ptr with _ | ⟨a, _ | ⟨b, _ | ⟨c, _ | ⟨d, ptr⟩⟩⟩⟩
  · exact .inl (by simp)
  · exact .inl (by simp)
  · exact .inl (by simp)
  · exact .inl (by simp)
  · exact .inr ⟨a, b, c, d, ptr, rfl⟩

/-- The loop on a `\u` with four bytes behind it: at most four bytes are written, and the loop goes on behind these
four, or behind the second half of a surrogate pair. -/
theorem unescape_u (uc uc2 : UInt32) (a b c d : UInt8) (ptr : List UInt8) :
    (∃ uc' bytes, bytes.length ≤ 4 ∧
      unescape P uc uc2 (backslash :: 'u'.toUInt8 :: a :: b :: c :: d :: ptr) =
        written bytes (unescape P uc' uc2 ptr)) ∨
    ∃ more, ptr = backslash :: 'u'.toUInt8 :: more ∧
      ((∃ a' b' c' d' ptr', more = a' :: b' :: c' :: d' :: ptr' ∧ ∃ uc' uc2' bytes, bytes.length ≤ 4 ∧
        unescape P uc uc2 (backslash :: 'u'.toUInt8 :: a :: b :: c :: d :: ptr) =
          written bytes (unescape P uc' uc2' ptr')) ∨
      more.length < 4 ∧ unescape P uc uc2 (backslash :: 'u'.toUInt8 :: a :: b :: c :: d :: ptr) = none) := by
  rw [unescape.eq_def]
  dsimp only
  rw [if_neg (by decide), if_neg (by decide), if_neg (by decide)]
  generalize (P.scan4x (a :: b :: c :: d :: ptr)).getD uc = code
  split
  · exact .inl ⟨code, [], Nat.zero_le _, (written_nil _).symm⟩
  split
  · split
    · rename_i s u more
      split
      · rename_i hpair
        obtain ⟨rfl, rfl⟩ := hpair
        refine .inr ⟨more, rfl, ?_⟩
        split
        · rename_i a' b' c' d' ptr'
          refine .inl ⟨a', b', c', d', ptr', rfl, ?_⟩
          split
          · exact ⟨_, _, [], Nat.zero_le _, (written_nil _).symm⟩
          · exact ⟨_, _, _, (utf8Bytes_length _ _ _).trans_le (utf8Length_le _), rfl⟩
        · rename_i hshort
          refine .inr ⟨?_, rfl⟩
          rcases four_or_short more with hlt | ⟨a', b', c', d', ptr', hmore⟩
          · exact hlt
          · exact absurd hmore (hshort a' b' c' d' ptr')
      · exact .inl ⟨code, [], Nat.zero_le _, (written_nil _).symm⟩
    · exact .inl ⟨code, [], Nat.zero_le _, (written_nil _).symm⟩
  · exact .inl ⟨_, _, (utf8Bytes_length _ _ _).trans_le (utf8Length_le _), rfl⟩

/-- A `\u` with fewer than four bytes behind it -/
theorem unescape_u_short (uc uc2 : UInt32) {ptr : List UInt8} (h : ptr.length < 4) :
    unescape P uc uc2 (backslash :: 'u'.toUInt8 :: ptr) = none := by
  rw [unescape.eq_def]
  dsimp only
  rw [if_neg (by decide), if_neg (by decide), if_neg (by decide)]
  rcases ptr with _ | ⟨a, _ | ⟨b, _ | ⟨c, _ | ⟨d, ptr⟩⟩⟩⟩
  · rfl
  · rfl
  · rfl
  · rfl
  · simp only [List.length_cons] at h
    omega

theorem unescape_end (uc uc2 : UInt32) : unescape P uc uc2 [backslash] = none := by
  rw [unescape.eq_def]
  dsimp only
  rw [if_neg (by decide), if_neg (by decide)]

/-- The loop ends in the string. -/
theorem unescape_suffix {ptr : List UInt8} (uc uc2 : UInt32) :
    ∀ p ∈ unescape P uc uc2 ptr, p.2 <:+ ptr := by
  induction hlen : ptr.length using Nat.strongRecOn generalizing ptr uc uc2 with
  | _ n ih =>
    subst hlen
    have hwritten : ∀ (bytes : List UInt8) {ptr' : List UInt8} {uc' uc2' : UInt32}, ptr' <:+ ptr →
        ptr'.length < ptr.length → ∀ p ∈ written bytes (unescape P uc' uc2' ptr'), p.2 <:+ ptr := by
      intro bytes ptr' uc' uc2' hsuffix hlt p hp
      obtain ⟨q, hq, rfl⟩ := Option.map_eq_some_iff.1 hp
      exact (ih _ hlt _ _ rfl q hq).trans hsuffix
    cases ptr with
    | nil =>
      rintro p ⟨⟩
      exact List.suffix_rfl
    | cons c ptr =>
      have hone := List.suffix_cons c ptr
      by_cases hq : c = quote
      · rw [unescape.eq_def]
        dsimp only
        rw [if_pos hq]
        rintro p ⟨⟩
        exact List.suffix_rfl
      by_cases hb : c = backslash
      · subst hb
        cases ptr with
        | nil =>
          rw [unescape_end]
          rintro p ⟨⟩
        | cons e ptr =>
          have htwo := (List.suffix_cons e ptr).trans (List.suffix_cons backslash _)
          by_cases he : e = 'u'.toUInt8
          · subst he
            rcases four_or_short ptr with hshort | ⟨a, b, c, d, ptr, rfl⟩
            · rw [unescape_u_short uc uc2 hshort]
              rintro p ⟨⟩
            · have hsix : ptr <:+ backslash :: 'u'.toUInt8 :: a :: b :: c :: d :: ptr :=
                (List.suffix_append [a, b, c, d] ptr).trans htwo
              rcases unescape_u uc uc2 a b c d ptr with ⟨uc', bytes, -, h⟩ | ⟨more, rfl, h | ⟨-, h⟩⟩
              · rw [h]
                exact hwritten _ hsix (by simp only [List.length_cons]; omega)
              · obtain ⟨a', b', c', d', ptr', rfl, uc', uc2', bytes, -, h⟩ := h
                rw [h]
                exact hwritten _ ((List.suffix_append [backslash, 'u'.toUInt8, a', b', c', d'] ptr').trans hsix)
                  (by simp only [List.length_cons]; omega)
              · rw [h]
                rintro p ⟨⟩
          · rw [unescape_escape he]
            exact hwritten [unescaped e] htwo (by simp only [List.length_cons]; omega)
      · rw [unescape_plain hq hb]
        exact hwritten [c] hone (Nat.lt_succ_self _)

/-- `parse_string` on a string, by what its two loops do -/
theorem parseString_advances {allowed : Stop → Prop} {C : List UInt8 → Prop} {ptr : List UInt8}
    (h : match stringLength ptr, unescape P (P.stack ptr).1 (P.stack ptr).2 ptr with
      | some len, some (out, rest) => (len < out.length → allowed .overflow) ∧ (C (quote :: ptr) → C rest.tail)
      | _, _ => allowed .overread) : Advances allowed C (quote :: ptr) (parseString P (quote :: ptr)) := by
  rw [parseString, if_neg (by simp)]
  cases hlen : stringLength ptr with
  | none =>
    rw [hlen] at h
    exact h
  | some len =>
    cases hout : unescape P (P.stack ptr).1 (P.stack ptr).2 ptr with
    | none =>
      rw [hlen, hout] at h
      exact h
    | some p =>
      rw [hlen, hout] at h
      dsimp only at h ⊢
      split
      · exact h.1 ‹_›
      · have hsuffix := (List.tail_suffix p.2).trans (unescape_suffix _ _ p hout)
        exact ⟨⟨hsuffix.trans (List.suffix_cons _ _), h.2⟩, Nat.lt_succ_of_le hsuffix.length_le⟩

theorem parseString_head (allowed : Stop → Prop) {C : List UInt8 → Prop} (hfail : allowed .fail) {text : List UInt8}
    (h : ∀ ptr, text = quote :: ptr → Advances allowed C text (parseString P text)) :
    Advances allowed C text (parseString P text) := by
  cases text with
  | nil => exact hfail
  | cons c ptr =>
    by_cases hq : c = quote
    · exact h ptr (by rw [hq])
    · rw [parseString, if_pos hq]
      exact hfail

/-- The length of a text bounds the passes and the nested calls of the parser. -/
theorem parse_finishes (P : Platform) (text : List UInt8) : cJSON_Parse P text ≠ .error .unfinished := by
  intro h
  refine cJSON_Parse_allowed (· ≠ .unfinished) (C := fun _ => True) (fun _ _ => trivial) (by decide)
    (fun text _ => ?_) trivial h rfl
  refine parseString_head (· ≠ .unfinished) (by decide) ?_
  rintro ptr rfl
  refine parseString_advances ?_
  split
  · exact ⟨fun _ => by decide, id⟩
  · decide

/-! ## Whole escapes -/

/-- Neither quotes nor backslashes -/
def Plain (s : List UInt8) : Prop := ∀ c ∈ s, c ≠ quote ∧ c ≠ backslash

instance (s : List UInt8) : Decidable (Plain s) :=
  List.decidableBAll (fun c => c ≠ quote ∧ c ≠ backslash) s

/-- Every escape of the text is whole: a backslash is followed by a byte, and a `\u` by four bytes of the string. -/
inductive WholeEscapes : List UInt8 → Prop where
  | nil : WholeEscapes []
  | byte {c : UInt8} {s : List UInt8} (hc : c ≠ backslash) (h : WholeEscapes s) : WholeEscapes (c :: s)
  | escape {e : UInt8} {s : List UInt8} (he : e ≠ 'u'.toUInt8) (h : WholeEscapes s) :
      WholeEscapes (backslash :: e :: s)
  | code {a b c d : UInt8} {s : List UInt8} (hplain : Plain [a, b, c, d]) (h : WholeEscapes s) :
      WholeEscapes (backslash :: 'u'.toUInt8 :: a :: b :: c :: d :: s)

theorem WholeEscapes.of_cons {c : UInt8} {s : List UInt8} (hc : c ≠ backslash) (h : WholeEscapes (c :: s)) :
    WholeEscapes s := by
  cases h with
  | byte _ h => exact h
  | escape => exact absurd rfl hc
  | code => exact absurd rfl hc

/-- The first loop on a `\u` with four bytes behind it -/
theorem stringLength_u {a b c d : UInt8} (h : Plain [a, b, c, d]) (ptr : List UInt8) :
    stringLength (backslash :: 'u'.toUInt8 :: a :: b :: c :: d :: ptr) = (stringLength ptr).map (· + 5) := by
  obtain ⟨ha, hb, hc, hd⟩ : (a ≠ quote ∧ a ≠ backslash) ∧ (b ≠ quote ∧ b ≠ backslash) ∧
      (c ≠ quote ∧ c ≠ backslash) ∧ (d ≠ quote ∧ d ≠ backslash) := by simpa [Plain] using h
  rw [stringLength_escape, stringLength_plain ha.1 ha.2, stringLength_plain hb.1 hb.2,
    stringLength_plain hc.1 hc.2, stringLength_plain hd.1 hd.2]
  simp only [Option.map_map]
  rfl

/-- The two loops stay in their string: the buffer is long enough for what is written. -/
def FitsString (P : Platform) (uc uc2 : UInt32) (ptr : List UInt8) : Prop :=
  ∃ len out rest, stringLength ptr = some len ∧ unescape P uc uc2 ptr = some (out, rest) ∧ out.length ≤ len ∧
    WholeEscapes rest.tail

/-- A step of the loops: `bytes` are written, and the first loop has counted at least as many. -/
theorem FitsString.step {ptr ptr' : List UInt8} (bytes : List UInt8) {uc uc2 uc' uc2' : UInt32} {k : Nat}
    (h : FitsString P uc' uc2' ptr') (hk : bytes.length ≤ k)
    (hlength : stringLength ptr = (stringLength ptr').map (· + k))
    (hunescape : unescape P uc uc2 ptr = written bytes (unescape P uc' uc2' ptr')) : FitsString P uc uc2 ptr := by
  obtain ⟨len, out, rest, hlen, hout, hle, hrest⟩ := h
  refine ⟨len + k, bytes ++ out, rest, by rw [hlength, hlen]; rfl, by rw [hunescape, hout]; rfl, ?_, hrest⟩
  rw [List.length_append]
  omega

theorem unescape_quote (uc uc2 : UInt32) (rest : List UInt8) :
    unescape P uc uc2 (quote :: rest) = some ([], quote :: rest) := by
  rw [unescape.eq_def]
  exact if_pos rfl

theorem stringLength_quote (rest : List UInt8) : stringLength (quote :: rest) = some 0 := by
  rw [stringLength.eq_def]
  exact if_pos rfl

theorem WholeEscapes.fits {ptr : List UInt8} (h : WholeEscapes ptr) (uc uc2 : UInt32) : FitsString P uc uc2 ptr := by
  -- The second half of a surrogate pair is not the next step, but the one behind it.
  induction hlen : ptr.length using Nat.strongRecOn generalizing ptr uc uc2 with
  | _ n ih =>
    subst hlen
    cases h with
    | nil => exact ⟨0, [], [], rfl, rfl, le_rfl, .nil⟩
    | @byte c s hc h =>
      by_cases hq : c = quote
      · rw [hq]
        exact ⟨0, [], quote :: s, stringLength_quote s, unescape_quote uc uc2 s, le_rfl, h⟩
      · exact (ih _ (Nat.lt_succ_self _) h uc uc2 rfl).step [c] le_rfl (stringLength_plain hq hc s)
          (unescape_plain hq hc uc uc2 s)
    | @escape e s he h =>
      exact (ih _ (by simp only [List.length_cons]; omega) h uc uc2 rfl).step [unescaped e] le_rfl
        (stringLength_escape e s) (unescape_escape he uc uc2 s)
    | @code a b c d s hplain h =>
      have hfive := stringLength_u hplain s
      rcases unescape_u uc uc2 a b c d s with ⟨uc', bytes, hbytes, hwrite⟩ | ⟨more, rfl, hpair⟩
      · exact (ih _ (by simp only [List.length_cons]; omega) h uc' uc2 rfl).step bytes (by omega) hfive hwrite
      · cases h with
        | byte hc => exact absurd rfl hc
        | escape he => exact absurd rfl he
        | @code a' b' c' d' s hplain' h =>
          rcases hpair with ⟨_, _, _, _, _, hfour, uc', uc2', bytes, hbytes, hwrite⟩ | ⟨hshort, -⟩
          · cases hfour
            have hten := hfive.trans (by rw [stringLength_u hplain' s])
            rw [Option.map_map] at hten
            exact (ih _ (by simp only [List.length_cons]; omega) h uc' uc2' rfl).step bytes (k := 10) (by omega) hten
              hwrite
          · simp only [List.length_cons] at hshort
            omega

theorem stringLength_append {s : List UInt8} (h : Plain s) (ptr : List UInt8) :
    stringLength (s ++ ptr) = (stringLength ptr).map (· + s.length) := by
  induction s with
  | nil => exact Option.map_id'.symm
  | cons c s ih =>
    obtain ⟨hq, hb⟩ := h c List.mem_cons_self
    rw [List.cons_append, stringLength_plain hq hb, ih fun d hd => h d (List.mem_cons_of_mem c hd), Option.map_map]
    rfl

theorem unescape_append {s : List UInt8} (h : Plain s) (uc uc2 : UInt32) (ptr : List UInt8) :
    unescape P uc uc2 (s ++ ptr) = written s (unescape P uc uc2 ptr) := by
  induction s with
  | nil => exact (written_nil _).symm
  | cons c s ih =>
    obtain ⟨hq, hb⟩ := h c List.mem_cons_self
    rw [List.cons_append, unescape_plain hq hb, ih fun d hd => h d (List.mem_cons_of_mem c hd)]
    unfold written
    rw [Option.map_map]
    rfl

end Strings

end Iperf
