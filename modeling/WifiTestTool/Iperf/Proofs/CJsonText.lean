import WifiTestTool.Iperf.Proofs.CJsonNumbers

/-!
# Texts that are read back

What `cJSON_Print` and `cJSON_PrintUnformatted` write for an item, `cJSON_Parse` reads as the same item, except that
a number printed with `%g` is what its digits say (`parse_print`).
-/

namespace Iperf

/-- What the language and its library promise -/
structure Platform.Conforms (P : Platform) : Prop where
  toInt64 : ∀ q : ℚ, -2 ^ 63 ≤ truncRat q → truncRat q < 2 ^ 63 → P.toInt64 q = truncRat q
  scan4x : ∀ a < 16, ∀ b < 16, ∀ c < 16, ∀ d < 16, ∀ rest,
    P.scan4x (hexDigit a :: hexDigit b :: hexDigit c :: hexDigit d :: rest) =
      some (UInt32.ofNat (((a * 16 + b) * 16 + c) * 16 + d))

/-- A hexadecimal digit -/
def hexValue (c : UInt8) : Option UInt32 :=
  if isDigit c then some (c - 48).toUInt32
  else if 97 ≤ c ∧ c ≤ 102 then some (c - 87).toUInt32
  else if 65 ≤ c ∧ c ≤ 70 then some (c - 55).toUInt32
  else none

/-- At most so many hexadecimal digits -/
def scanHex : Nat → UInt32 → List UInt8 → UInt32
  | 0, n, _ => n
  | _ + 1, n, [] => n
  | k + 1, n, c :: s =>
    match hexValue c with
    | none => n
    | some d => scanHex k (n * 16 + d) s

/-- A platform whose conversion gives `INT64_MIN` for what is not in range -/
def Platform.x86 : Platform where
  toInt64 q := if -2 ^ 63 ≤ truncRat q ∧ truncRat q < 2 ^ 63 then truncRat q else -2 ^ 63
  scan4x s := (s.head?.bind hexValue).map fun _ => scanHex 4 0 s
  stack _ := (0, 0)

theorem hexValue_hexDigit : ∀ n < 16, hexValue (hexDigit n) = some (UInt32.ofNat n) := by decide

theorem x86_conforms : Platform.x86.Conforms where
  toInt64 q hlow hhigh := if_pos ⟨hlow, hhigh⟩
  scan4x a ha b hb c hc d hd rest := by
    show ((hexValue (hexDigit a)).map fun _ => scanHex 4 0 _) = _
    simp only [scanHex, hexValue_hexDigit a ha, hexValue_hexDigit b hb, hexValue_hexDigit c hc,
      hexValue_hexDigit d hd, Option.map_some]
    simp [UInt32.ofNat_add, UInt32.ofNat_mul]

/-- There is no NUL in its names and strings. -/
inductive CJsonItem.Sound : CJsonItem → Prop where
  | null : Sound .null
  | bool (b : Bool) : Sound (.bool b)
  | number (v : Int) (f : ℚ) : Sound (.number v f)
  | string {s : List UInt8} (h : 0 ∉ s) : Sound (.string s)
  | array {child : List CJsonItem} (h : ∀ item ∈ child, Sound item) : Sound (.array child)
  | object {child : List (List UInt8 × CJsonItem)} (hnames : ∀ member ∈ child, 0 ∉ member.1)
      (h : ∀ member ∈ child, Sound member.2) : Sound (.object child)

mutual

/-- The item that is read for what an item was printed as -/
def CJsonItem.reread (P : Platform) : CJsonItem → CJsonItem
  | .number v f => (parseNumber P (printNumber P v f)).1
  | .array child => .array (rereadEntries P child)
  | .object child => .object (rereadMembers P child)
  | item => item

def rereadEntries (P : Platform) : List CJsonItem → List CJsonItem
  | [] => []
  | item :: more => item.reread P :: rereadEntries P more

def rereadMembers (P : Platform) : List (List UInt8 × CJsonItem) → List (List UInt8 × CJsonItem)
  | [] => []
  | (name, item) :: more => (name, item.reread P) :: rereadMembers P more

end

/-! ## Strings -/

section Strings

variable {P : Platform}

theorem hexDigit_plain : ∀ n < 16, hexDigit n ≠ quote ∧ hexDigit n ≠ backslash := by decide

theorem stringLength_plain {c : UInt8} (hq : c ≠ quote) (hb : c ≠ backslash) (ptr : List UInt8) :
    stringLength (c :: ptr) = (stringLength ptr).map (· + 1) := by
  rw [stringLength.eq_def]
  dsimp only
  rw [if_neg hq, if_neg hb]

theorem stringLength_escape (c : UInt8) (ptr : List UInt8) :
    stringLength (backslash :: c :: ptr) = (stringLength ptr).map (· + 1) := by
  rw [stringLength.eq_def]
  dsimp only
  rw [if_neg (by decide), if_pos rfl]

/-- The ways in which a byte is printed -/
theorem escaped_cases (c : UInt8) :
    c > 31 ∧ c ≠ quote ∧ c ≠ backslash ∧ escaped c = [c] ∨
    (∃ e, e ≠ 'u'.toUInt8 ∧ unescaped e = c ∧ escaped c = [backslash, e]) ∨
    c < 32 ∧ escaped c =
      [backslash, 'u'.toUInt8, hexDigit 0, hexDigit 0, hexDigit (c.toNat / 16), hexDigit (c.toNat % 16)] := by
  unfold escaped
  by_cases hplain : c > 31 ∧ c ≠ quote ∧ c ≠ backslash
  · exact .inl ⟨hplain.1, hplain.2.1, hplain.2.2, if_pos hplain⟩
  right
  rw [if_neg hplain]
  by_cases hb : c = backslash
  · exact .inl ⟨backslash, by decide, by rw [hb]; decide, by rw [if_pos hb]⟩
  by_cases hq : c = quote
  · exact .inl ⟨quote, by decide, by rw [hq]; decide, by rw [if_neg hb, if_pos hq]⟩
  have hcontrol : c < 32 := by
    by_contra hge
    refine hplain ⟨?_, hq, hb⟩
    rw [UInt8.lt_iff_toNat_lt] at hge
    rw [gt_iff_lt, UInt8.lt_iff_toNat_lt]
    have : (32 : UInt8).toNat = 32 := rfl
    have : (31 : UInt8).toNat = 31 := rfl
    omega
  rw [if_neg hb, if_neg hq]
  split_ifs with h₈ h₁₂ h₁₀ h₁₃ h₉
  · exact .inl ⟨'b'.toUInt8, by decide, by rw [h₈]; decide, rfl⟩
  · exact .inl ⟨'f'.toUInt8, by decide, by rw [h₁₂]; decide, rfl⟩
  · exact .inl ⟨'n'.toUInt8, by decide, by rw [h₁₀]; decide, rfl⟩
  · exact .inl ⟨'r'.toUInt8, by decide, by rw [h₁₃]; decide, rfl⟩
  · exact .inl ⟨'t'.toUInt8, by decide, by rw [h₉]; decide, rfl⟩
  · exact .inr ⟨hcontrol, rfl⟩

/-- The first loop of `parse_string` on what was printed for a byte -/
theorem stringLength_escaped (c : UInt8) (ptr : List UInt8) :
    ∃ k, 0 < k ∧ stringLength (escaped c ++ ptr) = (stringLength ptr).map (· + k) := by
  rcases escaped_cases c with ⟨-, hq, hb, h⟩ | ⟨e, -, -, h⟩ | ⟨hc, h⟩
  · rw [h]
    exact ⟨1, by decide, stringLength_plain hq hb ptr⟩
  · rw [h]
    exact ⟨1, by decide, stringLength_escape e ptr⟩
  · have hlt : c.toNat < 32 := UInt8.lt_iff_toNat_lt.1 hc
    have hzero := hexDigit_plain 0 (by decide)
    have hhigh := hexDigit_plain (c.toNat / 16) (by omega)
    have hlow := hexDigit_plain (c.toNat % 16) (by omega)
    refine ⟨5, by decide, ?_⟩
    rw [h]
    simp only [List.cons_append, List.nil_append]
    rw [stringLength_escape, stringLength_plain hzero.1 hzero.2, stringLength_plain hzero.1 hzero.2,
      stringLength_plain hhigh.1 hhigh.2, stringLength_plain hlow.1 hlow.2]
    simp only [Option.map_map]
    rfl

theorem unescape_plain {c : UInt8} (hq : c ≠ quote) (hb : c ≠ backslash) (uc uc2 : UInt32) (ptr : List UInt8) :
    unescape P uc uc2 (c :: ptr) = (unescape P uc uc2 ptr).map (.map (c :: ·) id) := by
  rw [unescape.eq_def]
  dsimp only
  rw [if_neg hq, if_pos hb]

theorem unescape_escape {e : UInt8} (he : e ≠ 'u'.toUInt8) (uc uc2 : UInt32) (ptr : List UInt8) :
    unescape P uc uc2 (backslash :: e :: ptr) = (unescape P uc uc2 ptr).map (.map (unescaped e :: ·) id) := by
  rw [unescape.eq_def]
  dsimp only
  rw [if_neg (by decide), if_neg (by decide), if_pos he]

/-- A character of one byte -/
theorem unescape_code {a b c d : UInt8} {code : UInt32} {ptr : List UInt8}
    (hscan : P.scan4x (a :: b :: c :: d :: ptr) = some code) (hpos : code ≠ 0) (hlt : code.toNat < 0x80)
    (uc uc2 : UInt32) :
    unescape P uc uc2 (backslash :: 'u'.toUInt8 :: a :: b :: c :: d :: ptr) =
      (unescape P code uc2 ptr).map (.map (code.toUInt8 :: ·) id) := by
  have hinvalid : ¬ (0xDC00 ≤ code ∧ code ≤ 0xDFFF ∨ code = 0) := by
    rintro (⟨hge, -⟩ | hzero)
    · have : 0xDC00 ≤ code.toNat := UInt32.le_iff_toNat_le.1 hge
      omega
    · exact hpos hzero
  have hsurrogate : ¬ (0xD800 ≤ code ∧ code ≤ 0xDBFF) := by
    rintro ⟨hge, -⟩
    have : 0xD800 ≤ code.toNat := UInt32.le_iff_toNat_le.1 hge
    omega
  have hlen : utf8Length code = 1 := if_pos (UInt32.lt_iff_toNat_lt.2 hlt)
  rw [unescape.eq_def]
  dsimp only
  rw [if_neg (by decide), if_neg (by decide), if_neg (by decide), hscan]
  dsimp only [Option.getD_some]
  rw [if_neg hinvalid, if_neg hsurrogate, hlen]
  show (unescape P (code >>> 0) uc2 ptr).map (Prod.map ([(code ||| 0).toUInt8] ++ ·) id) = _
  rw [UInt32.or_zero, UInt32.shiftRight_zero]
  rfl

/-- The second loop of `parse_string` on what was printed for a byte -/
theorem unescape_escaped (hP : P.Conforms) {c : UInt8} (hc : c ≠ 0) (uc uc2 : UInt32) (ptr : List UInt8) :
    ∃ uc', unescape P uc uc2 (escaped c ++ ptr) = (unescape P uc' uc2 ptr).map (.map (c :: ·) id) := by
  rcases escaped_cases c with ⟨-, hq, hb, h⟩ | ⟨e, he, hec, h⟩ | ⟨hlt, h⟩
  · rw [h]
    exact ⟨uc, unescape_plain hq hb uc uc2 ptr⟩
  · rw [h, ← hec]
    exact ⟨uc, unescape_escape he uc uc2 ptr⟩
  · have hlt : c.toNat < 32 := UInt8.lt_iff_toNat_lt.1 hlt
    have hcode : UInt32.ofNat (((0 * 16 + 0) * 16 + c.toNat / 16) * 16 + c.toNat % 16) = c.toUInt32 := by
      rw [show ((0 * 16 + 0) * 16 + c.toNat / 16) * 16 + c.toNat % 16 = c.toNat by omega]
      exact UInt32.ofNat_uInt8ToNat c
    have hscan := hP.scan4x 0 (by decide) 0 (by decide) (c.toNat / 16) (by omega) (c.toNat % 16) (by omega) ptr
    rw [hcode] at hscan
    have hpos : c.toUInt32 ≠ 0 := by
      intro h0
      refine hc (UInt8.toNat_inj.1 ?_)
      rw [← UInt8.toNat_toUInt32, h0]
      rfl
    have hsmall : c.toUInt32.toNat < 0x80 := by
      rw [UInt8.toNat_toUInt32]
      omega
    refine ⟨c.toUInt32, ?_⟩
    rw [h]
    show unescape P uc uc2 (backslash :: 'u'.toUInt8 :: hexDigit 0 :: hexDigit 0 :: hexDigit (c.toNat / 16) ::
      hexDigit (c.toNat % 16) :: ptr) = _
    rw [unescape_code hscan hpos hsmall, UInt8.toUInt8_toUInt32]

/-- The loops of `parse_string` on what was printed for a string -/
theorem string_escaped (hP : P.Conforms) {s : List UInt8} (hs : 0 ∉ s) (rest : List UInt8) (uc uc2 : UInt32) :
    (∃ len, s.length ≤ len ∧ stringLength (s.flatMap escaped ++ quote :: rest) = some len) ∧
      unescape P uc uc2 (s.flatMap escaped ++ quote :: rest) = some (s, quote :: rest) := by
  induction s generalizing uc with
  | nil =>
    refine ⟨⟨0, le_rfl, ?_⟩, ?_⟩
    · rw [List.flatMap_nil, List.nil_append, stringLength.eq_def]
      exact if_pos rfl
    · rw [List.flatMap_nil, List.nil_append, unescape.eq_def]
      exact if_pos rfl
  | cons c s ih =>
    obtain ⟨hc, hs⟩ := List.ne_and_not_mem_of_not_mem_cons hs
    rw [List.flatMap_cons, List.append_assoc]
    constructor
    · obtain ⟨len, hlen, h⟩ := (ih hs uc).1
      obtain ⟨k, hk, hc⟩ := stringLength_escaped c (s.flatMap escaped ++ quote :: rest)
      refine ⟨len + k, ?_, ?_⟩
      · rw [List.length_cons]
        omega
      · rw [hc, h]
        rfl
    · obtain ⟨uc', h⟩ := unescape_escaped hP hc.symm uc uc2 (s.flatMap escaped ++ quote :: rest)
      rw [h, (ih hs uc').2]
      rfl

/-- A string is read back from what was printed for it. -/
theorem parseString_printStringPtr (hP : P.Conforms) {s : List UInt8} (hs : 0 ∉ s) (rest : List UInt8) :
    parseString P (printStringPtr s ++ rest) = .ok (s, rest) := by
  have htext : printStringPtr s ++ rest = quote :: (s.flatMap escaped ++ quote :: rest) := by
    simp [printStringPtr]
  rw [htext, parseString, if_neg (by simp)]
  set ptr := s.flatMap escaped ++ quote :: rest
  obtain ⟨⟨len, hlen, hlength⟩, hread⟩ := string_escaped hP hs rest (P.stack ptr).1 (P.stack ptr).2
  rw [hlength, hread]
  exact if_neg (Nat.not_lt.2 hlen)

end Strings

/-! ## Lists of items -/

section Lists

variable {α : Type} {parse : Parser α} {close : UInt8} {gap tail : List UInt8}

/-- The text is read as the item, whatever follows it. -/
def Reads (parse : Parser α) (text : List UInt8) (item : α) : Prop :=
  ∀ rest, EndsNumber rest → parse (text ++ rest) = .ok (item, rest)

/-- Nothing is skipped in front of the text, and it is not the end of a list. -/
def Begins (text : List UInt8) : Prop :=
  ∃ c more, text = c :: more ∧ 32 < c ∧ c ≠ ']'.toUInt8 ∧ c ≠ '\x7d'.toUInt8

/-- Bytes that `skip` skips -/
def Blank (ws : List UInt8) : Prop := ∀ c ∈ ws, c ≤ 32

/-- A bracket that ends a list -/
def Closes (close : UInt8) : Prop := close = ']'.toUInt8 ∨ close = '\x7d'.toUInt8

theorem Begins.append {text : List UInt8} (h : Begins text) (rest : List UInt8) : Begins (text ++ rest) := by
  obtain ⟨c, more, rfl, hc⟩ := h
  exact ⟨c, more ++ rest, rfl, hc⟩

theorem Begins.skip {text : List UInt8} (h : Begins text) : skip text = text := by
  obtain ⟨c, more, rfl, hc, -⟩ := h
  exact if_neg (UInt8.not_le.2 hc)

theorem Begins.length_pos {text : List UInt8} (h : Begins text) : 0 < text.length := by
  obtain ⟨c, more, rfl, -⟩ := h
  exact Nat.succ_pos _

theorem Begins.head_ne {text : List UInt8} (h : Begins text) (hclose : Closes close) : text.head? ≠ some close := by
  obtain ⟨c, more, rfl, -, hbracket, hbrace⟩ := h
  rintro ⟨⟩
  exact hclose.elim hbracket hbrace

theorem Blank.skip {ws : List UInt8} (h : Blank ws) (rest : List UInt8) : skip (ws ++ rest) = skip rest := by
  induction ws with
  | nil => rfl
  | cons c ws ih =>
    show (if c ≤ 32 then _ else _) = _
    rw [if_pos (h c List.mem_cons_self)]
    exact ih fun d hd => h d (List.mem_cons_of_mem c hd)

theorem Closes.skip (h : Closes close) (rest : List UInt8) : skip (close :: rest) = close :: rest := by
  refine if_neg ?_
  rcases h with rfl | rfl <;> decide

/-- A byte that ends a number -/
theorem endsNumber_cons {c : UInt8} (hc : c ≤ 32 ∨ c = ','.toUInt8 ∨ Closes c) (rest : List UInt8) :
    EndsNumber (c :: rest) := by
  rintro _ ⟨⟩
  rcases hc with hblank | rfl | rfl | rfl
  · refine ⟨?_, ?_, ?_, ?_⟩
    · refine Bool.eq_false_iff.2 fun hdigit => ?_
      have hle := UInt8.le_iff_toNat_le.1 hblank
      have hge := (isDigit_iff.1 hdigit).1
      have : (32 : UInt8).toNat = 32 := rfl
      omega
    all_goals
      rintro rfl
      exact absurd hblank (by decide)
  all_goals decide

/-- The texts of the items behind the first one -/
def moreText (gap : List UInt8) : List (List UInt8) → List UInt8
  | [] => []
  | text :: more => ','.toUInt8 :: gap ++ text ++ moreText gap more

theorem endsNumber_moreText (htail : Blank tail) (hclose : Closes close) (texts : List (List UInt8))
    (rest : List UInt8) : EndsNumber (moreText gap texts ++ tail ++ close :: rest) := by
  cases texts with
  | nil =>
    cases tail with
    | nil => exact endsNumber_cons (.inr (.inr hclose)) rest
    | cons c tail => exact endsNumber_cons (.inl (htail c List.mem_cons_self)) _
  | cons text more => exact endsNumber_cons (.inr (.inl rfl)) _

/-- The loop of `parse_array` and `parse_object` reads the items behind the first one. -/
theorem parseMore_reads (hgap : Blank gap) (htail : Blank tail) (hclose : Closes close) (rest : List UInt8)
    {items : List (List UInt8 × α)} (hitems : ∀ i ∈ items, Begins i.1 ∧ Reads parse i.1 i.2) {n : Nat}
    (hn : items.length < n) :
    parseMore parse n (skip (moreText gap (items.map Prod.fst) ++ tail ++ close :: rest)) =
      .ok (items.map Prod.snd, close :: rest) := by
  induction items generalizing n with
  | nil =>
    obtain ⟨n, rfl⟩ := Nat.exists_eq_add_one.2 hn
    show parseMore parse (n + 1) (skip (tail ++ close :: rest)) = _
    rw [htail.skip, hclose.skip]
    refine if_neg ?_
    rcases hclose with rfl | rfl <;> decide
  | cons item items ih =>
    obtain ⟨n, rfl⟩ := Nat.exists_eq_add_one.2 (Nat.zero_lt_of_lt hn)
    obtain ⟨hbegins, hreads⟩ := hitems item List.mem_cons_self
    have hmore := ih (fun i hi => hitems i (List.mem_cons_of_mem item hi)) (Nat.succ_lt_succ_iff.1 hn)
    set after := moreText gap (items.map Prod.fst) ++ tail ++ close :: rest with hafter
    have hends : EndsNumber after := endsNumber_moreText htail hclose _ rest
    have htext : moreText gap ((item :: items).map Prod.fst) ++ tail ++ close :: rest =
        ','.toUInt8 :: (gap ++ (item.1 ++ after)) := by
      rw [hafter]
      simp [moreText]
    have hskip : skip (gap ++ (item.1 ++ after)) = item.1 ++ after := by
      rw [hgap.skip, (hbegins.append after).skip]
    have hcomma : skip (','.toUInt8 :: (gap ++ (item.1 ++ after))) = ','.toUInt8 :: (gap ++ (item.1 ++ after)) :=
      if_neg (by decide)
    rw [htext, hcomma, parseMore, if_pos rfl, hskip, hreads after hends]
    show (parseMore parse n (skip after) >>= _) = _
    rw [hmore]
    rfl

/-- A list that is not empty is read back, with its blanks. -/
theorem parseChildren_reads {lead : List UInt8} (hlead : Blank lead) (hgap : Blank gap) (htail : Blank tail)
    (hclose : Closes close) (rest : List UInt8) {item : List UInt8 × α} {items : List (List UInt8 × α)}
    (hitems : ∀ i ∈ item :: items, Begins i.1 ∧ Reads parse i.1 i.2) {n : Nat} (hn : items.length < n) :
    parseChildren parse close n
        (lead ++ (item.1 ++ (moreText gap (items.map Prod.fst) ++ tail ++ close :: rest))) =
      .ok (item.2 :: items.map Prod.snd, rest) := by
  obtain ⟨hbegins, hreads⟩ := hitems item List.mem_cons_self
  have hmore := parseMore_reads hgap htail hclose rest (fun i hi => hitems i (List.mem_cons_of_mem item hi)) hn
  set after := moreText gap (items.map Prod.fst) ++ tail ++ close :: rest with hafter
  have hends : EndsNumber after := endsNumber_moreText htail hclose _ rest
  unfold parseChildren
  dsimp only
  rw [hlead.skip, (hbegins.append after).skip, if_neg ((hbegins.append after).head_ne hclose), hreads after hends]
  show (parseMore parse n (skip after) >>= _) = _
  rw [hmore]
  exact if_pos rfl

/-- An empty list is read back, with its blanks. -/
theorem parseChildren_empty {lead : List UInt8} (hlead : Blank lead) (hclose : Closes close) (rest : List UInt8)
    (n : Nat) : parseChildren parse close n (lead ++ close :: rest) = .ok ([], rest) := by
  unfold parseChildren
  dsimp only
  rw [hlead.skip, hclose.skip]
  exact if_pos rfl

end Lists

/-! ## Layouts -/

section Layouts

/-- `\n` in a formatted text -/
def newline (fmt : Bool) : List UInt8 := ascii (if fmt then ['\n'] else [])

/-- `\t` in a formatted text -/
def tabs (fmt : Bool) (depth : Nat) : List UInt8 := ascii (if fmt then List.replicate depth '\t' else [])

/-- What stands behind a comma in an array -/
def entryGap (fmt : Bool) : List UInt8 := ascii (if fmt then [' '] else [])

/-- What stands behind a colon in an object -/
def colonGap (fmt : Bool) : List UInt8 := ascii (if fmt then ['\t'] else [])

/-- The text of a member of an object -/
def memberText (fmt : Bool) (m : List UInt8 × List UInt8) : List UInt8 :=
  m.1 ++ ':'.toUInt8 :: (colonGap fmt ++ m.2)

theorem blank_newline (fmt : Bool) : Blank (newline fmt) := by
  cases fmt with
  | false => exact List.forall_mem_nil _
  | true => exact List.forall_mem_singleton.2 (by decide)

theorem blank_entryGap (fmt : Bool) : Blank (entryGap fmt) := by
  cases fmt with
  | false => exact List.forall_mem_nil _
  | true => exact List.forall_mem_singleton.2 (by decide)

theorem blank_colonGap (fmt : Bool) : Blank (colonGap fmt) := by
  cases fmt with
  | false => exact List.forall_mem_nil _
  | true => exact List.forall_mem_singleton.2 (by decide)

theorem blank_tabs (fmt : Bool) (depth : Nat) : Blank (tabs fmt depth) := by
  intro c hc
  obtain ⟨d, hd, rfl⟩ := List.mem_map.1 hc
  cases fmt with
  | false => cases hd
  | true =>
    rw [List.eq_of_mem_replicate hd]
    decide

theorem Blank.append {ws ws' : List UInt8} (h : Blank ws) (h' : Blank ws') : Blank (ws ++ ws') := by
  intro c hc
  exact (List.mem_append.1 hc).elim (h c) (h' c)

theorem joinEntries_cons (fmt : Bool) (text : List UInt8) (more : List (List UInt8)) :
    joinEntries fmt (text :: more) = text ++ moreText (entryGap fmt) more := by
  induction more generalizing text with
  | nil => exact (List.append_nil text).symm
  | cons e more ih =>
    rw [joinEntries.eq_3 _ _ _ (by simp), ih e]
    simp [moreText, entryGap, ascii, Char.toUInt8]

theorem composeArray_cons (fmt : Bool) (text : List UInt8) (more : List (List UInt8)) (rest : List UInt8) :
    composeArray fmt (text :: more) ++ rest =
      '['.toUInt8 :: ([] ++ (text ++ (moreText (entryGap fmt) more ++ [] ++ ']'.toUInt8 :: rest))) := by
  unfold composeArray
  rw [joinEntries_cons]
  simp [ascii, Char.toUInt8]

theorem joinMembers_cons (fmt : Bool) (depth : Nat) (m : List UInt8 × List UInt8)
    (more : List (List UInt8 × List UInt8)) :
    joinMembers fmt depth (m :: more) =
      tabs fmt depth ++ memberText fmt m ++
        (moreText (newline fmt ++ tabs fmt depth) (more.map (memberText fmt)) ++ newline fmt) := by
  induction more generalizing m with
  | nil => cases fmt <;> simp [joinMembers, memberText, moreText, newline, tabs, colonGap, ascii, Char.toUInt8]
  | cons e more ih =>
    rw [joinMembers, ih e]
    cases fmt <;> simp [memberText, moreText, newline, tabs, colonGap, ascii, Char.toUInt8]

theorem composeObject_cons (fmt : Bool) (depth : Nat) (m : List UInt8 × List UInt8)
    (more : List (List UInt8 × List UInt8)) (rest : List UInt8) :
    composeObject fmt depth (m :: more) ++ rest =
      '\x7b'.toUInt8 :: (newline fmt ++ tabs fmt depth ++ (memberText fmt m ++
        (moreText (newline fmt ++ tabs fmt depth) (more.map (memberText fmt)) ++
          (newline fmt ++ tabs fmt (depth - 1)) ++ '\x7d'.toUInt8 :: rest))) := by
  unfold composeObject
  rw [joinMembers_cons]
  cases fmt <;> simp [newline, tabs, ascii, Char.toUInt8]

theorem composeObject_nil (fmt : Bool) (depth : Nat) (rest : List UInt8) :
    composeObject fmt depth [] ++ rest =
      '\x7b'.toUInt8 :: (newline fmt ++ tabs fmt (depth - 1) ++ '\x7d'.toUInt8 :: rest) := by
  cases fmt <;> simp [composeObject, joinMembers, newline, tabs, ascii, Char.toUInt8]

theorem length_le_moreText (gap : List UInt8) (texts : List (List UInt8)) :
    texts.length ≤ (moreText gap texts).length := by
  induction texts with
  | nil => exact le_rfl
  | cons text texts ih =>
    simp only [moreText, List.length_append, List.length_cons]
    omega

theorem mem_moreText_length (gap : List UInt8) {texts : List (List UInt8)} {text : List UInt8} (h : text ∈ texts) :
    text.length ≤ (moreText gap texts).length := by
  induction texts with
  | nil => cases h
  | cons t texts ih =>
    simp only [moreText, List.length_append, List.length_cons]
    rcases List.mem_cons.1 h with rfl | h
    · omega
    · have := ih h
      omega

end Layouts

/-! ## Items -/

section Items

variable {P : Platform}

theorem printEntries_eq (P : Platform) (fmt : Bool) (depth : Nat) (child : List CJsonItem) :
    printEntries P fmt depth child = child.map (printValue P fmt depth) := by
  induction child with
  | nil => rfl
  | cons item child ih => rw [printEntries, ih, List.map_cons]

theorem printMembers_eq (P : Platform) (fmt : Bool) (depth : Nat) (child : List (List UInt8 × CJsonItem)) :
    printMembers P fmt depth child = child.map fun m => (printStringPtr m.1, printValue P fmt depth m.2) := by
  induction child with
  | nil => rfl
  | cons m child ih => rw [printMembers, ih, List.map_cons]

theorem rereadEntries_eq (P : Platform) (child : List CJsonItem) :
    rereadEntries P child = child.map (CJsonItem.reread P) := by
  induction child with
  | nil => rfl
  | cons item child ih => rw [rereadEntries, ih, List.map_cons]

theorem rereadMembers_eq (P : Platform) (child : List (List UInt8 × CJsonItem)) :
    rereadMembers P child = child.map fun m => (m.1, m.2.reread P) := by
  induction child with
  | nil => rfl
  | cons m child ih => rw [rereadMembers, ih, List.map_cons]

/-- `parse_value` on a text that is not a literal -/
theorem parseValue_cons (n : Nat) {c : UInt8} (hn : c ≠ 'n'.toUInt8) (hf : c ≠ 'f'.toUInt8) (ht : c ≠ 't'.toUInt8)
    (rest : List UInt8) :
    parseValue P (n + 1) (c :: rest) =
      if c = quote then
        (parseString P (c :: rest)).map (.map .string id)
      else if c = '-'.toUInt8 ∨ isDigit c then
        .ok (parseNumber P (c :: rest))
      else if c = '['.toUInt8 then
        (parseChildren (parseValue P n) ']'.toUInt8 n rest).map (.map .array id)
      else if c = '\x7b'.toUInt8 then
        (parseChildren (parseMember P (parseValue P n)) '\x7d'.toUInt8 n rest).map (.map .object id)
      else
        .error .fail := by
  have hliteral : ∀ {d : Char} {s : List Char}, c ≠ d.toUInt8 → ¬ ascii (d :: s) <+: c :: rest := by
    intro d s hne hprefix
    exact hne (List.cons_prefix_cons.1 hprefix).1.symm
  rw [parseValue, if_neg (hliteral hn), if_neg (hliteral hf), if_neg (hliteral ht)]

theorem parseValue_string (hP : P.Conforms) {s : List UInt8} (hs : 0 ∉ s) (n : Nat) (rest : List UInt8) :
    parseValue P (n + 1) (printStringPtr s ++ rest) = .ok (.string s, rest) := by
  have htext : printStringPtr s ++ rest = quote :: (s.flatMap escaped ++ [quote] ++ rest) := rfl
  rw [htext, parseValue_cons n (by decide) (by decide) (by decide), if_pos rfl, ← htext,
    parseString_printStringPtr hP hs]
  rfl

theorem parseValue_number {text : List UInt8} (h : NumberText text) (n : Nat) (rest : List UInt8) :
    parseValue P (n + 1) (text ++ rest) = .ok (parseNumber P (text ++ rest)) := by
  obtain ⟨c, more, rfl, hc⟩ := h.head
  have hne : ∀ d : UInt8, d ≠ '-'.toUInt8 → isDigit d = false → c ≠ d := by
    rintro d hminus hdigit rfl
    rw [hdigit] at hc
    exact hc.elim hminus (by simp)
  rw [List.cons_append, parseValue_cons n (hne _ (by decide) (by decide)) (hne _ (by decide) (by decide))
    (hne _ (by decide) (by decide)), if_neg (hne _ (by decide) (by decide)), if_pos hc]

theorem parseMember_reads (hP : P.Conforms) {parse : Parser CJsonItem} {name text : List UInt8} {item : CJsonItem}
    (hname : 0 ∉ name) (hbegins : Begins text) (h : Reads parse text item) (fmt : Bool) :
    Reads (parseMember P parse) (memberText fmt (printStringPtr name, text)) (name, item) := by
  intro rest hrest
  have htext : memberText fmt (printStringPtr name, text) ++ rest =
      printStringPtr name ++ ':'.toUInt8 :: (colonGap fmt ++ (text ++ rest)) := by
    simp [memberText]
  have hcolon : skip (':'.toUInt8 :: (colonGap fmt ++ (text ++ rest))) =
      ':'.toUInt8 :: (colonGap fmt ++ (text ++ rest)) := if_neg (by decide)
  rw [htext, parseMember, parseString_printStringPtr hP hname]
  dsimp only [bind, Except.bind]
  rw [hcolon, List.head?_cons, if_pos rfl, List.tail_cons, (blank_colonGap fmt).skip, (hbegins.append rest).skip, h rest hrest]

theorem begins_string (s more : List UInt8) : Begins (printStringPtr s ++ more) :=
  ⟨quote, _, rfl, by decide, by decide, by decide⟩

theorem begins_printValue (P : Platform) (fmt : Bool) (depth : Nat) (item : CJsonItem) :
    Begins (printValue P fmt depth item) := by
  cases item with
  | null => exact ⟨_, _, rfl, by decide, by decide, by decide⟩
  | bool b => cases b <;> exact ⟨_, _, rfl, by decide, by decide, by decide⟩
  | number v f =>
    obtain ⟨c, more, htext, hc⟩ := (printNumber_text P v f).head
    refine ⟨c, more, by rw [printValue, htext], ?_⟩
    rcases hc with rfl | hc
    · decide
    · have h := isDigit_iff.1 hc
      refine ⟨UInt8.lt_iff_toNat_lt.2 (show 32 < c.toNat by omega), ?_, ?_⟩
      all_goals
        rintro rfl
        exact absurd hc (by decide)
  | string s =>
    have h := begins_string s []
    rwa [List.append_nil] at h
  | array child => exact ⟨_, _, rfl, by decide, by decide, by decide⟩
  | object child => exact ⟨_, _, rfl, by decide, by decide, by decide⟩

theorem begins_member (fmt : Bool) (name text : List UInt8) : Begins (memberText fmt (printStringPtr name, text)) :=
  begins_string name _

theorem parseValue_array (n : Nat) (rest : List UInt8) :
    parseValue P (n + 1) ('['.toUInt8 :: rest) =
      (parseChildren (parseValue P n) ']'.toUInt8 n rest).map (.map .array id) :=
  parseValue_cons n (by decide) (by decide) (by decide) rest

theorem parseValue_object (n : Nat) (rest : List UInt8) :
    parseValue P (n + 1) ('\x7b'.toUInt8 :: rest) =
      (parseChildren (parseMember P (parseValue P n)) '\x7d'.toUInt8 n rest).map (.map .object id) :=
  parseValue_cons n (by decide) (by decide) (by decide) rest

/-- An array is read if its entries are. -/
theorem array_reads (fmt : Bool) {entries : List (List UInt8 × CJsonItem)}
    (hentries : ∀ e ∈ entries, Begins e.1 ∧ ∀ n, e.1.length ≤ n → Reads (parseValue P n) e.1 e.2) {n : Nat}
    (hn : (composeArray fmt (entries.map Prod.fst)).length ≤ n + 1) :
    Reads (parseValue P (n + 1)) (composeArray fmt (entries.map Prod.fst)) (.array (entries.map Prod.snd)) := by
  intro rest _
  have hblank : Blank [] := by rintro _ ⟨⟩
  cases entries with
  | nil =>
    show parseValue P (n + 1) ('['.toUInt8 :: ([] ++ ']'.toUInt8 :: rest)) = _
    rw [parseValue_array, parseChildren_empty hblank (.inl rfl)]
    rfl
  | cons e entries =>
    have hlength := congrArg List.length (composeArray_cons fmt e.1 (entries.map Prod.fst) [])
    simp only [List.map_cons, List.length_append, List.length_cons, List.length_nil] at hn hlength
    have hcount := length_le_moreText (entryGap fmt) (entries.map Prod.fst)
    rw [List.length_map] at hcount
    have hreads : ∀ i ∈ e :: entries, Begins i.1 ∧ Reads (parseValue P n) i.1 i.2 := by
      intro i hi
      refine ⟨(hentries i hi).1, (hentries i hi).2 n ?_⟩
      rcases List.mem_cons.1 hi with rfl | hi
      · omega
      · have := mem_moreText_length (entryGap fmt) (List.mem_map_of_mem (f := Prod.fst) hi)
        omega
    rw [List.map_cons, composeArray_cons, parseValue_array,
      parseChildren_reads hblank (blank_entryGap fmt) hblank (.inl rfl) rest hreads (by omega)]
    rfl

/-- An object is read if its members are. -/
theorem object_reads (hP : P.Conforms) (fmt : Bool) (depth : Nat) {members : List (List UInt8 × List UInt8 × CJsonItem)}
    (hmembers : ∀ m ∈ members,
      0 ∉ m.1 ∧ Begins m.2.1 ∧ ∀ n, m.2.1.length ≤ n → Reads (parseValue P n) m.2.1 m.2.2) {n : Nat}
    (hn : (composeObject fmt depth (members.map fun m => (printStringPtr m.1, m.2.1))).length ≤ n + 1) :
    Reads (parseValue P (n + 1)) (composeObject fmt depth (members.map fun m => (printStringPtr m.1, m.2.1)))
      (.object (members.map fun m => (m.1, m.2.2))) := by
  intro rest _
  have hblank := (blank_newline fmt).append (blank_tabs fmt depth)
  have htail := (blank_newline fmt).append (blank_tabs fmt (depth - 1))
  cases members with
  | nil =>
    rw [List.map_nil, composeObject_nil, parseValue_object, parseChildren_empty htail (.inr rfl)]
    rfl
  | cons m members =>
    let text := fun m : List UInt8 × List UInt8 × CJsonItem => memberText fmt (printStringPtr m.1, m.2.1)
    let items := members.map fun m => (text m, (m.1, m.2.2))
    have hfst : items.map Prod.fst = (members.map fun m => (printStringPtr m.1, m.2.1)).map (memberText fmt) := by
      simp [items, text]
    have hsnd : items.map Prod.snd = members.map fun m => (m.1, m.2.2) := by simp [items]
    have hlength := congrArg List.length (composeObject_cons fmt depth (printStringPtr m.1, m.2.1)
      (members.map fun m => (printStringPtr m.1, m.2.1)) [])
    rw [← hfst] at hlength
    simp only [List.map_cons, List.length_append, List.length_cons, List.length_nil] at hn hlength
    have hcount := length_le_moreText (newline fmt ++ tabs fmt depth) (items.map Prod.fst)
    rw [List.length_map] at hcount
    have hshorter : ∀ m, m.2.1.length ≤ (text m).length := by
      intro m
      simp only [text, memberText, List.length_append, List.length_cons]
      omega
    have hreads : ∀ i ∈ (text m, (m.1, m.2.2)) :: items,
        Begins i.1 ∧ Reads (parseMember P (parseValue P n)) i.1 i.2 := by
      intro i hi
      have hmember : ∃ k ∈ m :: members, i = (text k, (k.1, k.2.2)) := by
        rcases List.mem_cons.1 hi with rfl | hi
        · exact ⟨m, List.mem_cons_self, rfl⟩
        · obtain ⟨k, hk, rfl⟩ := List.mem_map.1 hi
          exact ⟨k, List.mem_cons_of_mem m hk, rfl⟩
      have hsize : i.1.length ≤ n := by
        rcases List.mem_cons.1 hi with rfl | hi
        · show (memberText fmt (printStringPtr m.1, m.2.1)).length ≤ n
          omega
        · have := mem_moreText_length (newline fmt ++ tabs fmt depth) (List.mem_map_of_mem (f := Prod.fst) hi)
          omega
      obtain ⟨k, hk, rfl⟩ := hmember
      obtain ⟨hname, hbegins, hread⟩ := hmembers k hk
      have hread := hread n ((hshorter k).trans hsize)
      exact ⟨begins_member fmt k.1 k.2.1, parseMember_reads hP hname hbegins hread fmt⟩
    rw [List.map_cons, composeObject_cons, parseValue_object, ← hfst]
    have hread := parseChildren_reads hblank hblank htail (.inr rfl) rest hreads (n := n) (by omega)
    dsimp only at hread
    rw [hread, hsnd]
    rfl

/-- What is printed for an item is read, with as many passes and nested calls as the text has bytes. -/
theorem CJsonItem.Sound.reads (hP : P.Conforms) (fmt : Bool) {item : CJsonItem} (h : item.Sound) :
    ∀ depth n, (printValue P fmt depth item).length ≤ n →
      Reads (parseValue P n) (printValue P fmt depth item) (item.reread P) := by
  induction h with
  | null =>
    intro depth n hn rest _
    obtain ⟨n, rfl⟩ := Nat.exists_eq_add_one.2 ((begins_printValue P fmt depth .null).length_pos.trans_le hn)
    exact if_pos (List.prefix_append _ _)
  | bool b =>
    intro depth n hn rest _
    obtain ⟨n, rfl⟩ := Nat.exists_eq_add_one.2 ((begins_printValue P fmt depth (.bool b)).length_pos.trans_le hn)
    cases b <;> rfl
  | number v f =>
    intro depth n hn rest hrest
    obtain ⟨n, rfl⟩ := Nat.exists_eq_add_one.2 ((begins_printValue P fmt depth (.number v f)).length_pos.trans_le hn)
    obtain ⟨item, hread⟩ := (printNumber_text P v f).read P
    have hitem : reread P (.number v f) = item := by
      have h := hread [] (by rintro _ ⟨⟩)
      rw [List.append_nil] at h
      rw [reread, h]
    rw [printValue, parseValue_number (printNumber_text P v f), hread rest hrest, hitem]
  | string hs =>
    intro depth n hn rest _
    obtain ⟨n, rfl⟩ := Nat.exists_eq_add_one.2 ((begins_printValue P fmt depth (.string _)).length_pos.trans_le hn)
    exact parseValue_string hP hs n rest
  | @array child _ ih =>
    intro depth n hn
    obtain ⟨n, rfl⟩ := Nat.exists_eq_add_one.2 ((begins_printValue P fmt depth (.array child)).length_pos.trans_le hn)
    let entries := child.map fun i => (printValue P fmt (depth + 1) i, i.reread P)
    have hprint : printEntries P fmt (depth + 1) child = entries.map Prod.fst := by
      rw [printEntries_eq]
      simp [entries]
    have hread : rereadEntries P child = entries.map Prod.snd := by
      rw [rereadEntries_eq]
      simp [entries]
    rw [printValue, hprint] at hn ⊢
    rw [reread, hread]
    refine array_reads fmt (fun e he => ?_) hn
    obtain ⟨i, hi, rfl⟩ := List.mem_map.1 he
    exact ⟨begins_printValue P fmt (depth + 1) i, ih i hi (depth + 1)⟩
  | @object child hnames _ ih =>
    intro depth n hn
    obtain ⟨n, rfl⟩ := Nat.exists_eq_add_one.2 ((begins_printValue P fmt depth (.object child)).length_pos.trans_le hn)
    let members := child.map fun m => (m.1, printValue P fmt (depth + 1) m.2, m.2.reread P)
    have hprint : printMembers P fmt (depth + 1) child = members.map fun m => (printStringPtr m.1, m.2.1) := by
      rw [printMembers_eq]
      simp [members]
    have hread : rereadMembers P child = members.map fun m => (m.1, m.2.2) := by
      rw [rereadMembers_eq]
      simp [members]
    rw [printValue, hprint] at hn ⊢
    rw [reread, hread]
    refine object_reads hP fmt (depth + 1) (fun m hm => ?_) hn
    obtain ⟨k, hk, rfl⟩ := List.mem_map.1 hm
    exact ⟨hnames k hk, begins_printValue P fmt (depth + 1) k.2, ih k hk (depth + 1)⟩

/-- The parser reads a printed item in either format. -/
theorem CJsonItem.Sound.parse_text (hP : P.Conforms) {item : CJsonItem} (h : item.Sound) (fmt : Bool) :
    cJSON_Parse P (printValue P fmt 0 item) = .ok (item.reread P) := by
  have hreads := h.reads hP fmt 0 _ (Nat.le_succ _) [] (by rintro _ ⟨⟩)
  rw [List.append_nil] at hreads
  rw [cJSON_Parse, (begins_printValue P fmt 0 item).skip, hreads]
  rfl

theorem escaped_no_nul {c : UInt8} (hc : c ≠ 0) : 0 ∉ escaped c := by
  have hhex : ∀ n < 16, hexDigit n ≠ 0 := by decide
  rcases escaped_cases c with ⟨-, -, -, h⟩ | ⟨e, -, he, h⟩ | ⟨hlt, h⟩
  · rw [h, List.mem_singleton]
    exact hc.symm
  · have hne : (0 : UInt8) ≠ e := by
      rintro rfl
      exact hc (he.symm.trans (by decide))
    rw [h]
    exact List.not_mem_cons_of_ne_of_not_mem (by decide) (by simp [hne])
  · have hlt : c.toNat < 32 := UInt8.lt_iff_toNat_lt.1 hlt
    have hzero := hhex 0 (by decide)
    have hhigh := hhex (c.toNat / 16) (by omega)
    have hlow := hhex (c.toNat % 16) (by omega)
    rw [h]
    refine List.not_mem_cons_of_ne_of_not_mem (by decide) (List.not_mem_cons_of_ne_of_not_mem (by decide) ?_)
    simp [hzero.symm, hhigh.symm, hlow.symm]

theorem printStringPtr_no_nul {s : List UInt8} (hs : 0 ∉ s) : 0 ∉ printStringPtr s := by
  have hflat : 0 ∉ s.flatMap escaped := by
    intro h
    obtain ⟨c, hc, h⟩ := List.mem_flatMap.1 h
    refine escaped_no_nul ?_ h
    rintro rfl
    exact hs hc
  have hquote : (0 : UInt8) ≠ quote := by decide
  unfold printStringPtr
  simp only [List.cons_append, List.mem_cons, List.mem_append, List.not_mem_nil, or_false, not_or]
  exact ⟨hquote, hflat, hquote⟩

theorem NumberText.no_nul {text : List UInt8} (h : NumberText text) : 0 ∉ text := by
  have hdigits : ∀ {ds : List UInt8}, (∀ d ∈ ds, isDigit d = true) → 0 ∉ ds := by
    intro ds hds h
    exact absurd (hds 0 h) (by decide)
  obtain ⟨negative, n, hfraction, hexponent⟩ := h
  rename_i fraction exponent
  have hint : 0 ∉ ascii (signed negative (Nat.toDigits 10 n)) := by
    have h := hdigits (toDigits_isDigit n)
    cases negative with
    | false => exact h
    | true => exact List.not_mem_cons_of_ne_of_not_mem (by decide) h
  have hfraction : 0 ∉ fraction := by
    cases hfraction with
    | none => exact List.not_mem_nil
    | digits h => exact List.not_mem_cons_of_ne_of_not_mem (by decide) (hdigits h)
  have hexponent : 0 ∉ exponent := by
    cases hexponent with
    | none => exact List.not_mem_nil
    | digits hs h =>
      refine List.not_mem_cons_of_ne_of_not_mem (by decide) (List.not_mem_cons_of_ne_of_not_mem ?_ (hdigits h))
      rcases hs with rfl | rfl <;> decide
  simp [hint, hfraction, hexponent]

theorem moreText_no_nul {gap : List UInt8} (hgap : 0 ∉ gap) {texts : List (List UInt8)} (h : ∀ t ∈ texts, 0 ∉ t) :
    0 ∉ moreText gap texts := by
  induction texts with
  | nil => exact List.not_mem_nil
  | cons text texts ih =>
    have hhead := h text List.mem_cons_self
    have htail := ih fun t ht => h t (List.mem_cons_of_mem text ht)
    have hcomma : (0 : UInt8) ≠ ','.toUInt8 := by decide
    simp [moreText, hgap, hhead, htail, hcomma]

theorem layout_no_nul (fmt : Bool) (depth : Nat) :
    0 ∉ newline fmt ∧ 0 ∉ tabs fmt depth ∧ 0 ∉ entryGap fmt ∧ 0 ∉ colonGap fmt := by
  have htabs : 0 ∉ tabs fmt depth := by
    intro h
    obtain ⟨d, hd, h0⟩ := List.mem_map.1 h
    cases fmt with
    | false => cases hd
    | true =>
      rw [List.eq_of_mem_replicate hd] at h0
      exact absurd h0 (by decide)
  refine ⟨?_, htabs, ?_, ?_⟩ <;> cases fmt <;> decide

/-- There is no NUL in a text that is printed, so that `strlen` gives its length. -/
theorem CJsonItem.Sound.no_nul {item : CJsonItem} (h : item.Sound) (P : Platform) (fmt : Bool) :
    ∀ depth, 0 ∉ printValue P fmt depth item := by
  induction h with
  | null =>
    intro _
    rw [printValue]
    decide
  | bool b =>
    intro _
    cases b <;> rw [printValue] <;> decide
  | number v f => exact fun _ => (printNumber_text P v f).no_nul
  | string hs => exact fun _ => printStringPtr_no_nul hs
  | @array child _ ih =>
    intro depth
    obtain ⟨-, -, hgap, -⟩ := layout_no_nul fmt 0
    rw [printValue, printEntries_eq]
    cases child with
    | nil =>
      show 0 ∉ ascii ['[', ']']
      decide
    | cons i child =>
      have hmore : ∀ t ∈ child.map (printValue P fmt (depth + 1)), 0 ∉ t :=
        List.forall_mem_map.2 fun j hj => ih j (List.mem_cons_of_mem i hj) (depth + 1)
      have htext := composeArray_cons fmt (printValue P fmt (depth + 1) i) (child.map (printValue P fmt (depth + 1))) []
      rw [List.append_nil] at htext
      rw [List.map_cons, htext]
      have hopen : (0 : UInt8) ≠ '['.toUInt8 := by decide
      have hclose : (0 : UInt8) ≠ ']'.toUInt8 := by decide
      simp [ih i List.mem_cons_self (depth + 1), moreText_no_nul hgap hmore, hopen, hclose]
  | @object child hnames _ ih =>
    intro depth
    obtain ⟨hnewline, htabs, -, hcolon⟩ := layout_no_nul fmt (depth + 1)
    obtain ⟨-, hends, -⟩ := layout_no_nul fmt (depth + 1 - 1)
    have hmember : ∀ m ∈ child,
        0 ∉ memberText fmt (printStringPtr m.1, printValue P fmt (depth + 1) m.2) := by
      intro m hm
      have hname := printStringPtr_no_nul (hnames m hm)
      have hitem := ih m hm (depth + 1)
      have hsep : (0 : UInt8) ≠ ':'.toUInt8 := by decide
      simp [memberText, hname, hitem, hcolon, hsep]
    have hopen : (0 : UInt8) ≠ '\x7b'.toUInt8 := by decide
    have hclose : (0 : UInt8) ≠ '\x7d'.toUInt8 := by decide
    rw [printValue, printMembers_eq]
    cases child with
    | nil =>
      have htext := composeObject_nil fmt (depth + 1) []
      rw [List.append_nil] at htext
      rw [List.map_nil, htext]
      simp only [List.mem_cons, List.mem_append, List.not_mem_nil, or_false, not_or]
      exact ⟨hopen, ⟨hnewline, hends⟩, hclose⟩
    | cons m child =>
      have hmore : ∀ t ∈ (child.map fun m => (printStringPtr m.1, printValue P fmt (depth + 1) m.2)).map
          (memberText fmt), 0 ∉ t :=
        List.forall_mem_map.2 (List.forall_mem_map.2 fun k hk => hmember k (List.mem_cons_of_mem m hk))
      have hgap : 0 ∉ newline fmt ++ tabs fmt (depth + 1) := by simp [hnewline, htabs]
      have htext := composeObject_cons fmt (depth + 1) (printStringPtr m.1, printValue P fmt (depth + 1) m.2)
        (child.map fun m => (printStringPtr m.1, printValue P fmt (depth + 1) m.2)) []
      rw [List.append_nil] at htext
      have hall := moreText_no_nul hgap hmore
      have hfirst := hmember m List.mem_cons_self
      rw [List.map_cons, htext]
      simp only [List.mem_cons, List.mem_append, List.not_mem_nil, or_false, not_or]
      exact ⟨hopen, ⟨hnewline, htabs⟩, hfirst, ⟨hall, hnewline, hends⟩, hclose⟩

end Items

end Iperf
