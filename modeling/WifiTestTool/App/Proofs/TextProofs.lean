import Mathlib.Data.List.DropRight
import WifiTestTool.App.ParseIperData

/-!
# Splitting texts

What `split` and `Float.valueOf` make of a text that is put together from parts.
-/

namespace WifiTest.Text

/-! ## The pieces of a text -/

/-- The characters of a piece are those of the text. -/
theorem mem_of_mem_pieces {sep p : Text} {c : Char} (s : Text) (skip : Nat) (piece : Text)
    (hp : p ∈ pieces sep skip piece s) (hc : c ∈ p) : c ∈ piece ∨ c ∈ s := by
  induction s generalizing skip piece with
  | nil =>
    have heq : p = piece.reverse := by cases skip <;> exact List.mem_singleton.1 hp
    rw [heq, List.mem_reverse] at hc
    exact .inl hc
  | cons d s ih =>
    cases skip with
    | succ skip =>
      rcases ih skip piece hp with h | h
      · exact .inl h
      · exact .inr (List.mem_cons_of_mem d h)
    | zero =>
      unfold pieces at hp
      split at hp
      · rcases List.mem_cons.1 hp with rfl | hp
        · exact .inl (List.mem_reverse.1 hc)
        · rcases ih _ _ hp with h | h
          · exact absurd h List.not_mem_nil
          · exact .inr (List.mem_cons_of_mem d h)
      · rcases ih _ _ hp with h | h
        · rcases List.mem_cons.1 h with rfl | h
          · exact .inr List.mem_cons_self
          · exact .inl h
        · exact .inr (List.mem_cons_of_mem d h)

theorem pieces_ne_nil (sep s : Text) (skip : Nat) (piece : Text) : pieces sep skip piece s ≠ [] := by
  induction s generalizing skip piece with
  | nil => cases skip <;> exact List.cons_ne_nil _ _
  | cons c s ih =>
    cases skip with
    | succ skip => exact ih skip piece
    | zero =>
      unfold pieces
      split
      · exact List.cons_ne_nil _ _
      · exact ih 0 _

section Char

theorem pieces_char_cons (c d : Char) (piece s : Text) :
    pieces [c] 0 piece (d :: s) =
      if c = d then piece.reverse :: pieces [c] 0 [] s else pieces [c] 0 (d :: piece) s := by
  rw [pieces]
  by_cases h : c = d
  · subst h
    simp
  · simp [h]

/-- A text in front of a separator. -/
theorem pieces_char_append (c : Char) (u piece s : Text) :
    pieces [c] 0 piece (u ++ c :: s) = pieces [c] 0 piece u ++ pieces [c] 0 [] s := by
  induction u generalizing piece with
  | nil =>
    rw [List.nil_append, pieces_char_cons, if_pos rfl]
    rfl
  | cons d u ih =>
    rw [List.cons_append, pieces_char_cons, pieces_char_cons]
    by_cases h : c = d
    · rw [if_pos h, if_pos h, ih, List.cons_append]
    · rw [if_neg h, if_neg h, ih]

/-- A text without separators. -/
theorem pieces_char_of_notMem (c : Char) {u : Text} (h : c ∉ u) (piece : Text) :
    pieces [c] 0 piece u = [piece.reverse ++ u] := by
  induction u generalizing piece with
  | nil =>
    rw [List.append_nil]
    rfl
  | cons d u ih =>
    rw [List.mem_cons, not_or] at h
    rw [pieces_char_cons, if_neg h.1, ih h.2, List.reverse_cons, List.append_assoc]
    rfl

/-- The separators between the pieces give the text back. -/
theorem intercalate_pieces (c : Char) (piece s : Text) :
    [c].intercalate (pieces [c] 0 piece s) = piece.reverse ++ s := by
  induction s generalizing piece with
  | nil =>
    rw [List.append_nil]
    exact List.intercalate_singleton
  | cons d s ih =>
    rw [pieces_char_cons]
    by_cases h : c = d
    · subst h
      rw [if_pos rfl, List.intercalate_cons_of_ne_nil (pieces_ne_nil _ _ _ _), ih]
      simp
    · rw [if_neg h, ih]
      simp

theorem notMem_of_mem_pieces {c : Char} {p piece s : Text} (hpiece : c ∉ piece) (hp : p ∈ pieces [c] 0 piece s) :
    c ∉ p := by
  induction s generalizing piece with
  | nil =>
    rw [show p = piece.reverse from List.mem_singleton.1 hp, List.mem_reverse]
    exact hpiece
  | cons d s ih =>
    rw [pieces_char_cons] at hp
    by_cases h : c = d
    · rw [if_pos h] at hp
      rcases List.mem_cons.1 hp with rfl | hp
      · rwa [List.mem_reverse]
      · exact ih List.not_mem_nil hp
    · rw [if_neg h] at hp
      refine ih ?_ hp
      rw [List.mem_cons, not_or]
      exact ⟨h, hpiece⟩

/-- A character that is no separator is in one of the pieces. -/
theorem exists_piece_of_mem {c d : Char} {piece s : Text} (hd : d ≠ c) (h : d ∈ piece ∨ d ∈ s) :
    ∃ p ∈ pieces [c] 0 piece s, d ∈ p := by
  induction s generalizing piece with
  | nil => exact ⟨piece.reverse, List.mem_singleton.2 rfl, by simpa using h⟩
  | cons e s ih =>
    rw [pieces_char_cons]
    by_cases he : c = e
    · rw [if_pos he]
      rcases h with h | h
      · exact ⟨piece.reverse, List.mem_cons_self, List.mem_reverse.2 h⟩
      · have hs : d ∈ s := by
          rcases List.mem_cons.1 h with rfl | h
          · exact absurd he.symm hd
          · exact h
        obtain ⟨p, hp, hdp⟩ := ih (.inr hs : d ∈ ([] : Text) ∨ d ∈ s)
        exact ⟨p, List.mem_cons_of_mem _ hp, hdp⟩
    · rw [if_neg he]
      apply ih
      rw [List.mem_cons] at h ⊢
      rcases h with h | h | h
      · exact .inl (.inr h)
      · exact .inl (.inl h)
      · exact .inr h

/-- One more character belongs to the last piece. -/
theorem mem_pieces_concat {c d : Char} {p piece u : Text} (hd : d ≠ c)
    (hp : p ∈ pieces [c] 0 piece (u ++ [d])) : ∃ q ∈ pieces [c] 0 piece u, p = q ∨ p = q ++ [d] := by
  induction u generalizing piece with
  | nil =>
    rw [List.nil_append, pieces_char_cons, if_neg (Ne.symm hd)] at hp
    rw [show p = (d :: piece).reverse from List.mem_singleton.1 hp, List.reverse_cons]
    exact ⟨piece.reverse, List.mem_singleton.2 rfl, .inr rfl⟩
  | cons e u ih =>
    rw [List.cons_append, pieces_char_cons] at hp
    rw [pieces_char_cons]
    by_cases h : c = e
    · rw [if_pos h] at hp ⊢
      rcases List.mem_cons.1 hp with rfl | hp
      · exact ⟨_, List.mem_cons_self, .inl rfl⟩
      · obtain ⟨q, hq, hpq⟩ := ih hp
        exact ⟨q, List.mem_cons_of_mem _ hq, hpq⟩
    · rw [if_neg h] at hp ⊢
      exact ih hp

end Char

section Blanks

/-- Two blanks. -/
abbrev blanks : Text := [' ', ' ']

theorem pieces_blanks_cons {d : Char} (hd : d ≠ ' ') (piece s : Text) :
    pieces blanks 0 piece (d :: s) = pieces blanks 0 (d :: piece) s := by
  rw [pieces, if_neg]
  intro h
  simp only [blanks, List.isPrefixOf_cons_cons, Bool.and_eq_true, beq_iff_eq] at h
  exact hd h.1.symm

theorem pieces_blanks_blank {d : Char} (hd : d ≠ ' ') (piece s : Text) :
    pieces blanks 0 piece (' ' :: d :: s) = pieces blanks 0 (d :: ' ' :: piece) s := by
  rw [pieces, if_neg, pieces_blanks_cons hd]
  intro h
  simp only [blanks, List.isPrefixOf_cons_cons, Bool.and_eq_true, beq_iff_eq] at h
  exact hd h.2.1.symm

theorem pieces_blanks_sep (piece s : Text) :
    pieces blanks 0 piece (' ' :: ' ' :: s) = piece.reverse :: pieces blanks 0 [] s := by
  rw [pieces, if_pos]
  · rfl
  · simp [blanks]

/-- A text without blanks in front. -/
theorem pieces_blanks_append {w : Text} (h : ' ' ∉ w) (piece s : Text) :
    pieces blanks 0 piece (w ++ s) = pieces blanks 0 (w.reverse ++ piece) s := by
  induction w generalizing piece with
  | nil => rfl
  | cons d w ih =>
    rw [List.mem_cons, not_or] at h
    rw [List.cons_append, pieces_blanks_cons (Ne.symm h.1), ih h.2, List.reverse_cons, List.append_assoc]
    rfl

/-- A text that does not end with a blank, in front of two blanks: the matches in it are what they are
without the rest. -/
theorem pieces_blanks_split {u : Text} {d : Char} (hd : d ≠ ' ') (piece s : Text) :
    pieces blanks 0 piece (u ++ d :: ' ' :: ' ' :: s) =
      pieces blanks 0 piece (u ++ [d]) ++ pieces blanks 0 [] s := by
  induction hlen : u.length using Nat.strong_induction_on generalizing u piece with
  | _ n ih =>
  rcases u with _ | ⟨e, u⟩
  · rw [List.nil_append, List.nil_append, pieces_blanks_cons hd, pieces_blanks_cons hd, pieces_blanks_sep]
    rfl
  have hu : u.length < n := by
    rw [← hlen, List.length_cons]
    omega
  by_cases he : e = ' '
  · subst he
    rcases u with _ | ⟨f, u⟩
    · rw [List.cons_append, List.nil_append, List.cons_append, List.nil_append, pieces_blanks_blank hd,
        pieces_blanks_blank hd, pieces_blanks_sep]
      rfl
    have hu' : u.length < n := by
      rw [List.length_cons] at hu
      omega
    rw [List.cons_append, List.cons_append, List.cons_append, List.cons_append]
    by_cases hf : f = ' '
    · subst hf
      rw [pieces_blanks_sep, pieces_blanks_sep, ih _ hu' _ rfl, List.cons_append]
    · rw [pieces_blanks_blank hf, pieces_blanks_blank hf, ih _ hu' _ rfl]
  · rw [List.cons_append, List.cons_append, pieces_blanks_cons he, pieces_blanks_cons he, ih _ hu _ rfl]

/-- Two words with a blank between them. -/
theorem pieces_blanks_words {a b : Text} (ha : ' ' ∉ a) (hb : ' ' ∉ b) (hne : b ≠ []) (piece : Text) :
    pieces blanks 0 piece (a ++ ' ' :: b) = [piece.reverse ++ (a ++ ' ' :: b)] := by
  rcases b with _ | ⟨c, b⟩
  · exact absurd rfl hne
  rw [List.mem_cons, not_or] at hb
  rw [pieces_blanks_append ha, pieces_blanks_blank (Ne.symm hb.1)]
  have hend := pieces_blanks_append hb.2 (c :: ' ' :: (a.reverse ++ piece)) []
  rw [List.append_nil] at hend
  rw [hend]
  unfold pieces
  simp

end Blanks

/-! ## `split` -/

/-- Empty pieces at the end are all that `split` takes away. -/
theorem split_eq {s sep bit : Text} {before after : List Text} (hbit : bit ≠ [])
    (h : pieces sep 0 [] s = before ++ bit :: after) (hmore : before ≠ [] ∨ after ≠ []) :
    ∃ after', split s sep = before ++ bit :: after' := by
  have hlen : (pieces sep 0 [] s).length ≠ 1 := by
    rw [h, List.length_append, List.length_cons]
    rcases hmore with hne | hne
    · have := List.length_pos_iff.2 hne
      omega
    · have := List.length_pos_iff.2 hne
      omega
  unfold split
  dsimp only
  rw [if_neg hlen, h, List.reverse_append, List.reverse_cons, List.append_assoc, List.singleton_append,
    List.dropWhile_append]
  split
  · refine ⟨[], ?_⟩
    rw [List.dropWhile_cons_of_neg (by simpa using hbit), List.reverse_cons, List.reverse_reverse]
  · refine ⟨(after.reverse.dropWhile fun p => decide (p = [])).reverse, ?_⟩
    rw [List.reverse_append, List.reverse_cons, List.reverse_reverse, List.append_assoc]
    rfl

/-- Splitting a text at a character takes the empty pieces at the end away. -/
theorem split_char_eq {c : Char} {s : Text} (hs : s ≠ []) :
    split s [c] = (pieces [c] 0 [] s).rdropWhile fun p => decide (p = []) := by
  unfold split
  dsimp only
  by_cases hone : (pieces [c] 0 [] s).length = 1
  · obtain ⟨p, hp⟩ := List.length_eq_one_iff.1 hone
    have hsp := intercalate_pieces c [] s
    rw [hp, List.intercalate_singleton, List.reverse_nil, List.nil_append] at hsp
    rw [if_pos hone, hp, List.rdropWhile_singleton, hsp, if_neg (by simpa using hs)]
  · rw [if_neg hone]
    rfl

theorem split_self {s sep : Text} (h : pieces sep 0 [] s = [s]) : split s sep = [s] := by
  unfold split
  dsimp only
  rw [h]
  rfl

/-- A part whose first character does not occur. -/
theorem contains_eq_false {s part : Text} {c : Char} (hc : c ∉ s) : contains s (c :: part) = false := by
  unfold contains
  rw [List.any_eq_false]
  intro rest hrest hinitial
  obtain ⟨rest', rfl⟩ := List.isPrefixOf_iff_prefix.1 hinitial
  apply hc
  exact ((List.mem_tails _ _).1 hrest).mem (by simp)

theorem contains_append (u part v : Text) : contains (u ++ (part ++ v)) part = true := by
  unfold contains
  rw [List.any_eq_true]
  exact ⟨part ++ v, (List.mem_tails _ _).2 (List.suffix_append u _),
    List.isPrefixOf_iff_prefix.2 (List.prefix_append part v)⟩

/-- A text that starts with a bracket: `substring` stays within it. -/
theorem substring_bracket (s : Text) :
    ∃ socket, substring ('[' :: s) (indexOf ('[' :: s) "[".toList) (indexOf ('[' :: s) "]".toList + 1) =
      .ok socket := by
  have hopen : indexOf ('[' :: s) "[".toList = 0 := rfl
  have hclose : -1 ≤ indexOf ('[' :: s) "]".toList ∧
      indexOf ('[' :: s) "]".toList < ('[' :: s).length := by
    unfold indexOf
    split
    · constructor
      · exact le_rfl
      · omega
    · rename_i i hi
      obtain ⟨hlt, hinitial, -⟩ := List.findIdx?_eq_some_iff_getElem.1 hi
      rw [List.length_tails] at hlt
      refine ⟨by omega, ?_⟩
      -- Behind the last character there is no bracket.
      by_contra hge
      have hlast : i = ('[' :: s).length := by omega
      subst hlast
      rw [List.getElem_tails, List.drop_length] at hinitial
      exact absurd hinitial Bool.false_ne_true
  unfold substring
  rw [hopen, if_neg]
  · exact ⟨_, rfl⟩
  · omega

/-! ## Numbers -/

/-- Characters that are digits or a point. -/
def IsNumber (s : Text) : Prop := s ≠ [] ∧ ∀ c ∈ s, c.isDigit = true ∨ c = '.'

theorem IsNumber.notMem {s : Text} (h : IsNumber s) {c : Char} (hdigit : c.isDigit = false) (hc : c ≠ '.') :
    c ∉ s := by
  intro hmem
  rcases h.2 c hmem with h | h
  · rw [hdigit] at h
    cases h
  · exact hc h

theorem trim_number {s : Text} (h : IsNumber s) : s.trim = s := by
  have hkeep : ∀ c ∈ s, ¬ (c ≤ ' ') := by
    intro c hc
    rcases h.2 c hc with hdigit | rfl
    · unfold Char.isDigit at hdigit
      rw [Bool.and_eq_true, decide_eq_true_iff, decide_eq_true_iff] at hdigit
      intro hle
      have hge : (48 : UInt32) ≤ c.val := hdigit.1
      have hle : c.val ≤ 32 := hle
      exact absurd (UInt32.le_trans hge hle) (by decide)
    · decide
  have hdrop : ∀ l : Text, (∀ c ∈ l, ¬ (c ≤ ' ')) → l.dropWhile (fun c => decide (c ≤ ' ')) = l := by
    intro l hl
    cases l with
    | nil => rfl
    | cons c l => exact List.dropWhile_cons_of_neg (by simpa using hl c List.mem_cons_self)
  unfold trim
  rw [hdrop s hkeep, hdrop s.reverse fun c hc => hkeep c (List.mem_reverse.1 hc), List.reverse_reverse]

end WifiTest.Text

namespace WifiTest

/-- A decimal number with digits `whole`, and `fraction` if there are any. -/
def decimalText (whole fraction : Text) : Text :=
  whole ++ if fraction = [] then [] else '.' :: fraction

section Decimal

variable {whole fraction : Text}

theorem decimalText_isNumber (hwhole : whole ≠ []) (hw : ∀ c ∈ whole, c.isDigit = true)
    (hf : ∀ c ∈ fraction, c.isDigit = true) : Text.IsNumber (decimalText whole fraction) := by
  unfold decimalText
  refine ⟨by simp [hwhole], ?_⟩
  intro c hc
  rcases List.mem_append.1 hc with hc | hc
  · exact .inl (hw c hc)
  · split at hc
    · exact absurd hc List.not_mem_nil
    · rcases List.mem_cons.1 hc with rfl | hc
      · exact .inr rfl
      · exact .inl (hf c hc)

theorem unsignedValue_decimalText (hwhole : whole ≠ []) (hw : ∀ c ∈ whole, c.isDigit = true)
    (hf : ∀ c ∈ fraction, c.isDigit = true) :
    unsignedValue (decimalText whole fraction) = .ok (decimal whole fraction) := by
  have htake : ∀ rest : Text, (∀ c ∈ rest.head?, c.isDigit = false) →
      (whole ++ rest).takeWhile Char.isDigit = whole ∧ (whole ++ rest).dropWhile Char.isDigit = rest := by
    intro rest hrest
    have hnone : rest.takeWhile Char.isDigit = [] ∧ rest.dropWhile Char.isDigit = rest := by
      cases rest with
      | nil => exact ⟨rfl, rfl⟩
      | cons c rest =>
        have hc : ¬ c.isDigit = true := by
          rw [hrest c rfl]
          exact Bool.false_ne_true
        exact ⟨List.takeWhile_cons_of_neg hc, List.dropWhile_cons_of_neg hc⟩
    rw [List.takeWhile_append_of_pos hw, List.dropWhile_append_of_pos hw, hnone.1, hnone.2, List.append_nil]
    exact ⟨rfl, rfl⟩
  unfold unsignedValue decimalText
  by_cases hnil : fraction = []
  · obtain ⟨h₁, h₂⟩ := htake [] (by simp)
    rw [if_pos hnil, h₁, h₂]
    dsimp only
    rw [if_neg hwhole, hnil]
  · obtain ⟨h₁, h₂⟩ := htake ('.' :: fraction) (by simp)
    rw [if_neg hnil, h₁, h₂]
    have hall : (fraction.all Char.isDigit && (whole ≠ [] || fraction ≠ [])) = true := by
      simp [hwhole, List.all_eq_true]
      exact hf
    exact if_pos hall

/-- `Float.valueOf` reads a decimal number. -/
theorem floatValueOf_decimalText (hwhole : whole ≠ []) (hw : ∀ c ∈ whole, c.isDigit = true)
    (hf : ∀ c ∈ fraction, c.isDigit = true) :
    floatValueOf (decimalText whole fraction) = .ok (Rounding.toFloat 24 (-126) (decimal whole fraction)) := by
  have hnumber := decimalText_isNumber hwhole hw hf
  have hvalue := unsignedValue_decimalText hwhole hw hf
  unfold floatValueOf
  rw [Text.trim_number hnumber]
  generalize decimalText whole fraction = s at *
  split
  · exact absurd List.mem_cons_self (hnumber.notMem (c := '-') (by decide) (by decide))
  · exact absurd List.mem_cons_self (hnumber.notMem (c := '+') (by decide) (by decide))
  · rw [hvalue]
    rfl

end Decimal

end WifiTest
