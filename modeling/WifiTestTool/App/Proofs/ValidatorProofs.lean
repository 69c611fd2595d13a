import WifiTestTool.App.Proofs.TextProofs
import WifiTestTool.App.Validator
import Mathlib.Data.Bool.AllAny

/-!
# The check of a command against the options of iperf

An accepted command is made of words that are an option of two characters, with white space behind it at
most, or no option (`optionLike_of_mem`). On such words `getopt_long` and a regular expression say the same
(`understands_iff`), which gives the exact commands on which the app and iperf agree (`check_agrees_iff`).
-/

namespace WifiTest

open Regex Text

/-! ## The words of an accepted command -/

/-- A word that begins with `-` has one more character, and white space behind it at most. -/
def OptionLike (w : Text) : Prop :=
  w.head? = some '-' → ∃ c v, w = '-' :: c :: v ∧ ∀ d ∈ v, isSpace d = true

/-- Neither a blank nor a `-`. -/
def Plain (c : Char) : Prop := c ≠ ' ' ∧ c ≠ '-'

instance (c : Char) : Decidable (Plain c) := inferInstanceAs (Decidable (_ ∧ _))

theorem optionLike_option (c : Char) : OptionLike ['-', c] := fun _ => ⟨c, [], rfl, by simp⟩

theorem optionLike_plain {w : Text} (h : ∀ c ∈ w, Plain c) : OptionLike w := by
  intro hhead
  cases w with
  | nil => simp at hhead
  | cons c w =>
    rw [List.head?_cons, Option.some.injEq] at hhead
    exact absurd hhead (h c List.mem_cons_self).2

theorem OptionLike.concat {w : Text} {d : Char} (h : OptionLike w) (hd : isSpace d = true) :
    OptionLike (w ++ [d]) := by
  intro hhead
  cases w with
  | nil =>
    rw [List.nil_append, List.head?_cons, Option.some.injEq] at hhead
    rw [hhead] at hd
    exact absurd hd (by decide)
  | cons e w =>
    obtain ⟨c, v, hw, hv⟩ := h hhead
    refine ⟨c, v ++ [d], by rw [hw]; rfl, ?_⟩
    intro e he
    rcases List.mem_append.1 he with he | he
    · exact hv e he
    · rw [List.mem_singleton] at he
      rwa [he]

/-- What the alternatives of the expression have in common. -/
structure OptionPattern.Sound (o : OptionPattern) : Prop where
  letters : characters o.letters.toList ' ' = false
  argument : ∀ r, o.argument = some r → r.Only Plain

theorem digit_plain : digit.Only Plain := by
  intro c hc
  constructor <;> rintro rfl <;> exact absurd hc (by decide)

theorem wordCharacter_plain : wordCharacter.Only Plain := by
  intro c hc
  constructor <;> rintro rfl <;> exact absurd hc (by decide)

theorem bracket_plain {s : String} (hblank : characters s.toList ' ' = false)
    (hdash : characters s.toList '-' = false) : (bracket s).Only Plain := by
  intro c hc
  constructor
  · rintro rfl
    exact absurd hc (by simp [hblank])
  · rintro rfl
    exact absurd hc (by simp [hdash])

theorem lit_plain {c : Char} (h : Plain c) : (lit [c]).Only Plain := by
  refine ⟨?_, trivial⟩
  intro d hd
  rwa [of_decide_eq_true hd]

theorem kiloMega_plain (n : Nat) : (kiloMega n).Only Plain :=
  ⟨digit_plain.between 1 n, bracket_plain (by decide) (by decide)⟩

theorem octet_plain : octet.Only Plain := by
  have htwo : (lit ['2']).Only Plain := lit_plain (by decide)
  refine ⟨⟨⟨trivial, ?_⟩, digit_plain, trivial, digit_plain⟩, ⟨htwo, ?_, digit_plain⟩, ⟨?_, ?_⟩, trivial⟩
  · exact bracket_plain (by decide) (by decide)
  · exact bracket_plain (by decide) (by decide)
  · exact ⟨htwo.1, (lit_plain (c := '5') (by decide))⟩
  · exact bracket_plain (by decide) (by decide)

theorem address_plain : address.Only Plain := by
  have hpoint : (lit ['.']).Only Plain := lit_plain (by decide)
  exact ⟨octet_plain, hpoint, octet_plain, hpoint, octet_plain, hpoint, octet_plain⟩

theorem options_sound : ∀ o ∈ firstOptions ++ moreOptions, o.Sound := by
  have hletters : ∀ o ∈ firstOptions ++ moreOptions, characters o.letters.toList ' ' = false :=
    List.all_iff_forall_prop.1 (by rfl)
  have hargument : ∀ o ∈ firstOptions ++ moreOptions, ∀ r, o.argument = some r → r.Only Plain := by
    simp only [firstOptions, moreOptions, List.cons_append, List.nil_append, List.forall_mem_cons,
      Option.some.injEq, forall_eq', reduceCtorEq, false_imp_iff, implies_true, List.not_mem_nil, and_true,
      true_and]
    refine ⟨address_plain, wordCharacter_plain.between _ _, bracket_plain (by decide) (by decide),
      kiloMega_plain 5, wordCharacter_plain.between _ _, digit_plain.between _ _, kiloMega_plain 5,
      kiloMega_plain 10, digit_plain.between _ _, digit_plain.between _ _, digit_plain.between _ _,
      digit_plain.between _ _, ⟨digit_plain.between _ _, bracket_plain (by decide) (by decide)⟩,
      (lit_plain (by decide)).between _ _, (lit_plain (by decide)).between _ _⟩
  intro o ho
  exact ⟨hletters o ho, hargument o ho⟩

/-- The texts of an alternative: an option, or an option and a plain word. -/
theorem OptionPattern.Sound.cases {o : OptionPattern} (h : o.Sound) {x : Text} (hx : x ∈ o.regex.language) :
    ∃ c, c ≠ ' ' ∧ (x = ['-', c] ∨ ∃ arg, (∀ d ∈ arg, Plain d) ∧ x = '-' :: c :: ' ' :: arg) := by
  have hclass : ∀ c, characters o.letters.toList c = true → c ≠ ' ' := by
    rintro c hc rfl
    rw [h.letters] at hc
    exact absurd hc (by simp)
  unfold regex at hx
  cases harg : o.argument with
  | none =>
    rw [harg] at hx
    obtain ⟨u, hu, v, ⟨c, hc, rfl⟩, rfl⟩ := mem_seq.1 hx
    rw [mem_lit] at hu
    rw [hu]
    exact ⟨c, hclass c hc, .inl rfl⟩
  | some r =>
    rw [harg] at hx
    obtain ⟨u, hu, v, hv, rfl⟩ := mem_seq.1 hx
    obtain ⟨u', ⟨c, hc, rfl⟩, v', hv', rfl⟩ := mem_seq.1 hv
    obtain ⟨b, hb, arg, harg', rfl⟩ := mem_seq.1 hv'
    rw [mem_lit] at hu hb
    rw [hu, hb]
    exact ⟨c, hclass c hc, .inr ⟨arg, (h.argument r harg).forall_mem harg', rfl⟩⟩

/-- The words that an option adds. -/
theorem OptionPattern.Sound.optionLike {o : OptionPattern} (h : o.Sound) {x : Text}
    (hx : x ∈ o.regex.language) : ∀ w ∈ pieces [' '] 0 [] x, OptionLike w := by
  obtain ⟨c, hc, rfl | ⟨arg, harg, rfl⟩⟩ := h.cases hx
  · have hblank : ' ' ∉ ['-', c] := by simp [Ne.symm hc]
    rw [pieces_char_of_notMem _ hblank]
    intro w hw
    rw [List.mem_singleton] at hw
    rw [hw]
    exact optionLike_option c
  · have hblank : ' ' ∉ ['-', c] := by simp [Ne.symm hc]
    have hplain : ' ' ∉ arg := fun hmem => (harg ' ' hmem).1 rfl
    rw [show '-' :: c :: ' ' :: arg = ['-', c] ++ ' ' :: arg from rfl, pieces_char_append,
      pieces_char_of_notMem _ hblank, pieces_char_of_notMem _ hplain]
    intro w hw
    rcases List.mem_append.1 hw with hw | hw
    · rw [List.mem_singleton] at hw
      rw [hw]
      exact optionLike_option c
    · rw [List.mem_singleton] at hw
      rw [hw]
      exact optionLike_plain harg

/-- **The words of an accepted command.** -/
theorem optionLike_of_mem {x : Text} (hx : x ∈ optionsPart.language) :
    ∀ w ∈ pieces [' '] 0 [] x, OptionLike w := by
  obtain ⟨u, hu, v, hv, rfl⟩ := mem_seq.1 hx
  obtain ⟨parts, rfl, hparts⟩ := Language.mem_kstar.1 hv
  clear hx hv
  -- by induction on the parts, from the last one
  induction parts using List.reverseRecOn with
  | nil =>
    obtain ⟨r, hr, hu⟩ := mem_oneOf.1 hu
    obtain ⟨o, ho, rfl⟩ := List.mem_map.1 hr
    rw [List.flatten_nil, List.append_nil]
    exact (options_sound o (List.mem_append_left _ ho)).optionLike hu
  | append_singleton parts part ih =>
    rw [List.flatten_append, List.flatten_singleton, ← List.append_assoc]
    have hold := ih fun y hy => hparts y (List.mem_append_left _ hy)
    rcases mem_alt.1 (hparts part (by simp)) with hpart | ⟨d, hd, rfl⟩
    · obtain ⟨r, hr, hpart⟩ := mem_oneOf.1 hpart
      obtain ⟨o, ho, rfl⟩ := List.mem_map.1 hr
      obtain ⟨b, hb, y, hy, rfl⟩ := mem_seq.1 hpart
      rw [mem_lit] at hb
      rw [hb, List.singleton_append, pieces_char_append]
      intro w hw
      rcases List.mem_append.1 hw with hw | hw
      · exact hold w hw
      · exact (options_sound o (List.mem_append_right _ ho)).optionLike hy w hw
    · by_cases hblank : d = ' '
      · rw [hblank, show [' '] = ' ' :: ([] : Text) from rfl, pieces_char_append]
        intro w hw
        rcases List.mem_append.1 hw with hw | hw
        · exact hold w hw
        · rw [show w = [] from List.mem_singleton.1 hw]
          exact optionLike_plain (by simp)
      · intro w hw
        obtain ⟨q, hq, rfl | rfl⟩ := mem_pieces_concat hblank hw
        · exact hold _ hq
        · exact (hold q hq).concat hd

theorem head_of_mem {x : Text} (hx : x ∈ optionsPart.language) : ∃ s, x = '-' :: s := by
  obtain ⟨u, hu, v, -, rfl⟩ := mem_seq.1 hx
  obtain ⟨r, hr, hu⟩ := mem_oneOf.1 hu
  obtain ⟨o, ho, rfl⟩ := List.mem_map.1 hr
  obtain ⟨c, -, rfl | ⟨arg, -, rfl⟩⟩ := (options_sound o (List.mem_append_left _ ho)).cases hu
  · exact ⟨_, rfl⟩
  · exact ⟨_, rfl⟩

/-! ## The words that are options of iperf -/

theorem shortOption_mem {c : Char} {b : Bool} (h : Iperf.shortOption c = some b) : c ∈ Iperf.optstring := by
  unfold Iperf.shortOption at h
  split at h
  · simp at h
  · by_contra hc
    have hnone : Iperf.optstring.dropWhile (fun d => d ≠ c) = [] := by
      rw [List.dropWhile_eq_nil_iff]
      intro d hd
      simp only [decide_eq_true_eq]
      rintro rfl
      exact hc hd
    rw [hnone] at h
    exact absurd h (by simp)

theorem shortOption_letters : ∀ c ∈ Iperf.optstring,
    (Iperf.shortOption c = some false → c ∈ flagLetters) ∧
      (Iperf.shortOption c = some true → c ∈ argumentLetters) :=
  List.all_iff_forall_prop.1 (by rfl)

theorem shortOption_flag : ∀ c ∈ flagLetters, Iperf.shortOption c = some false ∧ c ≠ '-' ∧ c ≠ ' ' :=
  List.all_iff_forall_prop.1 (by rfl)

theorem shortOption_argument : ∀ c ∈ argumentLetters, Iperf.shortOption c = some true ∧ c ≠ '-' ∧ c ≠ ' ' :=
  List.all_iff_forall_prop.1 (by rfl)

theorem shortOption_space {c : Char} (h : isSpace c = true) : Iperf.shortOption c = none := by
  cases hc : Iperf.shortOption c with
  | none => rfl
  | some b =>
    have hall : ∀ d ∈ Iperf.optstring, isSpace d = false := List.all_iff_forall_prop.1 (by rfl)
    rw [hall c (shortOption_mem hc)] at h
    exact absurd h (by simp)

/-- White space is no long option. -/
theorem longWord_space {d : Char} {v : Text} (hd : isSpace d = true) (hv : ∀ e ∈ v, isSpace e = true) :
    Iperf.longWord (d :: v) = .other := by
  have hname : (d :: v).takeWhile (fun c => decide (c ≠ '=')) = d :: v := by
    rw [List.takeWhile_eq_self_iff]
    intro c hc
    simp only [decide_eq_true_eq]
    rintro rfl
    rcases List.mem_cons.1 hc with rfl | hc
    · exact absurd hd (by decide)
    · exact absurd (hv _ hc) (by decide)
  have hheads : ∀ o ∈ Iperf.longopts, o.1.head?.all fun c => !isSpace c :=
    List.all_iff_forall_prop.1 (by rfl)
  have hbegins : ∀ o ∈ Iperf.longopts, (d :: v).isPrefixOf o.1 = false := by
    intro o ho
    have hhead := hheads o ho
    cases hn : o.1 with
    | nil => rfl
    | cons c name =>
      rw [hn, List.head?_cons, Option.all_some, Bool.not_eq_true'] at hhead
      have hne : (d == c) = false := by
        rw [beq_eq_false_iff_ne]
        rintro rfl
        rw [hhead] at hd
        exact absurd hd (by simp)
      rw [List.isPrefixOf_cons_cons, hne, Bool.false_and]
  have hfind : Iperf.longopts.find? (fun o => decide (o.1 = d :: v)) = none := by
    rw [List.find?_eq_none]
    intro o ho heq
    have hpre := hbegins o ho
    rw [of_decide_eq_true heq] at hpre
    exact absurd hpre (by simp)
  have hfilter : Iperf.longopts.filter (fun o => (d :: v).isPrefixOf o.1) = [] := by
    rw [List.filter_eq_nil_iff]
    intro o ho
    simp [hbegins o ho]
  unfold Iperf.longWord Iperf.longOption
  rw [hname, hfind, hfilter]

/-- What `getopt_long` takes for options, among the words of an accepted command. -/
theorem word_cases {w : Text} (h : OptionLike w) :
    (Iperf.word w = .options → (∃ c ∈ flagLetters, w = ['-', c]) ∨
      ∃ c ∈ argumentLetters, ∃ v, v ≠ [] ∧ w = '-' :: c :: v) ∧
    (Iperf.word w = .wantsArgument → ∃ c ∈ argumentLetters, w = ['-', c]) := by
  by_cases hhead : w.head? = some '-'
  · obtain ⟨c, v, rfl, hv⟩ := h hhead
    by_cases hc : c = '-'
    · subst hc
      cases v with
      | nil => simp [Iperf.word]
      | cons d v =>
        rw [List.forall_mem_cons] at hv
        have hother : Iperf.word ('-' :: '-' :: d :: v) = .other := longWord_space hv.1 hv.2
        simp [hother]
    · have hword : Iperf.word ('-' :: c :: v) = Iperf.shortOptions (c :: v) := by
        unfold Iperf.word
        split <;> simp_all
      rw [hword, Iperf.shortOptions]
      cases hs : Iperf.shortOption c with
      | none => simp
      | some b =>
        have hletters := shortOption_letters c (shortOption_mem hs)
        cases b with
        | false =>
          cases v with
          | nil => simp [Iperf.shortOptions, hletters.1 hs]
          | cons d v =>
            rw [List.forall_mem_cons] at hv
            simp [Iperf.shortOptions, shortOption_space hv.1]
        | true =>
          cases v with
          | nil => simp [hletters.2 hs]
          | cons d v => simp [hletters.2 hs]
  · have hother : Iperf.word w = .other := by
      unfold Iperf.word
      split <;> simp_all
    simp [hother]

theorem word_flag {c : Char} (h : c ∈ flagLetters) : Iperf.word ['-', c] = .options := by
  obtain ⟨hs, hdash, -⟩ := shortOption_flag c h
  have hword : Iperf.word ['-', c] = Iperf.shortOptions [c] := by
    unfold Iperf.word
    split <;> simp_all
  rw [hword, Iperf.shortOptions, hs]
  rfl

theorem word_argument {c : Char} (h : c ∈ argumentLetters) (v : Text) :
    Iperf.word ('-' :: c :: v) = if v = [] then .wantsArgument else .options := by
  obtain ⟨hs, hdash, -⟩ := shortOption_argument c h
  have hword : Iperf.word ('-' :: c :: v) = Iperf.shortOptions (c :: v) := by
    unfold Iperf.word
    split <;> simp_all
  rw [hword, Iperf.shortOptions, hs]

theorem understands_options {w : Text} (h : Iperf.word w = .options) (ws : List Text) :
    Iperf.understands (w :: ws) = Iperf.understands ws := by
  cases ws with
  | nil => simp [Iperf.understands, h]
  | cons arg ws => rw [Iperf.understands, h]

theorem understands_argument {w : Text} (h : Iperf.word w = .wantsArgument) (arg : Text) (ws : List Text) :
    Iperf.understands (w :: arg :: ws) = Iperf.understands ws := by
  rw [Iperf.understands, h]

/-! ## The words and the expression -/

theorem mem_flag {x : Text} : x ∈ flag.language ↔ ∃ c ∈ flagLetters, x = ['-', c] := by
  constructor
  · intro hx
    obtain ⟨u, hu, v, ⟨c, hc, rfl⟩, rfl⟩ := mem_seq.1 hx
    rw [mem_lit] at hu
    rw [hu]
    exact ⟨c, of_decide_eq_true hc, rfl⟩
  · rintro ⟨c, hc, rfl⟩
    exact append_mem_seq (mem_lit.2 rfl) ⟨c, decide_eq_true hc, rfl⟩

theorem mem_withArgument {r : Regex Char} {x : Text} :
    x ∈ (withArgument r).language ↔ ∃ c ∈ argumentLetters, ∃ v ∈ r.language, x = '-' :: c :: v := by
  constructor
  · intro hx
    obtain ⟨u, hu, y, hy, rfl⟩ := mem_seq.1 hx
    obtain ⟨u', ⟨c, hc, rfl⟩, v, hv, rfl⟩ := mem_seq.1 hy
    rw [mem_lit] at hu
    rw [hu]
    exact ⟨c, of_decide_eq_true hc, v, hv, rfl⟩
  · rintro ⟨c, hc, v, hv, rfl⟩
    exact append_mem_seq (u := ['-']) (mem_lit.2 rfl) (cons_mem_seq (decide_eq_true hc) hv)

theorem mem_plus_notBlank {x : Text} : x ∈ (plus notBlank).language ↔ x ≠ [] ∧ ' ' ∉ x := by
  rw [notBlank, mem_plus_cls]
  constructor
  · rintro ⟨hne, hall⟩
    exact ⟨hne, fun hmem => of_decide_eq_true (hall ' ' hmem) rfl⟩
  · rintro ⟨hne, hblank⟩
    refine ⟨hne, fun c hc => decide_eq_true ?_⟩
    rintro rfl
    exact hblank hc

theorem mem_star_notBlank {x : Text} : x ∈ (star notBlank).language ↔ ' ' ∉ x := by
  rw [notBlank, mem_star_cls]
  constructor
  · intro hall hmem
    exact of_decide_eq_true (hall ' ' hmem) rfl
  · intro hblank c hc
    apply decide_eq_true
    rintro rfl
    exact hblank hc

theorem mem_blank_seq {r : Regex Char} {x : Text} :
    x ∈ (seq (lit [' ']) r).language ↔ ∃ v ∈ r.language, x = ' ' :: v := by
  constructor
  · intro hx
    obtain ⟨u, hu, v, hv, rfl⟩ := mem_seq.1 hx
    rw [mem_lit] at hu
    rw [hu]
    exact ⟨v, hv, rfl⟩
  · rintro ⟨v, hv, rfl⟩
    exact append_mem_seq (u := [' ']) (mem_lit.2 rfl) hv

/-- An option with its argument, which is not empty. -/
theorem mem_lastOption {x : Text} : x ∈ lastOption.language ↔
    (∃ c ∈ flagLetters, x = ['-', c]) ∨
    (∃ c ∈ argumentLetters, ∃ v, v ≠ [] ∧ ' ' ∉ v ∧ (x = '-' :: c :: v ∨ x = '-' :: c :: ' ' :: v)) := by
  rw [lastOption, mem_oneOf]
  simp only [List.exists_mem_cons_iff, List.not_mem_nil, false_and, exists_false, or_false, mem_flag,
    mem_withArgument, mem_blank_seq, mem_plus_notBlank]
  constructor
  · rintro (hflag | ⟨c, hc, v, ⟨hne, hv⟩, rfl⟩ | ⟨c, hc, u, ⟨v, ⟨hne, hv⟩, rfl⟩, rfl⟩)
    · exact .inl hflag
    · exact .inr ⟨c, hc, v, hne, hv, .inl rfl⟩
    · exact .inr ⟨c, hc, v, hne, hv, .inr rfl⟩
  · rintro (hflag | ⟨c, hc, v, hne, hv, rfl | rfl⟩)
    · exact .inl hflag
    · exact .inr (.inl ⟨c, hc, v, ⟨hne, hv⟩, rfl⟩)
    · exact .inr (.inr ⟨c, hc, _, ⟨v, ⟨hne, hv⟩, rfl⟩, rfl⟩)

/-- An option with its argument, which may be empty if it is a word of its own. -/
theorem mem_innerOption {x : Text} :
    x ∈ innerOption.language ↔ x ∈ lastOption.language ∨ ∃ c ∈ argumentLetters, x = ['-', c, ' '] := by
  rw [innerOption, mem_oneOf, mem_lastOption]
  simp only [List.exists_mem_cons_iff, List.not_mem_nil, false_and, exists_false, or_false, mem_flag,
    mem_withArgument, mem_blank_seq, mem_plus_notBlank, mem_star_notBlank]
  constructor
  · rintro (hflag | ⟨c, hc, v, ⟨hne, hv⟩, rfl⟩ | ⟨c, hc, u, ⟨v, hv, rfl⟩, rfl⟩)
    · exact .inl (.inl hflag)
    · exact .inl (.inr ⟨c, hc, v, hne, hv, .inl rfl⟩)
    · by_cases hne : v = []
      · subst hne
        exact .inr ⟨c, hc, rfl⟩
      · exact .inl (.inr ⟨c, hc, v, hne, hv, .inr rfl⟩)
  · rintro ((hflag | ⟨c, hc, v, hne, hv, rfl | rfl⟩) | ⟨c, hc, rfl⟩)
    · exact .inl hflag
    · exact .inr (.inl ⟨c, hc, v, ⟨hne, hv⟩, rfl⟩)
    · exact .inr (.inr ⟨c, hc, _, ⟨v, hv, rfl⟩, rfl⟩)
    · exact .inr (.inr ⟨c, hc, _, ⟨[], List.not_mem_nil, rfl⟩, rfl⟩)

theorem notMem_letter {c : Char} {v : Text} (hc : c ≠ ' ') (hv : ' ' ∉ v) : ' ' ∉ '-' :: c :: v := by
  simp [Ne.symm hc, hv]

/-- The words of the last option: the last of them is not empty, and iperf understands them. -/
theorem lastOption_words {x : Text} (hx : x ∈ lastOption.language) :
    ∃ words w, pieces [' '] 0 [] x = words ++ [w] ∧ w ≠ [] ∧
      ∀ ws, Iperf.understands (words ++ w :: ws) = Iperf.understands ws := by
  obtain ⟨c, hc, rfl⟩ | ⟨c, hc, v, hne, hv, rfl | rfl⟩ := mem_lastOption.1 hx
  · have hblank := notMem_letter (shortOption_flag c hc).2.2 (List.not_mem_nil (a := ' '))
    refine ⟨[], ['-', c], pieces_char_of_notMem _ hblank _, by simp, ?_⟩
    exact understands_options (word_flag hc)
  · have hblank := notMem_letter (shortOption_argument c hc).2.2 hv
    refine ⟨[], '-' :: c :: v, pieces_char_of_notMem _ hblank _, by simp, ?_⟩
    apply understands_options
    rw [word_argument hc, if_neg hne]
  · have hblank := notMem_letter (shortOption_argument c hc).2.2 (List.not_mem_nil (a := ' '))
    refine ⟨[['-', c]], v, ?_, hne, ?_⟩
    · rw [show '-' :: c :: ' ' :: v = ['-', c] ++ ' ' :: v from rfl, pieces_char_append,
        pieces_char_of_notMem _ hblank, pieces_char_of_notMem _ hv]
      rfl
    · apply understands_argument
      rw [word_argument hc, if_pos rfl]

/-- The words of an option that is followed by another one. -/
theorem innerOption_words {x : Text} (hx : x ∈ innerOption.language) :
    ∃ words, pieces [' '] 0 [] x = words ∧
      ∀ ws, Iperf.understands (words ++ ws) = Iperf.understands ws := by
  rcases mem_innerOption.1 hx with hx | ⟨c, hc, rfl⟩
  · obtain ⟨words, w, hpieces, -, hunder⟩ := lastOption_words hx
    refine ⟨_, hpieces, ?_⟩
    intro ws
    rw [List.append_assoc]
    exact hunder ws
  · have hblank := notMem_letter (shortOption_argument c hc).2.2 (List.not_mem_nil (a := ' '))
    refine ⟨[['-', c], []], ?_, ?_⟩
    · rw [show ['-', c, ' '] = ['-', c] ++ ' ' :: [] from rfl, pieces_char_append,
        pieces_char_of_notMem _ hblank]
      rfl
    · apply understands_argument
      rw [word_argument hc, if_pos rfl]

/-- The pieces without the empty ones at the end. -/
def words (s : Text) : List Text := (pieces [' '] 0 [] s).rdropWhile fun p => decide (p = [])

theorem rdropWhile_append {α : Type*} {p : α → Bool} {l l' : List α} (h : l'.rdropWhile p ≠ []) :
    (l ++ l').rdropWhile p = l ++ l'.rdropWhile p := by
  unfold List.rdropWhile at h ⊢
  rw [List.reverse_append, List.dropWhile_append]
  have hne : (l'.reverse.dropWhile p).isEmpty = false := by simpa using h
  rw [hne, if_neg (by simp), List.reverse_append, List.reverse_reverse]

theorem pieces_replicate (k : Nat) : pieces [' '] 0 [] (List.replicate k ' ') = List.replicate (k + 1) [] := by
  induction k with
  | zero => rfl
  | succ k ih =>
    rw [List.replicate_succ, pieces_char_cons, if_pos rfl, ih, List.replicate_succ (n := k + 1)]
    rfl

/-- Blanks at the end are empty pieces. -/
theorem pieces_append_blanks (x : Text) (k : Nat) :
    pieces [' '] 0 [] (x ++ List.replicate k ' ') = pieces [' '] 0 [] x ++ List.replicate k [] := by
  cases k with
  | zero => simp
  | succ k => rw [List.replicate_succ, pieces_char_append, pieces_replicate]

theorem rdropWhile_append_replicate {ps : List Text} {w : Text} (hw : w ≠ []) (k : Nat) :
    ((ps ++ [w]) ++ List.replicate k []).rdropWhile (fun p => decide (p = [])) = ps ++ [w] := by
  induction k with
  | zero =>
    rw [List.replicate_zero, List.append_nil, List.rdropWhile_concat_neg]
    simpa using hw
  | succ k ih =>
    rw [List.replicate_succ', ← List.append_assoc, List.rdropWhile_concat_pos _ _ _ (by simp), ih]

/-- **What the expression lets through is understood.** -/
theorem understands_of_mem {x : Text} (hx : x ∈ optionsPattern.language) :
    words x ≠ [] ∧ Iperf.understands (words x) = true := by
  obtain ⟨u, hu, v, hv, rfl⟩ := mem_seq.1 hx
  obtain ⟨parts, rfl, hparts⟩ := Language.mem_kstar.1 hu
  clear hx hu
  induction parts with
  | nil =>
    rw [List.flatten_nil, List.nil_append]
    obtain ⟨y, hy, blanks, hblanks, rfl⟩ := mem_seq.1 hv
    rw [mem_star_cls] at hblanks
    have hrep : blanks = List.replicate blanks.length ' ' :=
      List.eq_replicate_of_mem fun c hc => of_decide_eq_true (hblanks c hc)
    obtain ⟨first, w, hpieces, hw, hunder⟩ := lastOption_words hy
    have hwords : words (y ++ blanks) = first ++ [w] := by
      unfold words
      rw [hrep, pieces_append_blanks, hpieces, rdropWhile_append_replicate hw]
    rw [hwords]
    refine ⟨by simp, ?_⟩
    rw [hunder []]
    rfl
  | cons part parts ih =>
    rw [List.forall_mem_cons] at hparts
    obtain ⟨hne, hunder⟩ := ih hparts.2
    obtain ⟨y, hy, b, hb, rfl⟩ := mem_seq.1 hparts.1
    rw [mem_lit] at hb
    obtain ⟨first, hpieces, hfirst⟩ := innerOption_words hy
    have hwords : words ((y ++ b ++ parts.flatten) ++ v) = first ++ words (parts.flatten ++ v) := by
      unfold words at hne ⊢
      rw [hb, List.append_assoc, List.append_assoc, List.singleton_append, pieces_char_append, hpieces,
        rdropWhile_append hne]
    rw [List.flatten_cons, hwords]
    refine ⟨by simp [hne], ?_⟩
    rw [hfirst, hunder]

/-! ### From the words to the expression -/

theorem lastOption_mem {x : Text} (hx : x ∈ lastOption.language) (k : Nat) :
    x ++ List.replicate k ' ' ∈ optionsPattern.language := by
  apply append_mem_seq (u := []) (nil_mem_star _)
  apply append_mem_seq hx
  rw [mem_star_cls]
  intro c hc
  exact decide_eq_true (List.eq_of_mem_replicate hc)

theorem innerOption_mem {x y : Text} (hx : x ∈ innerOption.language) (hy : y ∈ optionsPattern.language) :
    x ++ ' ' :: y ∈ optionsPattern.language := by
  obtain ⟨u, hu, v, hv, rfl⟩ := mem_seq.1 hy
  have hpart : x ++ [' '] ∈ (seq innerOption (lit [' '])).language := append_mem_seq hx (mem_lit.2 rfl)
  have hmem := append_mem_seq (append_mem_star hpart hu) hv
  unfold optionsPattern
  simpa using hmem

/-- **What is understood, the expression lets through**, word by word as `getopt_long` takes them. -/
theorem mem_of_understands (ws : List Text) (hws : ∀ w ∈ ws, OptionLike w ∧ ' ' ∉ w)
    (hlast : ∀ w, ws.getLast? = some w → w ≠ []) (hne : ws ≠ []) (h : Iperf.understands ws = true) (k : Nat) :
    [' '].intercalate ws ++ List.replicate k ' ' ∈ optionsPattern.language := by
  induction ws using Iperf.understands.induct with
  | case1 => exact absurd rfl hne
  | case2 w =>
    have hw := hws w (by simp)
    rw [Iperf.understands, decide_eq_true_eq] at h
    rw [List.intercalate_singleton]
    apply lastOption_mem
    rw [mem_lastOption]
    obtain hflag | ⟨c, hc, v, hv, rfl⟩ := (word_cases hw.1).1 h
    · exact .inl hflag
    · exact .inr ⟨c, hc, v, hv, fun hmem => hw.2 (by simp [hmem]), .inl rfl⟩
  | case3 w arg ws hword ih =>
    have hw := hws w (by simp)
    rw [understands_options hword] at h
    have hrest := ih (fun w' hw' => hws w' (List.mem_cons_of_mem _ hw')) (by simpa using hlast) (by simp) h
    rw [List.intercalate_cons_cons, List.append_assoc, List.append_assoc, List.singleton_append]
    apply innerOption_mem _ hrest
    rw [mem_innerOption, mem_lastOption]
    obtain hflag | ⟨c, hc, v, hv, rfl⟩ := (word_cases hw.1).1 hword
    · exact .inl (.inl hflag)
    · exact .inl (.inr ⟨c, hc, v, hv, fun hmem => hw.2 (by simp [hmem]), .inl rfl⟩)
  | case4 w arg ws hword ih =>
    have hw := hws w (by simp)
    have harg := hws arg (by simp)
    rw [understands_argument hword] at h
    obtain ⟨c, hc, rfl⟩ := (word_cases hw.1).2 hword
    by_cases hnil : ws = []
    · subst hnil
      have hne : arg ≠ [] := hlast arg (by simp)
      rw [List.intercalate_cons_cons, List.intercalate_singleton]
      apply lastOption_mem
      rw [mem_lastOption]
      exact .inr ⟨c, hc, arg, hne, harg.2, .inr rfl⟩
    · have hlast' : ∀ w', ws.getLast? = some w' → w' ≠ [] := by
        intro w' hw'
        apply hlast
        rw [List.getLast?_cons_cons, List.getLast?_cons, hw']
        rfl
      have hrest := ih (fun w' hw' => hws w' (by simp [hw'])) hlast' hnil h
      rw [List.intercalate_cons_cons, List.intercalate_cons_of_ne_nil hnil]
      have hx : ['-', c] ++ ' ' :: arg ∈ innerOption.language := by
        rw [mem_innerOption, mem_lastOption]
        by_cases harg' : arg = []
        · subst harg'
          exact .inr ⟨c, hc, rfl⟩
        · exact .inl (.inr ⟨c, hc, arg, harg', harg.2, .inr rfl⟩)
      have hmem := innerOption_mem hx hrest
      simpa using hmem
  | case5 w arg ws hword =>
    rw [Iperf.understands, hword] at h
    exact absurd h (by simp)

/-! ## The agreement -/

theorem intercalate_append_replicate {ps : List Text} (hne : ps ≠ []) (k : Nat) :
    [' '].intercalate (ps ++ List.replicate k []) = [' '].intercalate ps ++ List.replicate k ' ' := by
  induction ps with
  | nil => exact absurd rfl hne
  | cons p ps ih =>
    cases ps with
    | nil =>
      clear ih
      induction k generalizing p with
      | zero => simp
      | succ k ih =>
        rw [List.replicate_succ, List.singleton_append, List.intercalate_cons_cons]
        have hrest := ih [] (by simp)
        rw [List.singleton_append] at hrest
        rw [hrest]
        simp [List.replicate_succ]
    | cons q ps =>
      rw [List.cons_append, List.cons_append, List.intercalate_cons_cons, List.intercalate_cons_cons,
        ← List.cons_append, ih (by simp), List.append_assoc, List.append_assoc, List.append_assoc]

/-- The words, and the blanks at the end, are the text. -/
theorem exists_words (x : Text) (hne : words x ≠ []) :
    ∃ k, x = [' '].intercalate (words x) ++ List.replicate k ' ' := by
  have hps : pieces [' '] 0 [] x = words x ++ (pieces [' '] 0 [] x).rtakeWhile fun p => decide (p = []) :=
    List.rdropWhile_append_rtakeWhile.symm
  have hrep : ((pieces [' '] 0 [] x).rtakeWhile fun p => decide (p = [])) =
      List.replicate ((pieces [' '] 0 [] x).rtakeWhile fun p => decide (p = [])).length [] :=
    List.eq_replicate_of_mem fun p hp =>
      of_decide_eq_true (List.mem_rtakeWhile_imp (p := fun p => decide (p = [])) hp)
  have hx := intercalate_pieces ' ' [] x
  rw [hps, hrep, intercalate_append_replicate hne] at hx
  exact ⟨_, hx.symm⟩

/-- An accepted command is understood exactly if the other expression lets it through. -/
theorem understands_iff {x : Text} (hx : x ∈ optionsPart.language) :
    words x ≠ [] ∧ (Iperf.understands (words x) = true ↔ x ∈ optionsPattern.language) := by
  obtain ⟨s, hs⟩ := head_of_mem hx
  have hne : words x ≠ [] := by
    unfold words
    rw [Ne, List.rdropWhile_eq_nil_iff]
    intro hall
    have hdash : '-' ∈ x := by rw [hs]; exact List.mem_cons_self
    obtain ⟨p, hp, hmem⟩ := exists_piece_of_mem (c := ' ') (by decide) (.inr hdash : '-' ∈ ([] : Text) ∨ '-' ∈ x)
    rw [of_decide_eq_true (hall p hp)] at hmem
    exact absurd hmem List.not_mem_nil
  refine ⟨hne, ?_, fun hmem => (understands_of_mem hmem).2⟩
  intro hunder
  have hsub : ∀ w ∈ words x, w ∈ pieces [' '] 0 [] x := fun w hw => (List.rdropWhile_prefix _ _).subset hw
  have hlast : ∀ w, (words x).getLast? = some w → w ≠ [] := by
    intro w hw
    have hget := (List.getLast_eq_iff_getLast?_eq_some hne).2 hw
    have hnot := List.rdropWhile_last_not (fun p : Text => decide (p = [])) (pieces [' '] 0 [] x) hne
    change ¬ decide ((words x).getLast hne = []) = true at hnot
    rw [hget] at hnot
    simpa using hnot
  obtain ⟨k, hk⟩ := exists_words x hne
  rw [hk]
  exact mem_of_understands _ (fun w hw => ⟨optionLike_of_mem hx w (hsub w hw),
    notMem_of_mem_pieces List.not_mem_nil (hsub w hw)⟩) hlast hne hunder k

theorem accepted_cases {command : Text} (h : commandPattern.accepts command = true) :
    ∃ r ∈ optionsPart.language, command = r ∨ command = "iperf ".toList ++ r := by
  rw [accepts_iff, commandPattern, mem_seq] at h
  obtain ⟨u, hu, r, hr, rfl⟩ := h
  rcases mem_opt.1 hu with rfl | hu
  · exact ⟨r, hr, .inl rfl⟩
  · rw [mem_lit] at hu
    rw [hu]
    exact ⟨r, hr, .inr rfl⟩

/-- The arguments of an accepted command are its words, with or without the leading `iperf`. -/
theorem commandList_eq {command r : Text} (hr : r ∈ optionsPart.language)
    (hc : command = r ∨ command = "iperf ".toList ++ r) : commandList command = .ok (words r) := by
  obtain ⟨s, hs⟩ := head_of_mem hr
  have hne := (understands_iff hr).1
  rcases hc with rfl | rfl
  · have hsplit : split command [' '] = words command := split_char_eq (by simp [hs])
    have hfirst : ∃ p ps, words command = p :: ps ∧ p ≠ "iperf".toList := by
      obtain ⟨k, hk⟩ := exists_words command hne
      cases hw : words command with
      | nil => exact absurd hw hne
      | cons p ps =>
        refine ⟨p, ps, rfl, ?_⟩
        rintro rfl
        rw [hw, show "iperf".toList = 'i' :: "perf".toList from rfl, List.intercalate_cons_cons_left, hs,
          List.cons_append, List.cons.injEq] at hk
        exact absurd hk.1 (by decide)
    obtain ⟨p, ps, hp, hiperf⟩ := hfirst
    unfold commandList
    rw [hsplit, hp]
    simp only [if_neg hiperf]
  · have hsplit : split ("iperf ".toList ++ r) [' '] = "iperf".toList :: words r := by
      rw [split_char_eq (by simp), show "iperf ".toList ++ r = "iperf".toList ++ ' ' :: r from rfl,
        pieces_char_append, pieces_char_of_notMem _ (by decide), rdropWhile_append hne]
      rfl
    unfold commandList
    rw [hsplit]
    simp only [if_true]

theorem innerOption_head {x : Text} (hx : x ∈ innerOption.language) : ∃ s, x = '-' :: s := by
  rcases mem_innerOption.1 hx with hx | ⟨c, -, rfl⟩
  · obtain ⟨c, -, rfl⟩ | ⟨c, -, v, -, -, rfl | rfl⟩ := mem_lastOption.1 hx
    · exact ⟨_, rfl⟩
    · exact ⟨_, rfl⟩
    · exact ⟨_, rfl⟩
  · exact ⟨_, rfl⟩

theorem optionsPattern_head {x : Text} (hx : x ∈ optionsPattern.language) : ∃ s, x = '-' :: s := by
  obtain ⟨u, hu, v, hv, rfl⟩ := mem_seq.1 hx
  obtain ⟨parts, rfl, hparts⟩ := Language.mem_kstar.1 hu
  cases parts with
  | nil =>
    obtain ⟨y, hy, blanks, -, rfl⟩ := mem_seq.1 hv
    obtain ⟨s, rfl⟩ := innerOption_head (mem_innerOption.2 (.inl hy))
    exact ⟨_, rfl⟩
  | cons part parts =>
    obtain ⟨y, hy, b, -, rfl⟩ := mem_seq.1 (hparts part List.mem_cons_self)
    obtain ⟨s, rfl⟩ := innerOption_head hy
    exact ⟨_, rfl⟩

theorem understoodPattern_iff {command r : Text} (hr : r ∈ optionsPart.language)
    (hc : command = r ∨ command = "iperf ".toList ++ r) :
    understoodPattern.accepts command = true ↔ r ∈ optionsPattern.language := by
  obtain ⟨s, hs⟩ := head_of_mem hr
  rw [accepts_iff, understoodPattern, mem_seq]
  constructor
  · rintro ⟨u, hu, v, hv, huv⟩
    obtain ⟨t, rfl⟩ := optionsPattern_head hv
    rcases mem_opt.1 hu with rfl | hu
    · rcases hc with rfl | rfl
      · rw [← huv]
        exact hv
      · rw [List.nil_append, show "iperf ".toList = 'i' :: "perf ".toList from rfl, List.cons_append,
          List.cons.injEq] at huv
        exact absurd huv.1 (by decide)
    · rw [mem_lit] at hu
      subst hu
      rcases hc with rfl | rfl
      · rw [hs, show "iperf ".toList = 'i' :: "perf ".toList from rfl, List.cons_append,
          List.cons.injEq] at huv
        exact absurd huv.1 (by decide)
      · rw [← List.append_cancel_left huv]
        exact hv
  · intro hmem
    rcases hc with rfl | rfl
    · exact ⟨[], .inl rfl, command, hmem, rfl⟩
    · exact ⟨_, .inr (mem_lit.2 rfl), r, hmem, rfl⟩

theorem checkAgrees_iff (command : Text) : CheckAgrees command ↔
    (commandPattern.accepts command = true → understoodPattern.accepts command = true) := by
  unfold CheckAgrees checkCommand
  by_cases hempty : command = []
  · subst hempty
    have hnot : commandPattern.accepts [] = false := rfl
    simp [hnot]
  · rw [if_neg hempty]
    by_cases hacc : commandPattern.accepts command = true
    · obtain ⟨r, hr, hc⟩ := accepted_cases hacc
      rw [if_pos hacc, commandList_eq hr hc, understoodPattern_iff hr hc, ← (understands_iff hr).2]
      simp [hacc, Except.map]
    · rw [if_neg hacc]
      simp [hacc]

/-! ## The commands of a client -/

/-- An address in decimal notation -/
def dotted (a b c d : Fin 256) : Text :=
  Nat.toDigits 10 a ++ '.' :: (Nat.toDigits 10 b ++ '.' :: (Nat.toDigits 10 c ++ '.' :: Nat.toDigits 10 d))

/-- `iperf -c`, an address and options with their arguments -/
def clientCommand (a b c d : Fin 256) (options : List (Char × Text)) : Text :=
  "iperf ".toList ++ ('-' :: 'c' :: ' ' :: dotted a b c d ++
    options.flatMap fun o => ' ' :: '-' :: o.1 :: ' ' :: o.2)

theorem toDigits_mem_octet : ∀ n : Fin 256, Nat.toDigits 10 n ∈ octet.language := by
  have hall : ∀ n : Fin 256, octet.accepts (Nat.toDigits 10 n) = true := by decide +kernel
  intro n
  exact accepts_iff.1 (hall n)

/-- The class `[t,-time]` goes from the comma to the letter `t`, and has all five letters. -/
theorem option_mem_morePart {o : Char × Text} (hletter : o.1 ∈ ['p', 't', 'i', 'P', 'M'])
    (hdigits : ∀ c ∈ o.2, c.isDigit = true) (hlow : 1 ≤ o.2.length) (hhigh : o.2.length ≤ 2) :
    ' ' :: '-' :: o.1 :: ' ' :: o.2 ∈ morePart.language := by
  have htime : (⟨"t,-time", some (digit.between 1 8)⟩ : OptionPattern) ∈ moreOptions := by
    simp [moreOptions]
  have hclass : ∀ c ∈ ['p', 't', 'i', 'P', 'M'], characters "t,-time".toList c = true :=
    List.all_iff_forall_prop.1 (by decide)
  refine .inl (mem_oneOf.2 ⟨_, List.mem_map.2 ⟨_, htime, rfl⟩, ?_⟩)
  apply append_mem_seq (u := [' ']) (mem_lit.2 rfl)
  apply append_mem_seq (u := ['-']) (mem_lit.2 rfl)
  apply cons_mem_seq (hclass _ hletter)
  apply append_mem_seq (u := [' ']) (mem_lit.2 rfl)
  exact mem_between_cls hdigits hlow (by omega)

theorem clientCommand_accepted (a b c d : Fin 256) {options : List (Char × Text)}
    (h : ∀ o ∈ options, o.1 ∈ ['p', 't', 'i', 'P', 'M'] ∧ (∀ c ∈ o.2, c.isDigit = true) ∧
      1 ≤ o.2.length ∧ o.2.length ≤ 2) :
    commandPattern.accepts (clientCommand a b c d options) = true := by
  have hpoint : ∀ {n : Fin 256} {x : Text} {r : Regex Char}, x ∈ r.language →
      Nat.toDigits 10 n ++ '.' :: x ∈ (seq octet (seq (lit ['.']) r)).language := by
    intro n x r hx
    exact append_mem_seq (toDigits_mem_octet n) (append_mem_seq (u := ['.']) (mem_lit.2 rfl) hx)
  have hclient : (⟨"c,-client", some address⟩ : OptionPattern) ∈ firstOptions := by simp [firstOptions]
  have hfirst : '-' :: 'c' :: ' ' :: dotted a b c d ∈
      (oneOf (firstOptions.map OptionPattern.regex)).language := by
    refine mem_oneOf.2 ⟨_, List.mem_map.2 ⟨_, hclient, rfl⟩, ?_⟩
    apply append_mem_seq (u := ['-']) (mem_lit.2 rfl)
    apply cons_mem_seq (by decide)
    apply append_mem_seq (u := [' ']) (mem_lit.2 rfl)
    exact hpoint (hpoint (hpoint (toDigits_mem_octet d)))
  have hmore : (options.flatMap fun o => ' ' :: '-' :: o.1 :: ' ' :: o.2) ∈ (star morePart).language := by
    induction options with
    | nil => exact nil_mem_star _
    | cons o options ih =>
      rw [List.forall_mem_cons] at h
      obtain ⟨⟨hletter, hdigits, hlow, hhigh⟩, hrest⟩ := h
      rw [List.flatMap_cons]
      exact append_mem_star (option_mem_morePart hletter hdigits hlow hhigh) (ih hrest)
  rw [accepts_iff]
  have hiperf : "iperf ".toList ∈ (opt (lit "iperf ".toList)).language := mem_opt.2 (.inr (mem_lit.2 rfl))
  exact append_mem_seq hiperf (append_mem_seq hfirst hmore)

/-- **The agreement of the check and iperf.** What the check lets through is understood by iperf exactly if
it matches the expression of the options of iperf. And the check lets the commands of a client through: with
an address, and options for the port, the time, the interval, the streams and the segment size. -/
theorem check_agrees_iff (command : Text) (a b c d : Fin 256) (options : List (Char × Text)) :
    (CheckAgrees command ↔
      (commandPattern.accepts command = true → understoodPattern.accepts command = true)) ∧
    ((∀ o ∈ options, o.1 ∈ ['p', 't', 'i', 'P', 'M'] ∧ (∀ c ∈ o.2, c.isDigit = true) ∧
        1 ≤ o.2.length ∧ o.2.length ≤ 2) →
      commandPattern.accepts (clientCommand a b c d options) = true) :=
  ⟨checkAgrees_iff command, clientCommand_accepted a b c d⟩

/-- A server, and a client with two options. -/
theorem check_agrees_server_client : CheckAgrees "iperf -s".toList ∧
    commandPattern.accepts "iperf -c 192.168.1.10 -P 4 -t 10".toList = true := by
  have hagree := check_agrees_iff "iperf -s".toList 192 168 1 10 [('P', ['4']), ('t', ['1', '0'])]
  exact ⟨hagree.1.2 (by decide), hagree.2 (by simp)⟩

/-- The class `[s,-server]` has the letter `q`, which is no option of iperf. -/
theorem check_disagrees : ¬ ∀ command, CheckAgrees command := by
  intro hall
  have hq := (checkAgrees_iff "iperf -q".toList).1 (hall _)
  exact absurd (hq (by decide)) (by decide)

end WifiTest
