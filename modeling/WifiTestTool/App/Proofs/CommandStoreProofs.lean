import WifiTestTool.App.CommandStore

/-!
# What becomes of the saved commands

`saveCommandList` and `getPopupWindowList` rely on it that the keys are numbered without a gap: the number
of the keys is the bound of their loops and the next free number. A delete click takes one key away and
leaves the numbers of the others, so the store survives a click at the end of the list only.
-/

namespace WifiTest

theorem cmd_injective : Function.Injective cmd := by
  intro i j h
  unfold cmd at h
  rw [String.append_right_inj] at h
  have hdigits := congrArg (fun s : String => Nat.ofDigitChars 10 s.toList 0) h
  rw [Nat.toList_repr, Nat.toList_repr, Nat.ofDigitChars_ten_toDigits, Nat.ofDigitChars_ten_toDigits]
    at hdigits
  exact hdigits

/-- The store of an app that has the commands `c`; the popup shows all of them. -/
structure Commands.Stores (c : Saved) (a : Commands) : Prop where
  keys : a.sharedPreferences.keys = (Finset.range c.stored.length).image cmd
  lookup : ∀ i, a.sharedPreferences.lookup (cmd i) = c.stored[i]?
  nodup : c.stored.Nodup
  shown : a.showing = true → c.shown = c.stored ∧ a.popuplist = c.stored.map some

section Stores

variable {c : Saved} {a : Commands}

theorem size_of_keys {map : Preferences} {n : Nat} (h : map.keys = (Finset.range n).image cmd) :
    map.size = n := by
  unfold Preferences.size
  rw [h, Finset.card_image_of_injective _ cmd_injective, Finset.card_range]

theorem Commands.Stores.size (h : a.Stores c) : a.sharedPreferences.size = c.stored.length :=
  size_of_keys h.keys

theorem Commands.Stores.list (h : a.Stores c) : a.getPopupWindowList.popuplist = c.stored.map some := by
  unfold Commands.getPopupWindowList
  dsimp only
  rw [h.size]
  apply List.ext_getElem
  · simp
  · intro i hi hi'
    simp only [List.length_map] at hi'
    simp [h.lookup, List.getElem?_eq_getElem hi']

theorem Commands.Stores.faithful (h : a.Stores c) : a.Faithful c := ⟨h.keys, h.list⟩

/-- The loop of `saveCommandList` where every key is there. -/
theorem isduplicate_eq {map : Preferences} (text : String) {is : List Nat} {l : List String}
    (h : is.map (fun i => map.lookup (cmd i)) = l.map some) :
    Commands.isduplicate map text is = .ok (decide (text ∈ l)) := by
  induction is generalizing l with
  | nil =>
    have hl : l = [] := by simpa using h.symm
    simp [Commands.isduplicate, hl]
  | cons i is ih =>
    cases l with
    | nil => simp at h
    | cons command l =>
      simp only [List.map_cons, List.cons.injEq] at h
      obtain ⟨hlookup, htail⟩ := h
      unfold Commands.isduplicate
      rw [hlookup]
      dsimp only
      by_cases heq : command = text
      · simp [heq]
      · rw [if_neg heq, ih htail]
        simp [Ne.symm heq]

/-- The store of an app with one more command. -/
theorem Commands.Stores.insert (h : a.Stores c) {text : String} (hnew : text ∉ c.stored) :
    ({ a with sharedPreferences := a.sharedPreferences.insert (cmd a.sharedPreferences.size) text
              showing := false } : Commands).Stores { c with stored := c.stored ++ [text] } := by
  have hsize := h.size
  constructor
  · ext key
    dsimp only
    rw [hsize, Finmap.mem_keys, Finmap.mem_insert, ← Finmap.mem_keys, h.keys, List.length_append,
      List.length_singleton, Finset.range_add_one, Finset.image_insert, Finset.mem_insert]
  · intro i
    dsimp only
    rw [hsize]
    by_cases hi : i = c.stored.length
    · rw [hi, Finmap.lookup_insert, List.getElem?_concat_length]
    · have hne : cmd i ≠ cmd c.stored.length := fun heq => hi (cmd_injective heq)
      rw [Finmap.lookup_insert_of_ne _ hne, h.lookup]
      by_cases hlt : i < c.stored.length
      · rw [List.getElem?_append_left hlt]
      · rw [List.getElem?_eq_none (by omega), List.getElem?_eq_none (by simp; omega)]
  · rw [List.nodup_append]
    refine ⟨h.nodup, List.nodup_singleton text, ?_⟩
    intro x hx y hy
    rw [List.mem_singleton] at hy
    rintro rfl
    exact hnew (hy ▸ hx)
  · intro hshowing
    cases hshowing

/-- The store does not depend on what was shown before. -/
theorem Commands.Stores.hide (h : a.Stores c) : ({ a with showing := false } : Commands).Stores c :=
  ⟨h.keys, h.lookup, h.nodup, nofun⟩

theorem Commands.Stores.save (h : a.Stores c) (text : String) :
    ∃ a', a.step (.save text) = .ok a' ∧ a'.Stores (c.step (.save text)) := by
  unfold Commands.step Saved.step Commands.saveCommandList
  dsimp only
  by_cases hempty : text = ""
  · rw [if_pos hempty, if_pos (.inl hempty)]
    exact ⟨_, rfl, h.hide⟩
  · have hlist := h.list
    unfold Commands.getPopupWindowList at hlist
    rw [if_neg hempty, isduplicate_eq text hlist]
    by_cases hmem : text ∈ c.stored
    · rw [if_pos (.inr hmem), decide_eq_true hmem]
      exact ⟨_, rfl, h.hide⟩
    · have hnot : ¬ (text = "" ∨ text ∈ c.stored) := fun hor => hor.elim hempty hmem
      rw [if_neg hnot, decide_eq_false hmem]
      exact ⟨_, rfl, h.insert hmem⟩

theorem Commands.Stores.showList (h : a.Stores c) :
    ∃ a', a.step .showList = .ok a' ∧ a'.Stores (c.step .showList) :=
  ⟨_, rfl, h.keys, h.lookup, h.nodup, fun _ => ⟨rfl, h.list⟩⟩

/-- A click at the end of the list. -/
theorem Commands.Stores.deleteLast (h : a.Stores c) {position : Nat} (hshowing : a.showing = true)
    (hlast : position + 1 = a.popuplist.length) :
    ∃ a', a.step (.delete position) = .ok a' ∧ a'.Stores (c.step (.delete position)) := by
  obtain ⟨hshown, hpopup⟩ := h.shown hshowing
  have hlength : position + 1 = c.stored.length := by rw [hlast, hpopup, List.length_map]
  have hlt : position < c.stored.length := by omega
  have herase : c.stored.erase c.stored[position] = c.stored.eraseIdx position :=
    h.nodup.erase_getElem position hlt
  have hstep : c.step (.delete position) =
      ⟨c.stored.eraseIdx position, c.stored.eraseIdx position⟩ := by
    unfold Saved.step
    dsimp only
    rw [hshown, List.getElem?_eq_getElem hlt]
    dsimp only
    rw [herase]
  rw [hstep]
  unfold Commands.step Commands.onClick
  dsimp only
  rw [if_pos (by omega)]
  refine ⟨_, rfl, ?_, ?_, h.nodup.eraseIdx position, ?_⟩
  · dsimp only
    rw [Finmap.keys_erase, h.keys, List.length_eraseIdx_of_lt hlt, ← hlength, Nat.add_sub_cancel,
      Finset.range_add_one, Finset.image_insert, Finset.erase_insert]
    intro hmem
    obtain ⟨i, hi, heq⟩ := Finset.mem_image.1 hmem
    rw [cmd_injective heq] at hi
    exact Finset.notMem_range_self hi
  · intro i
    dsimp only
    rw [List.getElem?_eraseIdx]
    by_cases hi : i = position
    · rw [hi, Finmap.lookup_erase, if_neg (lt_irrefl _), List.getElem?_eq_none (by omega)]
    · have hne : cmd i ≠ cmd position := fun heq => hi (cmd_injective heq)
      rw [Finmap.lookup_erase_ne hne, h.lookup]
      by_cases hlt' : i < position
      · rw [if_pos hlt']
      · rw [if_neg hlt', List.getElem?_eq_none (by omega), List.getElem?_eq_none (by omega)]
  · intro _
    refine ⟨rfl, ?_⟩
    dsimp only
    rw [hpopup, List.eraseIdx_map]

end Stores

/-! ## Sessions -/

/-- The delete buttons that are clicked are on the screen. -/
def ShownClicks (events : List Event) : Prop :=
  ∀ events' position a, events' ++ [.delete position] <+: events → Commands.run events' = .ok a →
    a.showing = true ∧ position < a.popuplist.length

/-- The delete buttons that are clicked are at the end of the list. -/
def LastClicks (events : List Event) : Prop :=
  ∀ events' position a, events' ++ [.delete position] <+: events → Commands.run events' = .ok a →
    position + 1 = a.popuplist.length

section Sessions

variable {events : List Event} {e : Event}

theorem run_concat {a : Commands} (h : Commands.run events = .ok a) :
    Commands.run (events ++ [e]) = a.step e := by
  unfold Commands.run at h ⊢
  rw [List.foldlM_append, h]
  show (List.foldlM Commands.step a [e]) = a.step e
  rw [List.foldlM_cons]
  cases a.step e <;> rfl

theorem saved_run_concat : Saved.run (events ++ [e]) = (Saved.run events).step e := by
  unfold Saved.run
  rw [List.foldl_append]
  rfl

theorem ShownClicks.init (h : ShownClicks (events ++ [e])) : ShownClicks events :=
  fun events' position a hpre => h events' position a (hpre.trans (List.prefix_append _ _))

theorem LastClicks.init (h : LastClicks (events ++ [e])) : LastClicks events :=
  fun events' position a hpre => h events' position a (hpre.trans (List.prefix_append _ _))

/-- In a session with clicks at the end only, the store has the saved commands. -/
theorem run_stores (hshown : ShownClicks events) (hlast : LastClicks events) :
    ∃ a, Commands.run events = .ok a ∧ a.Stores (Saved.run events) := by
  induction events using List.reverseRecOn with
  | nil => exact ⟨Commands.empty, rfl, rfl, fun _ => Finmap.lookup_empty _, List.nodup_nil, nofun⟩
  | append_singleton events e ih =>
    obtain ⟨a, hrun, hstores⟩ := ih hshown.init hlast.init
    rw [run_concat hrun, saved_run_concat]
    cases e with
    | save text => exact hstores.save text
    | showList => exact hstores.showList
    | delete position =>
      obtain ⟨hshowing, -⟩ := hshown events position a (List.prefix_refl _) hrun
      exact hstores.deleteLast hshowing (hlast events position a (List.prefix_refl _) hrun)

/-- A click elsewhere leaves a key behind that is not one of the first. -/
theorem Commands.Stores.last_of_faithful {c c' : Saved} {a a' : Commands} {position : Nat}
    (h : a.Stores c) (hshowing : a.showing = true) (hlt : position < a.popuplist.length)
    (hstep : a.step (.delete position) = .ok a') (h' : a'.Faithful c') :
    position + 1 = a.popuplist.length := by
  obtain ⟨-, hpopup⟩ := h.shown hshowing
  have hlength : a.popuplist.length = c.stored.length := by rw [hpopup, List.length_map]
  unfold Commands.step Commands.onClick at hstep
  dsimp only at hstep
  rw [if_pos hlt] at hstep
  cases hstep
  by_contra hne
  have hkeys := h'.keys
  dsimp only at hkeys
  rw [Finmap.keys_erase, h.keys] at hkeys
  have hcard := congrArg Finset.card hkeys
  have hmem : cmd position ∈ (Finset.range c.stored.length).image cmd := by
    apply Finset.mem_image_of_mem
    rw [Finset.mem_range]
    omega
  rw [Finset.card_erase_of_mem hmem, Finset.card_image_of_injective _ cmd_injective,
    Finset.card_image_of_injective _ cmd_injective, Finset.card_range, Finset.card_range] at hcard
  -- The last key is still there, though there is one key less.
  have hmem' : cmd (c.stored.length - 1) ∈ (Finset.range c'.stored.length).image cmd := by
    rw [← hkeys]
    apply Finset.mem_erase_of_ne_of_mem
    · intro heq
      have := cmd_injective heq
      omega
    · apply Finset.mem_image_of_mem
      rw [Finset.mem_range]
      omega
  obtain ⟨i, hi, heq⟩ := Finset.mem_image.1 hmem'
  have := cmd_injective heq
  rw [Finset.mem_range] at hi
  omega

/-- **The saved commands.** In every session the keys are `cmd0` to `cmd(n-1)`, no operation fails, and the
list is that of the commands that were saved and not deleted since, if and only if every click on a delete
button is at the end of the list. -/
theorem store_faithful_iff (hshown : ShownClicks events) :
    (∀ events', events' <+: events →
        ∃ a, Commands.run events' = .ok a ∧ a.Faithful (Saved.run events')) ↔ LastClicks events := by
  constructor
  · intro h
    induction events using List.reverseRecOn with
    | nil =>
      intro events' position a hpre
      have hnil := List.prefix_nil.1 hpre
      simp at hnil
    | append_singleton events e ih =>
      have hinit := ih hshown.init fun events' hpre => h events' (hpre.trans (List.prefix_append _ _))
      obtain ⟨a, hrun, hstores⟩ := run_stores hshown.init hinit
      intro events' position a' hpre hrun'
      rcases List.prefix_concat_iff.1 hpre with heq | hpre
      · obtain ⟨rfl, he⟩ := List.append_inj' heq rfl
        rw [List.singleton_inj] at he
        subst he
        rw [hrun] at hrun'
        cases hrun'
        obtain ⟨a', hstep, hfaithful⟩ := h _ (List.prefix_refl _)
        rw [run_concat hrun] at hstep
        obtain ⟨hshowing, hlt⟩ := hshown events' position a (List.prefix_refl _) hrun
        exact hstores.last_of_faithful hshowing hlt hstep hfaithful
      · exact hinit events' position a' hpre hrun'
  · intro hlast events' hpre
    have hshown' : ShownClicks events' :=
      fun events'' position a hpre' => hshown events'' position a (hpre'.trans hpre)
    have hlast' : LastClicks events' :=
      fun events'' position a hpre' => hlast events'' position a (hpre'.trans hpre)
    obtain ⟨a, hrun, hstores⟩ := run_stores hshown' hlast'
    exact ⟨a, hrun, hstores.faithful⟩

end Sessions

/-- Two commands are saved, one is deleted, and a third is saved. -/
def threeCommands (position : Nat) : List Event :=
  [.save "a", .save "b", .showList, .delete position, .save "c"]

theorem threeCommands_click {events' : List Event} {position position' : Nat}
    (h : events' ++ [.delete position'] <+: threeCommands position) :
    events' = [.save "a", .save "b", .showList] ∧ position' = position := by
  obtain ⟨rest, hrest⟩ := h
  unfold threeCommands at hrest
  rcases events' with _ | ⟨e₁, _ | ⟨e₂, _ | ⟨e₃, _ | ⟨e₄, _ | ⟨e₅, events'⟩⟩⟩⟩⟩ <;> simp_all

theorem threeCommands_shown {position : Nat} (h : position < 2) : ShownClicks (threeCommands position) := by
  intro events' position' a hpre hrun
  obtain ⟨rfl, rfl⟩ := threeCommands_click hpre
  cases hrun
  exact ⟨rfl, h⟩

/-- The second command is deleted: nothing is lost. -/
theorem store_faithful_second :
    ∃ a, Commands.run (threeCommands 1) = .ok a ∧ a.Faithful ⟨["a", "c"], ["a"]⟩ := by
  refine (store_faithful_iff (threeCommands_shown (by decide))).2 ?_ _ (List.prefix_refl _)
  intro events' position' a hpre hrun
  obtain ⟨rfl, rfl⟩ := threeCommands_click hpre
  cases hrun
  rfl

/-- The first command is deleted: the key `cmd1` stays, and the next command cannot be saved. -/
theorem first_command_deleted :
    ShownClicks (threeCommands 0) ∧ Commands.run (threeCommands 0) = .error .nullPointer ∧
      ¬ ∀ events', events' <+: threeCommands 0 →
        ∃ a, Commands.run events' = .ok a ∧ a.Faithful (Saved.run events') := by
  have hfails : Commands.run (threeCommands 0) = .error .nullPointer := by decide
  refine ⟨threeCommands_shown (by decide), hfails, fun h => ?_⟩
  obtain ⟨a, hrun, -⟩ := h _ (List.prefix_refl _)
  rw [hfails] at hrun
  cases hrun

end WifiTest
