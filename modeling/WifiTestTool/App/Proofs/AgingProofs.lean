import WifiTestTool.App.AgingTest

/-!
# The aging test: when it stops, and who polls

The thread compares the count with the target by `==`, ten seconds apart, while the callbacks add to the count
in between: a count that has passed the target is never noticed (`stops_when_reached_iff`).

To stop the test is to clear a flag that the thread reads up to ten seconds later. A test that is started
before then has two threads (`one_poller_iff`).
-/

namespace WifiTest

open Events

/-! ## What the reactions leave alone -/

namespace AgingTest

@[simp] theorem onCheckedChanged_mCountEdit (b : Bool) (a : AgingTest) :
    (onCheckedChanged b a).mCountEdit = a.mCountEdit := by
  cases b <;> rfl

@[simp] theorem onCheckedChanged_mTestCount (b : Bool) (a : AgingTest) :
    (onCheckedChanged b a).mTestCount = a.mTestCount := by
  cases b <;> rfl

@[simp] theorem onCheckedChanged_threads (b : Bool) (a : AgingTest) :
    (onCheckedChanged b a).threads = a.threads := by
  cases b <;> rfl

@[simp] theorem performClick_mCountEdit (a : AgingTest) : a.performClick.mCountEdit = a.mCountEdit := by
  simp [performClick]

@[simp] theorem performClick_mTestCount (a : AgingTest) : a.performClick.mTestCount = a.mTestCount := by
  simp [performClick]

@[simp] theorem performClick_threads (a : AgingTest) : a.performClick.threads = a.threads := by
  simp [performClick]

@[simp] theorem handleMessage_mCountEdit (a : AgingTest) (msg : Message) :
    (a.handleMessage msg).mCountEdit = a.mCountEdit := by
  cases msg <;> simp only [handleMessage]
  split <;> simp

@[simp] theorem handleMessage_mTestCount (a : AgingTest) (msg : Message) :
    (a.handleMessage msg).mTestCount = a.mTestCount := by
  cases msg <;> simp only [handleMessage]
  split <;> simp

@[simp] theorem handleMessage_threads (a : AgingTest) (msg : Message) :
    (a.handleMessage msg).threads = a.threads := by
  cases msg <;> simp only [handleMessage]
  split <;> simp

@[simp] theorem resetClick_mCountEdit (a : AgingTest) : a.resetClick.mCountEdit = [] := by
  simp only [resetClick]
  split <;> simp

@[simp] theorem resetClick_mTestCount (a : AgingTest) : a.resetClick.mTestCount = 0 := by
  simp only [resetClick]
  split <;> simp

@[simp] theorem resetClick_threads (a : AgingTest) : a.resetClick.threads = a.threads := by
  simp only [resetClick]
  split <;> simp

@[simp] theorem saveWifiConnectState_mCountEdit (a : AgingTest) :
    a.saveWifiConnectState.mCountEdit = a.mCountEdit := by
  simp only [saveWifiConnectState]
  split_ifs <;> rfl

@[simp] theorem saveWifiConnectState_mTestCount (a : AgingTest) :
    a.saveWifiConnectState.mTestCount = a.mTestCount := by
  simp only [saveWifiConnectState]
  split_ifs <;> rfl

@[simp] theorem saveWifiConnectState_threads (a : AgingTest) : a.saveWifiConnectState.threads = a.threads := by
  simp only [saveWifiConnectState]
  split_ifs <;> rfl

/-! ## The steps -/

/-- What a click on the test button does, if it does anything. -/
theorem testClick_cases {a a' : AgingTest} (h : a.testClick = .ok a') :
    (a.mCountEdit = [] ∧ a' = a) ∨
    ∃ n, a.mCountEdit ≠ [] ∧ integerValueOf a.mCountEdit = .ok n ∧
      ((a.isTestStart = true ∧ a' = { a with mTestCount := n, isTestStart := false }) ∨
        (a.isTestStart = false ∧
          a' = { a with mTestCount := n, isTestStart := true, threads := a.threads ++ [.started] })) := by
  unfold testClick at h
  by_cases hempty : a.mCountEdit = []
  · rw [if_pos hempty, Except.ok.injEq] at h
    exact .inl ⟨hempty, h.symm⟩
  · rw [if_neg hempty] at h
    cases hn : integerValueOf a.mCountEdit with
    | error e => simp [hn] at h
    | ok n =>
      right
      refine ⟨n, hempty, rfl, ?_⟩
      cases hstart : a.isTestStart with
      | true =>
        simp only [hn, hstart, if_true, Except.ok.injEq] at h
        exact .inl ⟨rfl, h.symm⟩
      | false =>
        simp only [hn, hstart, Bool.false_eq_true, if_false, Except.ok.injEq] at h
        exact .inr ⟨rfl, h.symm⟩

/-- The threads after a step: a new one after a start, one that has moved after its turn or its poll. -/
theorem step_threads {a a' : AgingTest} {e : AgingEvent} {o : List Message} (h : a.step e = some (a', o)) :
    a'.threads = a.threads ∨ (a.Starts e ∧ a'.threads = a.threads ++ [.started]) ∨
    ∃ i p p', a.threads[i]? = some p ∧ p ≠ .ended ∧ (e = .turn i ∨ e = .poll i) ∧
      a'.threads = a.threads.set i p' := by
  cases e with
  | editCount text =>
    simp only [step, Option.ite_none_right_eq_some, Option.some.injEq, Prod.mk.injEq] at h
    obtain ⟨-, rfl, -⟩ := h
    exact .inl rfl
  | test =>
    simp only [step] at h
    cases htest : a.testClick with
    | error e => simp [htest] at h
    | ok a₁ =>
      simp only [htest, Option.some.injEq, Prod.mk.injEq] at h
      obtain ⟨rfl, -⟩ := h
      obtain ⟨-, rfl⟩ | ⟨n, htext, -, ⟨-, rfl⟩ | ⟨hstart, rfl⟩⟩ := testClick_cases htest
      · exact .inl rfl
      · exact .inl rfl
      · exact .inr (.inl ⟨⟨rfl, htext, hstart⟩, rfl⟩)
  | handle =>
    simp only [step] at h
    cases hm : a.messages with
    | nil => simp [hm] at h
    | cons msg messages =>
      simp only [hm, Option.some.injEq, Prod.mk.injEq] at h
      obtain ⟨rfl, -⟩ := h
      left
      simp
  | scanResults n =>
    simp only [step, Option.some.injEq, Prod.mk.injEq] at h
    obtain ⟨rfl, -⟩ := h
    left
    split <;> rfl
  | turn i =>
    simp only [step, Option.ite_none_right_eq_some, Option.some.injEq, Prod.mk.injEq] at h
    obtain ⟨hi, rfl, -⟩ := h
    right; right
    rcases hi with hi | hi
    · exact ⟨i, _, _, hi, by simp, .inl rfl, rfl⟩
    · exact ⟨i, _, _, hi, by simp, .inl rfl, rfl⟩
  | poll i =>
    simp only [step, Option.ite_none_right_eq_some, Option.some.injEq, Prod.mk.injEq] at h
    obtain ⟨hi, rfl, -⟩ := h
    exact .inr (.inr ⟨i, _, _, hi, by simp, .inr rfl, rfl⟩)
  | _ =>
    simp only [step, Option.some.injEq, Prod.mk.injEq] at h
    obtain ⟨rfl, -⟩ := h
    left
    simp

/-! ## When the test stops -/

end AgingTest

theorem intValue_nonneg {digits : Text} {n : Int32} (h : intValue 1 digits = .ok n) : 0 ≤ n.toInt := by
  unfold intValue at h
  extract_lets m at h
  split at h
  · next hok =>
    obtain ⟨-, -, hlow, hhigh⟩ := hok
    rw [Except.ok.injEq] at h
    subst h
    rw [Int32.toInt_ofInt_of_le hlow hhigh]
    omega
  · simp at h

/-- A text of digits does not stand for a negative number. -/
theorem integerValueOf_nonneg {s : Text} {n : Int32} (hs : s.all Char.isDigit = true)
    (h : integerValueOf s = .ok n) : 0 ≤ n.toInt := by
  unfold integerValueOf at h
  split at h
  · simp at hs
  · exact intValue_nonneg h
  · exact intValue_nonneg h

namespace AgingTest

/-- The text field has digits only, and the target is not negative. -/
structure Counts (a : AgingTest) : Prop where
  digits : a.mCountEdit.all Char.isDigit = true
  target : 0 ≤ a.mTestCount.toInt

theorem counts_of_resumed {a : AgingTest} (h : a.Resumed) : a.Counts := by
  obtain ⟨htext, hcount, -⟩ := h
  constructor
  · rw [htext]; rfl
  · rw [hcount]; decide

/-- A step that changes neither the text nor the target. -/
theorem Counts.congr {a a' : AgingTest} (h : a.Counts) (htext : a'.mCountEdit = a.mCountEdit)
    (hcount : a'.mTestCount = a.mTestCount) : a'.Counts :=
  ⟨htext ▸ h.digits, hcount ▸ h.target⟩

theorem counts_step {a a' : AgingTest} {e : AgingEvent} {o : List Message} (hc : a.Counts)
    (h : a.step e = some (a', o)) : a'.Counts := by
  cases e with
  | editCount text =>
    simp only [step, Option.ite_none_right_eq_some, Option.some.injEq, Prod.mk.injEq] at h
    obtain ⟨htext, rfl, -⟩ := h
    exact ⟨htext, hc.target⟩
  | test =>
    simp only [step] at h
    cases htest : a.testClick with
    | error e => simp [htest] at h
    | ok a₁ =>
      simp only [htest, Option.some.injEq, Prod.mk.injEq] at h
      obtain ⟨rfl, -⟩ := h
      obtain ⟨-, rfl⟩ | ⟨n, -, hn, ⟨-, rfl⟩ | ⟨-, rfl⟩⟩ := testClick_cases htest
      · exact hc
      · exact ⟨hc.digits, integerValueOf_nonneg hc.digits hn⟩
      · exact ⟨hc.digits, integerValueOf_nonneg hc.digits hn⟩
  | reset =>
    simp only [step, Option.some.injEq, Prod.mk.injEq] at h
    obtain ⟨rfl, -⟩ := h
    exact ⟨by simp, by simp⟩
  | handle =>
    simp only [step] at h
    cases hm : a.messages with
    | nil => simp [hm] at h
    | cons msg messages =>
      simp only [hm, Option.some.injEq, Prod.mk.injEq] at h
      obtain ⟨rfl, -⟩ := h
      exact hc.congr (by simp) (by simp)
  | scanResults n =>
    simp only [step, Option.some.injEq, Prod.mk.injEq] at h
    obtain ⟨rfl, -⟩ := h
    split
    · exact hc.congr rfl rfl
    · exact hc
  | turn i =>
    simp only [step, Option.ite_none_right_eq_some, Option.some.injEq, Prod.mk.injEq] at h
    obtain ⟨-, rfl, -⟩ := h
    exact hc.congr rfl rfl
  | poll i =>
    simp only [step, Option.ite_none_right_eq_some, Option.some.injEq, Prod.mk.injEq] at h
    obtain ⟨-, rfl, -⟩ := h
    exact hc.congr rfl rfl
  | _ =>
    simp only [step, Option.some.injEq, Prod.mk.injEq] at h
    obtain ⟨rfl, -⟩ := h
    exact hc.congr (by simp) (by simp)

/-- The sum of two `int`s that is at least a target is the target, as an `int`, only if it is that as a
number: it cannot come back to it by an overflow. -/
theorem count_eq_iff {a : AgingTest} (hc : a.Counts) (h : a.Reached) : a.count = a.mTestCount ↔ ¬ a.Passed := by
  have hsum : a.count.toInt = (a.success.toInt + a.fail.toInt).bmod (2 ^ 32) := Int32.toInt_add _ _
  have htarget := hc.target
  have hbound := a.mTestCount.toInt_lt
  have hsuccess := a.success.toInt_lt
  have hfail := a.fail.toInt_lt
  unfold Reached at h
  rw [← Int32.toInt_inj, hsum, Passed]
  constructor
  · intro heq hpassed
    rw [Int.bmod_def] at heq
    split at heq <;> omega
  · intro hpassed
    rw [Int.bmod_def]
    split <;> omega

theorem stop_mem_poll {a : AgingTest} : .wifiTestStop ∈ a.poll ↔ a.count = a.mTestCount := by
  unfold poll
  by_cases hcount : a.count = a.mTestCount
  · simp [hcount]
  · simp only [hcount, if_false, List.append_nil, iff_false]
    split_ifs <;> simp

end AgingTest

theorem poll_output {t : Taken AgingTest AgingEvent (List Message)} (hpoll : AgingTest.IsPoll t.event)
    (hs : t.before.step t.event = some (t.after, t.output)) : t.output = t.before.poll := by
  obtain ⟨a, e, o, a'⟩ := t
  cases e with
  | poll i =>
    simp only [AgingTest.step, Option.ite_none_right_eq_some, Option.some.injEq, Prod.mk.injEq] at hs
    exact hs.2.2.symm
  | _ => exact hpoll.elim

theorem stopsWhenReached_iff {t : Taken AgingTest AgingEvent (List Message)} (hc : t.before.Counts)
    (hs : t.before.step t.event = some (t.after, t.output)) : StopsWhenReached t ↔ PolledInTime t := by
  constructor
  · intro hstops hpoll hstart hpassed
    have hreached : t.before.Reached := le_of_lt hpassed
    have hstop := hstops hpoll hstart hreached
    rw [poll_output hpoll hs, AgingTest.stop_mem_poll, AgingTest.count_eq_iff hc hreached] at hstop
    exact hstop hpassed
  · intro htime hpoll hstart hreached
    rw [poll_output hpoll hs, AgingTest.stop_mem_poll, AgingTest.count_eq_iff hc hreached]
    exact htime hpoll hstart

/-- **When the aging test stops.** In a run, every poll that finds the target reached sends the message to
stop exactly if no poll finds it passed. -/
theorem stops_when_reached_iff {steps : List (Taken AgingTest AgingEvent (List Message))} {a : AgingTest}
    (h : Run AgingTest.step AgingTest.Resumed steps a) :
    (∀ t ∈ steps, StopsWhenReached t) ↔ ∀ t ∈ steps, PolledInTime t := by
  apply h.forall_iff AgingTest.Counts
  · intro s hs
    exact AgingTest.counts_of_resumed hs
  · intro s e s' o hc hs
    exact AgingTest.counts_step hc hs
  · intro t hc hs
    exact stopsWhenReached_iff hc hs

/-- The activity on a device that is connected, with nothing counted. -/
def AgingTest.fresh : AgingTest := ⟨[], true, 0, false, false, false, true, 0, 0, [], []⟩

theorem AgingTest.fresh_resumed : AgingTest.fresh.Resumed := ⟨rfl, rfl, rfl, rfl, rfl, rfl, rfl⟩

theorem stops_when_reached_once : ∃ steps a, Run AgingTest.step AgingTest.Resumed steps a ∧
    (∃ t ∈ steps, AgingTest.IsPoll t.event ∧ t.before.Reached) ∧ ∀ t ∈ steps, StopsWhenReached t := by
  obtain ⟨steps, a, hrun, hP⟩ := Run.exists_of_follow AgingTest.step AgingTest.fresh_resumed
    [.editCount ['1'], .test, .turn 0, .available, .poll 0]
    (fun r => (r.1.any fun t => decide (AgingTest.IsPoll t.event ∧ t.before.Reached)) &&
      r.1.all fun t => decide (PolledInTime t)) (by decide)
  simp only [Bool.and_eq_true, List.any_eq_true, List.all_eq_true, decide_eq_true_eq] at hP
  exact ⟨steps, a, hrun, hP.1, (stops_when_reached_iff hrun).2 hP.2⟩

/-- Two networks come up while the thread sleeps, and the test that was to count one goes on. -/
theorem stop_missed : ¬ ∀ steps a, Run AgingTest.step AgingTest.Resumed steps a →
    ∀ t ∈ steps, StopsWhenReached t := by
  intro hall
  obtain ⟨steps, a, hrun, hP⟩ := Run.exists_of_follow AgingTest.step AgingTest.fresh_resumed
    [.editCount ['1'], .test, .turn 0, .available, .available, .poll 0]
    (fun r => r.1.any fun t => !decide (StopsWhenReached t)) (by decide)
  simp only [List.any_eq_true, Bool.not_eq_true', decide_eq_false_iff_not] at hP
  obtain ⟨t, ht, hmissed⟩ := hP
  exact hmissed (hall steps a hrun t ht)

/-! ## Who polls -/

namespace AgingTest

/-- All threads but the one that was started last have ended. -/
def OthersEnded (a : AgingTest) : Prop := ∀ i, i + 1 < a.threads.length → a.threads[i]? = some .ended

theorem OthersEnded.last {a : AgingTest} (h : a.OthersEnded) {i : Nat} {p : MyThread}
    (hi : a.threads[i]? = some p) (hp : p ≠ .ended) : i + 1 = a.threads.length := by
  obtain ⟨hlen, -⟩ := List.getElem?_eq_some_iff.1 hi
  by_contra hlast
  have hended := h i (by omega)
  rw [hi, Option.some.injEq] at hended
  exact hp hended

theorem OthersEnded.onePoller {a : AgingTest} (h : a.OthersEnded) : a.OnePoller := by
  have hlast : ∀ i, a.InLoop i → i + 1 = a.threads.length := by
    rintro i (hi | hi)
    · exact h.last hi (by simp)
    · exact h.last hi (by simp)
  intro i j hi hj
  have h₁ := hlast i hi
  have h₂ := hlast j hj
  omega

theorem othersEnded_step {a a' : AgingTest} {e : AgingEvent} {o : List Message} (hothers : a.OthersEnded)
    (halone : a.StartsAlone e) (h : a.step e = some (a', o)) : a'.OthersEnded := by
  obtain hsame | ⟨hstarts, hnew⟩ | ⟨i, p, p', hi, hp, -, hmoved⟩ := step_threads h
  · unfold OthersEnded
    rw [hsame]
    exact hothers
  · -- a new thread: the others have ended before
    intro j hj
    rw [hnew] at hj ⊢
    simp only [List.length_append, List.length_singleton] at hj
    have hlt : j < a.threads.length := by omega
    rw [List.getElem?_append_left hlt, List.getElem?_eq_getElem hlt, Option.some.injEq]
    exact halone hstarts _ (List.getElem_mem hlt)
  · -- only the last thread can move
    intro j hj
    have hlast := hothers.last hi hp
    rw [hmoved] at hj ⊢
    rw [List.length_set] at hj
    have hne : i ≠ j := by omega
    rw [List.getElem?_set_ne hne]
    exact hothers j hj

theorem step_turn {a : AgingTest} {i : Nat} (hflag : a.isTestStart = true)
    (hi : a.threads[i]? = some .started) :
    a.step (.turn i) = some ({ a with threads := a.threads.set i .sleeping }, []) := by
  simp only [step]
  rw [if_pos (Or.inl hi), hflag]
  rfl

/-- A thread in its loop, and a second one that takes its first turn. -/
theorem two_pollers_of_turn {a : AgingTest} {i n : Nat} (hflag : a.isTestStart = true) (hi : a.InLoop i)
    (hn : a.threads[n]? = some .started) :
    ∃ steps b, follow step a [.turn n] = some (steps, b) ∧ ¬ b.OnePoller := by
  have hne : n ≠ i := by
    rintro rfl
    rcases hi with hi | hi <;> simp [hn] at hi
  obtain ⟨hlen, -⟩ := List.getElem?_eq_some_iff.1 hn
  refine ⟨_, _, follow_cons (step_turn hflag hn) rfl, ?_⟩
  intro hone
  apply hne
  apply hone n i
  · left
    simp [hlen]
  · unfold InLoop at hi ⊢
    simpa only [List.getElem?_set_ne hne] using hi

/-- What may follow when a test is started and a thread has not ended yet. -/
theorem two_pollers_of_start {a a' : AgingTest} {o : List Message} (hstart : a.Starts .test)
    (h : a.step .test = some (a', o)) {p : MyThread} (hmem : p ∈ a.threads) (hp : p ≠ .ended) :
    ∃ es steps b, follow step a (.test :: es) = some (steps, b) ∧ ¬ b.OnePoller := by
  obtain ⟨i, hlt, hget⟩ := List.getElem_of_mem hmem
  have hclick : a'.isTestStart = true ∧ a'.threads = a.threads ++ [.started] := by
    simp only [step] at h
    cases htest : a.testClick with
    | error e => simp [htest] at h
    | ok a₁ =>
      simp only [htest, Option.some.injEq, Prod.mk.injEq] at h
      obtain ⟨rfl, -⟩ := h
      obtain ⟨hempty, -⟩ | ⟨n, -, -, ⟨hgoes, -⟩ | ⟨-, rfl⟩⟩ := testClick_cases htest
      · exact absurd hempty hstart.2.1
      · simp [hstart.2.2] at hgoes
      · exact ⟨rfl, rfl⟩
  obtain ⟨hflag, hthreads⟩ := hclick
  have hold : a'.threads[i]? = some p := by
    rw [hthreads, List.getElem?_append_left hlt, List.getElem?_eq_getElem hlt, hget]
  have hnew : a'.threads[a.threads.length]? = some .started := by
    rw [hthreads, List.getElem?_concat_length]
  have hgo : ∀ es steps b, follow step a' es = some (steps, b) → ¬ b.OnePoller →
      ∃ es steps b, follow step a (.test :: es) = some (steps, b) ∧ ¬ b.OnePoller := by
    intro es steps b hf hb
    exact ⟨es, _, b, follow_cons h hf, hb⟩
  have hloop : a'.InLoop i → ∃ es steps b, follow step a (.test :: es) = some (steps, b) ∧ ¬ b.OnePoller := by
    intro hi
    obtain ⟨steps, b, hf, hb⟩ := two_pollers_of_turn hflag hi hnew
    exact hgo _ _ _ hf hb
  cases p with
  | started =>
    -- the old thread enters its loop first
    have hne : i ≠ a.threads.length := by omega
    have hlen : i < a'.threads.length := by rw [hthreads, List.length_append]; omega
    obtain ⟨steps, b, hf, hb⟩ :=
      two_pollers_of_turn (a := { a' with threads := a'.threads.set i .sleeping }) hflag
        (i := i) (n := a.threads.length) (.inl (by simp [hlen])) (by simpa [List.getElem?_set_ne hne] using hnew)
    exact hgo _ _ b (follow_cons (step_turn hflag hold) hf) hb
  | sleeping => exact hloop (.inl hold)
  | polled => exact hloop (.inr hold)
  | ended => exact absurd rfl hp

end AgingTest

/-- **Who polls.** If every test is started when the threads of the earlier ones have ended, then at most one
thread is in its loop at any time, and it is the one of the last start. Any other start may lead to two. -/
theorem one_poller_iff {steps : List (Taken AgingTest AgingEvent (List Message))} {a : AgingTest}
    (h : Run AgingTest.step AgingTest.Resumed steps a) :
    ((∀ t ∈ steps, t.before.StartsAlone t.event) →
      a.OnePoller ∧ ∀ t ∈ steps, ∀ i, t.event = .poll i → i + 1 = t.before.threads.length) ∧
    (¬ a.StartsAlone .test → (a.step .test).isSome →
      ∃ es more b, follow AgingTest.step a (.test :: es) = some (more, b) ∧
        Run AgingTest.step AgingTest.Resumed (steps ++ more) b ∧ ¬ b.OnePoller) := by
  have hinit : ∀ a, AgingTest.Resumed a → a.OthersEnded := by
    rintro a ⟨-, -, -, -, -, -, hnone⟩ i hi
    simp [hnone] at hi
  constructor
  · intro halone
    constructor
    · apply AgingTest.OthersEnded.onePoller
      exact h.invariant_of AgingTest.StartsAlone AgingTest.OthersEnded hinit
        (fun s e s' o hI hC hs => AgingTest.othersEnded_step hI hC hs) halone
    · intro t ht i hi
      have hothers := h.invariant_before AgingTest.StartsAlone AgingTest.OthersEnded hinit
        (fun s e s' o hI hC hs => AgingTest.othersEnded_step hI hC hs) halone ht
      obtain ⟨hs, -⟩ := h.taken ht
      rw [hi] at hs
      simp only [AgingTest.step, Option.ite_none_right_eq_some] at hs
      exact hothers.last hs.1 (by simp)
  · intro hnot hsome
    obtain ⟨⟨a', o⟩, hstep⟩ := Option.isSome_iff_exists.1 hsome
    simp only [AgingTest.StartsAlone, not_forall] at hnot
    obtain ⟨hstarts, p, hmem, hp⟩ := hnot
    obtain ⟨es, more, b, hf, hb⟩ := AgingTest.two_pollers_of_start hstarts hstep hmem hp
    exact ⟨es, more, b, hf, h.follow hf, hb⟩

/-- A test, and another one after it has come to its end. -/
theorem one_poller_twice : ∃ steps a, Run AgingTest.step AgingTest.Resumed steps a ∧
    a.threads = [.ended, .sleeping] ∧ a.OnePoller := by
  obtain ⟨steps, a, hrun, hP⟩ := Run.exists_of_follow AgingTest.step AgingTest.fresh_resumed
    [.editCount ['9'], .test, .turn 0, .test, .poll 0, .turn 0, .test, .turn 1]
    (fun r => decide (r.2.threads = [.ended, .sleeping]) &&
      r.1.all fun t => decide (t.before.StartsAlone t.event)) (by decide)
  simp only [Bool.and_eq_true, List.all_eq_true, decide_eq_true_eq] at hP
  exact ⟨steps, a, hrun, hP.1, ((one_poller_iff hrun).1 hP.2).1⟩

/-- The test is stopped, and started again before its thread has noticed. -/
theorem two_pollers : ¬ ∀ steps a, Run AgingTest.step AgingTest.Resumed steps a → a.OnePoller := by
  intro hall
  obtain ⟨steps, a, hrun, hP⟩ := Run.exists_of_follow AgingTest.step AgingTest.fresh_resumed
    [.editCount ['9'], .test, .turn 0, .test, .test, .turn 1]
    (fun r => decide (r.2.InLoop 0) && decide (r.2.InLoop 1)) (by decide)
  simp only [Bool.and_eq_true, decide_eq_true_eq] at hP
  have hsame := hall steps a hrun 0 1 hP.1 hP.2
  omega

end WifiTest
