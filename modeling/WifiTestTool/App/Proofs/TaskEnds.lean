import WifiTestTool.App.IperfTask

/-!
# Whose end ends what

The end of a task, delivered late, switches the button off whatever task is running by then, and stops the
reader whoever uses it (`ends_own_only_iff`). It does no harm if the user waits for it before the next start
(`undisturbed_of_patient`).
-/

namespace WifiTest

open Events

namespace IperfTest

/-- The button, the flag and the current task go together. -/
structure Toggled (a : IperfTest) : Prop where
  button : a.mToggleButton = a.isDoExecCommand
  task : a.isDoExecCommand = a.mIperTask.isSome

theorem toggled_of_created {a : IperfTest} (h : a.Created) : a.Toggled := by
  obtain ⟨hbutton, hflag, htask, -, -⟩ := h
  constructor
  · rw [hbutton, hflag]
  · rw [hflag, htask]
    rfl

/-- A step that changes neither of them. -/
theorem Toggled.congr {a a' : IperfTest} (h : a.Toggled) (hbutton : a'.mToggleButton = a.mToggleButton)
    (hflag : a'.isDoExecCommand = a.isDoExecCommand) (htask : a'.mIperTask = a.mIperTask) : a'.Toggled := by
  constructor
  · rw [hbutton, hflag]
    exact h.button
  · rw [hflag, htask]
    exact h.task

/-! ## The main thread -/

/-- The listener starts a task. -/
theorem onCheckedChanged_start {a : IperfTest} {r : IperfTest × List TaskEffect}
    (hflag : a.isDoExecCommand = false) (htask : a.mIperTask = none) (h : a.onCheckedChanged = .ok r) :
    ∃ commands, r = ({ a with
      isDoExecCommand := true
      commands := commands
      mIperTask := some a.tasks.length
      tasks := a.tasks ++ [⟨a.mCommandEt.toList, .queued, false⟩] }, []) := by
  unfold onCheckedChanged at h
  rw [if_pos hflag] at h
  cases hs : a.commands.step (.save a.mCommandEt) with
  | error e => simp [hs] at h
  | ok commands =>
    simp only [hs, htask, if_true, Except.ok.injEq] at h
    exact ⟨commands, h.symm⟩

/-- The listener cancels a task. -/
theorem onCheckedChanged_stop {a : IperfTest} {k : Nat} (hflag : a.isDoExecCommand = true)
    (htask : a.mIperTask = some k) :
    a.onCheckedChanged = .ok ({ a with
      tasks := a.tasks.modify k .cancel
      mIperTask := none
      isDoExecCommand := false }, [.cancel k]) := by
  unfold onCheckedChanged
  rw [if_neg (by simp [hflag]), htask]

/-- What a click does. -/
theorem toggle_cases {a : IperfTest} {r : IperfTest × List TaskEffect} (hi : a.Toggled)
    (h : a.step .toggle = some r) :
    (∃ commands, a.mIperTask = none ∧ a.isDoExecCommand = false ∧ r = ({ a with
      mToggleButton := true
      isDoExecCommand := true
      commands := commands
      mIperTask := some a.tasks.length
      tasks := a.tasks ++ [⟨a.mCommandEt.toList, .queued, false⟩] }, [])) ∨
    ∃ k, a.mIperTask = some k ∧ r = ({ a with
      mToggleButton := false
      isDoExecCommand := false
      tasks := a.tasks.modify k .cancel
      mIperTask := none }, [.cancel k]) := by
  have hset : a.setChecked (!a.mToggleButton) = { a with mToggleButton := !a.mToggleButton }.onCheckedChanged := by
    unfold setChecked
    rw [if_neg (by simp)]
  simp only [step, hset] at h
  cases htask : a.mIperTask with
  | none =>
    have hflag : a.isDoExecCommand = false := by rw [hi.task, htask]; rfl
    left
    cases hr : { a with mToggleButton := !a.mToggleButton }.onCheckedChanged with
    | error e => simp [hr, ofMain] at h
    | ok r' =>
      obtain ⟨commands, rfl⟩ :=
        onCheckedChanged_start (a := { a with mToggleButton := !a.mToggleButton }) hflag htask hr
      simp only [hr, ofMain, Option.some.injEq] at h
      refine ⟨commands, rfl, hflag, ?_⟩
      rw [← h, hi.button, hflag]
      rfl
  | some k =>
    have hflag : a.isDoExecCommand = true := by rw [hi.task, htask]; rfl
    right
    rw [onCheckedChanged_stop (a := { a with mToggleButton := !a.mToggleButton }) hflag htask] at h
    simp only [ofMain, Option.some.injEq] at h
    refine ⟨k, rfl, ?_⟩
    rw [← h, hi.button, hflag]
    rfl

/-- What is done to the reader, and to the current task, when the end of a task is delivered. -/
def endEffects (a : IperfTest) : List TaskEffect :=
  (a.mThread.toList.map .stopReader) ++ a.mIperTask.toList.map .cancel

/-- What the end of a task does. -/
theorem onPostExecute_eq {a : IperfTest} (hi : a.Toggled) :
    ∃ a', a.onPostExecute = .ok (a', a.endEffects) ∧ a'.mToggleButton = false ∧
      a'.isDoExecCommand = false ∧ a'.mIperTask = none ∧ a'.mThread = none ∧
      (a'.tasks = a.tasks ∨ ∃ k, a'.tasks = a.tasks.modify k .cancel) := by
  have hstop : ∃ b, a.stop = (b, a.mThread.toList.map .stopReader) ∧ b.mToggleButton = a.mToggleButton ∧
      b.isDoExecCommand = a.isDoExecCommand ∧ b.mIperTask = a.mIperTask ∧ b.mThread = none ∧
      b.tasks = a.tasks := by
    unfold stop
    cases hthread : a.mThread with
    | none => exact ⟨a, rfl, rfl, rfl, rfl, hthread, rfl⟩
    | some users => exact ⟨_, rfl, rfl, rfl, rfl, rfl, rfl⟩
  obtain ⟨b, hb, hbutton, hflag, htask, hthread, htasks⟩ := hstop
  unfold onPostExecute endEffects
  rw [hb]
  cases hcur : a.mIperTask with
  | none =>
    have hoff : a.isDoExecCommand = false := by rw [hi.task, hcur]; rfl
    have hset : b.setChecked false = .ok (b, []) := by
      unfold setChecked
      rw [if_pos (by rw [hbutton, hi.button, hoff])]
    refine ⟨b, by simp [hset], ?_, ?_, ?_, hthread, .inl htasks⟩
    · rw [hbutton, hi.button, hoff]
    · rw [hflag, hoff]
    · rw [htask, hcur]
  | some k =>
    have hon : a.isDoExecCommand = true := by rw [hi.task, hcur]; rfl
    have hset : b.setChecked false = { b with mToggleButton := false }.onCheckedChanged := by
      unfold setChecked
      rw [if_neg (by rw [hbutton, hi.button, hon]; simp)]
    have hstop := onCheckedChanged_stop (a := { b with mToggleButton := false }) (hflag.trans hon)
      (htask.trans hcur)
    refine ⟨{ b with
      mToggleButton := false
      tasks := b.tasks.modify k .cancel
      mIperTask := none
      isDoExecCommand := false }, by simp [hset, hstop], rfl, rfl, rfl, hthread, .inr ⟨k, ?_⟩⟩
    rw [htasks]

/-! ## The steps -/

theorem ofMain_map {a a' : IperfTest} {o : List TaskEffect} {r : Except AppException Commands}
    (h : ofMain (r.map fun commands => ({ a with commands := commands }, [])) = some (a', o)) :
    ∃ commands, a' = { a with commands := commands } ∧ o = [] := by
  cases r with
  | error e => simp [Except.map, ofMain] at h
  | ok commands =>
    simp only [Except.map, ofMain, Option.some.injEq, Prod.mk.injEq] at h
    exact ⟨commands, h.1.symm, h.2.symm⟩

/-- What a step does. -/
theorem step_cases {a a' : IperfTest} {e : TaskEvent} {o : List TaskEffect} (hi : a.Toggled)
    (h : a.step e = some (a', o)) :
    (e = .toggle ∧ a.mIperTask = none ∧ a.isDoExecCommand = false ∧ o = [] ∧ a'.Toggled ∧
      a'.mIperTask = some a.tasks.length ∧ a'.mThread = a.mThread ∧
      ∃ command, a'.tasks = a.tasks ++ [⟨command, .queued, false⟩]) ∨
    (∃ k, e = .toggle ∧ a.mIperTask = some k ∧ o = [.cancel k] ∧ a'.Toggled ∧ a'.mIperTask = none ∧
      a'.mThread = a.mThread ∧ a'.tasks = a.tasks.modify k .cancel) ∨
    (∃ k t, e = .deliver k ∧ a.tasks[k]? = some t ∧ t.phase = .returned ∧ o = a.endEffects ∧ a'.Toggled ∧
      a'.mIperTask = none ∧ a'.mThread = none ∧
      (a'.tasks = (a.moved k .delivered).tasks ∨
        ∃ j, a'.tasks = (a.moved k .delivered).tasks.modify j .cancel)) ∨
    (∃ k t p, e ≠ .toggle ∧ (∀ j, e ≠ .deliver j) ∧ a.tasks[k]? = some t ∧ t.phase ≠ .delivered ∧
      p ≠ .delivered ∧ o = [] ∧ (a' = a.moved k p ∨ a' = (a.moved k p).startServer k)) ∨
    (e ≠ .toggle ∧ (∀ j, e ≠ .deliver j) ∧ o = [] ∧
      ∃ commands text, a' = { a with commands := commands, mCommandEt := text }) := by
  cases e with
  | toggle =>
    obtain ⟨commands, htask, hflag, hr⟩ | ⟨k, htask, hr⟩ := toggle_cases hi h
    · rw [Prod.mk.injEq] at hr
      obtain ⟨rfl, rfl⟩ := hr
      exact .inl ⟨rfl, htask, hflag, rfl, ⟨rfl, rfl⟩, rfl, rfl, _, rfl⟩
    · rw [Prod.mk.injEq] at hr
      obtain ⟨rfl, rfl⟩ := hr
      exact .inr (.inl ⟨k, rfl, htask, rfl, ⟨rfl, rfl⟩, rfl, rfl, rfl⟩)
  | deliver k =>
    simp only [step] at h
    cases ht : a.tasks[k]? with
    | none => simp [ht] at h
    | some t =>
      rw [ht] at h
      by_cases hp : t.phase = .returned
      · have hi' : (a.moved k .delivered).Toggled := hi.congr rfl rfl rfl
        obtain ⟨b, hb, hbutton, hflag, htask, hthread, htasks⟩ := onPostExecute_eq hi'
        simp only [hp, if_true, hb, ofMain, Option.some.injEq, Prod.mk.injEq] at h
        obtain ⟨rfl, rfl⟩ := h
        refine .inr (.inr (.inl ⟨k, t, rfl, ht, hp, rfl, ⟨?_, ?_⟩, htask, hthread, htasks⟩))
        · rw [hbutton, hflag]
        · rw [hflag, htask]
          rfl
      · simp [hp] at h
  | begin k =>
    simp only [step] at h
    cases ht : a.tasks[k]? with
    | none => simp [ht] at h
    | some t =>
      simp only [ht, Option.ite_none_right_eq_some, Option.some.injEq, Prod.mk.injEq] at h
      obtain ⟨⟨hp, -⟩, rfl, rfl⟩ := h
      exact .inr (.inr (.inr (.inl
        ⟨k, t, .running, by simp, by simp, ht, by simp [hp], by simp, rfl, .inl rfl⟩)))
  | startServer k =>
    simp only [step] at h
    cases ht : a.tasks[k]? with
    | none => simp [ht] at h
    | some t =>
      have hstep : t.phase = .running ∧ a' = (a.moved k .reading).startServer k ∧ o = [] := by
        cases hcheck : checkCommand t.command with
        | error e => simp [ht, hcheck] at h
        | ok r =>
          cases r with
          | none => simp [ht, hcheck] at h
          | some args =>
            simp only [ht, hcheck, Option.ite_none_right_eq_some, Option.some.injEq, Prod.mk.injEq] at h
            exact ⟨h.1, h.2.1.symm, h.2.2.symm⟩
      obtain ⟨hp, rfl, rfl⟩ := hstep
      exact .inr (.inr (.inr (.inl
        ⟨k, t, .reading, by simp, by simp, ht, by simp [hp], by simp, rfl, .inr rfl⟩)))
  | finish k =>
    simp only [step] at h
    cases ht : a.tasks[k]? with
    | none => simp [ht] at h
    | some t =>
      have hstep : t.phase ≠ .delivered ∧ a' = a.moved k .returned ∧ o = [] := by
        simp only [ht] at h
        split at h
        · next hp =>
          simp only [Option.some.injEq, Prod.mk.injEq] at h
          exact ⟨by simp [hp], h.1.symm, h.2.symm⟩
        · next hp hcheck =>
          simp only [Option.some.injEq, Prod.mk.injEq] at h
          exact ⟨by simp [hp], h.1.symm, h.2.symm⟩
        · simp at h
      obtain ⟨hp, rfl, rfl⟩ := hstep
      exact .inr (.inr (.inr (.inl ⟨k, t, .returned, by simp, by simp, ht, hp, by simp, rfl, .inl rfl⟩)))
  | edit text =>
    simp only [step, Option.some.injEq, Prod.mk.injEq] at h
    obtain ⟨rfl, rfl⟩ := h
    exact .inr (.inr (.inr (.inr ⟨by simp, by simp, rfl, a.commands, text, rfl⟩)))
  | showList =>
    obtain ⟨commands, rfl, rfl⟩ := ofMain_map (r := a.commands.step .showList) h
    exact .inr (.inr (.inr (.inr ⟨by simp, by simp, rfl, commands, a.mCommandEt, rfl⟩)))
  | delete position =>
    obtain ⟨commands, rfl, rfl⟩ := ofMain_map (r := a.commands.step (.delete position)) h
    exact .inr (.inr (.inr (.inr ⟨by simp, by simp, rfl, commands, a.mCommandEt, rfl⟩)))

theorem toggled_step {a a' : IperfTest} {e : TaskEvent} {o : List TaskEffect} (hi : a.Toggled)
    (h : a.step e = some (a', o)) : a'.Toggled := by
  obtain ⟨-, -, -, -, hi', -⟩ | ⟨k, -, -, -, hi', -⟩ | ⟨k, t, -, -, -, -, hi', -⟩ |
    ⟨k, t, p, -, -, -, -, -, -, rfl | rfl⟩ | ⟨-, -, -, commands, text, rfl⟩ := step_cases hi h
  · exact hi'
  · exact hi'
  · exact hi'
  · exact hi.congr rfl rfl rfl
  · unfold startServer
    split
    · exact hi.congr rfl rfl rfl
    · exact hi.congr rfl rfl rfl
  · exact hi.congr rfl rfl rfl

theorem mem_endEffects {a : IperfTest} {x : TaskEffect} : x ∈ a.endEffects ↔
    (∃ users, a.mThread = some users ∧ x = .stopReader users) ∨ ∃ j, a.mIperTask = some j ∧ x = .cancel j := by
  unfold endEffects
  simp only [List.mem_append, List.mem_map, Option.mem_toList, eq_comm]

end IperfTest

/-! ## The ends of the tasks -/

theorem endsOwnOnly_iff {t : Taken IperfTest TaskEvent (List TaskEffect)} (hi : t.before.Toggled)
    (hs : t.before.step t.event = some (t.after, t.output)) :
    EndsOwnOnly t ↔ t.before.Undisturbed t.event := by
  unfold EndsOwnOnly IperfTest.Undisturbed
  obtain ⟨he, -, -, ho, -⟩ | ⟨k, he, hcur, ho, -⟩ | ⟨k, task, he, -, -, ho, -⟩ |
    ⟨k, task, p, -, hne, -, -, -, ho, -⟩ | ⟨-, hne, ho, -⟩ := IperfTest.step_cases hi hs
  · simp [ho, he]
  · -- the user cancels the current task
    simp [ho, he, hcur, TaskEffect.On]
  · -- the end of a task
    rw [he, ho]
    constructor
    · intro hown k' hk
      rw [TaskEvent.deliver.injEq] at hk
      subst hk
      constructor
      · intro j hj
        have hthis := hown (.cancel j) (IperfTest.mem_endEffects.2 (.inr ⟨j, hj, rfl⟩)) j rfl
        simpa [eq_comm] using hthis
      · intro users husers j hj
        have hthis := hown (.stopReader users) (IperfTest.mem_endEffects.2 (.inl ⟨users, husers, rfl⟩)) j hj
        simpa [eq_comm] using hthis
    · intro hcond x hx j hj
      obtain ⟨hcur, husers⟩ := hcond k rfl
      right
      obtain ⟨users, hu, rfl⟩ | ⟨i, hi, rfl⟩ := IperfTest.mem_endEffects.1 hx
      · rw [husers users hu j hj]
      · rw [hj, hcur i hi]
  · simp [ho, hne]
  · simp [ho, hne]

/-! ## A user who waits -/

namespace IperfTest

/-- Only the last task may still be under way. -/
structure Alone (a : IperfTest) : Prop where
  toggled : a.Toggled
  earlier : ∀ i t, a.tasks[i]? = some t → i + 1 < a.tasks.length → t.phase = .delivered
  current : ∀ k, a.mIperTask = some k → k + 1 = a.tasks.length
  users : ∀ users, a.mThread = some users → ∀ j ∈ users, ∃ t, a.tasks[j]? = some t ∧ t.phase ≠ .delivered

theorem alone_of_created {a : IperfTest} (h : a.Created) : a.Alone := by
  have htoggled := toggled_of_created h
  obtain ⟨-, -, htask, htasks, hthread⟩ := h
  refine ⟨htoggled, ?_, ?_, ?_⟩
  · intro i t hi hlt
    rw [htasks] at hlt
    simp at hlt
  · intro k hk
    simp [htask] at hk
  · intro users hu
    simp [hthread] at hu

/-- A task that is under way is the last one. -/
theorem Alone.last {a : IperfTest} (h : a.Alone) {i : Nat} {t : DoIperfTask} (hi : a.tasks[i]? = some t)
    (ht : t.phase ≠ .delivered) : i + 1 = a.tasks.length := by
  obtain ⟨hlt, -⟩ := List.getElem?_eq_some_iff.1 hi
  by_contra hlast
  exact ht (h.earlier i t hi (by omega))

theorem Alone.undisturbed {a : IperfTest} (h : a.Alone) {k : Nat} {t : DoIperfTask}
    (hk : a.tasks[k]? = some t) (ht : t.phase = .returned) : a.Undisturbed (.deliver k) := by
  intro k' hk'
  rw [TaskEvent.deliver.injEq] at hk'
  subst hk'
  have hlast := h.last hk (by simp [ht])
  constructor
  · intro j hj
    have := h.current j hj
    omega
  · intro users hu j hj
    obtain ⟨task, htask, hphase⟩ := h.users users hu j hj
    have := h.last htask hphase
    omega

theorem cancel_phase (t : DoIperfTask) : t.cancel.phase = .delivered ↔ t.phase = .delivered := by
  unfold DoIperfTask.cancel
  cases t.phase <;> simp

/-- The tasks after a change of one of them that delivers none, and takes no delivery back. -/
theorem exists_of_modify {tasks : List DoIperfTask} {f : DoIperfTask → DoIperfTask} {k i : Nat} {t : DoIperfTask}
    (hf : ∀ t, tasks[k]? = some t → ((f t).phase = .delivered ↔ t.phase = .delivered)) :
    ((tasks.modify k f)[i]? = some t → ∃ t', tasks[i]? = some t' ∧ (t.phase = .delivered ↔ t'.phase = .delivered)) ∧
    (tasks[i]? = some t → ∃ t', (tasks.modify k f)[i]? = some t' ∧
      (t.phase = .delivered ↔ t'.phase = .delivered)) := by
  by_cases hik : k = i
  · subst hik
    rw [List.getElem?_modify_eq]
    constructor
    · intro h
      obtain ⟨t', ht', rfl⟩ := Option.map_eq_some_iff.1 h
      exact ⟨t', ht', hf t' ht'⟩
    · intro h
      exact ⟨f t, by rw [h]; rfl, (hf t h).symm⟩
  · rw [List.getElem?_modify_ne _ _ hik]
    exact ⟨fun h => ⟨t, h, Iff.rfl⟩, fun h => ⟨t, h, Iff.rfl⟩⟩

/-- Such a change keeps the last task alone. -/
theorem Alone.modify {a a' : IperfTest} {f : DoIperfTask → DoIperfTask} {k : Nat} (h : a.Alone)
    (hi : a'.Toggled) (htasks : a'.tasks = a.tasks.modify k f)
    (hf : ∀ t, a.tasks[k]? = some t → ((f t).phase = .delivered ↔ t.phase = .delivered))
    (hcur : ∀ j, a'.mIperTask = some j → a.mIperTask = some j)
    (husers : ∀ users, a'.mThread = some users → ∀ j ∈ users,
      ∃ t, a.tasks[j]? = some t ∧ t.phase ≠ .delivered) : a'.Alone := by
  refine ⟨hi, ?_, ?_, ?_⟩
  · intro i t ht hlt
    rw [htasks] at ht hlt
    rw [List.length_modify] at hlt
    obtain ⟨t', ht', hiff⟩ := (exists_of_modify hf).1 ht
    exact hiff.2 (h.earlier i t' ht' hlt)
  · intro j hj
    rw [htasks, List.length_modify]
    exact h.current j (hcur j hj)
  · intro users hu j hj
    obtain ⟨t, ht, hphase⟩ := husers users hu j hj
    obtain ⟨t', ht', hiff⟩ := (exists_of_modify hf).2 ht
    rw [htasks]
    exact ⟨t', ht', fun hd => hphase (hiff.2 hd)⟩

theorem Alone.moved {a : IperfTest} {k : Nat} {t : DoIperfTask} {p : Phase} (h : a.Alone)
    (hk : a.tasks[k]? = some t) (ht : t.phase ≠ .delivered) (hp : p ≠ .delivered) : (a.moved k p).Alone := by
  have hi : (a.moved k p).Toggled := h.toggled.congr rfl rfl rfl
  apply h.modify (k := k) hi rfl
  · intro t' ht'
    rw [hk, Option.some.injEq] at ht'
    subst ht'
    simp [ht, hp]
  · exact fun j hj => hj
  · exact h.users

theorem Alone.startServer {a : IperfTest} {k : Nat} {t : DoIperfTask} (h : a.Alone)
    (hk : a.tasks[k]? = some t) (ht : t.phase ≠ .delivered) : (a.startServer k).Alone := by
  unfold IperfTest.startServer
  split
  · refine ⟨h.toggled.congr rfl rfl rfl, h.earlier, h.current, ?_⟩
    intro users hu j hj
    rw [Option.some.injEq] at hu
    rw [← hu, List.mem_singleton] at hj
    rw [hj]
    exact ⟨t, hk, ht⟩
  · next users hthread =>
    refine ⟨h.toggled.congr rfl rfl rfl, h.earlier, h.current, ?_⟩
    intro users' hu j hj
    rw [Option.some.injEq] at hu
    rw [← hu, List.mem_append, List.mem_singleton] at hj
    rcases hj with hj | rfl
    · exact h.users users hthread j hj
    · exact ⟨t, hk, ht⟩

theorem Alone.deliver {a a' : IperfTest} {k : Nat} {t : DoIperfTask} (h : a.Alone)
    (hk : a.tasks[k]? = some t) (ht : t.phase ≠ .delivered) (hi : a'.Toggled) (hcur : a'.mIperTask = none)
    (hthread : a'.mThread = none)
    (htasks : a'.tasks = (a.moved k .delivered).tasks ∨
      ∃ j, a'.tasks = (a.moved k .delivered).tasks.modify j .cancel) : a'.Alone := by
  have hlast := h.last hk ht
  have hmoved : ∀ i t', (a.moved k .delivered).tasks[i]? = some t' → i + 1 < a.tasks.length →
      t'.phase = .delivered := by
    intro i t' ht' hlt
    have hne : k ≠ i := by omega
    unfold IperfTest.moved at ht'
    rw [List.getElem?_modify_ne _ _ hne] at ht'
    exact h.earlier i t' ht' hlt
  have hlen : (a.moved k .delivered).tasks.length = a.tasks.length := List.length_modify _ _ _
  refine ⟨hi, ?_, by simp [hcur], by simp [hthread]⟩
  intro i t' ht' hlt
  rcases htasks with htasks | ⟨j, htasks⟩
  · rw [htasks] at ht' hlt
    exact hmoved i t' ht' (by omega)
  · rw [htasks] at ht' hlt
    rw [List.length_modify] at hlt
    obtain ⟨t'', ht'', hiff⟩ := (exists_of_modify fun t _ => cancel_phase t).1 ht'
    exact hiff.2 (hmoved i t'' ht'' (by omega))

/-- A user who waits starts a task when no other one is under way. -/
theorem alone_step {a a' : IperfTest} {e : TaskEvent} {o : List TaskEffect} (ha : a.Alone)
    (hpatient : a.Patient e) (h : a.step e = some (a', o)) : a'.Alone := by
  obtain ⟨he, -, hflag, -, hi, hcur, hthread, command, htasks⟩ | ⟨k, -, hk, -, hi, hcur, hthread, htasks⟩ |
    ⟨k, t, -, hk, ht, -, hi, hcur, hthread, htasks⟩ | ⟨k, t, p, -, -, hk, ht, hp, -, rfl | rfl⟩ |
    ⟨-, -, -, commands, text, rfl⟩ := step_cases ha.toggled h
  · -- a start
    have hdone := hpatient he hflag
    refine ⟨hi, ?_, ?_, ?_⟩
    · intro i t ht hlt
      rw [htasks] at ht hlt
      rw [List.length_append, List.length_singleton] at hlt
      rw [List.getElem?_append_left (by omega)] at ht
      exact hdone t (List.mem_of_getElem? ht)
    · intro j hj
      rw [hcur, Option.some.injEq] at hj
      rw [htasks, List.length_append, List.length_singleton, hj]
    · intro users hu j hj
      rw [hthread] at hu
      obtain ⟨t, ht, hphase⟩ := ha.users users hu j hj
      exact absurd (hdone t (List.mem_of_getElem? ht)) hphase
  · exact ha.modify hi htasks (fun t _ => cancel_phase t) (by simp [hcur]) (by rw [hthread]; exact ha.users)
  · exact ha.deliver hk (by simp [ht]) hi hcur hthread htasks
  · exact ha.moved hk ht hp
  · refine (ha.moved hk ht hp).startServer (t := { t with phase := p }) ?_ hp
    unfold IperfTest.moved
    rw [List.getElem?_modify_eq, hk]
    rfl
  · exact ⟨ha.toggled.congr rfl rfl rfl, ha.earlier, ha.current, ha.users⟩

end IperfTest

/-- **A user who waits.** If the user starts a task only when the ends of the earlier ones have been delivered,
then no end is delivered while another task is current or uses the reader. -/
theorem undisturbed_of_patient {steps : List (Taken IperfTest TaskEvent (List TaskEffect))} {a : IperfTest}
    (h : Run IperfTest.step IperfTest.Created steps a) (hpatient : ∀ t ∈ steps, t.before.Patient t.event) :
    ∀ t ∈ steps, t.before.Undisturbed t.event := by
  intro t ht
  have halone : t.before.Alone := h.invariant_before IperfTest.Patient IperfTest.Alone
    (fun s hs => IperfTest.alone_of_created hs) (fun s e s' o ha hp hs => IperfTest.alone_step ha hp hs)
    hpatient ht
  obtain ⟨hs, -⟩ := h.taken ht
  intro k hk
  rw [hk] at hs
  simp only [IperfTest.step] at hs
  cases htask : t.before.tasks[k]? with
  | none => simp [htask] at hs
  | some task =>
    by_cases hphase : task.phase = .returned
    · exact halone.undisturbed htask hphase k rfl
    · simp [htask, hphase] at hs

/-! ## The ends of the tasks in a run -/

/-- **Whose end ends what.** In a run, whatever is done to a task is done by the user while it is the current
one or at its own end, exactly if no end of a task is delivered while another one is current or uses the
reader. -/
theorem ends_own_only_iff {steps : List (Taken IperfTest TaskEvent (List TaskEffect))} {a : IperfTest}
    (h : Run IperfTest.step IperfTest.Created steps a) :
    (∀ t ∈ steps, EndsOwnOnly t) ↔ ∀ t ∈ steps, t.before.Undisturbed t.event := by
  apply h.forall_iff IperfTest.Toggled
  · intro s hs
    exact IperfTest.toggled_of_created hs
  · intro s e s' o hi hs
    exact IperfTest.toggled_step hi hs
  · intro t hi hs
    exact endsOwnOnly_iff hi hs

/-- The activity of an app that has never been used -/
def IperfTest.fresh : IperfTest := ⟨Commands.empty, "iperf -s", false, false, none, [], none⟩

theorem IperfTest.fresh_created : IperfTest.fresh.Created := ⟨rfl, rfl, rfl, rfl, rfl⟩

/-- One task, from its start to its end. -/
theorem ends_own_only_once : ∃ steps a, Run IperfTest.step IperfTest.Created steps a ∧
    (∃ t ∈ steps, t.event = .deliver 0 ∧ .stopReader [0] ∈ t.output) ∧ ∀ t ∈ steps, EndsOwnOnly t := by
  obtain ⟨steps, a, hrun, hP⟩ := Run.exists_of_follow IperfTest.step IperfTest.fresh_created
    [.toggle, .begin 0, .startServer 0, .finish 0, .deliver 0]
    (fun r => (r.1.any fun t => decide (t.event = .deliver 0) && t.output.contains (.stopReader [0])) &&
      r.1.all fun t => decide (t.before.Patient t.event)) (by decide)
  simp only [List.any_eq_true, List.all_eq_true, Bool.and_eq_true, decide_eq_true_eq,
    List.contains_iff_mem] at hP
  exact ⟨steps, a, hrun, hP.1, (ends_own_only_iff hrun).2 (undisturbed_of_patient hrun hP.2)⟩

/-- The user cancels a task and starts another one before the end of the first one is delivered. -/
theorem ends_another : ¬ ∀ steps a, Run IperfTest.step IperfTest.Created steps a →
    ∀ t ∈ steps, EndsOwnOnly t := by
  intro hall
  obtain ⟨steps, a, hrun, hP⟩ := Run.exists_of_follow IperfTest.step IperfTest.fresh_created
    [.toggle, .begin 0, .startServer 0, .toggle, .finish 0, .toggle, .begin 1, .startServer 1, .deliver 0]
    (fun r => r.1.any fun t => decide (t.event = .deliver 0) && t.output.contains (.cancel 1))
    (by decide)
  simp only [List.any_eq_true, Bool.and_eq_true, decide_eq_true_eq, List.contains_iff_mem] at hP
  obtain ⟨t, ht, hevent, hcancel⟩ := hP
  have hown := hall steps a hrun t ht (.cancel 1) hcancel 1 rfl
  rw [hevent] at hown
  simp at hown

end WifiTest
