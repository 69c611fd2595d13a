import WifiTestTool.App.AgingTest
import WifiTestTool.App.Proofs.AgingProofs

/-!
# The aging test: what the counters count

A callback counts by what `networkInfo` says, and only `onResume` renews it: it says whether Wi-Fi was
connected then (`networkInfo_eq`, by induction on the run). So the counters tell the truth exactly as long
as every callback finds Wi-Fi as the last `onResume` has found it (`counters_tell_truth_iff`).
-/

namespace WifiTest

open Events

namespace AgingTest

@[simp] theorem onCheckedChanged_networkInfo (b : Bool) (a : AgingTest) :
    (onCheckedChanged b a).networkInfo = a.networkInfo := by
  cases b <;> rfl

@[simp] theorem performClick_networkInfo (a : AgingTest) : a.performClick.networkInfo = a.networkInfo := by
  simp [performClick]

@[simp] theorem handleMessage_networkInfo (a : AgingTest) (msg : Message) :
    (a.handleMessage msg).networkInfo = a.networkInfo := by
  cases msg <;> simp only [handleMessage]
  split <;> simp

@[simp] theorem resetClick_networkInfo (a : AgingTest) : a.resetClick.networkInfo = a.networkInfo := by
  simp only [resetClick]
  split <;> simp

@[simp] theorem saveWifiConnectState_networkInfo (a : AgingTest) :
    a.saveWifiConnectState.networkInfo = a.networkInfo := by
  simp only [saveWifiConnectState]
  split_ifs <;> rfl

/-- Only `onResume` renews what is known of the network. -/
theorem step_networkInfo {a a' : AgingTest} {e : AgingEvent} {o : List Message}
    (h : a.step e = some (a', o)) (he : ∀ connected, e ≠ .resume connected) :
    a'.networkInfo = a.networkInfo := by
  cases e with
  | resume connected => exact absurd rfl (he connected)
  | test =>
    simp only [step] at h
    cases htest : a.testClick with
    | error e => simp [htest] at h
    | ok a₁ =>
      simp only [htest, Option.some.injEq, Prod.mk.injEq] at h
      obtain ⟨rfl, -⟩ := h
      obtain ⟨-, rfl⟩ | ⟨n, -, -, ⟨-, rfl⟩ | ⟨-, rfl⟩⟩ := testClick_cases htest <;> rfl
  | handle =>
    simp only [step] at h
    cases hm : a.messages with
    | nil => simp [hm] at h
    | cons msg messages =>
      simp only [hm, Option.some.injEq, Prod.mk.injEq] at h
      obtain ⟨rfl, -⟩ := h
      simp
  | scanResults n =>
    simp only [step, Option.some.injEq, Prod.mk.injEq] at h
    obtain ⟨rfl, -⟩ := h
    split <;> rfl
  | editCount text =>
    simp only [step, Option.ite_none_right_eq_some, Option.some.injEq, Prod.mk.injEq] at h
    obtain ⟨-, rfl, -⟩ := h
    rfl
  | turn i =>
    simp only [step, Option.ite_none_right_eq_some, Option.some.injEq, Prod.mk.injEq] at h
    obtain ⟨-, rfl, -⟩ := h
    rfl
  | poll i =>
    simp only [step, Option.ite_none_right_eq_some, Option.some.injEq, Prod.mk.injEq] at h
    obtain ⟨-, rfl, -⟩ := h
    rfl
  | _ =>
    simp only [step, Option.some.injEq, Prod.mk.injEq] at h
    obtain ⟨rfl, -⟩ := h
    simp

/-- What a callback adds while the switch is on. -/
theorem saveWifiConnectState_counts {a : AgingTest} (h : a.mWifiSwitch = true) :
    (a.saveWifiConnectState.success, a.saveWifiConnectState.fail) =
      if a.networkInfo then (a.success + 1, a.fail) else (a.success, a.fail + 1) := by
  rw [saveWifiConnectState, if_pos h]
  split_ifs <;> rfl

end AgingTest

namespace AgingDevice

theorem react_eq_some {d d' : AgingDevice} {e : AgingEvent} {o : List Message}
    (h : d.react e = some (d', o)) : d.app.step e = some (d'.app, o) ∧ d'.wifi = d.wifi := by
  unfold react at h
  cases hstep : d.app.step e with
  | none => simp [hstep] at h
  | some r =>
    simp only [hstep, Option.map_some, Option.some.injEq, Prod.mk.injEq] at h
    obtain ⟨rfl, rfl⟩ := h
    exact ⟨rfl, rfl⟩

/-- What is known of the network after a step. -/
theorem step_networkInfo {d d' : AgingDevice} {e : DeviceEvent} {o : List Message}
    (h : d.step e = some (d', o)) :
    d'.app.networkInfo = if e = .resume then d.wifi else d.app.networkInfo := by
  cases e with
  | connect =>
    simp only [step, Option.some.injEq, Prod.mk.injEq] at h
    obtain ⟨rfl, -⟩ := h
    rfl
  | disconnect =>
    simp only [step, Option.some.injEq, Prod.mk.injEq] at h
    obtain ⟨rfl, -⟩ := h
    rfl
  | resume =>
    obtain ⟨happ, -⟩ := react_eq_some h
    simp only [AgingTest.step, Option.some.injEq, Prod.mk.injEq] at happ
    rw [if_pos rfl, ← happ.1]
  | app e =>
    rw [if_neg (by simp)]
    cases e with
    | resume connected => simp [step] at h
    | _ => exact AgingTest.step_networkInfo (react_eq_some h).1 (by simp)

end AgingDevice

/-- In a run, the activity knows of the network what the last `onResume` has found. -/
theorem networkInfo_eq {first : Bool} {steps : List (Taken AgingDevice DeviceEvent (List Message))}
    {d : AgingDevice} (h : Run AgingDevice.step (AgingDevice.Resumed first) steps d) :
    d.app.networkInfo = connectedAtResume first steps := by
  induction h with
  | start h => exact h.2.1
  | next h hs ih =>
    rw [AgingDevice.step_networkInfo hs, ih, connectedAtResume, connectedAtResume, List.foldl_append]
    rfl

/-- A callback tells the truth exactly if the network is as the activity knows it. -/
theorem tellsTruth_iff {t : Taken AgingDevice DeviceEvent (List Message)}
    (hs : t.before.step t.event = some (t.after, t.output)) :
    TellsTruth t ↔ (IsCallback t → t.before.wifi = t.before.app.networkInfo) := by
  refine forall_congr' fun hcall => ?_
  have happ : t.before.app.step .available = some (t.after.app, t.output) := by
    rw [hcall.1] at hs
    exact (AgingDevice.react_eq_some hs).1
  simp only [AgingTest.step, Option.some.injEq, Prod.mk.injEq] at happ
  rw [← happ.1, AgingTest.saveWifiConnectState_counts hcall.2]
  have hne : ∀ n : Int32, n + 1 ≠ n := by
    intro n hn
    exact absurd (Int32.add_eq_left.1 hn) (by decide)
  cases t.before.wifi <;> cases t.before.app.networkInfo <;> simp [hne, Ne.symm (hne _)]

/-- **What the counters count.** In every run, all callbacks tell the truth exactly if every callback with
the switch on finds Wi-Fi connected or not as the last `onResume` before it has. -/
theorem counters_tell_truth_iff {first : Bool} {steps : List (Taken AgingDevice DeviceEvent (List Message))}
    {d : AgingDevice} (h : Run AgingDevice.step (AgingDevice.Resumed first) steps d) :
    (∀ t ∈ steps, TellsTruth t) ↔ ∀ earlier t later, steps = earlier ++ t :: later → IsCallback t →
      t.before.wifi = connectedAtResume first earlier := by
  have hone : ∀ earlier t later, steps = earlier ++ t :: later →
      (TellsTruth t ↔ (IsCallback t → t.before.wifi = connectedAtResume first earlier)) := by
    intro earlier t later hsplit
    subst hsplit
    obtain ⟨hrun, hs⟩ := h.upto
    rw [tellsTruth_iff hs, networkInfo_eq hrun]
  constructor
  · intro htruth earlier t later hsplit
    exact (hone earlier t later hsplit).1 (htruth t (by simp [hsplit]))
  · intro hsame t ht
    obtain ⟨earlier, later, hsplit⟩ := List.append_of_mem ht
    exact (hone earlier t later hsplit).2 (hsame earlier t later hsplit)

/-- The activity on a device whose Wi-Fi is connected or not. -/
def AgingDevice.fresh (connected : Bool) : AgingDevice :=
  ⟨{ AgingTest.fresh with networkInfo := connected }, connected⟩

theorem AgingDevice.fresh_resumed (connected : Bool) : (AgingDevice.fresh connected).Resumed connected :=
  ⟨⟨rfl, rfl, rfl, rfl, rfl, rfl, rfl⟩, rfl, rfl⟩

/-- Wi-Fi is lost and comes back, and the user looks at the activity each time before the callback. -/
theorem counters_tell_truth_resumed : ∃ steps d, Run AgingDevice.step (AgingDevice.Resumed true) steps d ∧
    (∃ t ∈ steps, IsCallback t) ∧ ∀ earlier t later, steps = earlier ++ t :: later → IsCallback t →
      t.before.wifi = connectedAtResume true earlier := by
  obtain ⟨steps, d, hrun, hP⟩ := Run.exists_of_follow AgingDevice.step (AgingDevice.fresh_resumed true)
    [.disconnect, .resume, .app .available, .connect, .resume, .app .available]
    (fun r => (r.1.any fun t => decide (IsCallback t)) && r.1.all fun t => decide (TellsTruth t))
    (by decide)
  simp only [Bool.and_eq_true, List.any_eq_true, List.all_eq_true, decide_eq_true_eq] at hP
  exact ⟨steps, d, hrun, hP.1, (counters_tell_truth_iff hrun).1 hP.2⟩

/-- The activity starts while Wi-Fi is off. It comes up, and the callback for it counts a failure. -/
theorem counters_refuted : ¬ ∀ first steps d, Run AgingDevice.step (AgingDevice.Resumed first) steps d →
    ∀ t ∈ steps, TellsTruth t := by
  intro hall
  obtain ⟨steps, d, hrun, hP⟩ := Run.exists_of_follow AgingDevice.step (AgingDevice.fresh_resumed false)
    [.connect, .app .available] (fun r => r.1.any fun t => decide (¬ TellsTruth t)) (by decide)
  simp only [List.any_eq_true, decide_eq_true_eq] at hP
  obtain ⟨t, ht, hlies⟩ := hP
  exact hlies (hall false steps d hrun t ht)

end WifiTest
