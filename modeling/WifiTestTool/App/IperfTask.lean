import WifiTestTool.App.CommandStore
import WifiTestTool.App.Validator
import WifiTestTool.Lib.Events

/-!
# The tasks that run iperf (`IperfTestActivity.java`, `ReadIperfDataHelper.java`)

The toggle button starts a `DoIperfTask`, and cancels it. A task runs in the background; it starts the thread
that reads what iperf prints, unless there is one, and when it has ended `onPostExecute` or `onCancelled` is
called on the main thread, some time later. Both stop the reader and switch the button off, which calls the
listener of the button again.

`AsyncTask` runs the tasks one after the other, in the order they were started in. A task that is cancelled
before it could run does not run. `setChecked` calls the listener if the button changes.
-/

namespace WifiTest

open Events

/-- How far a task has got. -/
inductive Phase where
  /-- It waits for its turn. -/
  | queued
  /-- It is in `doInBackground`, before `startServer`. -/
  | running
  /-- It is in `doInBackground`, after `startServer`. -/
  | reading
  /-- `doInBackground` has returned, or will not be called. -/
  | returned
  /-- `onPostExecute` or `onCancelled` has been called. -/
  | delivered
deriving DecidableEq, Repr

/-- A task, with the command it was started with. -/
structure DoIperfTask where
  command : Text
  phase : Phase
  cancelled : Bool
deriving DecidableEq, Repr

/-- `cancel(true)` -/
def DoIperfTask.cancel (t : DoIperfTask) : DoIperfTask :=
  { t with phase := if t.phase = .queued then .returned else t.phase, cancelled := true }

/-- The activity with the tasks it has started, in their order; `mIperTask` is the place of one of them. Of
the reader thread `mThread` the tasks are kept that have called `startServer` since it was started. -/
structure IperfTest where
  commands : Commands
  mCommandEt : String
  mToggleButton : Bool
  isDoExecCommand : Bool
  mIperTask : Option Nat
  tasks : List DoIperfTask
  mThread : Option (List Nat)
deriving DecidableEq

/-- What is done to tasks. -/
inductive TaskEffect where
  /-- `mIperTask.cancel(true)` -/
  | cancel (k : Nat)
  /-- The reader of these tasks is stopped. -/
  | stopReader (users : List Nat)
deriving DecidableEq, Repr

namespace IperfTest

/-- The activity after `onCreate`. -/
def Created (a : IperfTest) : Prop :=
  a.mToggleButton = false ∧ a.isDoExecCommand = false ∧ a.mIperTask = none ∧ a.tasks = [] ∧ a.mThread = none

/-- `onCheckedChanged` -/
def onCheckedChanged (a : IperfTest) : Except AppException (IperfTest × List TaskEffect) :=
  if a.isDoExecCommand = false then
    match a.commands.step (.save a.mCommandEt) with
    | .error e => .error e
    | .ok commands =>
      let a := { a with isDoExecCommand := true, commands := commands }
      if a.mIperTask = none then
        .ok ({ a with
          mIperTask := some a.tasks.length
          tasks := a.tasks ++ [⟨a.mCommandEt.toList, .queued, false⟩] }, [])
      else
        .ok (a, [])
  else
    match a.mIperTask with
    | none => .error .nullPointer
    | some k =>
      .ok ({ a with tasks := a.tasks.modify k .cancel, mIperTask := none, isDoExecCommand := false },
        [.cancel k])

/-- `setChecked` of the button -/
def setChecked (checked : Bool) (a : IperfTest) : Except AppException (IperfTest × List TaskEffect) :=
  if a.mToggleButton = checked then .ok (a, [])
  else { a with mToggleButton := checked }.onCheckedChanged

/-- `startServer`, called by the task `k` -/
def startServer (k : Nat) (a : IperfTest) : IperfTest :=
  match a.mThread with
  | none => { a with mThread := some [k] }
  | some users => { a with mThread := some (users ++ [k]) }

/-- `stop` -/
def stop (a : IperfTest) : IperfTest × List TaskEffect :=
  match a.mThread with
  | none => (a, [])
  | some users => ({ a with mThread := none }, [.stopReader users])

/-- `onPostExecute`, and `onCancelled` -/
def onPostExecute (a : IperfTest) : Except AppException (IperfTest × List TaskEffect) :=
  match a.stop.1.setChecked false with
  | .error e => .error e
  | .ok (a', effects) => .ok (a', a.stop.2 ++ effects)

/-- The task `k`, in another phase -/
def moved (k : Nat) (phase : Phase) (a : IperfTest) : IperfTest :=
  { a with tasks := a.tasks.modify k fun t => { t with phase := phase } }

/-- The executor can take the task `k`: no other one is running, or waits for longer. -/
def CanBegin (a : IperfTest) (k : Nat) : Prop :=
  (∀ t ∈ a.tasks, t.phase ≠ .running ∧ t.phase ≠ .reading) ∧ ∀ t ∈ a.tasks.take k, t.phase ≠ .queued

instance (a : IperfTest) (k : Nat) : Decidable (a.CanBegin k) := inferInstanceAs (Decidable (_ ∧ _))

end IperfTest

/-- What happens to the activity. -/
inductive TaskEvent where
  /-- The user writes a command. -/
  | edit (text : String)
  /-- The user opens the list of commands. -/
  | showList
  /-- The user deletes one of them. -/
  | delete (position : Nat)
  /-- The user clicks on the button. -/
  | toggle
  /-- The executor calls `doInBackground` of a task. -/
  | begin (k : Nat)
  /-- The task calls `startServer`; its command has passed the check. -/
  | startServer (k : Nat)
  /-- `doInBackground` returns: because of the check, or after the process has ended, or an exception. -/
  | finish (k : Nat)
  /-- `onPostExecute` of the task is called, or `onCancelled`. -/
  | deliver (k : Nat)
deriving DecidableEq, Repr

/-- A reaction of the main thread. An exception ends the app. -/
def ofMain (r : Except AppException (IperfTest × List TaskEffect)) : Option (IperfTest × List TaskEffect) :=
  match r with
  | .error _ => none
  | .ok r => some r

/-- The reaction to an event, with what is done to tasks. -/
def IperfTest.step (a : IperfTest) : TaskEvent → Option (IperfTest × List TaskEffect)
  | .edit text => some ({ a with mCommandEt := text }, [])
  | .showList => ofMain ((a.commands.step .showList).map fun commands => ({ a with commands := commands }, []))
  | .delete position =>
    ofMain ((a.commands.step (.delete position)).map fun commands => ({ a with commands := commands }, []))
  | .toggle => ofMain (a.setChecked !a.mToggleButton)
  | .begin k =>
    match a.tasks[k]? with
    | none => none
    | some t => if t.phase = .queued ∧ a.CanBegin k then some (a.moved k .running, []) else none
  | .startServer k =>
    match a.tasks[k]? with
    | none => none
    | some t =>
      match checkCommand t.command with
      | .ok (some _) => if t.phase = .running then some ((a.moved k .reading).startServer k, []) else none
      | _ => none
  | .finish k =>
    match a.tasks[k]? with
    | none => none
    | some t =>
      match t.phase, checkCommand t.command with
      | .reading, _ => some (a.moved k .returned, [])
      | .running, .ok none => some (a.moved k .returned, [])
      | _, _ => none
  | .deliver k =>
    match a.tasks[k]? with
    | none => none
    | some t => if t.phase = .returned then ofMain (a.moved k .delivered).onPostExecute else none

/-! ## The purpose -/

/-- The effect is on the task `j`. -/
def TaskEffect.On (j : Nat) : TaskEffect → Prop
  | .cancel k => j = k
  | .stopReader users => j ∈ users

/-- What is done to a task is done by the user while it is the current one, or at its own end. -/
def EndsOwnOnly (t : Taken IperfTest TaskEvent (List TaskEffect)) : Prop :=
  ∀ x ∈ t.output, ∀ j, x.On j → (t.event = .toggle ∧ t.before.mIperTask = some j) ∨ t.event = .deliver j

/-- When the end of a task is delivered, no other one is the current task, and no other one has called
`startServer` since the reader was started. -/
def IperfTest.Undisturbed (a : IperfTest) (e : TaskEvent) : Prop :=
  ∀ k, e = .deliver k →
    (∀ j, a.mIperTask = some j → j = k) ∧ ∀ users, a.mThread = some users → ∀ j ∈ users, j = k

/-- The user starts a task only when the ends of all earlier ones have been delivered. -/
def IperfTest.Patient (a : IperfTest) (e : TaskEvent) : Prop :=
  e = .toggle → a.isDoExecCommand = false → ∀ t ∈ a.tasks, t.phase = .delivered

instance (a : IperfTest) (e : TaskEvent) : Decidable (a.Patient e) := inferInstanceAs (Decidable (_ → _ → _))

end WifiTest
