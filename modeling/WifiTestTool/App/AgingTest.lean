import WifiTestTool.App.Java
import WifiTestTool.Lib.Events

/-!
# The Wi-Fi aging test (`AgingTestActivity.java`)

The test switches Wi-Fi off and on again, and counts in the preferences `data` how often the network came
back, until that has happened as often as the user asked for. A thread looks every ten seconds at what has
happened since; it asks the activity to switch, or to stop, through messages to `mHandler`.

Everything but the threads runs on the main thread, one event after the other. A thread takes a turn when it
looks at `isTestStart`, and one when it has slept and does the rest of its loop.
-/

namespace WifiTest

open Events

/-- What the threads send to `mHandler`. -/
inductive Message where
  | wifiSwitch
  | wifiTestStop
deriving DecidableEq, Repr

/-- Where a thread is. -/
inductive MyThread where
  /-- In front of its loop. -/
  | started
  /-- In its loop, before it looks at what has happened. -/
  | sleeping
  /-- In its loop, after that. -/
  | polled
  /-- Behind its loop. -/
  | ended
deriving DecidableEq, Repr

/-- The activity, its preferences `data`, the messages to its handler and the threads it has started. Of the
switch, of the text field and of the network only what is asked of them is kept: `isChecked()`, the text, and
`isConnected()`. -/
structure AgingTest where
  mCountEdit : Text
  mWifiSwitch : Bool
  mTestCount : Int32
  isTestStart : Bool
  isScanResult : Bool
  isConnected : Bool
  networkInfo : Bool
  success : Int32
  fail : Int32
  messages : List Message
  threads : List MyThread
deriving DecidableEq, Repr

namespace AgingTest

/-- The activity on the screen for the first time. The preferences keep what earlier tests have counted. -/
def Resumed (a : AgingTest) : Prop :=
  a.mCountEdit = [] ∧ a.mTestCount = 0 ∧ a.isTestStart = false ∧ a.isScanResult = false ∧
    a.isConnected = false ∧ a.messages = [] ∧ a.threads = []

/-- `onCheckedChanged` of the switch. What the system makes of `setWifiEnabled` comes back as other events. -/
def onCheckedChanged (b : Bool) (a : AgingTest) : AgingTest :=
  if b then a else { a with isConnected := false, isScanResult := false }

/-- `mWifiSwitch.performClick()` -/
def performClick (a : AgingTest) : AgingTest :=
  onCheckedChanged (!a.mWifiSwitch) { a with mWifiSwitch := !a.mWifiSwitch }

/-- The sum of the stored counts, as an `int`. -/
def count (a : AgingTest) : Int32 := a.success + a.fail

/-- `handleMessage` -/
def handleMessage (a : AgingTest) : Message → AgingTest
  | .wifiSwitch => if a.isTestStart && decide (a.count < a.mTestCount) then a.performClick else a
  | .wifiTestStop => { a with isTestStart := false }

/-- `onClick` of the test button -/
def testClick (a : AgingTest) : Except AppException AgingTest :=
  if a.mCountEdit = [] then
    .ok a
  else
    match integerValueOf a.mCountEdit with
    | .error e => .error e
    | .ok n =>
      if a.isTestStart then .ok { a with mTestCount := n, isTestStart := false }
      else .ok { a with mTestCount := n, isTestStart := true, threads := a.threads ++ [.started] }

/-- `onClick` of the reset button -/
def resetClick (a : AgingTest) : AgingTest :=
  let a := { a with mTestCount := 0, mCountEdit := [], isTestStart := false, success := 0, fail := 0 }
  if a.mWifiSwitch then a.performClick else a

/-- `saveWifiConnectState` -/
def saveWifiConnectState (a : AgingTest) : AgingTest :=
  if a.mWifiSwitch then
    if a.networkInfo then { a with isConnected := true, success := a.success + 1 }
    else { a with fail := a.fail + 1 }
  else a

/-- The messages of one round of `MyThread.run`. -/
def poll (a : AgingTest) : List Message :=
  (if a.mWifiSwitch && a.isConnected && a.isScanResult then [.wifiSwitch]
    else if !a.mWifiSwitch && !a.isConnected && !a.isScanResult then [.wifiSwitch]
    else []) ++
  if a.count = a.mTestCount then [.wifiTestStop] else []

end AgingTest

/-- What happens to the activity. -/
inductive AgingEvent where
  /-- The user writes into the text field, which takes digits only. -/
  | editCount (text : Text)
  /-- The user clicks on the test button. -/
  | test
  /-- The user clicks on the reset button. -/
  | reset
  /-- The user clicks on the switch. -/
  | switch
  /-- `onAvailable` of the network callback, and before API level 24 the broadcast `CONNECTIVITY_ACTION` -/
  | available
  /-- The broadcast `SCAN_RESULTS_AVAILABLE_ACTION` with `n` results -/
  | scanResults (n : Nat)
  /-- `onResume`, which asks for the state of the network -/
  | resume (connected : Bool)
  /-- The handler takes its next message. -/
  | handle
  /-- The thread `i` looks at `isTestStart`. -/
  | turn (i : Nat)
  /-- The thread `i` has slept, and looks at what has happened. -/
  | poll (i : Nat)
deriving DecidableEq, Repr

/-- The reaction to an event, with the messages that are sent. An exception ends the app. -/
def AgingTest.step (a : AgingTest) : AgingEvent → Option (AgingTest × List Message)
  | .editCount text => if text.all Char.isDigit then some ({ a with mCountEdit := text }, []) else none
  | .test =>
    match a.testClick with
    | .error _ => none
    | .ok a' => some (a', [])
  | .reset => some (a.resetClick, [])
  | .switch => some (a.performClick, [])
  | .available => some (a.saveWifiConnectState, [])
  | .scanResults n => some (if 0 < n && a.mWifiSwitch then { a with isScanResult := true } else a, [])
  | .resume connected => some ({ a with networkInfo := connected }, [])
  | .handle =>
    match a.messages with
    | [] => none
    | msg :: messages => some ({ a with messages := messages }.handleMessage msg, [])
  | .turn i =>
    if a.threads[i]? = some .started ∨ a.threads[i]? = some .polled then
      some ({ a with threads := a.threads.set i (if a.isTestStart then .sleeping else .ended) }, [])
    else none
  | .poll i =>
    if a.threads[i]? = some .sleeping then
      some ({ a with messages := a.messages ++ a.poll, threads := a.threads.set i .polled }, a.poll)
    else none

/-! ## The purpose -/

namespace AgingTest

/-- The network has come back, or failed to, as often as the user asked for. -/
def Reached (a : AgingTest) : Prop := a.mTestCount.toInt ≤ a.success.toInt + a.fail.toInt

/-- It has done so more often. -/
def Passed (a : AgingTest) : Prop := a.mTestCount.toInt < a.success.toInt + a.fail.toInt

instance (a : AgingTest) : Decidable a.Reached := inferInstanceAs (Decidable (_ ≤ _))

instance (a : AgingTest) : Decidable a.Passed := inferInstanceAs (Decidable (_ < _))

/-- A thread looks at what has happened. -/
def IsPoll : AgingEvent → Prop
  | .poll _ => True
  | _ => False

instance (e : AgingEvent) : Decidable (IsPoll e) := by
  cases e <;> unfold IsPoll <;> infer_instance

/-- The thread `i` is in its loop. -/
def InLoop (a : AgingTest) (i : Nat) : Prop :=
  a.threads[i]? = some .sleeping ∨ a.threads[i]? = some .polled

instance (a : AgingTest) (i : Nat) : Decidable (a.InLoop i) := inferInstanceAs (Decidable (_ ∨ _))

/-- No two threads are in their loops. -/
def OnePoller (a : AgingTest) : Prop := ∀ i j, a.InLoop i → a.InLoop j → i = j

/-- The event starts a test, and with it a thread. -/
def Starts (a : AgingTest) (e : AgingEvent) : Prop :=
  e = .test ∧ a.mCountEdit ≠ [] ∧ a.isTestStart = false

/-- If the event starts a thread, then all earlier ones have ended. -/
def StartsAlone (a : AgingTest) (e : AgingEvent) : Prop := a.Starts e → ∀ p ∈ a.threads, p = .ended

instance (a : AgingTest) (e : AgingEvent) : Decidable (a.StartsAlone e) :=
  inferInstanceAs (Decidable (_ ∧ _ → _))

end AgingTest

/-- A poll of a test that goes on and has counted enough sends the message to stop. -/
def StopsWhenReached (t : Taken AgingTest AgingEvent (List Message)) : Prop :=
  AgingTest.IsPoll t.event → t.before.isTestStart = true → t.before.Reached → .wifiTestStop ∈ t.output

/-- A poll of a test that goes on does not find more than was asked for. -/
def PolledInTime (t : Taken AgingTest AgingEvent (List Message)) : Prop :=
  AgingTest.IsPoll t.event → t.before.isTestStart = true → ¬ t.before.Passed

instance (t : Taken AgingTest AgingEvent (List Message)) : Decidable (StopsWhenReached t) :=
  inferInstanceAs (Decidable (_ → _))

instance (t : Taken AgingTest AgingEvent (List Message)) : Decidable (PolledInTime t) :=
  inferInstanceAs (Decidable (_ → _))

/-! ## The device -/

/-- The activity, and whether Wi-Fi is connected. -/
structure AgingDevice where
  app : AgingTest
  wifi : Bool
deriving DecidableEq, Repr

/-- What happens on the device. -/
inductive DeviceEvent where
  | connect
  | disconnect
  /-- The activity comes to the front. -/
  | resume
  /-- Another event of the activity -/
  | app (e : AgingEvent)
deriving DecidableEq, Repr

namespace AgingDevice

/-- The activity on the screen for the first time, when Wi-Fi is connected or not. -/
def Resumed (connected : Bool) (d : AgingDevice) : Prop :=
  d.app.Resumed ∧ d.app.networkInfo = connected ∧ d.wifi = connected

/-- The reaction of the activity to an event. -/
def react (d : AgingDevice) (e : AgingEvent) : Option (AgingDevice × List Message) :=
  (d.app.step e).map fun r => ({ d with app := r.1 }, r.2)

/-- What an event does. `onResume` asks the system, which answers with the connection at this time; the
object that it gets does not change afterwards. -/
def step (d : AgingDevice) : DeviceEvent → Option (AgingDevice × List Message)
  | .connect => some ({ d with wifi := true }, [])
  | .disconnect => some ({ d with wifi := false }, [])
  | .resume => d.react (.resume d.wifi)
  | .app (.resume _) => none
  | .app e => d.react e

end AgingDevice

/-- A callback for a network while the switch is on. -/
def IsCallback (t : Taken AgingDevice DeviceEvent (List Message)) : Prop :=
  t.event = .app .available ∧ t.before.app.mWifiSwitch = true

/-- A callback adds one to `success` if Wi-Fi is connected, and otherwise one to `fail`. -/
def TellsTruth (t : Taken AgingDevice DeviceEvent (List Message)) : Prop :=
  IsCallback t →
    (t.after.app.success, t.after.app.fail) =
      if t.before.wifi then (t.before.app.success + 1, t.before.app.fail)
      else (t.before.app.success, t.before.app.fail + 1)

instance (t : Taken AgingDevice DeviceEvent (List Message)) : Decidable (IsCallback t) :=
  inferInstanceAs (Decidable (_ ∧ _))

instance (t : Taken AgingDevice DeviceEvent (List Message)) : Decidable (TellsTruth t) :=
  inferInstanceAs (Decidable (_ → _))

/-- Whether Wi-Fi was connected at the last `onResume` of a run; `first` is the answer for the one before
the run. -/
def connectedAtResume (first : Bool) (steps : List (Taken AgingDevice DeviceEvent (List Message))) : Bool :=
  steps.foldl (fun b t => if t.event = .resume then t.before.wifi else b) first

end WifiTest
