import Mathlib.Data.Finmap
import WifiTestTool.App.Java

/-!
# The saved commands (`IperfTestActivity.java`, `PopupWindowAdapter.java`)

The app keeps the commands that were run in the preferences `etcommand`, under the keys `cmd0`, `cmd1` and
so on, and shows them in a popup list with a button to delete each of them.
-/

namespace WifiTest

/-- The preferences, as `getAll` returns them. -/
abbrev Preferences : Type := Finmap fun _ : String => String

/-- `"cmd" + i` -/
def cmd (i : Nat) : String := "cmd" ++ Nat.repr i

/-- `map.size()` -/
def Preferences.size (map : Preferences) : Nat := map.keys.card

/-- What the activity keeps of the commands. The entries of `popuplist` may be `null`; `showing` says that
the popup, which is modal, is on the screen. -/
structure Commands where
  sharedPreferences : Preferences
  popuplist : List (Option String)
  showing : Bool
deriving DecidableEq

namespace Commands

/-- The commands of an app that has never been used. -/
def empty : Commands := ⟨∅, [], false⟩

/-- The loop of `saveCommandList`: is `text` one of the commands? -/
def isduplicate (map : Preferences) (text : String) : List Nat → Except AppException Bool
  | [] => .ok false
  | i :: is =>
    match map.lookup (cmd i) with
    | none => .error .nullPointer
    | some command => if command = text then .ok true else isduplicate map text is

/-- `saveCommandList`, with `text` in the text field -/
def saveCommandList (text : String) (a : Commands) : Except AppException Commands :=
  if text = "" then
    .ok a
  else
    match isduplicate a.sharedPreferences text (List.range a.sharedPreferences.size) with
    | .error e => .error e
    | .ok true => .ok a
    | .ok false =>
      .ok { a with sharedPreferences := a.sharedPreferences.insert (cmd a.sharedPreferences.size) text }

/-- `getPopupWindowList` -/
def getPopupWindowList (a : Commands) : Commands :=
  { a with popuplist :=
      (List.range a.sharedPreferences.size).map fun i => a.sharedPreferences.lookup (cmd i) }

/-- `onClick` of the delete button at `position`, with `onSuccess` -/
def onClick (position : Nat) (a : Commands) : Except AppException Commands :=
  if position < a.popuplist.length then
    .ok { a with
      popuplist := a.popuplist.eraseIdx position
      sharedPreferences := a.sharedPreferences.erase (cmd position) }
  else
    .error .indexOutOfBounds

end Commands

/-- What the user does. -/
inductive Event where
  /-- A command is run and saved; the popup is not on the screen then. -/
  | save (text : String)
  /-- The popup is shown. -/
  | showList
  /-- The delete button at a position of the popup is clicked. -/
  | delete (position : Nat)
deriving DecidableEq, Repr

/-- The reaction of the app. -/
def Commands.step (a : Commands) : Event → Except AppException Commands
  | .save text => { a with showing := false }.saveCommandList text
  | .showList => .ok { a.getPopupWindowList with showing := true }
  | .delete position => a.onClick position

/-- A session: the app from its first use on. -/
def Commands.run (events : List Event) : Except AppException Commands := events.foldlM step empty

/-! ## The purpose -/

/-- The commands that were saved and not deleted since, and those of them that are on the screen. -/
structure Saved where
  stored : List String
  shown : List String
deriving DecidableEq

/-- What an event means for the saved commands. -/
def Saved.step (c : Saved) : Event → Saved
  | .save text => if text = "" ∨ text ∈ c.stored then c else { c with stored := c.stored ++ [text] }
  | .showList => { c with shown := c.stored }
  | .delete position =>
    match c.shown[position]? with
    | none => c
    | some text => ⟨c.stored.erase text, c.shown.eraseIdx position⟩

def Saved.run (events : List Event) : Saved := events.foldl step ⟨[], []⟩

/-- The store is what it is for: its keys are `cmd0` to `cmd(n-1)`, and the list that would be shown is
that of the saved commands. -/
structure Commands.Faithful (c : Saved) (a : Commands) : Prop where
  keys : a.sharedPreferences.keys = (Finset.range c.stored.length).image cmd
  list : a.getPopupWindowList.popuplist = c.stored.map some

end WifiTest
