import WifiTestTool.App.ParseIperData

/-!
# The messages of iperf on the screen (`IperfTestActivity.java`)

`onProgressUpdate` gets the first line of every message. It shows some of the lines as text, and draws a
point for those that it takes for interval reports.
-/

namespace WifiTest

namespace Text

/-- `startsWith` -/
def startsWith (s part : Text) : Bool := part.isPrefixOf s

/-- `endsWith` -/
def endsWith (s part : Text) : Bool := part.isSuffixOf s

/-- `replace` -/
def replace (s target replacement : Text) : Text := replacement.intercalate (pieces target 0 [] s)

end Text

def IPERF_AVG : Text := "[ ID] Interval           Transfer     Bandwidth       Retr\n".toList

/-- What `onProgressUpdate` appends to the shown text. -/
def appended (value : Text) : Text :=
  (if value.startsWith "iperf".toList then value.replace "iperf".toList [] ++ ['\n'] else []) ++
    if value.endsWith "sender".toList || value.endsWith "receiver".toList then
      (if value.endsWith "sender".toList then IPERF_AVG else []) ++ value ++ ['\n']
    else []

/-- The line is taken for an interval report. -/
def looksLikeReport (value : Text) : Bool :=
  !value.endsWith "sender".toList && !value.endsWith "receiver".toList && value.contains "bits/sec".toList

/-- What is on the screen: the text `sb` and the points of the chart. `calls` counts the calls of
`drawLinePort`. -/
structure Screen where
  sb : Text
  pointValueList : List PointValue
  calls : Nat
deriving DecidableEq, Repr

/-- `drawLinePort` on the screen. An exception ends the app; the call has been made. -/
def Screen.draw (s : Screen) (bean : DataBean) : Screen × Option AppException :=
  match drawLinePort bean with
  | .error e => ({ s with calls := s.calls + 1 }, some e)
  | .ok p => ({ s with calls := s.calls + 1, pointValueList := s.pointValueList ++ [p] }, none)

/-- `onProgressUpdate` -/
def onProgressUpdate (value : Text) (s : Screen) : Screen × Option AppException :=
  let s := { s with sb := s.sb ++ appended value }
  if looksLikeReport value then
    match parseData value with
    | .error e => (s, some e)
    | .ok bean => s.draw bean
  else
    (s, none)

end WifiTest
