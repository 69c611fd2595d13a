import WifiTestTool.App.Java

/-!
# Reading the reports (`ParseIperDataHelper.java`, `IperfTestActivity.java`)

The app takes a line of an interval report apart at its blanks and draws a point for it.
-/

namespace WifiTest

structure DataBean where
  endtime : Text
  bitrate : Text
  transfer : Text
deriving DecidableEq, Repr

/-- The loop over `datas`. -/
def findEndtime : List Text → Except AppException Text
  | [] => .ok []
  | data :: datas =>
    if data.contains "-".toList then Text.item (data.split "-".toList) 1 else findEndtime datas

/-- The loop over `bitrates`, with the last `transfer`: the bit rate and the transfer. -/
def findBitrate : List Text → Text → Text × Text
  | [], transfer => ([], transfer)
  | bit :: bitrates, transfer =>
    if bit.contains "/sec".toList then (bit, transfer)
    else findBitrate bitrates (if bit.contains "Byte".toList then bit else transfer)

/-- `ParseIperDataHelper.parseData`; the text `socket` is only logged. -/
def parseData (formatdata : Text) : Except AppException DataBean := do
  let _socket ← formatdata.substring (formatdata.indexOf "[".toList) (formatdata.indexOf "]".toList + 1)
  let endtime ← findEndtime (formatdata.split " ".toList)
  let (bitrate, transfer) := findBitrate (formatdata.split "  ".toList) []
  pure ⟨endtime, bitrate, transfer⟩

/-- `PointValue` -/
structure PointValue where
  x : ℚ
  y : ℚ
deriving DecidableEq, Repr

/-- `drawLinePort`, as far as it makes the new point -/
def drawLinePort (bean : DataBean) : Except AppException PointValue := do
  let bitrate ← floatValueOf (← Text.item (bean.bitrate.split " ".toList) 0)
  let endTime ← floatValueOf bean.endtime
  pure ⟨endTime, bitrate⟩

/-- `readLine`, on a text with a line in it -/
def readLine (s : Text) : Text := s.takeWhile fun c => c ≠ '\n'

/-- What the app does with the text of an interval report. -/
def readReport (s : Text) : Except AppException PointValue := do
  drawLinePort (← parseData (readLine s))

end WifiTest
