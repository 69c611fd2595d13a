import WifiTestTool.App.Java

/-!
# The list of access points (`AgingTestActivity.java`, `MyWifiInfo.java`)

What the receiver of the broadcast `SCAN_RESULTS_AVAILABLE_ACTION` puts into the list `mData`: the results of
the scan, the nearest first, with one entry for all access points that have the same name.
-/

namespace WifiTest

/-- What the app reads of a `ScanResult`. -/
structure ScanResult where
  ssid : Text
  level : Int32
  frequency : Int32
deriving DecidableEq

/-- `MyWifiInfo`; `supportFreq` is 1 for 2.4G, 2 for 5G, and 3 for both. -/
structure MyWifiInfo where
  result : ScanResult
  supportFreq : Int32
deriving DecidableEq

namespace MyWifiInfo

/-- `isSupport24G` -/
def isSupport24G (info : MyWifiInfo) : Bool := info.supportFreq = 1

/-- `isSupport5G` -/
def isSupport5G (info : MyWifiInfo) : Bool := info.supportFreq = 2

/-- `setSupportFreq` -/
def setSupportFreq (info : MyWifiInfo) (supportFreq : Int32) : MyWifiInfo :=
  { info with supportFreq := supportFreq }

end MyWifiInfo

/-- `frequencySupport` -/
def frequencySupport (frequency tmpfreq : Int32) : Int32 :=
  let tmpfreq := if frequency / 2000 = 1 then tmpfreq <<< 1 else tmpfreq
  let tmpfreq := if frequency / 5000 = 1 then tmpfreq <<< 2 else tmpfreq
  if tmpfreq &&& 0x0002 ≠ 0 then 1
  else if tmpfreq &&& 0x0004 ≠ 0 then 2
  else if tmpfreq &&& 0x0008 ≠ 0 then 3
  else 0

/-- The comparator of the sort. -/
def compareResults (rt1 rt2 : ScanResult) : Int32 := rt1.level.abs - rt2.level.abs

/-- `Collections.sort`, which is stable -/
def sortResults (results : List ScanResult) : List ScanResult :=
  results.mergeSort fun rt1 rt2 => compareResults rt1 rt2 ≤ 0

/-- What the inner loop does to an entry that has the name of the result. -/
def MyWifiInfo.addFrequency (frequency : Int32) (info : MyWifiInfo) : MyWifiInfo :=
  if info.supportFreq = 3 then
    info
  else
    let info :=
      if info.supportFreq ≠ 1 then
        if frequency / 2000 = 1 then
          if info.isSupport5G then info.setSupportFreq 3 else info.setSupportFreq 1
        else info
      else info
    if info.supportFreq ≠ 2 then
      if frequency / 5000 = 1 then
        if info.isSupport24G then info.setSupportFreq 3 else info.setSupportFreq 2
      else info
    else info

/-- The inner loop: the entries, and `hasdup`. -/
def mergeResult (result : ScanResult) : List MyWifiInfo → List MyWifiInfo × Bool
  | [] => ([], false)
  | info :: temps =>
    let rest := mergeResult result temps
    if info.result.ssid = result.ssid then (info.addFrequency result.frequency :: rest.1, true)
    else (info :: rest.1, rest.2)

/-- A new entry. -/
def newInfo (result : ScanResult) (freq : Int32) : MyWifiInfo := ⟨result, frequencySupport result.frequency freq⟩

/-- The body of the outer loop. -/
def addResult (temps : List MyWifiInfo) (result : ScanResult) : List MyWifiInfo :=
  let freq := 0x0001
  if result.ssid ≠ [] then
    if temps ≠ [] then
      let merged := mergeResult result temps
      if !merged.2 then merged.1 ++ [newInfo result freq] else merged.1
    else temps ++ [newInfo result freq]
  else temps

/-- The list `mData` after the results of a scan have come. -/
def onScanResults (_mData : List MyWifiInfo) (results : List ScanResult) : List MyWifiInfo :=
  -- The list is cleared first.
  [] ++ (sortResults results).foldl addResult []

/-! ## The purpose -/

/-- The strength of a signal: the smaller the absolute value of the level, the nearer the access point. -/
def ScanResult.distance (r : ScanResult) : Nat := r.level.toInt.natAbs

/-- An access point of that name sends in the band from `low` to `high` MHz. -/
def SendsIn (low high : Int) (ssid : Text) (results : List ScanResult) : Prop :=
  ∃ r ∈ results, r.ssid = ssid ∧ low ≤ r.frequency.toInt ∧ r.frequency.toInt ≤ high

instance (low high : Int) (ssid : Text) (results : List ScanResult) :
    Decidable (SendsIn low high ssid results) := inferInstanceAs (Decidable (∃ r ∈ results, _ ∧ _ ∧ _))

/-- The entries `mData` are the results merged by their names. -/
structure Merged (results : List ScanResult) (mData : List MyWifiInfo) : Prop where
  /-- There is one entry for each name. -/
  nodup : (mData.map fun info => info.result.ssid).Nodup
  names : ∀ ssid, ssid ∈ mData.map (fun info => info.result.ssid) ↔ ssid ≠ [] ∧ ∃ r ∈ results, r.ssid = ssid
  /-- It holds the nearest access point of that name. -/
  nearest : ∀ info ∈ mData, info.result ∈ results ∧
    ∀ r ∈ results, r.ssid = info.result.ssid → info.result.distance ≤ r.distance
  /-- The nearest name comes first. -/
  sorted : mData.Pairwise fun i j => i.result.distance ≤ j.result.distance
  /-- It knows the bands of all access points of that name. -/
  bands : ∀ info ∈ mData, info.supportFreq =
    (if SendsIn 2000 3999 info.result.ssid results then 1 else 0) +
      if SendsIn 5000 9999 info.result.ssid results then 2 else 0

end WifiTest
