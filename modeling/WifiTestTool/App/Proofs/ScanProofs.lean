import WifiTestTool.App.ScanResults
import Mathlib.Data.List.Sort

/-!
# The merged scan results

The sort puts the nearest access point of every name in front of the others of that name, and the loop makes
an entry of the first one and adds the bands of the others to it. The invariant of the loop, `Collected`,
says of the results that were seen so far what `Merged` says of all of them.
-/

namespace WifiTest

/-! ## Bands -/

/-- The frequency is in the 2.4G band. -/
def isBand24 (frequency : Int32) : Prop := 2000 ≤ frequency.toInt ∧ frequency.toInt ≤ 3999

/-- The frequency is in the 5G band. -/
def isBand5 (frequency : Int32) : Prop := 5000 ≤ frequency.toInt ∧ frequency.toInt ≤ 9999

instance (frequency : Int32) : Decidable (isBand24 frequency) := inferInstanceAs (Decidable (_ ∧ _))

instance (frequency : Int32) : Decidable (isBand5 frequency) := inferInstanceAs (Decidable (_ ∧ _))

theorem div_eq_one_iff (frequency : Int32) (n : Int32) (hn : 0 < n.toInt) :
    frequency / n = 1 ↔ n.toInt ≤ frequency.toInt ∧ frequency.toInt < 2 * n.toInt := by
  have hne : n ≠ -1 := by
    rintro rfl
    exact absurd hn (by decide)
  rw [← Int32.toInt_inj, Int32.toInt_div_of_ne_right _ _ hne]
  show frequency.toInt.tdiv n.toInt = 1 ↔ _
  rcases Int.le_total 0 frequency.toInt with hf | hf
  · rw [Int.tdiv_eq_ediv_of_nonneg hf]
    constructor
    · intro h
      have h₁ := Int.ediv_mul_le frequency.toInt (ne_of_gt hn)
      have h₂ := Int.lt_ediv_add_one_mul_self frequency.toInt hn
      rw [h] at h₁ h₂
      omega
    · rintro ⟨h₁, h₂⟩
      exact le_antisymm (Int.lt_add_one_iff.1 (Int.ediv_lt_of_lt_mul hn (by omega)))
        (Int.le_ediv_of_mul_le hn (by omega))
  · have hle := Int.tdiv_nonneg (Int.neg_nonneg.2 hf) hn.le
    rw [Int.neg_tdiv] at hle
    constructor
    · intro h
      omega
    · rintro ⟨h₁, -⟩
      omega

theorem div_2000_iff (frequency : Int32) : frequency / 2000 = 1 ↔ isBand24 frequency := by
  rw [div_eq_one_iff frequency 2000 (by decide)]
  unfold isBand24
  have : (2000 : Int32).toInt = 2000 := by decide
  rw [this]
  omega

theorem div_5000_iff (frequency : Int32) : frequency / 5000 = 1 ↔ isBand5 frequency := by
  rw [div_eq_one_iff frequency 5000 (by decide)]
  unfold isBand5
  have : (5000 : Int32).toInt = 5000 := by decide
  rw [this]
  omega

theorem not_both {frequency : Int32} (h : isBand24 frequency) : ¬ isBand5 frequency := by
  unfold isBand24 at h
  unfold isBand5
  omega

/-- The number that stands for a set of bands. -/
def supportOf (band24 band5 : Prop) [Decidable band24] [Decidable band5] : Int32 :=
  (if band24 then 1 else 0) + if band5 then 2 else 0

theorem supportOf_congr {p p' q q' : Prop} [Decidable p] [Decidable p'] [Decidable q] [Decidable q']
    (hp : p ↔ p') (hq : q ↔ q') : supportOf p q = supportOf p' q' := by
  simp only [supportOf, hp, hq]

theorem frequencySupport_eq (frequency : Int32) :
    frequencySupport frequency 1 = supportOf (isBand24 frequency) (isBand5 frequency) := by
  unfold frequencySupport supportOf
  simp only [div_2000_iff, div_5000_iff]
  by_cases h24 : isBand24 frequency
  · simp only [h24, not_both h24, if_true, if_false]
    decide
  · by_cases h5 : isBand5 frequency
    · simp only [h24, h5, if_true, if_false]
      decide
    · simp only [h24, h5, if_false]
      decide

theorem addFrequency_result (frequency : Int32) (info : MyWifiInfo) :
    (info.addFrequency frequency).result = info.result := by
  unfold MyWifiInfo.addFrequency MyWifiInfo.setSupportFreq
  dsimp only
  split_ifs <;> rfl

/-- An entry takes up the band of one more access point. -/
theorem addFrequency_supportFreq {info : MyWifiInfo} {frequency : Int32} {band24 band5 : Prop}
    [Decidable band24] [Decidable band5] (h : info.supportFreq = supportOf band24 band5) :
    (info.addFrequency frequency).supportFreq =
      supportOf (band24 ∨ isBand24 frequency) (band5 ∨ isBand5 frequency) := by
  obtain ⟨result, supportFreq⟩ := info
  obtain rfl : supportFreq = supportOf band24 band5 := h
  unfold MyWifiInfo.addFrequency MyWifiInfo.isSupport5G MyWifiInfo.isSupport24G MyWifiInfo.setSupportFreq supportOf
  simp only [div_2000_iff, div_5000_iff]
  by_cases h24 : isBand24 frequency
  · have h5 := not_both h24
    by_cases hb24 : band24 <;> by_cases hb5 : band5 <;> simp [h24, h5, hb24, hb5]
  · by_cases h5 : isBand5 frequency <;> by_cases hb24 : band24 <;> by_cases hb5 : band5 <;>
      simp [h24, h5, hb24, hb5]

/-! ## The loop -/

/-- The names of the entries. -/
def ssids (mData : List MyWifiInfo) : List Text := mData.map fun info => info.result.ssid

/-- What the inner loop does to an entry. -/
def takeUp (result : ScanResult) (info : MyWifiInfo) : MyWifiInfo :=
  if info.result.ssid = result.ssid then info.addFrequency result.frequency else info

theorem takeUp_result (result : ScanResult) (info : MyWifiInfo) : (takeUp result info).result = info.result := by
  unfold takeUp
  split
  · exact addFrequency_result _ _
  · rfl

theorem mergeResult_fst (result : ScanResult) (temps : List MyWifiInfo) :
    (mergeResult result temps).1 = temps.map (takeUp result) := by
  induction temps with
  | nil => rfl
  | cons info temps ih =>
    unfold mergeResult takeUp
    dsimp only
    rw [ih, List.map_cons]
    split <;> rfl

theorem mergeResult_snd (result : ScanResult) (temps : List MyWifiInfo) :
    (mergeResult result temps).2 = true ↔ result.ssid ∈ ssids temps := by
  induction temps with
  | nil => simp [mergeResult, ssids]
  | cons info temps ih =>
    unfold mergeResult ssids
    dsimp only
    rw [List.map_cons, List.mem_cons]
    by_cases h : info.result.ssid = result.ssid
    · rw [if_pos h]
      exact iff_of_true rfl (.inl h.symm)
    · rw [if_neg h]
      exact ih.trans ⟨.inr, fun hmem => hmem.resolve_left fun heq => h heq.symm⟩

/-- What one pass of the outer loop does. -/
theorem addResult_eq (temps : List MyWifiInfo) (result : ScanResult) :
    addResult temps result =
      if result.ssid = [] then temps
      else if result.ssid ∈ ssids temps then temps.map (takeUp result)
      else temps ++ [newInfo result 1] := by
  unfold addResult
  dsimp only
  by_cases hssid : result.ssid = []
  · rw [if_neg (not_not.2 hssid), if_pos hssid]
  rw [if_pos hssid, if_neg hssid]
  by_cases htemps : temps = []
  · rw [if_neg (not_not.2 htemps), htemps, if_neg (by simp [ssids])]
  rw [if_pos htemps, mergeResult_fst]
  by_cases hmem : result.ssid ∈ ssids temps
  · rw [(mergeResult_snd result temps).2 hmem, if_pos hmem]
    rfl
  · have hdup : (mergeResult result temps).2 = false :=
      Bool.eq_false_iff.2 fun h => hmem ((mergeResult_snd result temps).1 h)
    rw [hdup, if_neg hmem]
    have hkeep : temps.map (takeUp result) = temps := by
      refine (List.map_congr_left fun info hinfo => if_neg fun heq => hmem ?_).trans temps.map_id
      rw [← heq]
      exact List.mem_map_of_mem hinfo
    rw [hkeep]
    rfl

/-- The entries after the results `seen`, in this order. -/
structure Collected (seen : List ScanResult) (temps : List MyWifiInfo) : Prop where
  nodup : (ssids temps).Nodup
  names : ∀ ssid, ssid ∈ ssids temps ↔ ssid ≠ [] ∧ ∃ r ∈ seen, r.ssid = ssid
  /-- An entry holds the first result of its name. -/
  first : ∀ info ∈ temps, ∃ front back, seen = front ++ info.result :: back ∧
    ∀ r ∈ front, r.ssid ≠ info.result.ssid
  order : (temps.map MyWifiInfo.result).Sublist seen
  bands : ∀ info ∈ temps, info.supportFreq =
    supportOf (SendsIn 2000 3999 info.result.ssid seen) (SendsIn 5000 9999 info.result.ssid seen)

theorem sendsIn_concat (low high : Int) (ssid : Text) (seen : List ScanResult) (r : ScanResult) :
    SendsIn low high ssid (seen ++ [r]) ↔
      SendsIn low high ssid seen ∨ (r.ssid = ssid ∧ low ≤ r.frequency.toInt ∧ r.frequency.toInt ≤ high) := by
  unfold SendsIn
  simp only [List.mem_append, List.mem_singleton, or_and_right, exists_or, exists_eq_left]

theorem ssids_takeUp (result : ScanResult) (temps : List MyWifiInfo) :
    ssids (temps.map (takeUp result)) = ssids temps := by
  unfold ssids
  rw [List.map_map]
  exact List.map_congr_left fun info _ => congrArg ScanResult.ssid (takeUp_result result info)

/-- A name that the entries have, or that no entry has to have, after one more result. -/
theorem ssids_concat {seen : List ScanResult} {temps : List MyWifiInfo} {result : ScanResult}
    (h : Collected seen temps) (hold : result.ssid = [] ∨ result.ssid ∈ ssids temps) (ssid : Text) :
    ssid ∈ ssids temps ↔ ssid ≠ [] ∧ ∃ r ∈ seen ++ [result], r.ssid = ssid := by
  rw [h.names]
  refine and_congr_right fun hne => ⟨?_, ?_⟩
  · rintro ⟨r, hr, heq⟩
    exact ⟨r, List.mem_append_left _ hr, heq⟩
  · rintro ⟨r, hr, rfl⟩
    rcases List.mem_append.1 hr with hr | hr
    · exact ⟨r, hr, rfl⟩
    · rw [List.mem_singleton.1 hr] at hne ⊢
      rcases hold with hempty | hmem
      · exact absurd hempty hne
      · exact ((h.names _).1 hmem).2

theorem first_concat {seen front back : List ScanResult} {r result : ScanResult}
    (h : seen = front ++ r :: back) : seen ++ [result] = front ++ r :: (back ++ [result]) := by
  rw [h, List.append_assoc, List.cons_append]

/-- One pass of the loop. -/
theorem Collected.addResult {seen : List ScanResult} {temps : List MyWifiInfo} (h : Collected seen temps)
    (result : ScanResult) : Collected (seen ++ [result]) (addResult temps result) := by
  have hother : ∀ info ∈ temps, info.result.ssid ≠ result.ssid → info.supportFreq =
      supportOf (SendsIn 2000 3999 info.result.ssid (seen ++ [result]))
        (SendsIn 5000 9999 info.result.ssid (seen ++ [result])) := by
    intro info hinfo hne
    rw [h.bands info hinfo]
    refine supportOf_congr ?_ ?_
    all_goals
      rw [sendsIn_concat]
      exact (or_iff_left fun hnew => hne hnew.1.symm).symm
  rw [addResult_eq]
  by_cases hssid : result.ssid = []
  · -- A result without a name.
    rw [if_pos hssid]
    refine ⟨h.nodup, ssids_concat h (.inl hssid), fun info hinfo => ?_, h.order.trans (List.sublist_append_left _ _),
      fun info hinfo => hother info hinfo fun heq => ?_⟩
    · obtain ⟨front, back, hsplit, hfront⟩ := h.first info hinfo
      exact ⟨front, back ++ [result], first_concat hsplit, hfront⟩
    · exact ((h.names _).1 (List.mem_map_of_mem hinfo)).1 (heq.trans hssid)
  rw [if_neg hssid]
  by_cases hmem : result.ssid ∈ ssids temps
  · -- There is an entry for it.
    rw [if_pos hmem]
    refine ⟨by rw [ssids_takeUp]; exact h.nodup, by rw [ssids_takeUp]; exact ssids_concat h (.inr hmem), ?_, ?_, ?_⟩
    · intro info hinfo
      obtain ⟨old, hold, rfl⟩ := List.mem_map.1 hinfo
      obtain ⟨front, back, hsplit, hfront⟩ := h.first old hold
      rw [takeUp_result]
      exact ⟨front, back ++ [result], first_concat hsplit, hfront⟩
    · have hresult : (temps.map (takeUp result)).map MyWifiInfo.result = temps.map MyWifiInfo.result := by
        rw [List.map_map]
        exact List.map_congr_left fun info _ => takeUp_result result info
      rw [hresult]
      exact h.order.trans (List.sublist_append_left _ _)
    · intro info hinfo
      obtain ⟨old, hold, rfl⟩ := List.mem_map.1 hinfo
      rw [takeUp_result]
      by_cases heq : old.result.ssid = result.ssid
      · unfold takeUp
        rw [if_pos heq, addFrequency_supportFreq (h.bands old hold)]
        refine supportOf_congr ?_ ?_
        all_goals
          rw [sendsIn_concat]
          exact or_congr_right (and_iff_right heq.symm).symm
      · unfold takeUp
        rw [if_neg heq]
        exact hother old hold heq
  · -- It is the first one of its name.
    rw [if_neg hmem]
    have hnew : ∀ r ∈ seen, r.ssid ≠ result.ssid := fun r hr heq => hmem ((h.names _).2 ⟨hssid, r, hr, heq⟩)
    have hnames : ssids (temps ++ [newInfo result 1]) = ssids temps ++ [result.ssid] := List.map_append
    refine ⟨?_, fun ssid => ?_, fun info hinfo => ?_, ?_, fun info hinfo => ?_⟩
    · rw [hnames]
      exact h.nodup.append (List.nodup_singleton _) (List.disjoint_singleton.2 hmem)
    · rw [hnames, List.mem_append, h.names, List.mem_singleton]
      simp only [List.mem_append, List.mem_singleton, or_and_right, exists_or, exists_eq_left]
      refine ⟨?_, ?_⟩
      · rintro (⟨hne, hr⟩ | rfl)
        · exact ⟨hne, .inl hr⟩
        · exact ⟨hssid, .inr rfl⟩
      · rintro ⟨hne, hr | rfl⟩
        · exact .inl ⟨hne, hr⟩
        · exact .inr rfl
    · rcases List.mem_append.1 hinfo with hinfo | hinfo
      · obtain ⟨front, back, hsplit, hfront⟩ := h.first info hinfo
        exact ⟨front, back ++ [result], first_concat hsplit, hfront⟩
      · rw [List.mem_singleton.1 hinfo]
        exact ⟨seen, [], rfl, hnew⟩
    · rw [List.map_append]
      exact h.order.append (.refl _)
    · rcases List.mem_append.1 hinfo with hinfo | hinfo
      · exact hother info hinfo fun heq => hmem (heq ▸ List.mem_map_of_mem hinfo)
      · rw [List.mem_singleton.1 hinfo]
        refine (frequencySupport_eq result.frequency).trans (supportOf_congr ?_ ?_)
        all_goals
          rw [sendsIn_concat]
          refine ⟨fun hband => .inr ⟨rfl, hband⟩, fun hsends => ?_⟩
          rcases hsends with ⟨r, hr, heq, -⟩ | hband
          · exact absurd heq (hnew r hr)
          · exact hband.2

/-- The loop. -/
theorem Collected.foldl {seen : List ScanResult} {temps : List MyWifiInfo} (h : Collected seen temps)
    (results : List ScanResult) : Collected (seen ++ results) (results.foldl WifiTest.addResult temps) := by
  induction results generalizing seen temps with
  | nil =>
    rw [List.append_nil]
    exact h
  | cons result results ih =>
    have hrest := ih (h.addResult result)
    rw [List.append_assoc] at hrest
    exact hrest

theorem Collected.nil : Collected [] [] where
  nodup := List.nodup_nil
  names ssid := by simp [ssids]
  first := nofun
  order := .refl _
  bands := nofun

/-! ## The sort -/

/-- The levels are so small that their difference is no overflow. -/
def SmallLevels (results : List ScanResult) : Prop := ∀ r ∈ results, r.level.toInt.natAbs < 2 ^ 30

theorem toInt_abs {a : Int32} (h : a.toInt.natAbs < 2 ^ 30) : a.abs.toInt = a.toInt.natAbs := by
  refine BitVec.toInt_abs_eq_natAbs_of_ne_intMin fun heq => ?_
  have hmin : a.toInt = (BitVec.intMin 32).toInt := congrArg BitVec.toInt heq
  rw [hmin] at h
  exact absurd h (by decide)

theorem compareResults_iff {rt1 rt2 : ScanResult} (h₁ : rt1.level.toInt.natAbs < 2 ^ 30)
    (h₂ : rt2.level.toInt.natAbs < 2 ^ 30) : compareResults rt1 rt2 ≤ 0 ↔ rt1.distance ≤ rt2.distance := by
  unfold compareResults ScanResult.distance
  rw [Int32.le_iff_toInt_le, Int32.toInt_sub, toInt_abs h₁, toInt_abs h₂, Int32.toInt_zero,
    Int.bmod_eq_of_le_mul_two (by omega) (by omega)]
  omega

theorem sortResults_eq {results : List ScanResult} (h : SmallLevels results) :
    sortResults results = results.mergeSort fun rt1 rt2 => rt1.distance ≤ rt2.distance := by
  have hsort := List.map_mergeSort (f := id) (l := results)
    (r := fun rt1 rt2 => decide (compareResults rt1 rt2 ≤ 0))
    (s := fun rt1 rt2 => decide (rt1.distance ≤ rt2.distance))
    fun rt1 h₁ rt2 h₂ => decide_eq_decide.2 (compareResults_iff (h rt1 h₁) (h rt2 h₂))
  rw [List.map_id, List.map_id] at hsort
  exact hsort

theorem sortResults_perm (results : List ScanResult) : (sortResults results).Perm results :=
  List.mergeSort_perm _ _

theorem sortResults_sorted {results : List ScanResult} (h : SmallLevels results) :
    (sortResults results).Pairwise fun i j => i.distance ≤ j.distance := by
  rw [sortResults_eq h]
  refine (List.pairwise_mergeSort ?_ ?_ results).imp of_decide_eq_true
  · intro a b c hab hbc
    exact decide_eq_true ((of_decide_eq_true hab).trans (of_decide_eq_true hbc))
  · intro a b
    rw [Bool.or_eq_true, decide_eq_true_iff, decide_eq_true_iff]
    exact Nat.le_total _ _

/-- Results at different distances are sorted in one way only. -/
theorem sortResults_unique {results results' : List ScanResult} (h : SmallLevels results)
    (hperm : results.Perm results') (hdistinct : (results.map ScanResult.distance).Nodup) :
    sortResults results' = sortResults results := by
  have h' : SmallLevels results' := fun r hr => h r (hperm.mem_iff.2 hr)
  refine List.Perm.eq_of_pairwise ?_ (sortResults_sorted h') (sortResults_sorted h)
    ((sortResults_perm results').trans (hperm.symm.trans (sortResults_perm results).symm))
  intro a b ha hb hab hba
  have ha' := hperm.mem_iff.2 ((sortResults_perm results').mem_iff.1 ha)
  have hb' := (sortResults_perm results).mem_iff.1 hb
  exact List.inj_on_of_nodup_map hdistinct ha' hb' (Nat.le_antisymm hab hba)

/-! ## The entries -/

theorem sendsIn_perm {results results' : List ScanResult} (h : results.Perm results') (low high : Int)
    (ssid : Text) : SendsIn low high ssid results ↔ SendsIn low high ssid results' :=
  ⟨fun ⟨r, hr, hsends⟩ => ⟨r, h.mem_iff.1 hr, hsends⟩, fun ⟨r, hr, hsends⟩ => ⟨r, h.mem_iff.2 hr, hsends⟩⟩

/-- What the loop makes of the sorted results are the merged results. -/
theorem Collected.merged {sorted results : List ScanResult} {temps : List MyWifiInfo}
    (h : Collected sorted temps) (hperm : sorted.Perm results)
    (hsorted : sorted.Pairwise fun i j => i.distance ≤ j.distance) : Merged results temps where
  nodup := h.nodup
  names ssid := by
    refine (h.names ssid).trans (and_congr_right fun _ => ⟨?_, ?_⟩)
    · rintro ⟨r, hr, heq⟩
      exact ⟨r, hperm.mem_iff.1 hr, heq⟩
    · rintro ⟨r, hr, heq⟩
      exact ⟨r, hperm.mem_iff.2 hr, heq⟩
  nearest info hinfo := by
    obtain ⟨front, back, hsplit, hfront⟩ := h.first info hinfo
    rw [hsplit] at hsorted
    have hmem : info.result ∈ sorted := by
      rw [hsplit]
      exact List.mem_append_right _ List.mem_cons_self
    refine ⟨hperm.mem_iff.1 hmem, fun r hr heq => ?_⟩
    have hr' := hperm.mem_iff.2 hr
    rw [hsplit, List.mem_append, List.mem_cons] at hr'
    rcases hr' with hr' | rfl | hr'
    · exact absurd heq (hfront r hr')
    · exact Nat.le_refl _
    · exact (List.pairwise_cons.1 (List.pairwise_append.1 hsorted).2.1).1 r hr'
  sorted := by
    have hpairs : (temps.map MyWifiInfo.result).Pairwise fun i j => i.distance ≤ j.distance :=
      hsorted.sublist h.order
    rw [List.pairwise_map] at hpairs
    exact hpairs
  bands info hinfo := (h.bands info hinfo).trans
    (supportOf_congr (sendsIn_perm hperm _ _ _) (sendsIn_perm hperm _ _ _))

/-- **Scan results are merged by name**: the list has one entry for each name, with the nearest access point
of that name and the bands of all of them, and the nearest names come first; if no two access points are at
the same distance, then the order in which the results come does not matter. -/
theorem scan_results_merged (mData : List MyWifiInfo) {results : List ScanResult}
    (hsmall : SmallLevels results) :
    Merged results (onScanResults mData results) ∧
      ∀ mData' results', results.Perm results' → (results.map ScanResult.distance).Nodup →
        onScanResults mData' results' = onScanResults mData results := by
  constructor
  · exact (Collected.nil.foldl (sortResults results)).merged (sortResults_perm results)
      (sortResults_sorted hsmall)
  · intro mData' results' hperm hdistinct
    unfold onScanResults
    rw [sortResults_unique hsmall hperm hdistinct]

/-- Three access points, two of them with the same name in different bands. -/
theorem scan_results_merged_two_bands :
    Merged [⟨"a".toList, -60, 2412⟩, ⟨"b".toList, -50, 5180⟩, ⟨"a".toList, -40, 5200⟩]
      (onScanResults [] [⟨"a".toList, -60, 2412⟩, ⟨"b".toList, -50, 5180⟩, ⟨"a".toList, -40, 5200⟩]) := by
  refine (scan_results_merged [] ?_).1
  intro r hr
  simp only [List.mem_cons, List.not_mem_nil, or_false] at hr
  rcases hr with rfl | rfl | rfl <;> decide

end WifiTest
