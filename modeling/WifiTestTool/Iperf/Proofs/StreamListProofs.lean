import Mathlib.Data.List.Basic
import WifiTestTool.Iperf.StreamList
import WifiTestTool.Iperf.Control

/-!
# The ids of the streams

`iperf_add_stream` appends the stream to the list and numbers it by its position: the first stream gets
1 and the `k`-th, from the second on, `k + 1` (`iperfAddStream_holds`). So `n` calls on an empty list
number any `n` streams alike (`addStreams_holds`, by induction on the calls), and the search of
`get_results` finds the stream at the position that the id stands for. On the list of the streams, without
their links, the two routines are the model's `iperfAddStream` and `takeStreamResults`
(`iperfAddStream_refines`, `findStream_refines`).
-/

namespace Iperf

open Slist

/-- The id of the stream at the position `k`, counted from 0. -/
def streamId (k : Nat) : Int := if k = 0 then 1 else k + 2

/-- The ids of `n` streams. -/
def streamIds (n : Nat) : List Int := (List.range n).map streamId

theorem streamId_lt {a b : Nat} (hab : a < b) : streamId a < streamId b := by
  unfold streamId
  by_cases ha : a = 0
  · rw [if_pos ha, if_neg (by omega)]
    omega
  · rw [if_neg ha, if_neg (by omega)]
    omega

theorem streamIds_sorted (n : Nat) : (streamIds n).Pairwise (· < ·) := by
  rw [streamIds, List.pairwise_map]
  exact List.pairwise_lt_range.imp fun hab => streamId_lt hab

/-- The streams of a list, each with the id of its position. -/
def numbered (l : List (Slist.Addr × IperfStream)) : List (Slist.Addr × IperfStream) :=
  l.mapIdx fun k p => (p.1, p.2.withId (streamId k))

theorem numbered_append_singleton (l : List (Slist.Addr × IperfStream)) (p : Slist.Addr × IperfStream) :
    numbered (l ++ [p]) = numbered l ++ [(p.1, p.2.withId (streamId l.length))] := by
  simp [numbered, List.mapIdx_append]

@[simp] theorem length_numbered (l : List (Slist.Addr × IperfStream)) :
    (numbered l).length = l.length := by
  simp [numbered]

@[simp] theorem numbered_addrs (l : List (Slist.Addr × IperfStream)) :
    (numbered l).map Prod.fst = l.map Prod.fst := by
  apply List.ext_getElem <;> simp [numbered]

theorem numbered_ids (l : List (Slist.Addr × IperfStream)) :
    (numbered l).map (fun p => p.2.id) = streamIds l.length := by
  apply List.ext_getElem <;> simp [numbered, streamIds, IperfStream.withId]

namespace StreamMem

/-- The list consists of the streams of `l`, in this order. -/
structure Holds (s : StreamMem) (l : List (Slist.Addr × IperfStream)) : Prop where
  chain : Chain s.mem s.streams l
  nodup : (l.map Prod.fst).Nodup

/-- The structures of `sps` are allocated, each its own, and not yet in the list, which is empty. -/
structure NewStreams (s : StreamMem) (sps : List (Slist.Addr × IperfStream)) : Prop where
  empty : s.streams = none
  mem : ∀ p ∈ sps, ∃ n, s.mem p.1 = some ⟨p.2, n⟩
  nodup : (sps.map Prod.fst).Nodup

/-- The walk of `iperf_add_stream` ends at the last stream and has counted them all. -/
theorem lastStream_eq {s : StreamMem} {l : List (Slist.Addr × IperfStream)}
    {p : Slist.Addr × IperfStream} (hc : Chain s.mem s.streams (l ++ [p])) {fuel : Nat}
    (hfuel : (l ++ [p]).length ≤ fuel) :
    s.lastStream fuel = some (some p.1, streamId (l ++ [p]).length) := by
  have hfold : ∀ (l : List (Slist.Addr × IperfStream)) (prev : Option Slist.Addr) (i : Int),
      (l ++ [p]).foldl (fun (s : Option Slist.Addr × Int) p => (some p.1, s.2 + 1)) (prev, i) =
        (some p.1, i + l.length + 1) := by
    intro l
    induction l with
    | nil => simp
    | cons q l ih =>
      intro prev i
      rw [List.cons_append, List.foldl_cons, ih]
      simp only [List.length_cons, Nat.cast_add, Nat.cast_one, Prod.mk.injEq, true_and]
      omega
  have hid : streamId (l ++ [p]).length = 2 + (l.length : Int) + 1 := by
    rw [streamId, if_neg (by simp)]
    simp only [List.length_append, List.length_singleton, Nat.cast_add, Nat.cast_one]
    omega
  rw [lastStream, hc.forEach _ hfuel, hid]
  exact congrArg some (hfold l none 2)

/-- `iperf_add_stream` appends the stream, with the id of its position, and touches no structure that is
not in the list. -/
theorem iperfAddStream_holds {s : StreamMem} {l : List (Slist.Addr × IperfStream)} {sp : Slist.Addr}
    {c : Node IperfStream} {fuel : Nat} (hs : s.Holds l) (hc : s.mem sp = some c)
    (hsp : sp ∉ l.map Prod.fst) (hfuel : l.length ≤ fuel) :
    ∃ s', s.iperfAddStream fuel sp = some s' ∧
      s'.Holds (l ++ [(sp, c.val.withId (streamId l.length))]) ∧
      ∀ a, a ≠ sp → a ∉ l.map Prod.fst → s'.mem a = s.mem a := by
  obtain ⟨mem, streams⟩ := s
  obtain ⟨hchain, hnodup⟩ := hs
  dsimp only at hchain hc
  have hnodup' : ((l ++ [(sp, c.val.withId (streamId l.length))]).map Prod.fst).Nodup := by
    rw [List.map_append]
    refine List.nodup_append.2 ⟨hnodup, by simp, fun a ha b hb hab => hsp ?_⟩
    rw [List.map_singleton, List.mem_singleton] at hb
    rwa [hab, hb] at ha
  rcases List.eq_nil_or_concat l with hl | ⟨l, p, hl⟩
  · subst hl
    have hstreams : streams = none := hchain
    subst hstreams
    obtain ⟨m₁, h₁, hc₁, hframe₁⟩ := hchain.insertHead hsp hc
    obtain ⟨m₂, h₂, hc₂, hframe₂⟩ :=
      Chain.store_last (l := []) hc₁ (by simp) (IperfStream.withId 1)
    refine ⟨⟨m₂, some sp⟩, ?_, ⟨hc₂, hnodup'⟩, fun a ha _ => ?_⟩
    · simp [iperfAddStream, h₁, h₂]
    · exact (hframe₂ a ha).trans (hframe₁ a ha)
  · rw [List.concat_eq_append] at hl
    subst hl
    obtain ⟨first, hstreams⟩ : ∃ first, streams = some first := by
      cases l with
      | nil => exact ⟨_, hchain.1⟩
      | cons q l => exact ⟨_, hchain.1⟩
    subst hstreams
    have hwalk : lastStream fuel ⟨mem, some first⟩ = some (some p.1, streamId (l ++ [p]).length) :=
      lastStream_eq hchain hfuel
    obtain ⟨m₁, h₁, hc₁, hframe₁⟩ := hchain.insertAfter_last hnodup hsp hc
    obtain ⟨m₂, h₂, hc₂, hframe₂⟩ :=
      hc₁.store_last hsp (IperfStream.withId (streamId (l ++ [p]).length))
    refine ⟨⟨m₂, some first⟩, ?_, ⟨hc₂, hnodup'⟩, fun a ha hal => ?_⟩
    · simp only [iperfAddStream, hwalk, Option.bind_eq_bind, Option.bind_some, h₁, h₂]
    · exact (hframe₂ a ha).trans (hframe₁ a ha hal)

/-- The calls number the streams after those that are in the list. -/
theorem addStreams_holds {sps : List (Slist.Addr × IperfStream)} :
    ∀ {s : StreamMem} {l : List (Slist.Addr × IperfStream)} {fuel : Nat}, s.Holds (numbered l) →
      (∀ p ∈ sps, ∃ n, s.mem p.1 = some ⟨p.2, n⟩) → ((l ++ sps).map Prod.fst).Nodup →
      (l ++ sps).length ≤ fuel →
      ∃ s', s.addStreams fuel (sps.map Prod.fst) = some s' ∧ s'.Holds (numbered (l ++ sps)) := by
  induction sps with
  | nil =>
    intro s l fuel hs _ _ _
    exact ⟨s, rfl, by rwa [List.append_nil]⟩
  | cons p sps ih =>
    intro s l fuel hs hmem hnodup hfuel
    obtain ⟨n, hp⟩ := hmem p (List.mem_cons_self ..)
    have hsplit : l ++ p :: sps = l ++ [p] ++ sps := by simp
    have hnew : p.1 ∉ l.map Prod.fst := by
      rw [List.map_append, List.map_cons] at hnodup
      intro hpl
      exact List.disjoint_of_nodup_append hnodup hpl (List.mem_cons_self ..)
    have hfuel₁ : (numbered l).length ≤ fuel := by
      rw [length_numbered]
      exact (by simp : l.length ≤ (l ++ p :: sps).length).trans hfuel
    obtain ⟨s₁, h₁, hs₁, hframe⟩ := iperfAddStream_holds hs hp (by rwa [numbered_addrs]) hfuel₁
    rw [length_numbered, ← numbered_append_singleton] at hs₁
    rw [hsplit] at hnodup hfuel ⊢
    -- The structures that are still to be added have not been touched.
    have hmem₁ : ∀ q ∈ sps, ∃ n, s₁.mem q.1 = some ⟨q.2, n⟩ := by
      intro q hq
      have hnot : q.1 ∉ (l ++ [p]).map Prod.fst := by
        rw [List.map_append] at hnodup
        intro hql
        exact List.disjoint_of_nodup_append hnodup hql (List.mem_map_of_mem hq)
      rw [List.map_append, List.mem_append, not_or] at hnot
      rw [hframe q.1 (by simpa using hnot.2) (by rw [numbered_addrs]; exact hnot.1)]
      exact hmem q (List.mem_cons_of_mem _ hq)
    obtain ⟨s₂, h₂, hs₂⟩ := ih hs₁ hmem₁ hnodup hfuel
    refine ⟨s₂, ?_, hs₂⟩
    simp only [List.map_cons, addStreams, h₁, Option.bind_eq_bind, Option.bind_some, h₂]

/-- The ids of the streams of a list. -/
theorem Holds.ids {s : StreamMem} {l : List (Slist.Addr × IperfStream)} (hs : s.Holds l) {fuel : Nat}
    (hfuel : l.length ≤ fuel) : s.ids fuel = some (l.map fun p => p.2.id) := by
  have hfold : ∀ (l : List (Slist.Addr × IperfStream)) (acc : List Int),
      l.foldl (fun ids p => ids ++ [p.2.id]) acc = acc ++ l.map fun p => p.2.id := by
    intro l
    induction l with
    | nil => simp
    | cons q l ih =>
      intro acc
      rw [List.foldl_cons, ih]
      simp
  rw [StreamMem.ids, hs.chain.forEach _ hfuel, hfold, List.nil_append]

/-- The search for the id of a position finds the stream at this position. -/
theorem Holds.findStream {s : StreamMem} {l : List (Slist.Addr × IperfStream)}
    (hs : s.Holds (numbered l)) {fuel : Nat} (hfuel : l.length ≤ fuel) {k : Nat} (hk : k < l.length) :
    s.findStream fuel (streamId k) = some (some (l[k]).1) := by
  have hget : ∀ (j : Nat) (hj : j < l.length) (hj' : j < (numbered l).length),
      (numbered l)[j] = ((l[j]).1, (l[j]).2.withId (streamId j)) := by
    intro j hj hj'
    simp [numbered]
  have hfirst : (numbered l).find? (fun p => decide (p.2.id = streamId k)) =
      some ((l[k]).1, (l[k]).2.withId (streamId k)) := by
    rw [List.find?_eq_some_iff_getElem]
    refine ⟨by simp [IperfStream.withId], k, by rwa [length_numbered], hget k hk _, ?_⟩
    intro j hj
    rw [hget j (hj.trans hk)]
    simp [IperfStream.withId, (streamId_lt hj).ne]
  rw [StreamMem.findStream, hs.chain.find _ (by rwa [length_numbered]), hfirst]
  rfl

/-! ### The routines of the model -/

/-- On the list of the streams, without their links, `iperf_add_stream` is the model's. -/
theorem iperfAddStream_refines {s : StreamMem} {l : List (Slist.Addr × IperfStream)} {t : IperfTest}
    {sp : Slist.Addr} {c : Node IperfStream} {fuel : Nat} (hs : s.Holds l)
    (hl : l.map Prod.snd = t.streams) (hc : s.mem sp = some c) (hsp : sp ∉ l.map Prod.fst)
    (hfuel : l.length ≤ fuel) :
    ∃ s' l', s.iperfAddStream fuel sp = some s' ∧ s'.Holds l' ∧
      l'.map Prod.snd = (Iperf.iperfAddStream c.val t).streams := by
  obtain ⟨s', h, hs', -⟩ := iperfAddStream_holds hs hc hsp hfuel
  refine ⟨s', _, h, hs', ?_⟩
  rw [List.map_append, hl, Iperf.iperfAddStream]
  have hlen : l.length = t.streams.length := by rw [← hl, List.length_map]
  simp [IperfStream.withId, streamId, hlen]

/-- On the list of the streams, the search of `get_results` is the model's. -/
theorem findStream_refines {s : StreamMem} {l : List (Slist.Addr × IperfStream)} {t : IperfTest}
    {sid : Int} {fuel : Nat} (hs : s.Holds l) (hl : l.map Prod.snd = t.streams)
    (hfuel : l.length ≤ fuel) :
    s.findStream fuel sid =
      some ((t.streams.findIdx? fun st => st.id = sid).bind fun sp => l[sp]?.map Prod.fst) := by
  rw [StreamMem.findStream, hs.chain.find _ hfuel, ← hl]
  congr 1
  clear hs hl hfuel
  induction l with
  | nil => rfl
  | cons p l ih =>
    rw [List.map_cons, List.find?_cons, List.findIdx?_cons]
    by_cases hp : decide (p.2.id = sid) = true
    · simp [hp]
    · rw [Bool.not_eq_true] at hp
      simp only [hp, ih]
      cases (l.map Prod.snd).findIdx? fun st => decide (st.id = sid) <;> rfl

end StreamMem

/-- The calls of `iperf_add_stream` on an empty list leave the streams in the order in which they were
added, with ids that increase and that the position determines: any other party that adds as many streams
has the same ids. The search for one of these ids finds the stream at its position. -/
theorem stream_ids_by_position {s : StreamMem} {sps : List (Slist.Addr × IperfStream)} {fuel : Nat}
    (hnew : s.NewStreams sps) (hfuel : sps.length ≤ fuel) :
    ∃ s', s.addStreams fuel (sps.map Prod.fst) = some s' ∧
      Chain s'.mem s'.streams (numbered sps) ∧
      s'.ids fuel = some (streamIds sps.length) ∧
      (streamIds sps.length).Pairwise (· < ·) ∧
      (∀ k (hk : k < sps.length), s'.findStream fuel (streamId k) = some (some (sps[k]).1)) ∧
      ∀ (r r' : StreamMem) (rps : List (Slist.Addr × IperfStream)) (fuel' : Nat), r.NewStreams rps →
        rps.length = sps.length → rps.length ≤ fuel' →
        r.addStreams fuel' (rps.map Prod.fst) = some r' → r'.ids fuel' = s'.ids fuel := by
  have hrun : ∀ {r : StreamMem} {rps : List (Slist.Addr × IperfStream)} {fuel' : Nat},
      r.NewStreams rps → rps.length ≤ fuel' →
      ∃ r', r.addStreams fuel' (rps.map Prod.fst) = some r' ∧ r'.Holds (numbered rps) ∧
        r'.ids fuel' = some (streamIds rps.length) := by
    intro r rps fuel' hr hfuel'
    have hempty : r.Holds (numbered []) := ⟨hr.empty, List.nodup_nil⟩
    obtain ⟨r', hadd, hholds⟩ := StreamMem.addStreams_holds hempty hr.mem hr.nodup hfuel'
    refine ⟨r', hadd, hholds, ?_⟩
    rw [hholds.ids (by rwa [length_numbered]), numbered_ids]
    rfl
  obtain ⟨s', hadd, hholds, hids⟩ := hrun hnew hfuel
  refine ⟨s', hadd, hholds.chain, hids, streamIds_sorted _, fun k hk => hholds.findStream hfuel hk, ?_⟩
  intro r r' rps fuel' hr hlen hfuel' hadd'
  obtain ⟨r'', hadd'', -, hids''⟩ := hrun hr hfuel'
  rw [hadd', Option.some.injEq] at hadd''
  rw [hadd'', hids'', hids, hlen]

/-- The structure of a stream with the socket `s`, as `iperf_new_stream` sets it up. -/
def bareStream (s : Int) : IperfStream := newStream (iperfDefaults iperfNewTest) s 3 (-1) []

/-- Three streams in memory, allocated in the order of the addresses 1, 2, 3. -/
def threeStreams : StreamMem where
  mem a := if 1 ≤ a ∧ a ≤ 3 then some ⟨bareStream a, none⟩ else none
  streams := none

/-- Three streams that are added in another order than they are allocated. -/
theorem stream_ids_by_position_three :
    ∃ s', threeStreams.addStreams 3 [3, 1, 2] = some s' ∧ s'.ids 3 = some [1, 3, 4] := by
  have hnew : threeStreams.NewStreams [(3, bareStream 3), (1, bareStream 1), (2, bareStream 2)] :=
    ⟨rfl, by simp [threeStreams], by decide⟩
  obtain ⟨s', hadd, -, hids, -⟩ := stream_ids_by_position hnew (Nat.le_refl 3)
  exact ⟨s', hadd, hids⟩

end Iperf
