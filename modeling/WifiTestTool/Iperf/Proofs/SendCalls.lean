import WifiTestTool.Iperf.Proofs.FileTransfer

/-!
# What a call of `sp->snd` does

Whatever the protocol is and wherever the data comes from, a call of `sp->snd` sends at most one block,
counts the bytes it reports, and leaves everything that `iperf_send` goes by as it was: the green light, the
socket and the start time of the stream, and all other streams. Only the end of a disk file is more than
that: it ends the test.
-/

namespace Iperf

open Reactive

/-- A call of `sp->snd` with the result `r` has made `st'` of its stream. -/
structure SndStream (r : Int) (st st' : IperfStream) : Prop where
  socket : st'.socket = st.socket
  greenLight : st'.greenLight = st.greenLight
  startTime : st'.result.startTime = st.result.startTime
  bytesSent : st'.result.bytesSent =
    if r < 0 then st.result.bytesSent else st.result.bytesSent + UInt64.ofInt r
  buffer : st.buffer.length ≤ st'.buffer.length

/-- A call of `sp->snd` has made `t'` of the test `t`, with the result `r`. -/
structure Snd (t : IperfTest) (sp : Nat) (r : Int) (t' : IperfTest) : Prop where
  change : ∃ f done, t' = { t with streams := t.streams.modify sp f, done := done } ∧
    (t.done = true → done = true) ∧ ∀ st, SndStream r st (f st)
  le : r ≤ t.settings.blksize

/-- The stream was prepared for a transfer: only its buffer and its packet number have changed. -/
structure Loaded (st st' : IperfStream) : Prop where
  socket : st'.socket = st.socket
  greenLight : st'.greenLight = st.greenLight
  result : st'.result = st.result
  buffer : st.buffer.length ≤ st'.buffer.length

theorem overlay_length_le (old new : List UInt8) : old.length ≤ (overlay old new).length := by
  unfold overlay
  rw [List.length_append, List.length_drop]
  omega

theorem loaded_id (st : IperfStream) : Loaded st (id st) := ⟨rfl, rfl, rfl, le_rfl⟩

theorem loaded_stamp (time : Timeval) (st : IperfStream) : Loaded st (st.stamp time) :=
  ⟨rfl, rfl, rfl, overlay_length_le _ _⟩

theorem getElem?_modify_some {α : Type} {l : List α} {i j : Nat} {f : α → α} {b : α}
    (h : (l.modify i f)[j]? = some b) : ∃ a, l[j]? = some a ∧ b = if i = j then f a else a := by
  rw [List.getElem?_modify] at h
  obtain ⟨a, ha, rfl⟩ := Option.map_eq_some_iff.1 h
  refine ⟨a, ha, ?_⟩
  split <;> rfl

section Transfers

variable {t : IperfTest}

/-- `Nwrite` reports at most what it was given. -/
theorem nwriteLoop_le (fd : Int) (count fuel : Nat) {left : List UInt8} (hleft : left.length ≤ count) :
    Ends t (nwriteLoop fd count fuel left) fun r t' => t' = t ∧ -2 ≤ r ∧ r ≤ count := by
  induction fuel generalizing left with
  | zero => exact .stop _
  | succ fuel ih =>
    have herror : ∀ e : Errno, Ends t (do
        setErrno e
        pure (if e = .eagain ∨ e = .enobufs then NET_SOFTERROR else NET_HARDERROR))
        fun r t' => t' = t ∧ -2 ≤ r ∧ r ≤ (count : Int) := by
      intro e
      refine .silent_bind (.setErrno e) fun _ => .pure ⟨rfl, ?_⟩
      unfold NET_SOFTERROR NET_HARDERROR
      split <;> omega
    refine .ite (fun _ => .pure ⟨rfl, by omega, le_refl _⟩) fun _ => .silent_bind (.sys _) fun a => ?_
    match a with
    | .error .eintr => exact .pure ⟨rfl, by omega, by omega⟩
    | .ok 0 =>
      refine .pure ⟨rfl, ?_⟩
      unfold NET_SOFTERROR
      omega
    | .ok (n + 1) =>
      refine ih ?_
      rw [List.length_drop]
      omega
    | .error (.other _) | .error .eagain | .error .enobufs | .error .enomem | .error .ebadf
    | .error .eafnosupport | .error .einprogress => exact herror _

/-- `Nsendfile` reports at most what it was told to send. -/
theorem nsendfileLoop_le (fromFd toFd : Int) (count fuel : Nat) {nleft : Nat} (hleft : nleft ≤ count) :
    Ends t (nsendfileLoop fromFd toFd count fuel nleft) fun r t' => t' = t ∧ -2 ≤ r ∧ r ≤ count := by
  induction fuel generalizing nleft with
  | zero => exact .stop _
  | succ fuel ih =>
    have herror : ∀ e : Errno, Ends t (do
        setErrno e
        pure (if e = .eagain ∨ e = .enobufs ∨ e = .enomem then NET_SOFTERROR else NET_HARDERROR))
        fun r t' => t' = t ∧ -2 ≤ r ∧ r ≤ (count : Int) := by
      intro e
      refine .silent_bind (.setErrno e) fun _ => .pure ⟨rfl, ?_⟩
      unfold NET_SOFTERROR NET_HARDERROR
      split <;> omega
    refine .ite (fun _ => .pure ⟨rfl, by omega, le_refl _⟩) fun _ => .silent_bind (.sys _) fun a => ?_
    match a with
    | .error .eintr => exact .pure ⟨rfl, by omega, by omega⟩
    | .ok 0 =>
      refine .pure ⟨rfl, ?_⟩
      unfold NET_SOFTERROR
      omega
    | .ok (n + 1) => exact ih (by omega)
    | .error (.other _) | .error .eagain | .error .enobufs | .error .enomem | .error .ebadf
    | .error .eafnosupport | .error .einprogress => exact herror _

end Transfers

section Routines

variable {t : IperfTest} {sp : Nat} (fuel : Nat)

/-- A call that leaves the test alone and reports at most a block. -/
def Transfer (t : IperfTest) (p : IperfProg Int) : Prop :=
  Ends t p fun r t' => t' = t ∧ r ≤ t.settings.blksize

theorem streamWrite_transfer (hpos : 0 < t.settings.blksize) (hint : IsInt t.settings.blksize) :
    Transfer t (streamWrite fuel sp) := by
  refine .getTest_bind (.getStream_bind fun st _ => .bind (nwriteLoop_le _ _ _ le_rfl) fun r t' h => .pure ?_)
  obtain ⟨hsame, hlow, hhigh⟩ := h
  have hlen : (st.buffer.take (sizeT t.settings.blksize)).length ≤ t.settings.blksize.toNat := by
    rw [sizeT_of_isInt hpos hint, List.length_take]
    exact Nat.min_le_left _ _
  obtain ⟨-, hlt⟩ := hint
  have hr : toInt r = r := toInt_of_isInt ⟨by omega, by omega⟩
  refine ⟨hsame, ?_⟩
  rw [hr]
  omega

theorem nsendfile_transfer (hpos : 0 < t.settings.blksize) (hint : IsInt t.settings.blksize)
    (fromFd toFd : Int) : Transfer t (nsendfile fuel fromFd toFd (sizeT t.settings.blksize)) := by
  refine (nsendfileLoop_le _ _ _ _ le_rfl).mono fun r t' h => ⟨h.1, ?_⟩
  obtain ⟨-, -, hhigh⟩ := h
  rw [sizeT_of_isInt hpos hint] at hhigh
  omega

theorem sent_sndStream {r : Int} (hr : ¬ r < 0) (st : IperfStream) : SndStream r st (st.sent r) :=
  ⟨rfl, rfl, rfl, (if_neg hr).symm, le_rfl⟩

/-- A transfer of a stream that was prepared for it. -/
theorem SndStream.prepared {r : Int} {st₁ st₂ st₃ : IperfStream} (h : SndStream r st₂ st₃)
    (hp : Loaded st₁ st₂) : SndStream r st₁ st₃ := by
  refine ⟨h.socket.trans hp.socket, h.greenLight.trans hp.greenLight, ?_, ?_, hp.buffer.trans h.buffer⟩
  · rw [h.startTime, hp.result]
  · rw [h.bytesSent, hp.result]

/-- A transfer from a test in which a stream was prepared, and the counting of its bytes. -/
theorem counting_snd (sp : Nat) {p : IperfProg Int} {g : IperfStream → IperfStream}
    (hg : ∀ st, Loaded st (g st))
    (hp : Transfer { t with streams := t.streams.modify sp g } p) :
    Ends { t with streams := t.streams.modify sp g } (do
      let r ← p
      if r < 0 then
        pure r
      else do
        modifyStream sp (IperfStream.sent r)
        pure r) (Snd t sp) := by
  refine .bind hp fun r t' h => ?_
  obtain ⟨rfl, hle⟩ := h
  refine .ite (fun hr => .pure ⟨⟨g, t.done, rfl, id, ?_⟩, hle⟩) fun hr => .modifyTest_bind (.pure ?_)
  · intro st
    obtain ⟨hsock, hgreen, hres, hbuf⟩ := hg st
    exact ⟨hsock, hgreen, by rw [hres], by rw [if_pos hr, hres], hbuf⟩
  · refine ⟨⟨IperfStream.sent r ∘ g, t.done, ?_, id, fun st => (sent_sndStream hr _).prepared (hg st)⟩, hle⟩
    rw [List.modify_modify_eq]

/-- Nothing was prepared. -/
theorem modify_self (t : IperfTest) (sp : Nat) : { t with streams := t.streams.modify sp id } = t := by
  rw [List.modify_id]

theorem counting_snd_self {p : IperfProg Int} (hp : Transfer t p) : Ends t (do
      let r ← p
      if r < 0 then
        pure r
      else do
        modifyStream sp (IperfStream.sent r)
        pure r) (Snd t sp) := by
  have h := counting_snd (t := t) sp (g := id) (p := p) loaded_id
  rw [modify_self] at h
  exact h hp

theorem iperfTcpSend_snd (hpos : 0 < t.settings.blksize) (hint : IsInt t.settings.blksize) :
    Ends t (iperfTcpSend fuel sp) (Snd t sp) := by
  refine .getTest_bind (.ite (fun _ => ?_) fun _ => ?_)
  · exact .getStream_bind fun st _ => counting_snd_self (nsendfile_transfer fuel hpos hint _ _)
  · exact counting_snd_self (streamWrite_transfer fuel hpos hint)

theorem iperfUdpSend_snd (hpos : 0 < t.settings.blksize) (hint : IsInt t.settings.blksize) :
    Ends t (iperfUdpSend fuel sp) (Snd t sp) := by
  refine .silent_bind gettimeofday_silent fun before => .modifyTest_bind ?_
  exact counting_snd _ (loaded_stamp before) (streamWrite_transfer fuel hpos hint)

theorem iperfSctpSend_snd (hpos : 0 < t.settings.blksize) (hint : IsInt t.settings.blksize) :
    Ends t (iperfSctpSend fuel sp) (Snd t sp) :=
  counting_snd_self (streamWrite_transfer fuel hpos hint)

theorem protocolSend_snd (prot : ProtId) (hpos : 0 < t.settings.blksize) (hint : IsInt t.settings.blksize) :
    Ends t (protocolSend fuel prot sp) (Snd t sp) := by
  cases prot with
  | tcp => exact iperfTcpSend_snd fuel hpos hint
  | udp => exact iperfUdpSend_snd fuel hpos hint
  | sctp => exact iperfSctpSend_snd fuel hpos hint

/-- A call after a change of the stream that is not followed here. -/
theorem Snd.prepared {t' : IperfTest} {r : Int} {g : IperfStream → IperfStream}
    (h : Snd { t with streams := t.streams.modify sp g } sp r t')
    (hg : ∀ st, Loaded st (g st)) : Snd t sp r t' := by
  obtain ⟨⟨f, done, rfl, hdone, hf⟩, hle⟩ := h
  refine ⟨⟨f ∘ g, done, ?_, hdone, fun st => (hf (g st)).prepared (hg st)⟩, hle⟩
  rw [List.modify_modify_eq]

theorem diskfileSend_snd (hpos : 0 < t.settings.blksize) (hint : IsInt t.settings.blksize) :
    Ends t (diskfileSend fuel sp) (Snd t sp) := by
  refine .getTest_bind (.getStream_bind fun st _ => .silent_bind (.sys _) fun a => ?_)
  match a with
  | .ok [] =>
    refine .modifyTest_bind (.pure ⟨⟨id, true, by rw [List.modify_id], fun _ => rfl, fun st => ?_⟩, hpos.le⟩)
    exact ⟨rfl, rfl, rfl, (UInt64.add_zero _).symm, le_rfl⟩
  | .ok (c :: bs) =>
    refine .modifyTest_bind (.mono (protocolSend_snd fuel st.prot ?_ ?_) fun r t' h => ?_)
    · exact hpos
    · exact hint
    · exact h.prepared fun st => ⟨rfl, rfl, rfl, overlay_length_le _ _⟩
  | .error e => exact .silent_bind (.setErrno e) fun _ => protocolSend_snd fuel st.prot hpos hint

/-- A call of `sp->snd`. -/
theorem streamSnd_snd (hpos : 0 < t.settings.blksize) (hint : IsInt t.settings.blksize) :
    Ends t (streamSnd fuel sp) (Snd t sp) :=
  .getStream_bind fun _ _ => .ite (fun _ => diskfileSend_snd fuel hpos hint) fun _ =>
    protocolSend_snd fuel _ hpos hint

end Routines

end Iperf
