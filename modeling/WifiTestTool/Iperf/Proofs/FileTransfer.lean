import WifiTestTool.Iperf.Proofs.ZeroCopy

/-!
# Sending and receiving a file

With `-F` the sender takes its blocks from a disk file and the receiver writes what it gets to one.
`diskfile_send` forgets how many bytes it has read: every block is sent at its full length, and after a
short read at the end of the file the rest of it is left over from the block before. `diskfile_recv` writes
exactly what was received.
-/

namespace Iperf

open Reactive

/-! ## The sender -/

/-- Successive calls of `diskfile_send`, `n` of them, that have each sent a whole block. -/
inductive Uploads (m₀ : Mem) (g₀ : Os) : Nat → Mem → Os → Prop where
  | start : Uploads m₀ g₀ 0 m₀ g₀
  | block {n fuel : Nat} {m m' : Mem} {g g' : Os} : Uploads m₀ g₀ n m g →
      Prog.Reach systemContract (diskfileSend fuel 0, m, g) (.ret m.test.settings.blksize, m', g') →
      Uploads m₀ g₀ (n + 1) m' g'

/-- The test sends a disk file over a single TCP stream, which has yet to be made. -/
structure SendsFile (t : IperfTest) : Prop where
  streams : t.streams = []
  protocol : t.protocol = .tcp
  sender : t.sender = true
  diskfileName : t.diskfileName ≠ none
  done : t.done = false
  blksize_pos : 0 < t.settings.blksize
  blksize_int : IsInt t.settings.blksize

/-- In a run of the sender `t` a stream is made for a connection, and `diskfile_send` is called until it
reports the end of the file, with no error on the way. The file holds `data`, and `wire` is what has been
sent over the connection. -/
def FileSent (t : IperfTest) (data wire : List UInt8) : Prop :=
  ∃ (s : Int) (sent received received' : List UInt8) (n fuel : Nat) (p₀ p₁ p p' : Mem × Os),
    p₀.1.test = t ∧ p₀.2.handle s = some (.socket sent received) ∧
    (∀ name ∈ t.diskfileName, p₀.2.disk name = data) ∧
    Prog.Reach systemContract (iperfNewStream s, p₀) (.ret true, p₁) ∧ Uploads p₁.1 p₁.2 n p.1 p.2 ∧
    Prog.Reach systemContract (diskfileSend fuel 0, p) (.ret 0, p') ∧ p'.1.test.done = true ∧
    p'.2.handle s = some (.socket (sent ++ wire) received')

/-- A sender that has sent `n` blocks of the file: the blocks are what is in the file, as long as they are
within it. -/
structure Uploading (t : IperfTest) (s : Int) (sent data : List UInt8) (n : Nat) (m : Mem) (g : Os) :
    Prop where
  backed : Backed m.test.core g
  blksize : m.test.settings.blksize = t.settings.blksize
  zerocopy : m.test.zerocopy = t.zerocopy
  done : m.test.done = false
  within : n * t.settings.blksize.toNat < data.length + t.settings.blksize.toNat
  stream : ∃ st wire received, m.test.streams = [st] ∧ st.socket = s ∧ st.prot = .tcp ∧
    st.buffer.length = t.settings.blksize.toNat ∧
    g.handle st.diskfileFd =
      some (.file data (min (n * t.settings.blksize.toNat) data.length)) ∧
    g.handle s = some (.socket (sent ++ wire) received) ∧
    wire.length = n * t.settings.blksize.toNat ∧
    (t.zerocopy = true → ∀ b ∈ wire, b = 0) ∧
    (t.zerocopy = false → n * t.settings.blksize.toNat ≤ data.length →
      wire = data.take (n * t.settings.blksize.toNat))

section Sender

variable {t : IperfTest} {s : Int} {sent data : List UInt8} {n : Nat} {m m' : Mem} {g g' : Os}

theorem sizeT_of_isInt {n : Int} (hpos : 0 < n) (h : IsInt n) : sizeT n = n.toNat := by
  obtain ⟨-, hlt⟩ := h
  unfold sizeT
  omega

/-- A transfer that returns the block size has sent the whole block. -/
theorem transferred_block {n : Int} {outs : List (Except Errno Nat)} (hpos : 0 < n) (h : IsInt n)
    (hle : transferred outs ≤ n.toNat) (heq : toInt n = toInt (transferred outs)) :
    transferred outs = n.toNat := by
  obtain ⟨-, hlt⟩ := h
  have hout : IsInt (transferred outs : Int) := ⟨by omega, by omega⟩
  rw [toInt_of_isInt ⟨by omega, hlt⟩, toInt_of_isInt hout] at heq
  omega

theorem overlay_length {old new : List UInt8} (h : new.length ≤ old.length) :
    (overlay old new).length = old.length := by
  unfold overlay
  rw [List.length_append, List.length_drop]
  omega

theorem Backed.nil {t : IperfTest} (g : Os) (h : t.streams = []) : Backed t.core g := by
  have hmem : ∀ st, st ∉ t.core.2 := fun st hst => by
    have hst : st ∈ t.streams.map IperfStream.core := hst
    rw [h] at hst
    exact List.not_mem_nil hst
  exact ⟨fun st hst => absurd hst (hmem st), fun st hst => absurd hst (hmem st),
    fun st hst => absurd hst (hmem st), fun st hst => absurd hst (hmem st)⟩

/-- A file is read from where the last call has stopped. -/
theorem mayAnswer_read_file {fd : Int} {contents : List UInt8} {pos k : Nat}
    {a : Except Errno (List UInt8)} (hfile : g.handle fd = some (.file contents pos))
    (h : g.mayAnswer (.read fd k) a) : a = .ok ((contents.drop pos).take k) := by
  unfold Os.mayAnswer at h
  dsimp only at h
  rw [hfile] at h
  cases a with
  | error e => exact h.elim
  | ok bs => exact congrArg Except.ok h

theorem mayAnswer_read_socket {fd : Int} {sent received bs : List UInt8} {k : Nat}
    (hsocket : g.handle fd = some (.socket sent received)) (h : g.mayAnswer (.read fd k) (.ok bs)) :
    bs.length ≤ k := by
  unfold Os.mayAnswer at h
  dsimp only at h
  rw [hsocket] at h
  exact h

/-- A stream with a disk file that has been made for the socket `s`. -/
theorem newStream_made {t t' : IperfTest} {g g' : Os} {s : Int} {sent received : List UInt8}
    (hname : t.diskfileName ≠ none) (hs : g.handle s = some (.socket sent received))
    (h : NewStreamResult t g s true t' g') :
    ∃ bufferFd fd buffer name, t' = iperfAddStream (newStream t s bufferFd fd buffer) t ∧
      buffer.length = t.settings.blksize.toNat ∧ t.diskfileName = some name ∧
      g'.handle fd = some (.file (if !t.sender then [] else g.disk name) 0) ∧
      g'.handle s = some (.socket sent received) := by
  have hne : ∀ {fd : Int} {g₁ : Os}, g₁.Free fd → g₁.handle s = some (.socket sent received) → s ≠ fd := by
    rintro fd g₁ hfree hsocket rfl
    rw [hfree.2] at hsocket
    cases hsocket
  cases h with
  | @made bufferFd fd buffer _ hfree hprep hlength =>
  cases hprep with
  | plain hnone => exact absurd hnone hname
  | @disk name _ hsome hfd =>
    have hs₁ : (g.withBuffer t bufferFd).handle s = some (.socket sent received) :=
      (Os.handle_put_of_ne _ (hne hfree hs)).trans hs
    exact ⟨bufferFd, fd, buffer, name, rfl, hlength, hsome, Os.handle_put_same _,
      (Os.handle_put_of_ne _ (hne hfd hs₁)).trans hs₁⟩

/-- The start of the upload. -/
theorem SendsFile.uploading (ht : SendsFile t) {received : List UInt8} (hm : m.test = t)
    (hs : g.handle s = some (.socket sent received)) (hdisk : ∀ name ∈ t.diskfileName, g.disk name = data)
    (h : Prog.Reach systemContract (iperfNewStream s, m, g) (.ret true, m', g')) :
    Uploading t s sent data 0 m' g' := by
  have hres : NewStreamResult t g s true m'.test g' := (iperfNewStream_result _ _ ⟨hm, rfl⟩).reach h
  have hbacked : Backed m'.test.core g' := (Backed.nil g ht.streams).newStream ⟨sent, received, hs⟩ hres
  have hpos := ht.blksize_pos
  obtain ⟨bufferFd, fd, buffer, name, ht', hlength, hname, hfile, hs'⟩ :=
    newStream_made ht.diskfileName hs hres
  refine ⟨hbacked, by rw [ht']; rfl, by rw [ht']; rfl, by rw [ht']; exact ht.done, by omega,
    { newStream t s bufferFd fd buffer with id := 1 }, [], received, ?_, rfl, ht.protocol, hlength, ?_, ?_,
    ?_, fun _ _ hb => absurd hb List.not_mem_nil, fun _ _ => ?_⟩
  · rw [ht']
    unfold iperfAddStream
    rw [ht.streams]
    rfl
  · rw [Nat.zero_mul, Nat.zero_min]
    rw [ht.sender, hdisk name hname] at hfile
    exact hfile
  · rw [List.append_nil]
    exact hs'
  · rw [Nat.zero_mul]
    rfl
  · rw [Nat.zero_mul, List.take_zero]

/-- The source of a block that was read from the file. -/
theorem sendSource_length {t : IperfTest} {buffer : List UInt8} (hpos : 0 < t.settings.blksize)
    (hint : IsInt t.settings.blksize) (hlength : buffer.length = t.settings.blksize.toNat) :
    (sendSource t buffer).length = t.settings.blksize.toNat := by
  unfold sendSource
  split
  · exact List.length_replicate ..
  · rw [List.length_take, sizeT_of_isInt hpos hint, hlength, Nat.min_self]

/-- One more block. -/
theorem Uploading.block {fuel : Nat} (ht : SendsFile t) (h : Uploading t s sent data n m g)
    (hcall : Prog.Reach systemContract (diskfileSend fuel 0, m, g) (.ret m.test.settings.blksize, m', g')) :
    Uploading t s sent data (n + 1) m' g' := by
  have hpos := ht.blksize_pos
  have hsize := sizeT_of_isInt ht.blksize_pos ht.blksize_int
  obtain ⟨st, wire, received, hstreams, rfl, hprot, hlength, hfile, hs, hwire, hzero, hdata⟩ := h.stream
  have hst : m.test.streams[0]? = some st := by rw [hstreams]; rfl
  have hbacked : Backed m'.test.core g' :=
    (measures_backed (fun _ _ _ hh => diskfileSend_neutral hh _ _) _ _ h.backed).reach hcall
  have hcalled : DiskSent m.test g 0 st (sent ++ wire) m.test.settings.blksize m' g' :=
    (diskfileSend_sends fuel h.backed hst hprot hs _ _ ⟨rfl, rfl⟩).reach hcall
  generalize hr : m.test.settings.blksize = r at hcalled
  rw [h.blksize] at hr
  cases hcalled with
  | ended => omega
  | failed ha _ => cases mayAnswer_read_file hfile ha
  | @block bs received' _ _ _ hne ha hs' hsent =>
  have hbs := Except.ok.inj (mayAnswer_read_file hfile ha)
  rw [h.blksize, hsize] at hbs
  -- There was something left in the file.
  have hlt : n * t.settings.blksize.toNat < data.length := by
    by_contra hge
    rw [Nat.min_eq_right (by omega), List.drop_length, List.take_nil] at hbs
    exact hne hbs
  rw [Nat.min_eq_left hlt.le] at hbs hfile
  have hbslen : bs.length = min t.settings.blksize.toNat (data.length - n * t.settings.blksize.toNat) := by
    rw [hbs, List.length_take, List.length_drop]
  have hbuffer : (overlay st.buffer bs).length = t.settings.blksize.toNat := by
    rw [overlay_length (by omega), hlength]
  have hblksize : (m.test.withBlock 0 bs).settings.blksize = t.settings.blksize := h.blksize
  have hsource := sendSource_length (t := m.test.withBlock 0 bs) (hblksize ▸ ht.blksize_pos)
    (hblksize ▸ ht.blksize_int) (hbuffer.trans (congrArg Int.toNat hblksize.symm))
  rw [hblksize] at hsource
  obtain ⟨outs, f, hm', hf, hle, rfl, hcount⟩ := hsent
  have hsent : transferred outs = t.settings.blksize.toNat :=
    transferred_block ht.blksize_pos ht.blksize_int (hsource ▸ hle) (hr ▸ hcount (by omega))
  generalize hsrc : sendSource (m.test.withBlock 0 bs) (overlay st.buffer bs) = src at *
  have hstreams' : m'.test.streams = [f { st with buffer := overlay st.buffer bs }] := by
    rw [hm']
    show (m.test.streams.modify 0 _).modify 0 f = _
    rw [hstreams]
    rfl
  obtain ⟨hfbuffer, hfcore⟩ := hf { st with buffer := overlay st.buffer bs }
  have hdiskfileFd : (f { st with buffer := overlay st.buffer bs }).diskfileFd = st.diskfileFd :=
    congrArg StreamCore.diskfileFd hfcore
  refine ⟨hbacked, by rw [hm']; exact h.blksize, by rw [hm']; exact h.zerocopy, by rw [hm']; exact h.done,
    ?_, _, wire ++ src, received', hstreams', congrArg StreamCore.socket hfcore,
    (congrArg StreamCore.prot hfcore).trans hprot, ?_, ?_, ?_, ?_, fun hz b hb => ?_, fun hz hle' => ?_⟩
  · rw [Nat.succ_mul]
    omega
  · rw [hfbuffer]
    exact hbuffer
  · have hne : st.diskfileFd ≠ st.socket := by
      intro heq
      rw [heq, hs] at hfile
      cases hfile
    have hpos' : n * t.settings.blksize.toNat + bs.length =
        min ((n + 1) * t.settings.blksize.toNat) data.length := by
      rw [hbslen, Nat.succ_mul]
      omega
    rw [hdiskfileFd, ← hpos']
    refine (Function.update_of_ne hne ..).trans ?_
    rw [Os.handle_adjust_same, hfile]
    rfl
  · refine (Function.update_self ..).trans ?_
    rw [hsent, List.take_of_length_le hsource.le, List.append_assoc]
  · rw [List.length_append, hwire, hsource, Nat.succ_mul]
  · have hz' : (m.test.withBlock 0 bs).zerocopy = true := h.zerocopy.trans hz
    rcases List.mem_append.1 hb with hb | hb
    · exact hzero hz b hb
    · rw [← hsrc, sendSource, if_pos hz'] at hb
      exact List.eq_of_mem_replicate hb
  · have hz' : ¬ (m.test.withBlock 0 bs).zerocopy = true := by
      rw [show (m.test.withBlock 0 bs).zerocopy = t.zerocopy from h.zerocopy, hz]
      exact Bool.false_ne_true
    rw [Nat.succ_mul] at hle' ⊢
    have hwhole : bs.length = st.buffer.length := by omega
    rw [sendSource, if_neg hz', overlay_whole hwhole, hblksize, hsize,
      List.take_of_length_le (by omega)] at hsrc
    rw [hdata hz (by omega), ← hsrc, hbs, ← List.take_add]

theorem Uploads.uploading (ht : SendsFile t) {m₀ : Mem} {g₀ : Os} (h₀ : Uploading t s sent data 0 m₀ g₀)
    (h : Uploads m₀ g₀ n m g) : Uploading t s sent data n m g := by
  induction h with
  | start => exact h₀
  | block _ hcall ih => exact ih.block ht hcall

/-- At the end of the file no block is sent. -/
theorem Uploading.ended {fuel : Nat} (ht : SendsFile t) {wire' received' : List UInt8}
    (h : Uploading t s sent data n m g)
    (hcall : Prog.Reach systemContract (diskfileSend fuel 0, m, g) (.ret 0, m', g'))
    (hdone : m'.test.done = true) (hs' : g'.handle s = some (.socket (sent ++ wire') received')) :
    data.length ≤ n * t.settings.blksize.toNat ∧ wire'.length = n * t.settings.blksize.toNat ∧
      (t.zerocopy = true → ∀ b ∈ wire', b = 0) ∧
      (t.zerocopy = false → n * t.settings.blksize.toNat ≤ data.length →
        wire' = data.take (n * t.settings.blksize.toNat)) := by
  have hpos := ht.blksize_pos
  obtain ⟨st, wire, received, hstreams, rfl, hprot, hlength, hfile, hs, hwire, hzero, hdata⟩ := h.stream
  have hst : m.test.streams[0]? = some st := by rw [hstreams]; rfl
  have hcalled : DiskSent m.test g 0 st (sent ++ wire) 0 m' g' :=
    (diskfileSend_sends fuel h.backed hst hprot hs _ _ ⟨rfl, rfl⟩).reach hcall
  generalize hr : (0 : Int) = r at hcalled
  cases hcalled with
  | failed ha _ => cases mayAnswer_read_file hfile ha
  | block _ _ _ hsent =>
    obtain ⟨_, _, hm', -⟩ := hsent
    rw [hm'] at hdone
    exact absurd (h.done.symm.trans hdone) Bool.false_ne_true
  | ended ha hm' =>
    have hnil := Except.ok.inj (mayAnswer_read_file hfile ha)
    rw [h.blksize, sizeT_of_isInt ht.blksize_pos ht.blksize_int, eq_comm, List.take_eq_nil_iff,
      List.drop_eq_nil_iff] at hnil
    have hne : st.socket ≠ st.diskfileFd := by
      intro heq
      rw [← heq, hs] at hfile
      cases hfile
    rw [Os.handle_adjust_of_ne hne, hs, Option.some.injEq, Handle.socket.injEq] at hs'
    obtain rfl := List.append_cancel_left hs'.1
    exact ⟨by omega, hwire, hzero, hdata⟩

/-- What is sent is the file if and only if it consists of whole blocks (and of zeros, with the zero-copy
option). -/
theorem FileSent.eq_iff (ht : SendsFile t) {wire : List UInt8} (h : FileSent t data wire) :
    wire = data ↔ t.settings.blksize ∣ data.length ∧ (t.zerocopy = true → ∀ b ∈ data, b = 0) := by
  obtain ⟨s, sent, received, received', n, fuel, p₀, p₁, p, p', hp₀, hs, hdisk, hnew, huploads, hend, hdone,
    hs'⟩ := h
  have hloading := huploads.uploading ht (ht.uploading hp₀ hs hdisk hnew)
  obtain ⟨hge, hlength, hzero, hdata⟩ := hloading.ended ht hend hdone hs'
  have hwithin := hloading.within
  have hpos := ht.blksize_pos
  obtain ⟨blk, hblk⟩ := Int.eq_ofNat_of_zero_le hpos.le
  rw [hblk, Int.natCast_dvd_natCast]
  rw [hblk, Int.toNat_natCast] at hge hlength hdata hwithin
  constructor
  · rintro rfl
    exact ⟨Dvd.intro_left n hlength.symm, hzero⟩
  · rintro ⟨⟨k, hk⟩, hzeros⟩
    -- The last block ends where the file does.
    have hn : n = k := by
      have h₁ : k ≤ n := Nat.le_of_mul_le_mul_left (by rw [← hk, Nat.mul_comm blk n]; exact hge) (by omega)
      have h₂ : n < k + 1 := by
        refine Nat.lt_of_mul_lt_mul_left (a := blk) ?_
        rw [Nat.mul_comm blk n, Nat.mul_add, ← hk]
        omega
      omega
    have hall : n * blk = data.length := by rw [hk, hn, Nat.mul_comm]
    rw [hall] at hlength hdata
    cases hz : t.zerocopy with
    | true =>
      rw [List.eq_replicate_of_mem (hzero hz), List.eq_replicate_of_mem (hzeros hz), hlength]
    | false => rw [hdata hz le_rfl, List.take_length]

end Sender

/-! ## The receiver -/

/-- Reading twice from a descriptor. -/
theorem adjust_read_read (g : Os) (fd : Int) (bs bs' : List UInt8) :
    (g.adjust fd (Handle.read bs)).adjust fd (Handle.read bs') = g.adjust fd (Handle.read (bs ++ bs')) := by
  unfold Os.adjust
  rw [Os.handle_put_same]
  unfold Os.put
  rw [Function.update_idem, Option.map_map]
  have hread : Handle.read bs' ∘ Handle.read bs = Handle.read (bs ++ bs') := by
    funext h
    cases h with
    | socket sent received => exact congrArg (Handle.socket sent) (List.append_assoc ..)
    | file contents pos =>
      refine congrArg (Handle.file contents) ?_
      rw [List.length_append, Nat.add_assoc]
  rw [hread]

theorem adjust_read_nil {g : Os} {fd : Int} : g.adjust fd (Handle.read []) = g := by
  have hread : Handle.read [] = id := by
    funext h
    cases h with
    | socket sent received => exact congrArg (Handle.socket sent) (List.append_nil _)
    | file contents pos => rfl
  unfold Os.adjust Os.put
  rw [hread, Option.map_id, id, Function.update_eq_self]

/-- `Nread` from a socket: what it returns is what was received. -/
theorem nread_gains {t : IperfTest} {g : Os} {fd : Int} {sent received : List UInt8} (fuel count : Nat)
    (hfd : g.handle fd = some (.socket sent received)) :
    Prog.Triple systemContract (At t g) (nread fuel fd count) fun r m g' => m.test = t ∧
      (∀ got ∈ r, got.length ≤ count ∧ g' = g.adjust fd (Handle.read got)) := by
  suffices H : ∀ fuel got, got.length ≤ count →
      Prog.Triple systemContract (At t (g.adjust fd (Handle.read got))) (nreadLoop fd count fuel got)
        fun r m g' => m.test = t ∧
          (∀ got ∈ r, got.length ≤ count ∧ g' = g.adjust fd (Handle.read got)) by
    have := H fuel [] (Nat.zero_le _)
    rw [adjust_read_nil] at this
    exact this
  intro fuel
  induction fuel with
  | zero => exact fun _ _ _ _ _ => trivial
  | succ fuel ih =>
    intro got hgot
    have hret : ∀ m g', At t (g.adjust fd (Handle.read got)) m g' → m.test = t ∧
        ∀ got' ∈ some got, got'.length ≤ count ∧ g' = g.adjust fd (Handle.read got') := by
      rintro m g' ⟨hm, hg⟩
      refine ⟨hm, fun got' hsome => ?_⟩
      cases hsome
      exact ⟨hgot, hg⟩
    refine .ite (fun _ => .ret hret) fun _ => ?_
    rintro m g' ⟨hm, rfl⟩
    refine ⟨trivial, fun a ha => ?_⟩
    match a, ha with
    | .error .eintr, _ => exact ih got hgot m _ ⟨hm, rfl⟩
    | .error .eagain, _ | .error .enobufs, _ | .error .enomem, _ | .error (.other _), _
    | .error .ebadf, _ | .error .eafnosupport, _ | .error .einprogress, _ =>
      exact ⟨trivial, hm, nofun⟩
    | .ok [], _ =>
      exact hret m _ ⟨hm, adjust_read_nil⟩
    | .ok (b :: bs), ha =>
      have hlength := mayAnswer_read_socket (Os.handle_adjust_same.trans (by rw [hfd]; rfl)) ha
      exact ih (got ++ b :: bs) (by rw [List.length_append]; omega) m _ ⟨hm, adjust_read_read ..⟩

/-- The test after the stream at `sp` has received the bytes `bs`. -/
def IperfTest.withReceived (sp : Nat) (bs : List UInt8) (t : IperfTest) : IperfTest :=
  { t.withBlock sp bs with
    streams := (t.withBlock sp bs).streams.modify sp (IperfStream.received bs.length) }

/-- A stream that has received the bytes `bs`. -/
def IperfStream.withReceived (bs : List UInt8) (st : IperfStream) : IperfStream :=
  IperfStream.received bs.length { st with buffer := overlay st.buffer bs }

theorem withReceived_streams {t : IperfTest} {sp : Nat} {st : IperfStream} (bs : List UInt8)
    (hst : t.streams[sp]? = some st) :
    (t.withReceived sp bs).streams[sp]? = some (st.withReceived bs) := by
  unfold IperfTest.withReceived IperfTest.withBlock
  rw [List.getElem?_modify_eq, List.getElem?_modify_eq, hst]
  rfl

/-- `iperf_tcp_recv`: unless there is an error, it returns the number of bytes that were received. -/
theorem iperfTcpRecv_receives {t : IperfTest} {g : Os} {sp : Nat} {st : IperfStream}
    {sent received : List UInt8} (fuel : Nat) (hpos : 0 < t.settings.blksize)
    (hint : IsInt t.settings.blksize) (hst : t.streams[sp]? = some st)
    (hs : g.handle st.socket = some (.socket sent received)) :
    Prog.Triple systemContract (At t g) (iperfTcpRecv fuel sp) fun r m g' => r < 0 ∨
      ∃ bs : List UInt8, r = bs.length ∧ m.test = t.withReceived sp bs ∧
        g' = g.adjust st.socket (Handle.read bs) := by
  have hread : Prog.Triple systemContract (At t g) (streamRead fuel sp) fun r m g' => r < 0 ∨
      ∃ bs : List UInt8, r = bs.length ∧ m.test = t.withBlock sp bs ∧
        g' = g.adjust st.socket (Handle.read bs) := by
    refine triple_getTest_bind fun m₀ g₀ hm₀ => triple_getStream hst ?_
    refine (nread_gains fuel _ hs).bind fun got => ?_
    cases got with
    | none => exact .ret fun _ _ _ => .inl (by decide)
    | some bs =>
      rintro m g' ⟨hm, hgot⟩
      obtain ⟨hle, rfl⟩ := hgot bs rfl
      rw [hm₀.1, sizeT_of_isInt hpos hint] at hle
      obtain ⟨-, hlt⟩ := hint
      exact ⟨trivial, .inr ⟨bs, toInt_of_isInt ⟨by omega, by omega⟩, by rw [← hm]; rfl, rfl⟩⟩
  refine hread.bind fun r => .ite (fun hneg => .ret fun _ _ _ => .inl hneg) fun hnneg => ?_
  rintro m g' (hneg | ⟨bs, rfl, hm, hg⟩)
  · exact absurd hneg hnneg
  · refine ⟨trivial, .inr ⟨bs, rfl, ?_, hg⟩⟩
    rw [IperfTest.withReceived, ← hm]

/-- What `diskfile_recv` has done for the stream `st` at `sp`, with the return value `r`: unless there was
an error, it has received the bytes `bs` and tried to write them to the disk file. -/
def DiskReceived (t : IperfTest) (g₀ : Os) (sp : Nat) (st : IperfStream) (r : Int) (m : Mem) (g : Os) :
    Prop :=
  r < 0 ∨ ∃ bs : List UInt8, r = bs.length ∧ m.test = t.withReceived sp bs ∧
    if bs = [] then g = g₀.adjust st.socket (Handle.read bs)
    else ∃ a, g = (g₀.adjust st.socket (Handle.read bs)).answer (.write st.diskfileFd bs) a

theorem diskfileRecv_receives {t : IperfTest} {g : Os} {sp : Nat} {st : IperfStream}
    {sent received : List UInt8} (fuel : Nat) (hpos : 0 < t.settings.blksize)
    (hint : IsInt t.settings.blksize) (hst : t.streams[sp]? = some st) (hprot : st.prot = .tcp)
    (hs : g.handle st.socket = some (.socket sent received)) :
    Prog.Triple systemContract (At t g) (diskfileRecv fuel sp) (DiskReceived t g sp st) := by
  refine triple_getStream hst ?_
  rw [hprot]
  refine (iperfTcpRecv_receives fuel hpos hint hst hs).bind fun r => .ite (fun hr => ?_) fun hr => ?_
  · rintro m g' (hneg | ⟨bs, rfl, hm, rfl⟩)
    · omega
    have hne : bs ≠ [] := by
      rintro rfl
      exact absurd hr (lt_irrefl _)
    refine triple_getStream (withReceived_streams bs hst) ?_ m _ ⟨hm, rfl⟩
    rintro m' g' ⟨hm', rfl⟩
    have htake : (st.withReceived bs).buffer.take (bs.length : Int).toNat = bs := by
      show (bs ++ st.buffer.drop bs.length).take (bs.length : Int).toNat = bs
      rw [Int.toNat_natCast, List.take_left]
    rw [htake]
    refine ⟨trivial, fun a _ => ?_⟩
    have hdone : ∀ m'' : Mem, m''.test = m'.test → DiskReceived t g sp st bs.length m''
        ((g.adjust st.socket (Handle.read bs)).answer (.write st.diskfileFd bs) a) :=
      fun m'' hm'' => .inr ⟨bs, rfl, hm''.trans hm', by rw [if_neg hne]; exact ⟨a, rfl⟩⟩
    cases a with
    | error e => exact ⟨trivial, hdone _ rfl⟩
    | ok k => exact hdone _ rfl
  · rintro m g' (hneg | ⟨bs, rfl, hm, hg⟩)
    · exact .inl hneg
    · have hnil : bs = [] := List.length_eq_zero_iff.1 (by omega)
      exact .inr ⟨bs, rfl, hm, by rw [if_pos hnil]; exact hg⟩

/-- Successive calls of `diskfile_recv`, none of which has failed: what was received has been written to
the file at once. -/
inductive Downloads (m₀ : Mem) (g₀ : Os) : Mem → Os → Prop where
  | start : Downloads m₀ g₀ m₀ g₀
  | block {fuel : Nat} {r : Int} {m m' : Mem} {g g' : Os} : Downloads m₀ g₀ m g →
      Prog.Reach systemContract (diskfileRecv fuel 0, m, g) (.ret r, m', g') → 0 ≤ r →
      r = 0 ∨ g'.transfers = g.transfers ++ [.ok r.toNat] → Downloads m₀ g₀ m' g'

/-- The test writes what it receives over a single TCP stream to a disk file. -/
structure ReceivesFile (t : IperfTest) : Prop where
  streams : t.streams = []
  protocol : t.protocol = .tcp
  sender : t.sender = false
  diskfileName : t.diskfileName ≠ none
  blksize_pos : 0 < t.settings.blksize
  blksize_int : IsInt t.settings.blksize

/-- In a run of the receiver `t` a stream is made for a connection, and calls of `diskfile_recv` receive
`wire` over it; then the disk file holds `written`. -/
def FileReceived (t : IperfTest) (wire written : List UInt8) : Prop :=
  ∃ (s : Int) (sent sent' received : List UInt8) (pos : Nat) (st : IperfStream) (p₀ p₁ p : Mem × Os),
    p₀.1.test = t ∧ p₀.2.handle s = some (.socket sent received) ∧
    Prog.Reach systemContract (iperfNewStream s, p₀) (.ret true, p₁) ∧ Downloads p₁.1 p₁.2 p.1 p.2 ∧
    p.2.handle s = some (.socket sent' (received ++ wire)) ∧
    p.1.test.streams = [st] ∧ p.2.handle st.diskfileFd = some (.file written pos)

/-- A receiver between two calls: the file holds what was received. -/
def Downloading (t : IperfTest) (s : Int) (received : List UInt8) (m : Mem) (g : Os) : Prop :=
  m.test.settings.blksize = t.settings.blksize ∧ ∃ st sent wire, m.test.streams = [st] ∧ st.socket = s ∧
    st.prot = .tcp ∧ g.handle st.diskfileFd = some (.file wire wire.length) ∧
    g.handle s = some (.socket sent (received ++ wire))

section Receiver

variable {t : IperfTest} {s : Int} {received : List UInt8} {m m' : Mem} {g g' : Os}

theorem ReceivesFile.downloading (ht : ReceivesFile t) {sent : List UInt8} (hm : m.test = t)
    (hs : g.handle s = some (.socket sent received))
    (h : Prog.Reach systemContract (iperfNewStream s, m, g) (.ret true, m', g')) :
    Downloading t s received m' g' := by
  have hres : NewStreamResult t g s true m'.test g' := (iperfNewStream_result _ _ ⟨hm, rfl⟩).reach h
  obtain ⟨bufferFd, fd, buffer, name, ht', hlength, hname, hfile, hs'⟩ :=
    newStream_made ht.diskfileName hs hres
  refine ⟨by rw [ht']; rfl, { newStream t s bufferFd fd buffer with id := 1 }, sent, [], ?_, rfl,
    ht.protocol, ?_, ?_⟩
  · rw [ht']
    unfold iperfAddStream
    rw [ht.streams]
    rfl
  · rw [ht.sender] at hfile
    exact hfile
  · rw [List.append_nil]
    exact hs'

/-- Writing at the end of a file. -/
theorem Handle.write_end (contents bs : List UInt8) :
    Handle.write bs (.file contents contents.length) =
      .file (contents ++ bs) (contents ++ bs).length := by
  unfold Handle.write
  dsimp only
  rw [List.take_length, List.drop_eq_nil_of_le (Nat.le_add_right ..), List.append_nil, List.length_append]

/-- One more block. -/
theorem Downloading.block {fuel : Nat} {r : Int} (ht : ReceivesFile t) (h : Downloading t s received m g)
    (hcall : Prog.Reach systemContract (diskfileRecv fuel 0, m, g) (.ret r, m', g')) (hr : 0 ≤ r)
    (hwrite : r = 0 ∨ g'.transfers = g.transfers ++ [.ok r.toNat]) : Downloading t s received m' g' := by
  obtain ⟨hblksize, st, sent, wire, hstreams, rfl, hprot, hfile, hs⟩ := h
  have hst : m.test.streams[0]? = some st := by rw [hstreams]; rfl
  have hcalled : DiskReceived m.test g 0 st r m' g' :=
    (diskfileRecv_receives fuel (hblksize ▸ ht.blksize_pos) (hblksize ▸ ht.blksize_int) hst hprot hs
      _ _ ⟨rfl, rfl⟩).reach hcall
  obtain hneg | ⟨bs, rfl, hm', hg⟩ := hcalled
  · omega
  have hne : st.diskfileFd ≠ st.socket := by
    intro heq
    rw [heq, hs] at hfile
    cases hfile
  have hs₁ : (g.adjust st.socket (Handle.read bs)).handle st.socket =
      some (.socket sent (received ++ (wire ++ bs))) := by
    rw [Os.handle_adjust_same, hs, ← List.append_assoc]
    rfl
  have hfile₁ : (g.adjust st.socket (Handle.read bs)).handle st.diskfileFd =
      some (.file wire wire.length) := (Os.handle_adjust_of_ne hne).trans hfile
  have hafter : g'.handle st.diskfileFd = some (.file (wire ++ bs) (wire ++ bs).length) ∧
      g'.handle st.socket = some (.socket sent (received ++ (wire ++ bs))) := by
    by_cases hnil : bs = []
    · rw [if_pos hnil] at hg
      rw [hg, hs₁, hfile₁, hnil, List.append_nil]
      exact ⟨rfl, rfl⟩
    rw [if_neg hnil] at hg
    have hzero : ¬ (bs.length : Int) = 0 := fun hzero =>
      hnil (List.length_eq_zero_iff.1 (Int.natCast_eq_zero.1 hzero))
    have hwhole := hwrite.resolve_left hzero
    obtain ⟨a, rfl⟩ := hg
    have ha : a = .ok bs.length := by
      cases a with
      | error e => cases (List.append_cancel_left hwhole)
      | ok k => exact List.singleton_inj.1 (List.append_cancel_left hwhole)
    subst ha
    have hwritten : ((g.adjust st.socket (Handle.read bs)).answer (.write st.diskfileFd bs)
        (.ok bs.length)).handle = ((g.adjust st.socket (Handle.read bs)).adjust st.diskfileFd
          (Handle.write bs)).handle := by
      unfold Os.answer
      dsimp only
      rw [List.take_length, Os.handle_note]
    rw [hwritten, Os.handle_adjust_same, hfile₁, Os.handle_adjust_of_ne hne.symm, hs₁, Option.map_some,
      Handle.write_end]
    exact ⟨rfl, rfl⟩
  refine ⟨by rw [hm']; exact hblksize, st.withReceived bs, sent, wire ++ bs, ?_, rfl, hprot, hafter.1,
    hafter.2⟩
  rw [hm']
  show (m.test.streams.modify 0 _).modify 0 _ = _
  rw [hstreams]
  rfl

theorem Downloads.downloading (ht : ReceivesFile t) {m₀ : Mem} {g₀ : Os}
    (h₀ : Downloading t s received m₀ g₀) (h : Downloads m₀ g₀ m g) : Downloading t s received m g := by
  induction h with
  | start => exact h₀
  | block _ hcall hr hwrite ih => exact ih.block ht hcall hr hwrite

/-- The receiver writes what it receives. -/
theorem FileReceived.eq (ht : ReceivesFile t) {wire written : List UInt8}
    (h : FileReceived t wire written) : written = wire := by
  obtain ⟨s, sent, sent', received, pos, st, p₀, p₁, p, hp₀, hs, hnew, hdownloads, hs', hstreams, hfile⟩ := h
  obtain ⟨-, st', sent'', wire', hstreams', hsocket, -, hfile', hs''⟩ :=
    hdownloads.downloading ht (ht.downloading hp₀ hs hnew)
  obtain rfl : st' = st := List.singleton_inj.1 (hstreams'.symm.trans hstreams)
  rw [hs', Option.some.injEq, Handle.socket.injEq] at hs''
  rw [hfile, Option.some.injEq, Handle.file.injEq] at hfile'
  rw [hfile'.1]
  exact (List.append_cancel_left hs''.2).symm

end Receiver

/-! ## The transfer -/

/-- **File transfer.** What the sender `t` transmits of the file, up to the call of `diskfile_send` that
reports its end, is the file, and so is what the receiver `u` writes, if and only if the length of the file
is a multiple of the block size and, where the sender has the zero-copy option, the file is all zero. -/
theorem file_transfer_faithful_iff {t u : IperfTest} {data wire written : List UInt8} (ht : SendsFile t)
    (hu : ReceivesFile u) (hsent : FileSent t data wire) (hreceived : FileReceived u wire written) :
    (wire = data ∧ written = data) ↔
      t.settings.blksize ∣ data.length ∧ (t.zerocopy = true → ∀ b ∈ data, b = 0) := by
  rw [hreceived.eq hu, and_self]
  exact hsent.eq_iff ht

/-- A sender and a receiver of a file in blocks of 4 bytes. -/
def fileTest (role : Role) : IperfTest :=
  let t := iperfSetTestRole role mainTest
  { t with diskfileName := some "file", settings := { t.settings with blksize := 4 } }

/-- The system with one connection and the file `data`. -/
def fileSystem (data : List UInt8) : Os := { oneSocket with disk := fun _ => data }

/-- The environment in which `read` returns `bs`. -/
def readBytes (bs : List UInt8) (_ : Nat) : (r : Req) → r.Ans
  | .read _ _ => .ok bs
  | r => r.quiet

/-- A test with its stream. -/
def fileStream (role : Role) (data : List UInt8) : Mem × Os :=
  (Prog.drive systemContract (readBytes []) 100 0
    (iperfNewStream 3, Mem.start (fileTest role), fileSystem data)).2

/-- The sender after a call of `diskfile_send` that reads `bs`. -/
def sendFile (bs : List UInt8) (p : Mem × Os) : Mem × Os :=
  (Prog.drive systemContract (readBytes bs) 100 0 (diskfileSend 9 0, p)).2

/-- The receiver after a call of `diskfile_recv` that receives `bs`. -/
def receiveFile (bs : List UInt8) (p : Mem × Os) : Mem × Os :=
  (Prog.drive systemContract (readBytes bs) 100 0 (diskfileRecv 9 0, p)).2

theorem fileTest_sends : SendsFile (fileTest .client) :=
  ⟨rfl, rfl, rfl, nofun, rfl, by decide, by decide⟩

theorem fileTest_receives : ReceivesFile (fileTest .server) :=
  ⟨rfl, rfl, rfl, nofun, by decide, by decide⟩

/-- A file of one block, and one that is shorter. -/
theorem file_sent {data wire : List UInt8}
    (h : data = [1, 2, 3, 4] ∧ wire = [1, 2, 3, 4] ∨ data = [1, 2] ∧ wire = [1, 2, 0, 0]) :
    FileSent (fileTest .client) data wire := by
  have hnew : Prog.Reach systemContract
      (iperfNewStream 3, Mem.start (fileTest .client), fileSystem data) (.ret true, fileStream .client data) :=
    Prog.reach_of_drive (readBytes []) 100 (by rcases h with ⟨rfl, -⟩ | ⟨rfl, -⟩ <;> decide)
  have hblock : Prog.Reach systemContract (diskfileSend 9 0, fileStream .client data)
      (.ret (fileStream .client data).1.test.settings.blksize, sendFile data (fileStream .client data)) :=
    Prog.reach_of_drive (readBytes data) 100 (by rcases h with ⟨rfl, -⟩ | ⟨rfl, -⟩ <;> decide)
  have hend : Prog.Reach systemContract (diskfileSend 9 0, sendFile data (fileStream .client data))
      (.ret 0, sendFile [] (sendFile data (fileStream .client data))) :=
    Prog.reach_of_drive (readBytes []) 100 (by rcases h with ⟨rfl, -⟩ | ⟨rfl, -⟩ <;> decide)
  refine ⟨3, [], [], [], 1, 9, _, _, _, _, rfl, rfl, fun _ _ => rfl, hnew, .block .start hblock, hend, ?_, ?_⟩
  · rcases h with ⟨rfl, -⟩ | ⟨rfl, -⟩ <;> decide
  · rcases h with ⟨rfl, rfl⟩ | ⟨rfl, rfl⟩ <;> decide

theorem file_received {wire : List UInt8} (h : wire = [1, 2, 3, 4] ∨ wire = [1, 2, 0, 0]) :
    FileReceived (fileTest .server) wire wire := by
  have hst : (receiveFile wire (fileStream .server [])).1.test.streams.map (·.diskfileFd) = [6] := by
    rcases h with rfl | rfl <;> decide
  obtain ⟨st, hst, hdisk⟩ := List.map_eq_singleton_iff.1 hst
  have hnew : Prog.Reach systemContract (iperfNewStream 3, Mem.start (fileTest .server), fileSystem [])
      (.ret true, fileStream .server []) :=
    Prog.reach_of_drive (readBytes []) 100 (by decide)
  have hblock : Prog.Reach systemContract (diskfileRecv 9 0, fileStream .server [])
      (.ret 4, receiveFile wire (fileStream .server [])) :=
    Prog.reach_of_drive (readBytes wire) 100 (by rcases h with rfl | rfl <;> decide)
  refine ⟨3, [], [], [], 4, st, _, _, _, rfl, rfl, hnew, .block .start hblock (by decide) (.inr ?_), ?_, hst, ?_⟩
  · rcases h with rfl | rfl <;> decide
  · rcases h with rfl | rfl <;> decide
  · rw [hdisk]
    rcases h with rfl | rfl <;> decide

/-- A file of one block arrives as it is. -/
theorem file_transfer_faithful_block :
    FileSent (fileTest .client) [1, 2, 3, 4] [1, 2, 3, 4] ∧
      ∀ written, FileReceived (fileTest .server) [1, 2, 3, 4] written → written = [1, 2, 3, 4] := by
  have hsent := file_sent (.inl ⟨rfl, rfl⟩)
  refine ⟨hsent, fun written hwritten => ?_⟩
  exact ((file_transfer_faithful_iff fileTest_sends fileTest_receives hsent hwritten).2
    ⟨by decide, fun hz => absurd hz (by decide)⟩).2

/-- A file of 2 bytes: 4 bytes are sent and written. -/
theorem short_file_padded :
    FileSent (fileTest .client) [1, 2] [1, 2, 0, 0] ∧
      FileReceived (fileTest .server) [1, 2, 0, 0] [1, 2, 0, 0] :=
  ⟨file_sent (.inr ⟨rfl, rfl⟩), file_received (.inr rfl)⟩

end Iperf
