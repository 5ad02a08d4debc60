import GrpcCore.Iomgr.FdPosixTest.Upload

/-! # Every byte the client writes, the server reads

The invariant of every reachable state of `test_grpc_fd`, and what follows from it: the bytes
written are those read, those in the session's loop and those in the two kernel buffers, so the
test's closing `GPR_ASSERT` holds; no `GPR_ASSERT` or `abort()` of the test fails; each of the
three descriptors is orphaned once, with no closure registered on it or running; and the test
never stalls: until both sides are done some step can happen, and after that none can. -/

namespace GrpcCore.Iomgr.FdPosixTest

variable {b : SocketBuffers} {u u' : Upload}

/-- The local `read_total` of a running `session_read_cb`: the bytes it has read and not yet
added to `read_bytes_total`. -/
def readTotal (s : Option Session) : Nat := (s.bind Session.reading).getD 0

@[simp] theorem readTotal_none : readTotal none = 0 := rfl
@[simp] theorem readTotal_some (se : Session) : readTotal (some se) = se.reading.getD 0 := rfl

/-- What every reachable state of the test keeps. Every byte written has been read, or is in the
session's loop or a kernel buffer. The client's descriptor is closed, by its one orphan, when the
client is done; until then the client is in its write loop or waits on its write closure, not
both. The listening descriptor is shut down once the session is freed, and the session reads or
waits on its read closure until the end of stream frees it. One callback runs at a time. -/
structure Inv (b : SocketBuffers) (u : Upload) : Prop where
  conserve : u.cl.writeBytesTotal =
    u.sv.readBytesTotal + readTotal u.sv.session + u.wire.sndBuf + u.wire.rcvBuf
  snd_le : u.wire.sndBuf ≤ b.snd
  rcv_le : u.wire.rcvBuf ≤ b.rcv
  cnt_le : u.cl.clientWriteCnt ≤ clientTotalWriteCnt
  not_aborted : u.aborted = false
  closed_eq : u.wire.closed = u.cl.done
  client_orphaned : u.cl.orphaned = if u.cl.done then 1 else 0
  client_busy : (u.cl.writing || u.cl.writeArmed) = !u.cl.done
  client_excl : (u.cl.writing && u.cl.writeArmed) = false
  fin_drained : u.wire.fin = true → u.wire.closed = true ∧ u.wire.sndBuf = 0
  accepted_eq : u.wire.accepted = u.sv.session.isSome
  shutdown_eq : u.sv.listenShutdown = u.sv.session.any (fun se => se.freed != 0)
  session : ∀ se, u.sv.session = some se → se.orphaned = se.freed ∧ se.freed ≤ 1 ∧
    (se.freed = 0 → se.readArmed = se.reading.isNone) ∧
    (se.freed ≠ 0 → se.readArmed = false ∧ se.reading = none ∧ u.wire.rcvBuf = 0 ∧
      u.wire.fin = true)
  listen_armed : u.sv.listenArmed = !u.sv.done
  listen_orphaned : u.sv.listenOrphaned = if u.sv.done then 1 else 0
  done_shutdown : u.sv.done = true → u.sv.listenShutdown = true
  one_running : u.cl.writing = true → u.sv.session.bind Session.reading = none

theorem Upload.idle_eq_true :
    u.idle = true ↔ u.cl.writing = false ∧ u.sv.session.bind Session.reading = none := by
  simp [Upload.idle, Option.isNone_iff_eq_none]

/-! ## One step -/

/-- Everything one step can do: the event, the guard it needs, and the state it leaves. -/
theorem step_cases {e : Event} (h : step b u e = some u') :
    (∃ n, e = .transfer n ∧ 0 < n ∧ n ≤ u.wire.sndBuf ∧ u.wire.rcvBuf + n ≤ b.rcv ∧
      u' = { u with wire := { u.wire with sndBuf := u.wire.sndBuf - n,
                                          rcvBuf := u.wire.rcvBuf + n } }) ∨
    (e = .deliverFin ∧ u.wire.closed = true ∧ u.wire.sndBuf = 0 ∧ u.wire.fin = false ∧
      u' = { u with wire := { u.wire with fin := true } }) ∨
    (e = .listen ∧ u.idle = true ∧ u.sv.listenArmed = true ∧
      (u.wire.accepted = false ∨ u.sv.listenShutdown = true) ∧
      u' = listenCb { u with sv := { u.sv with listenArmed := false } } !u.sv.listenShutdown) ∨
    (∃ se, e = .sessionRead ∧ u.sv.session = some se ∧ u.idle = true ∧ se.readArmed = true ∧
      (0 < u.wire.rcvBuf ∨ u.wire.fin = true) ∧
      u' = sessionReadCb (u.mapSession fun se => { se with readArmed := false }) true) ∨
    (∃ ret errno se t, e = .readOnce ret errno ∧ u.sv.session = some se ∧ se.reading = some t ∧
      readResult u.wire.rcvBuf u.wire.fin ret errno ∧ u' = sessionReadOnce u t ret errno) ∨
    (e = .clientWrite ∧ u.idle = true ∧ u.cl.writeArmed = true ∧ u.wire.sndBuf < b.snd ∧
      u' = clientSessionWrite { u with cl := { u.cl with writeArmed := false } } true) ∨
    (∃ ret errno, e = .writeOnce ret errno ∧ u.cl.writing = true ∧
      writeResult (b.snd - u.wire.sndBuf) ret errno ∧ u' = clientWriteOnce u ret errno) := by
  cases e with
  | transfer n =>
    simp only [step] at h; split_ifs at h with hg; cases h
    exact .inl ⟨n, rfl, hg.1, hg.2.1, hg.2.2, rfl⟩
  | deliverFin =>
    simp only [step] at h; split_ifs at h with hg; cases h
    exact .inr (.inl ⟨rfl, hg.1, hg.2.1, hg.2.2, rfl⟩)
  | listen =>
    simp only [step] at h; split_ifs at h with hg; cases h
    exact .inr (.inr (.inl ⟨rfl, hg.1, hg.2.1, hg.2.2, rfl⟩))
  | sessionRead =>
    simp only [step] at h; split at h
    · next se hs => split_ifs at h with hg; cases h
                    exact .inr (.inr (.inr (.inl ⟨se, rfl, hs, hg.1, hg.2.1, hg.2.2, rfl⟩)))
    · cases h
  | readOnce ret errno =>
    simp only [step] at h; split at h
    · next ra t o f hs => split_ifs at h with hg; cases h
                          exact .inr (.inr (.inr (.inr (.inl
                            ⟨ret, errno, ⟨ra, some t, o, f⟩, t, rfl, hs, rfl, hg, rfl⟩))))
    · cases h
  | clientWrite =>
    simp only [step] at h; split_ifs at h with hg; cases h
    exact .inr (.inr (.inr (.inr (.inr (.inl ⟨rfl, hg.1, hg.2.1, hg.2.2, rfl⟩)))))
  | writeOnce ret errno =>
    simp only [step] at h; split_ifs at h with hg; cases h
    exact .inr (.inr (.inr (.inr (.inr (.inr ⟨ret, errno, rfl, hg.1, hg.2, rfl⟩)))))

theorem step_readOnce {se : Session} (hs : u.sv.session = some se) (ret : Int) (errno : Nat) :
    step b u (.readOnce ret errno) = se.reading.bind fun t =>
      if readResult u.wire.rcvBuf u.wire.fin ret errno then some (sessionReadOnce u t ret errno)
      else none := by
  obtain ⟨ra, rd, o, f⟩ := se
  cases rd <;> simp [step, hs]

/-! ## Each step keeps `Inv`

Each lemma gives the fields the step changes; the others carry over. -/

theorem Inv.transfer (hi : Inv b u) {n : Nat} (h0 : 0 < n) (hn : n ≤ u.wire.sndBuf)
    (hr : u.wire.rcvBuf + n ≤ b.rcv) :
    Inv b { u with wire := { u.wire with sndBuf := u.wire.sndBuf - n,
                                         rcvBuf := u.wire.rcvBuf + n } } :=
  have hfin : u.wire.fin = false := Bool.eq_false_iff.mpr fun h => by
    have := (hi.fin_drained h).2; omega
  { hi with
    conserve := by have := hi.conserve; dsimp only; omega
    snd_le := Nat.le_trans (Nat.sub_le _ _) hi.snd_le
    rcv_le := hr
    fin_drained := fun h => absurd h (by simp [hfin])
    session := fun se hs => by
      obtain ⟨h1, h2, h3, h4⟩ := hi.session se hs
      exact ⟨h1, h2, h3, fun hf => absurd (h4 hf).2.2.2 (by simp [hfin])⟩ }

theorem Inv.deliverFin (hi : Inv b u) (hc : u.wire.closed = true) (hs : u.wire.sndBuf = 0)
    (hf : u.wire.fin = false) : Inv b { u with wire := { u.wire with fin := true } } :=
  { hi with
    fin_drained := fun _ => ⟨hc, hs⟩
    session := fun se hse => by
      obtain ⟨h1, h2, h3, h4⟩ := hi.session se hse
      exact ⟨h1, h2, h3, fun hfr => absurd (h4 hfr).2.2.2 (by simp [hf])⟩ }

theorem Inv.listen (hi : Inv b u) (ha : u.sv.listenArmed = true)
    (hr : u.wire.accepted = false ∨ u.sv.listenShutdown = true) :
    Inv b (listenCb { u with sv := { u.sv with listenArmed := false } } !u.sv.listenShutdown) := by
  have hd : u.sv.done = false := by simpa [ha] using hi.listen_armed
  cases hsh : u.sv.listenShutdown
  · have hacc : u.wire.accepted = false := by simpa [hsh] using hr
    have hs : u.sv.session = none := by simpa [hacc] using hi.accepted_eq
    simp only [listenCb, Bool.not_false, Bool.not_true, Bool.false_eq_true, ↓reduceIte, hacc]
    exact { hi with
      conserve := by simpa [hs] using hi.conserve
      accepted_eq := rfl
      shutdown_eq := by simp [hsh]
      session := by rintro _ ⟨⟩; exact ⟨rfl, by decide, fun _ => rfl, fun h => absurd rfl h⟩
      listen_armed := by simp [hd]
      one_running := fun _ => rfl }
  · simp only [listenCb, Bool.not_true, ↓reduceIte, listenShutdownCb]
    exact { hi with
      listen_armed := rfl
      listen_orphaned := by simpa [hd] using hi.listen_orphaned
      done_shutdown := fun _ => hsh }

theorem Inv.sessionRead (hi : Inv b u) {se : Session} (hs : u.sv.session = some se)
    (hid : u.idle = true) (ha : se.readArmed = true) :
    Inv b (sessionReadCb (u.mapSession fun se => { se with readArmed := false }) true) := by
  obtain ⟨hw, hn⟩ := Upload.idle_eq_true.mp hid
  simp only [hs, Option.some_bind] at hn
  obtain ⟨h1, h2, h3, -⟩ := hi.session se hs
  have hf : se.freed = 0 := by by_contra h; simp [(hi.session se hs).2.2.2 h] at ha
  simp only [sessionReadCb, ↓reduceIte]
  exact { hi with
    conserve := by simpa [hs, hn] using hi.conserve
    accepted_eq := by simpa [hs] using hi.accepted_eq
    shutdown_eq := by simpa [hs] using hi.shutdown_eq
    session := by simp only [Upload.mapSession_sv, hs, Option.map_some', Option.some.injEq]
                  rintro _ rfl; exact ⟨h1, h2, fun _ => rfl, fun h => absurd hf h⟩
    one_running := by simp [hw] }

theorem Inv.readOnce (hi : Inv b u) {se : Session} {t : Nat} {ret : Int} {errno : Nat}
    (hs : u.sv.session = some se) (ht : se.reading = some t)
    (hr : readResult u.wire.rcvBuf u.wire.fin ret errno) :
    Inv b (sessionReadOnce u t ret errno) := by
  obtain ⟨h1, h2, h3, h4⟩ := hi.session se hs
  have hf : se.freed = 0 := by by_contra h; simp [(h4 h).2.1] at ht
  have ha : se.readArmed = false := by simpa [ht] using h3 hf
  have hw : u.cl.writing = false := by
    by_contra h; simpa [hs, ht] using hi.one_running (by simpa using h)
  have hc := hi.conserve
  simp only [hs, readTotal_some, ht, Option.getD_some] at hc
  have hse : ∀ f : Session → Session, (u.mapSession f).sv.session = some (f se) := by simp [hs]
  rcases hr with ⟨-, hp, -, hle⟩ | ⟨hb, hfin, rfl⟩ | ⟨hb, -, rfl, rfl⟩
  · simp only [sessionReadOnce, hp, ↓reduceIte]
    exact { hi with
      conserve := by
        simp only [Upload.mapSession_sv, Upload.mapSession_cl, Upload.mapSession_wire, hs,
          Option.map_some', readTotal_some, Option.getD_some]
        omega
      rcv_le := Nat.le_trans (Nat.sub_le _ _) hi.rcv_le
      accepted_eq := by simpa [hs] using hi.accepted_eq
      shutdown_eq := by simpa [hs] using hi.shutdown_eq
      session := by
        simp only [hse, Option.some.injEq]
        rintro _ rfl; exact ⟨h1, h2, fun _ => by simp [ha], fun h => absurd hf h⟩
      one_running := by simp [hw] }
  · simp only [sessionReadOnce, show ¬ (0 : Int) < 0 by decide, ↓reduceIte, sessionShutdownCb]
    exact { hi with
      conserve := by simp only [Upload.mapSession_sv, hs, Option.map_some', readTotal_some]; simp; omega
      accepted_eq := by simpa [hs] using hi.accepted_eq
      shutdown_eq := by simp [hs]
      session := by
        simp only [Upload.mapSession_sv, hs, Option.map_some', Option.some.injEq]
        rintro _ rfl
        exact ⟨by simp [h1], by simp [hf], fun h => absurd h (by simp), fun _ => ⟨ha, rfl, hb, hfin⟩⟩
      done_shutdown := fun _ => rfl
      one_running := by simp [hw] }
  · simp only [sessionReadOnce, show ¬ (0 : Int) < -1 by decide, show (-1 : Int) ≠ 0 by decide,
      ↓reduceIte]
    exact { hi with
      conserve := by simp only [Upload.mapSession_sv, hs, Option.map_some', readTotal_some]; simp; omega
      accepted_eq := by simpa [hs] using hi.accepted_eq
      shutdown_eq := by simpa [hs] using hi.shutdown_eq
      session := by
        simp only [Upload.mapSession_sv, hs, Option.map_some', Option.some.injEq]
        rintro _ rfl; exact ⟨h1, h2, fun _ => rfl, fun h => absurd hf h⟩
      one_running := by simp [hw] }

theorem Inv.clientWrite (hi : Inv b u) (hid : u.idle = true) (ha : u.cl.writeArmed = true) :
    Inv b (clientSessionWrite { u with cl := { u.cl with writeArmed := false } } true) := by
  have hd : u.cl.done = false := by simpa [ha] using hi.client_busy.symm
  simp only [clientSessionWrite, ↓reduceIte]
  exact { hi with
    client_busy := by simp [hd]
    client_excl := rfl
    one_running := fun _ => (Upload.idle_eq_true.mp hid).2 }

theorem Inv.writeOnce (hi : Inv b u) {ret : Int} {errno : Nat} (hw : u.cl.writing = true)
    (hr : writeResult (b.snd - u.wire.sndBuf) ret errno) : Inv b (clientWriteOnce u ret errno) := by
  have hd : u.cl.done = false := by simpa [hw] using hi.client_busy.symm
  have ha : u.cl.writeArmed = false := by simpa [hw] using hi.client_excl
  have hcl : u.wire.closed = false := hi.closed_eq.trans hd
  have hfin : u.wire.fin = false := Bool.eq_false_iff.mpr fun h => by
    simp [(hi.fin_drained h).1] at hcl
  rcases hr with ⟨hb, rfl, rfl⟩ | ⟨hp, -, hle⟩
  · simp only [clientWriteOnce, show ¬ (0 : Int) < -1 by decide, ↓reduceIte]
    by_cases hc : u.cl.clientWriteCnt < clientTotalWriteCnt
    · simp only [hc, ↓reduceIte]
      exact { hi with
        cnt_le := hc
        client_busy := by simp [hd]
        client_excl := rfl
        one_running := fun h => absurd h (by simp) }
    · simp only [hc, ↓reduceIte, clientSessionShutdownCb]
      exact { hi with
        closed_eq := rfl
        client_orphaned := by simpa [hd] using hi.client_orphaned
        client_busy := by simp [ha]
        client_excl := by simp
        fin_drained := fun h => absurd h (by simp [hfin])
        one_running := fun h => absurd h (by simp) }
  · simp only [clientWriteOnce, hp, ↓reduceIte]
    exact { hi with
      conserve := by have := hi.conserve; dsimp only; omega
      snd_le := by have := hi.snd_le; dsimp only; omega
      fin_drained := fun h => absurd h (by simp [hfin]) }

/-! ## Every reachable state -/

theorem Inv.step (hi : Inv b u) {e : Event} (h : step b u e = some u') : Inv b u' := by
  rcases step_cases h with ⟨n, -, h0, hn, hr, rfl⟩ | ⟨-, hc, hs, hf, rfl⟩ | ⟨-, -, ha, hr, rfl⟩ |
    ⟨se, -, hs, hid, ha, -, rfl⟩ | ⟨ret, errno, se, t, -, hs, ht, hr, rfl⟩ | ⟨-, hid, ha, -, rfl⟩ |
    ⟨ret, errno, -, hw, hr, rfl⟩
  · exact hi.transfer h0 hn hr
  · exact hi.deliverFin hc hs hf
  · exact hi.listen ha hr
  · exact hi.sessionRead hs hid ha
  · exact hi.readOnce hs ht hr
  · exact hi.clientWrite hid ha
  · exact hi.writeOnce hw hr

theorem inv_testGrpcFd : Inv b testGrpcFd where
  conserve := rfl
  snd_le := Nat.zero_le _
  rcv_le := Nat.zero_le _
  cnt_le := by decide
  not_aborted := rfl
  closed_eq := rfl
  client_orphaned := rfl
  client_busy := rfl
  client_excl := rfl
  fin_drained := fun h => absurd h (by decide)
  accepted_eq := rfl
  shutdown_eq := rfl
  session := fun _ h => by simp [testGrpcFd, clientSessionWrite] at h
  listen_armed := rfl
  listen_orphaned := rfl
  done_shutdown := fun h => absurd h (by decide)
  one_running := fun _ => rfl

theorem Reachable.inv (r : Reachable b u) : Inv b u := by
  induction r with
  | start => exact inv_testGrpcFd
  | step e _ h ih =>
    unfold stepLive at h
    split at h
    · cases h
    · exact ih.step h

/-- Once the server is done, the session has read everything: its loop has reported its bytes,
and both kernel buffers are empty. -/
theorem Inv.done_drained (hi : Inv b u) (hd : u.sv.done = true) :
    readTotal u.sv.session = 0 ∧ u.wire.sndBuf = 0 ∧ u.wire.rcvBuf = 0 ∧ u.wire.fin = true := by
  have hsh := hi.shutdown_eq ▸ hi.done_shutdown hd
  cases hs : u.sv.session with
  | none => simp [hs] at hsh
  | some se =>
    have hf : se.freed ≠ 0 := by simpa [hs] using hsh
    obtain ⟨-, hn, hr, hfin⟩ := (hi.session se hs).2.2.2 hf
    exact ⟨by simp [hn], (hi.fin_drained hfin).2, hr, hfin⟩

def twoByteBuffers : SocketBuffers := ⟨2, 2, by decide, by decide⟩

/-- A whole run over two-byte buffers: four rounds of writes, each read by the session, the last
followed by the end of stream and the listening descriptor's shutdown. -/
def uploadRun : List Event :=
  [.writeOnce 2 0, .writeOnce (-1) EAGAIN, .transfer 2, .listen,
    .sessionRead, .readOnce 2 0, .readOnce (-1) EAGAIN] ++
  (List.replicate 2 [.clientWrite, .writeOnce 2 0, .writeOnce (-1) EAGAIN, .transfer 2,
    .sessionRead, .readOnce 2 0, .readOnce (-1) EAGAIN]).flatten ++
  [.clientWrite, .writeOnce 2 0, .writeOnce (-1) EAGAIN, .transfer 2, .deliverFin,
    .sessionRead, .readOnce 2 0, .readOnce 0 0, .listen]

def uploadDone : Upload :=
  ⟨⟨8, true, false, true, 1, some ⟨false, none, 1, 1⟩⟩, ⟨8, 3, true, false, false, 1⟩,
    ⟨true, 0, 0, true, true⟩, false⟩

theorem reachable_uploadDone : Reachable twoByteBuffers uploadDone :=
  Reachable.start.run uploadRun (by decide)

/-- **Every byte the client writes, the server reads.** In every reachable state of the test,
the bytes written are those `read_bytes_total` counts, those the running read loop holds, and
those in the two kernel buffers; and once the server is done, the first count is all of them, so
`GPR_ASSERT(sv.read_bytes_total == cl.write_bytes_total)` holds. -/
theorem upload_reads_every_byte (r : Reachable b u) :
    u.cl.writeBytesTotal =
        u.sv.readBytesTotal + readTotal u.sv.session + u.wire.sndBuf + u.wire.rcvBuf ∧
      (u.sv.done = true → u.sv.readBytesTotal = u.cl.writeBytesTotal) := by
  have hi := r.inv
  refine ⟨hi.conserve, fun hd => ?_⟩
  obtain ⟨h1, h2, h3, -⟩ := hi.done_drained hd
  have := hi.conserve
  omega

theorem upload_reads_every_byte_in_full_run :
    uploadDone.cl.writeBytesTotal = uploadDone.sv.readBytesTotal +
        readTotal uploadDone.sv.session + uploadDone.wire.sndBuf + uploadDone.wire.rcvBuf ∧
      (uploadDone.sv.done = true → uploadDone.sv.readBytesTotal = uploadDone.cl.writeBytesTotal) :=
  upload_reads_every_byte reachable_uploadDone

/-- **Each descriptor is orphaned once, and only when nothing will run on it again.** The
client's descriptor, the listening descriptor and the session's are each orphaned at most once;
once one is, no closure is registered on it and none of its callbacks runs. The session is freed
together with its descriptor. -/
theorem upload_orphans_once (r : Reachable b u) :
    u.cl.orphaned ≤ 1 ∧ (u.cl.orphaned = 1 → u.cl.writeArmed = false ∧ u.cl.writing = false) ∧
      u.sv.listenOrphaned ≤ 1 ∧ (u.sv.listenOrphaned = 1 → u.sv.listenArmed = false) ∧
      ∀ se, u.sv.session = some se → se.freed = se.orphaned ∧ se.orphaned ≤ 1 ∧
        (se.orphaned = 1 → se.readArmed = false ∧ se.reading = none) := by
  have hi := r.inv
  have hc := hi.client_orphaned
  have hl := hi.listen_orphaned
  refine ⟨by split_ifs at hc <;> omega, fun h => ?_, by split_ifs at hl <;> omega, fun h => ?_,
    fun se hs => ?_⟩
  · have hd : u.cl.done = true := by cases hd : u.cl.done <;> simp_all
    have := hi.client_busy
    simp only [hd, Bool.not_true, Bool.or_eq_false_iff] at this
    exact ⟨this.2, this.1⟩
  · have hd : u.sv.done = true := by cases hd : u.sv.done <;> simp_all
    simp [hi.listen_armed, hd]
  · obtain ⟨h1, h2, -, h4⟩ := hi.session se hs
    exact ⟨h1.symm, h1 ▸ h2, fun h => by obtain ⟨h, h', -⟩ := h4 (by omega); exact ⟨h, h'⟩⟩

theorem upload_orphans_once_in_full_run :
    uploadDone.cl.orphaned ≤ 1 ∧
      (uploadDone.cl.orphaned = 1 → uploadDone.cl.writeArmed = false ∧
        uploadDone.cl.writing = false) ∧
      uploadDone.sv.listenOrphaned ≤ 1 ∧
      (uploadDone.sv.listenOrphaned = 1 → uploadDone.sv.listenArmed = false) ∧
      ∀ se, uploadDone.sv.session = some se → se.freed = se.orphaned ∧ se.orphaned ≤ 1 ∧
        (se.orphaned = 1 → se.readArmed = false ∧ se.reading = none) :=
  upload_orphans_once reachable_uploadDone

/-! ## The test runs until both sides are done -/

/-- With no callback running and the server not done, the server can move once its socket is
readable: the listen closure runs, or the session's read closure. -/
theorem Inv.server_moves (hi : Inv b u) (hid : u.idle = true) (hd : u.sv.done = false)
    (hready : 0 < u.wire.rcvBuf ∨ u.wire.fin = true) : ∃ e, (FdPosixTest.step b u e).isSome := by
  have hla : u.sv.listenArmed = true := by simp [hi.listen_armed, hd]
  cases hs : u.sv.session with
  | none =>
    have hacc : u.wire.accepted = false := by simp [hi.accepted_eq, hs]
    exact ⟨.listen, by simp [FdPosixTest.step, hid, hla, hacc]⟩
  | some se =>
    obtain ⟨-, -, h3, h4⟩ := hi.session se hs
    by_cases hf : se.freed = 0
    · have hn : se.reading = none := by simpa [hs] using (Upload.idle_eq_true.mp hid).2
      have ha : se.readArmed = true := by simpa [hn] using h3 hf
      exact ⟨.sessionRead, by simp [FdPosixTest.step, hs, hid, ha, hready]⟩
    · have hsh : u.sv.listenShutdown = true := by simp [hi.shutdown_eq, hs, hf]
      exact ⟨.listen, by simp [FdPosixTest.step, hid, hla, hsh]⟩

/-- Until both sides are done, some step can happen. -/
theorem Inv.progress (hi : Inv b u) (hnd : ¬(u.cl.done = true ∧ u.sv.done = true)) :
    ∃ e, (FdPosixTest.step b u e).isSome := by
  have hsnd := hi.snd_le
  have hrcv := hi.rcv_le
  have := b.snd_pos
  have := b.rcv_pos
  cases hw : u.cl.writing
  · cases hr : u.sv.session.bind Session.reading with
    | some t =>
      obtain ⟨se, hs, ht⟩ := Option.bind_eq_some.mp hr
      by_cases hb : 0 < u.wire.rcvBuf
      · exact ⟨.readOnce 1 0, by simp [step_readOnce hs, ht, readResult, hb, bufSize]; omega⟩
      · cases hf : u.wire.fin
        · exact ⟨.readOnce (-1) EAGAIN, by simp [step_readOnce hs, ht, readResult, hf]; omega⟩
        · exact ⟨.readOnce 0 0, by simp [step_readOnce hs, ht, readResult, hf]; omega⟩
    | none =>
      have hid : u.idle = true := Upload.idle_eq_true.mpr ⟨hw, hr⟩
      have full : u.wire.rcvBuf = b.rcv → u.sv.done = false := fun h => by
        cases hd : u.sv.done
        · rfl
        · have := (hi.done_drained hd).2.2.1; omega
      cases hcd : u.cl.done
      · have ha : u.cl.writeArmed = true := by simpa [hw, hcd] using hi.client_busy
        by_cases hs : u.wire.sndBuf < b.snd
        · exact ⟨.clientWrite, by simp [FdPosixTest.step, hid, ha, hs]⟩
        · by_cases hb : u.wire.rcvBuf < b.rcv
          · exact ⟨.transfer 1, by simp [FdPosixTest.step]; omega⟩
          · exact hi.server_moves hid (full (by omega)) (.inl (by omega))
      · have hsv : u.sv.done = false := by simpa [hcd] using hnd
        by_cases hs : 0 < u.wire.sndBuf
        · by_cases hb : u.wire.rcvBuf < b.rcv
          · exact ⟨.transfer 1, by simp [FdPosixTest.step]; omega⟩
          · exact hi.server_moves hid hsv (.inl (by omega))
        · cases hf : u.wire.fin
          · have hcl : u.wire.closed = true := hi.closed_eq.trans hcd
            exact ⟨.deliverFin, by simp [FdPosixTest.step, hcl, hf]; omega⟩
          · exact hi.server_moves hid hsv (.inr hf)
  · by_cases hs : u.wire.sndBuf < b.snd
    · exact ⟨.writeOnce 1 0, by simp [FdPosixTest.step, hw, writeResult, clientWriteBufSize]; omega⟩
    · exact ⟨.writeOnce (-1) EAGAIN, by simp [FdPosixTest.step, hw, writeResult]; omega⟩

theorem Inv.quiescent (hi : Inv b u) (hc : u.cl.done = true) (hd : u.sv.done = true) (e : Event) :
    FdPosixTest.step b u e = none := by
  obtain ⟨-, hsnd, -, hfin⟩ := hi.done_drained hd
  have ⟨hw, ha⟩ : u.cl.writing = false ∧ u.cl.writeArmed = false := by
    simpa [hc] using hi.client_busy
  have hla : u.sv.listenArmed = false := by simp [hi.listen_armed, hd]
  have hse : ∀ se, u.sv.session = some se → se.readArmed = false ∧ se.reading = none := fun se hs =>
    have h := hi.shutdown_eq ▸ hi.done_shutdown hd
    have hf : se.freed ≠ 0 := by simpa [hs] using h
    ⟨((hi.session se hs).2.2.2 hf).1, ((hi.session se hs).2.2.2 hf).2.1⟩
  cases e with
  | transfer n => simp [FdPosixTest.step, hsnd]; omega
  | deliverFin => simp [FdPosixTest.step, hfin]
  | listen => simp [FdPosixTest.step, hla]
  | sessionRead =>
    cases hs : u.sv.session with
    | none => simp [FdPosixTest.step, hs]
    | some se => simp [FdPosixTest.step, hs, hse se hs]
  | readOnce ret errno =>
    cases hs : u.sv.session with
    | none => simp [FdPosixTest.step, hs]
    | some se => simp [step_readOnce hs, (hse se hs).2]
  | clientWrite => simp [FdPosixTest.step, ha]
  | writeOnce ret errno => simp [FdPosixTest.step, hw]

/-- **The test runs until both sides are done, and then stops.** In every reachable state some
step can happen exactly when the client or the server is not yet done: the two wait loops of
`test_grpc_fd` are never left waiting on a callback that cannot come, and once both end nothing
is left to run. -/
theorem upload_moves_until_done (r : Reachable b u) :
    (∃ e, (stepLive b e u).isSome) ↔ ¬(u.cl.done = true ∧ u.sv.done = true) := by
  have hi := r.inv
  have hlive : ∀ e, stepLive b e u = step b u e := fun e => by simp [stepLive, hi.not_aborted]
  simp only [hlive]
  exact ⟨fun ⟨e, he⟩ ⟨hc, hd⟩ => by simp [hi.quiescent hc hd e] at he, hi.progress⟩

theorem upload_moves_until_done_in_full_run :
    (∃ e, (stepLive twoByteBuffers e uploadDone).isSome) ↔
      ¬(uploadDone.cl.done = true ∧ uploadDone.sv.done = true) :=
  upload_moves_until_done reachable_uploadDone

end GrpcCore.Iomgr.FdPosixTest
