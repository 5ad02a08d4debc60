import GrpcCore.Iomgr.TcpClient.Safety

/-! # Where the pending way goes wrong

Three defects of `tcp_client_posix.c`, each as a run of the model and as what it says about all
runs. After an ENOBUFS result `on_writable` re-arms the write closure with `ac->fd` already
NULL and the alarm already cancelled: the attempt then waits without a deadline, and the next
wakeup fails `GPR_ASSERT(ac->fd)`. A write closure dispatched with success before the alarm
shuts the descriptor down never sees the shutdown, so `cb` can get an endpoint over a descriptor
the deadline shut down. And the errno test of `grpc_tcp_client_connect` reads errno after three
calls that may change it. -/

namespace GrpcCore.Iomgr.TcpClient

variable {c c' : Conn} {a : AsyncConnect} {e : Event}

/-! ## The ENOBUFS re-arm -/

/-- The write closure waits on the descriptor: armed, or dispatched with `on_writable` not yet
started. -/
def Writer.waiting : Writer → Bool
  | .armed | .queued _ => true
  | _ => false

theorem stepWith_fd_waiting (hc : c.ac = some a) (hw : a.fd = true → a.writer.waiting = true)
    (h : stepWith c a e = some c') :
    ∀ a', c'.ac = some a' → a'.fd = true → a'.writer.waiting = true := by
  have ht : ∀ {n : Conn}, (∀ a', n.ac = some a' → a'.fd = true → a'.writer.waiting = true) →
      ∀ a', (c.touch a n).ac = some a' → a'.fd = true → a'.writer.waiting = true := fun hn =>
    Conn.touch_rec (P := fun x => ∀ a', x.ac = some a' → a'.fd = true → a'.writer.waiting = true)
      hn (fun a' ha' => by rw [hc] at ha'; cases ha'; exact hw)
  have off : ∀ {w}, a.writer = w → w.waiting = false → a.fd = false := fun he hn => by
    cases h : a.fd
    · rfl
    · have := hw h; rw [he, hn] at this; cases this
  rcases stepWith_cases h with ⟨-, -, rfl⟩ | ⟨-, hw', rfl⟩ | ⟨s, -, -, rfl⟩ | ⟨s, -, hq, rfl⟩ |
    ⟨s, -, hd, rfl⟩ | ⟨s, calls, soError, x, -, hx, hi, rfl⟩ | ⟨-, hr, rfl⟩ | ⟨ep, done, -, hf, rfl⟩
  · exact ht (by rintro _ ⟨⟩; exact hw)
  · exact ht (by rintro _ ⟨⟩ _; rfl)
  · refine ht ?_
    rintro _ ⟨⟩ hfd
    have := hw hfd
    simp only [hfd, if_true, grpcFdShutdown]
    split_ifs <;> simp_all [Writer.waiting]
  · refine ht ?_
    unfold onWritableEnter; split
    · rintro _ ⟨⟩ h; cases h
    · intro a' ha'; rw [hc] at ha'; cases ha'; exact hw
  · exact ht (by rintro _ ⟨⟩ h; rw [off hd rfl] at h; cases h)
  · refine ht ?_
    have h0 := off hx rfl
    rcases onWritableInspect_cases hi with ⟨-, -, rfl⟩ | ⟨ep, -, rfl⟩
    · rintro _ ⟨⟩ h; rw [h0] at h; cases h
    · cases ep <;> (rintro _ ⟨⟩ h; rw [h0] at h; cases h)
  · exact ht (by rintro _ ⟨⟩ h; rw [off hr rfl] at h; cases h)
  · have h0 := off hf rfl
    unfold onWritableReturn; split
    · exact ht (by rintro _ ⟨⟩ h; rw [h0] at h; cases h)
    · rintro _ ⟨⟩ h; rw [h0] at h; cases h

theorem Reachable.fd_waiting (r : Reachable c) (ha : c.ac = some a) (hfd : a.fd = true) :
    a.writer.waiting = true := by
  induction r generalizing a with
  | connect h =>
    obtain ⟨hs, rfl, -⟩ := grpcTcpClientConnect_pending h ha
    simp [pendingRecord, hs, grpcFdNotifyOnWrite, freshSocket, Writer.waiting]
  | step e _ hs ih =>
    obtain ⟨b, -, hb, hs⟩ := step_some hs
    exact stepWith_fd_waiting hb (ih hb) hs a ha hfd

/-- **After an ENOBUFS result the record never holds the descriptor again.** Once `on_writable`
has taken the ENOBUFS branch, `ac->fd` is NULL in every later state, so the alarm can no longer
shut the descriptor down; and every later start of `on_writable` fails `GPR_ASSERT(ac->fd)`. -/
theorem enobufs_leaves_record_detached (r : Reachable c) (ha : c.ac = some a)
    (hw : a.writer = .rearming) (hs : Steps c c') :
    c'.sock.shutdowns = c.sock.shutdowns ∧
      ∀ a' s, c'.ac = some a' → a'.writer = .queued s → c'.fault = none →
        step .enter c' = some { c' with fault := some .assertion } := by
  have hfd : a.fd = false := by
    cases h : a.fd
    · rfl
    · have := r.fd_waiting ha h; rw [hw] at this; cases this
  obtain ⟨a', ha', hfd', hsh⟩ := Steps.detached ha hfd hs
  refine ⟨hsh, fun b s hb hq hf => ?_⟩
  rw [ha'] at hb; cases hb
  have h0 := ((r.steps hs).good a' ha').live (.inr (.inl (by rw [hq]; rfl)))
  simp only [step, hf, ha', stepWith, hq, Conn.touch_live _ h0, onWritableEnter, hfd',
    Bool.false_eq_true, ↓reduceIte]

theorem enobufs_leaves_record_detached_run :
    let c : Conn := ⟨⟨true, 0, 0, 0, 0, 1, 0⟩, some ⟨false, 2, .queued false, .rearming, 0⟩, [],
      none⟩
    let c' : Conn := ⟨⟨true, 0, 0, 0, 0, 1, 0⟩, some ⟨false, 2, .queued false, .queued true, 0⟩,
      [], none⟩
    c'.sock.shutdowns = c.sock.shutdowns ∧
      ∀ a' s, c'.ac = some a' → a'.writer = .queued s → c'.fault = none →
        step .enter c' = some { c' with fault := some .assertion } :=
  enobufs_leaves_record_detached
    (Reachable.of_run inProgressEnv [.writable, .enter, .cancel, .inspect [⟨0, 0⟩] ENOBUFS]
      (by decide)) rfl rfl (Steps.of_run [.rearm, .writable] (by decide))

/-- The failing run: `SO_ERROR` is ENOBUFS on the first wakeup, the closure is re-armed, and
the second wakeup fails `GPR_ASSERT(ac->fd)` with `cb` never invoked. -/
theorem enobufs_rearm_aborts :
    let c : Conn := ⟨⟨true, 0, 0, 0, 0, 1, 0⟩, some ⟨false, 2, .queued false, .queued true, 0⟩, [],
      some .assertion⟩
    Reachable c ∧ c.fault = some .assertion ∧ c.cbs = [] :=
  ⟨Reachable.of_run inProgressEnv
    [.writable, .enter, .cancel, .inspect [⟨0, 0⟩] ENOBUFS, .rearm, .writable, .enter] (by decide),
    rfl, rfl⟩

/-- Right after the re-arm of the same run: the closure is armed, `cb` has not been invoked, the
descriptor is not shut down, and `ac->fd` is NULL, so the deadline can no longer reach it. -/
theorem enobufs_rearm_waits_without_deadline :
    let c : Conn := ⟨⟨true, 0, 0, 0, 0, 1, 0⟩, some ⟨false, 2, .queued false, .armed, 0⟩, [], none⟩
    Reachable c ∧ (∃ a, c.ac = some a ∧ a.writer = .armed ∧ a.fd = false) ∧ c.cbs = [] ∧
      c.sock.shutdowns = 0 :=
  ⟨Reachable.of_run inProgressEnv
    [.writable, .enter, .cancel, .inspect [⟨0, 0⟩] ENOBUFS, .rearm] (by decide),
    ⟨_, rfl, rfl, rfl⟩, rfl, rfl⟩

/-! ## A shutdown after the dispatch -/

/-- The failing run: the descriptor polls writable and `on_writable` is dispatched with success;
the deadline passes and `tc_on_alarm`, finding `ac->fd` set, shuts the descriptor down; then
`on_writable` reads `SO_ERROR` 0 and hands `cb` an endpoint over the shut-down descriptor. -/
theorem endpoint_over_shutdown_descriptor :
    let c : Conn := ⟨⟨true, 0, 0, 1, 1, 1, 1⟩, some ⟨false, 0, .ran, .returned, 1⟩, [true], none⟩
    Reachable c ∧ c.sock.shutdowns = 1 ∧ c.cbs = [true] :=
  ⟨Reachable.of_run inProgressEnv
    [.writable, .alarmFires, .alarmCallback, .enter, .cancel, .inspect [⟨0, 0⟩] 0, .leave]
    (by decide), rfl, rfl⟩

/-- The write path is on its way to `cb(arg, NULL)`: dispatched with failure, or past that. -/
def Writer.failing : Writer → Bool
  | .queued false | .detached false | .cancelled false | .finished false _ | .returned => true
  | _ => false

theorem stepWith_failing (hc : c.ac = some a) (hw : a.writer.failing = true)
    (hcb : true ∉ c.cbs) (h : stepWith c a e = some c') :
    true ∉ c'.cbs ∧ ∀ a', c'.ac = some a' → a'.writer.failing = true := by
  have ht : ∀ {n : Conn}, (true ∉ n.cbs ∧ ∀ a', n.ac = some a' → a'.writer.failing = true) →
      true ∉ (c.touch a n).cbs ∧ ∀ a', (c.touch a n).ac = some a' → a'.writer.failing = true :=
    fun hn => Conn.touch_rec (P := fun x => true ∉ x.cbs ∧
      ∀ a', x.ac = some a' → a'.writer.failing = true) hn
      ⟨hcb, fun a' ha' => by rw [hc] at ha'; cases ha'; exact hw⟩
  rcases stepWith_cases h with ⟨-, -, rfl⟩ | ⟨-, hw', rfl⟩ | ⟨s, -, -, rfl⟩ | ⟨s, -, hq, rfl⟩ |
    ⟨s, -, hd, rfl⟩ | ⟨s, calls, soError, x, -, hx, hi, rfl⟩ | ⟨-, hr, rfl⟩ | ⟨ep, done, -, hf, rfl⟩
  · exact ht ⟨hcb, by rintro _ ⟨⟩; exact hw⟩
  · rw [hw'] at hw; cases hw
  · refine ht ⟨hcb, ?_⟩
    rintro _ ⟨⟩
    have : a.writer ≠ .armed := fun h => by rw [h] at hw; cases hw
    cases a.fd <;> simp [tcOnAlarm, grpcFdShutdown, this, hw]
  · rw [hq] at hw; cases s
    · refine ht ?_
      unfold onWritableEnter; split
      · exact ⟨hcb, by rintro _ ⟨⟩; rfl⟩
      · exact ⟨hcb, fun a' ha' => by rw [hc] at ha'; cases ha'; rw [hq]; rfl⟩
    · cases hw
  · rw [hd] at hw; cases s
    · exact ht ⟨hcb, by rintro _ ⟨⟩; rfl⟩
    · cases hw
  · rw [hx] at hw; cases s
    · refine ht ?_
      rcases onWritableInspect_cases hi with ⟨h, -⟩ | ⟨ep, hep, rfl⟩
      · cases h
      · cases ep
        · exact ⟨hcb, by rintro _ ⟨⟩; rfl⟩
        · cases (hep rfl).1
    · cases hw
  · rw [hr] at hw; cases hw
  · rw [hf] at hw
    cases ep
    · unfold onWritableReturn
      have hn : true ∉ c.cbs ++ [false] := by simpa using hcb
      split
      · exact ht ⟨hn, by rintro _ ⟨⟩; rfl⟩
      · exact ⟨hn, by rintro _ ⟨⟩; rfl⟩
    · cases hw

/-- **A shutdown that finds the closure armed is seen.** If `tc_on_alarm` shuts the descriptor
down while the write closure is still armed on it, `on_writable` runs with `success = 0`, and in
no continuation does `cb` receive an endpoint. -/
theorem shutdown_while_armed_fails {c'' : Conn} (r : Reachable c) (ha : c.ac = some a)
    (hw : a.writer = .armed) (hfd : a.fd = true) (h : step .alarmCallback c = some c')
    (hs : Steps c' c'') : true ∉ c''.cbs := by
  have hi := r.good a ha
  have hcb : c.cbs = [] := by
    have := hi.cbs_eq; rw [hw] at this; exact List.length_eq_zero.mp this
  obtain ⟨b, -, hb, h⟩ := step_some h
  rw [ha] at hb; cases hb
  rcases stepWith_cases h with ⟨⟨⟩, -⟩ | ⟨⟨⟩, -⟩ | ⟨s, -, hq, rfl⟩ | ⟨_, ⟨⟩, -⟩ | ⟨_, ⟨⟩, -⟩ |
    ⟨_, _, _, _, ⟨⟩, -⟩ | ⟨⟨⟩, -⟩ | ⟨_, _, ⟨⟩, -⟩
  rw [Conn.touch_live _ (hi.live (.inl (by rw [hq]; rfl)))] at hs
  suffices true ∉ c''.cbs ∧ ∀ a', c''.ac = some a' → a'.writer.failing = true from this.1
  induction hs with
  | refl =>
    refine ⟨by simp [tcOnAlarm, hcb], ?_⟩
    rintro _ ⟨⟩
    simp [tcOnAlarm, grpcFdShutdown, hfd, hw, Writer.failing]
  | tail _ hst ih =>
    obtain ⟨e, hst⟩ := hst
    obtain ⟨b, -, hb, hst⟩ := step_some hst
    exact stepWith_failing hb (ih.2 b hb) ih.1 hst

theorem shutdown_while_armed_fails_run :
    true ∉ (⟨⟨true, 0, 1, 0, 1, 1, 1⟩, some ⟨false, 0, .ran, .returned, 1⟩, [false], none⟩ :
      Conn).cbs :=
  let c : Conn := ⟨⟨true, 0, 0, 0, 0, 1, 0⟩, some ⟨true, 2, .queued true, .armed, 0⟩, [], none⟩
  let c' : Conn := ⟨⟨true, 0, 0, 0, 1, 1, 0⟩, some ⟨true, 1, .ran, .queued false, 0⟩, [], none⟩
  shutdown_while_armed_fails
    (Reachable.of_run inProgressEnv [.alarmFires] (by decide) : Reachable c) rfl rfl rfl
    (by decide : step .alarmCallback c = some c')
    (Steps.of_run [.enter, .cancel, .inspect [] 0, .leave] (by decide))

/-! ## errno at the test of line 246 -/

/-- The failing inputs: a refused connect after which `grpc_fd_create` leaves EINPROGRESS in
errno goes the pending way, and an in-progress connect after which `gpr_asprintf` leaves ENOMEM
(12) is reported as a failure. -/
theorem stale_errno_misroutes :
    (grpcTcpClientConnect { inProgressEnv with connectCalls := [⟨-1, ECONNREFUSED⟩],
                                               fdCreateErrno := some EINPROGRESS }).map (·.ac.isSome) =
      some true ∧
    (grpcTcpClientConnect { inProgressEnv with asprintfErrno := some 12 }).map (·.cbs) =
      some [false] := by
  decide

end GrpcCore.Iomgr.TcpClient
