import GrpcCore.Iomgr.TcpClient.Races

/-! # Every attempt ends

Once `grpc_tcp_client_connect` has returned, an attempt takes at most nine steps. Each step brings
the alarm or the write closure nearer its end. The one way back is the ENOBUFS re-arm. It can be
taken once only, because it leaves `ac->fd` NULL, and the next start of `on_writable` aborts. An
attempt that can take no further step has aborted, or it is complete: `cb` has been invoked
once, and on the pending way the record has been freed once. -/

namespace GrpcCore.Iomgr.TcpClient

variable {c c' : Conn} {a : AsyncConnect} {e : Event}

/-! ## The steps left -/

def Alarm.stepsLeft : Alarm → Nat
  | .pending => 2
  | .queued _ => 1
  | .ran => 0

/-- The steps the write path can still take. While the record holds the descriptor, the ENOBUFS
re-arm can still add a second start of `on_writable`. -/
def Writer.stepsLeft (fd : Bool) : Writer → Nat
  | .armed => if fd then 7 else 2
  | .queued _ => if fd then 6 else 1
  | .detached _ => 5
  | .cancelled _ => 4
  | .rearming => 3
  | .finished _ _ => 1
  | .returned => 0

/-- A bound on the steps an attempt can still take: none once it has faulted or off the pending
way. -/
def Conn.stepsLeft (c : Conn) : Nat :=
  match c.fault, c.ac with
  | none, some a => a.alarm.stepsLeft + a.writer.stepsLeft a.fd
  | _, _ => 0

theorem Conn.stepsLeft_live (hf : c.fault = none) (hc : c.ac = some a) :
    c.stepsLeft = a.alarm.stepsLeft + a.writer.stepsLeft a.fd := by
  simp [Conn.stepsLeft, hf, hc]

theorem Conn.stepsLeft_touch (next : Conn) : (c.touch a next).stepsLeft ≤ next.stepsLeft := by
  unfold Conn.touch; split
  · exact Nat.le_refl _
  · exact Nat.zero_le _

@[simp] theorem grpcAlarmCancel_stepsLeft_le (al : Alarm) :
    (grpcAlarmCancel al).stepsLeft ≤ al.stepsLeft := by
  cases al <;> simp [grpcAlarmCancel, Alarm.stepsLeft]

theorem grpcFdShutdown_stepsLeft_le (s : Socket) (w : Writer) (fd : Bool) :
    (grpcFdShutdown s w).2.stepsLeft fd ≤ w.stepsLeft fd := by
  cases w <;> cases fd <;> simp [grpcFdShutdown, Writer.stepsLeft]

theorem tcOnAlarm_stepsLeft (hf : c.fault = none) :
    (tcOnAlarm c a).stepsLeft ≤ a.writer.stepsLeft a.fd := by
  simp only [tcOnAlarm, Conn.stepsLeft, hf, Alarm.stepsLeft, Nat.zero_add]
  split
  · exact grpcFdShutdown_stepsLeft_le _ _ _
  · exact Nat.le_refl _

theorem Conn.touch_stepsLeft_lt {n : Nat} {next : Conn} (h : next.stepsLeft < n) :
    (c.touch a next).stepsLeft < n :=
  Nat.lt_of_le_of_lt (Conn.stepsLeft_touch next) h

theorem onWritableReturn_stepsLeft (hf : c.fault = none) (ep done : Bool) :
    (onWritableReturn c a ep done).stepsLeft ≤ a.alarm.stepsLeft := by
  unfold onWritableReturn
  split
  · exact Nat.le_trans (Conn.stepsLeft_touch _) (by simp [Conn.stepsLeft, hf, Writer.stepsLeft])
  · simp [Conn.stepsLeft, hf, Writer.stepsLeft]

theorem finish_stepsLeft (hf : c.fault = none) (fd ep : Bool) :
    (finish (if ep then connected c else c) a fd ep).stepsLeft = a.alarm.stepsLeft + 1 := by
  cases ep <;> simp [finish, connected, Conn.stepsLeft, hf, Writer.stepsLeft]

/-- Each step of a pending attempt whose record waits on the descriptor while it holds it takes
one of the steps left. -/
theorem stepWith_stepsLeft (hf : c.fault = none) (hc : c.ac = some a)
    (hw : a.fd = true → a.writer.waiting = true) (h : stepWith c a e = some c') :
    c'.stepsLeft < c.stepsLeft := by
  rw [Conn.stepsLeft_live hf hc]
  rcases stepWith_cases h with ⟨-, hp, rfl⟩ | ⟨-, ha, rfl⟩ | ⟨s, -, hq, rfl⟩ | ⟨s, -, hq, rfl⟩ |
    ⟨s, -, hd, rfl⟩ | ⟨s, calls, soError, x, -, hx, hi, rfl⟩ | ⟨-, hr, rfl⟩ | ⟨ep, done, -, hd, rfl⟩
  · apply Conn.touch_stepsLeft_lt
    simp [Conn.setAc, Conn.stepsLeft, hf, hp, Alarm.stepsLeft]
  · apply Conn.touch_stepsLeft_lt
    cases hfd : a.fd <;> simp [Conn.setAc, Conn.stepsLeft, hf, ha, hfd, Writer.stepsLeft]
  · apply Conn.touch_stepsLeft_lt
    have := tcOnAlarm_stepsLeft (a := a) hf
    simp only [hq, Alarm.stepsLeft]; omega
  · apply Conn.touch_stepsLeft_lt
    unfold onWritableEnter
    cases hfd : a.fd
    · simp [Conn.stepsLeft, hq, hfd, Writer.stepsLeft]
    · simp [Conn.setAc, Conn.stepsLeft, hf, hq, hfd, Writer.stepsLeft]
  · apply Conn.touch_stepsLeft_lt
    have := grpcAlarmCancel_stepsLeft_le a.alarm
    simp [Conn.setAc, Conn.stepsLeft, hf, hd, Writer.stepsLeft]; omega
  · apply Conn.touch_stepsLeft_lt
    rcases onWritableInspect_cases hi with ⟨-, -, rfl⟩ | ⟨ep, -, rfl⟩
    · simp [Conn.setAc, Conn.stepsLeft, hf, hx, Writer.stepsLeft]
    · simp [finish_stepsLeft hf, hx, Writer.stepsLeft]
  · apply Conn.touch_stepsLeft_lt
    have hfd : a.fd = false := by
      cases hfd : a.fd
      · rfl
      · simpa [hr, Writer.waiting] using hw hfd
    unfold grpcFdNotifyOnWrite
    split <;> simp [Conn.setAc, Conn.stepsLeft, hf, hr, hfd, Writer.stepsLeft]
  · have := onWritableReturn_stepsLeft (a := a) hf ep done
    simp only [hd, Writer.stepsLeft]; omega

theorem Reachable.step_stepsLeft (r : Reachable c) (h : TcpClient.step e c = some c') :
    c'.stepsLeft < c.stepsLeft := by
  obtain ⟨a, hf, ha, h⟩ := step_some h
  exact stepWith_stepsLeft hf ha (r.fd_waiting ha) h

theorem Reachable.run_length (r : Reachable c) {es : List Event}
    (h : TcpClient.run es c = some c') : es.length ≤ c.stepsLeft := by
  induction es generalizing c with
  | nil => exact Nat.zero_le _
  | cons e es ih =>
    obtain ⟨c₁, h₁, h₂⟩ := Option.bind_eq_some.mp h
    have := ih (r.step e h₁) h₂
    have := r.step_stepsLeft h₁
    simp only [List.length_cons]; omega

theorem connect_stepsLeft {env : ConnectEnv} (h : grpcTcpClientConnect env = some c) :
    c.stepsLeft ≤ 9 := by
  cases ha : c.ac with
  | none => simp [Conn.stepsLeft, ha]
  | some a =>
    obtain ⟨hs, rfl, -, -, hf⟩ := grpcTcpClientConnect_pending h ha
    rw [Conn.stepsLeft_live hf ha]
    simp only [pendingRecord, grpcFdNotifyOnWrite]
    split <;> simp [Alarm.stepsLeft, Writer.stepsLeft]

/-- **Every attempt takes at most nine steps after `grpc_tcp_client_connect` returns.** This
counts every event: the deadline, the descriptor polling writable, and each piece of
`tc_on_alarm` and `on_writable`. No interleaving loops. -/
theorem attempt_runs_at_most_nine_steps {env : ConnectEnv} {es : List Event} {c : Conn}
    (h : (grpcTcpClientConnect env).bind (run es) = some c) : es.length ≤ 9 := by
  obtain ⟨c₀, h₀, h⟩ := Option.bind_eq_some.mp h
  exact Nat.le_trans ((Reachable.connect h₀).run_length h) (connect_stepsLeft h₀)

/-- The run of nine steps: an ENOBUFS result, the re-arm, the deadline, and the abort of the
next `on_writable`. -/
def enobufsAbortRun : List Event :=
  [.writable, .alarmFires, .enter, .cancel, .inspect [⟨0, 0⟩] ENOBUFS, .rearm, .writable,
   .alarmCallback, .enter]

theorem attempt_runs_nine_steps_to_abort :
    (grpcTcpClientConnect inProgressEnv).bind (run enobufsAbortRun) =
        some ⟨⟨true, 0, 0, 0, 0, 1, 0⟩, some ⟨false, 1, .ran, .queued true, 0⟩, [], some .assertion⟩ ∧
      enobufsAbortRun.length ≤ 9 :=
  have h : (grpcTcpClientConnect inProgressEnv).bind (run enobufsAbortRun) =
      some ⟨⟨true, 0, 0, 0, 0, 1, 0⟩, some ⟨false, 1, .ran, .queued true, 0⟩, [], some .assertion⟩ := by
    decide
  ⟨h, attempt_runs_at_most_nine_steps h⟩

/-! ## Where an attempt stops -/

/-- A pending attempt can take a step until its alarm has run and `on_writable` has returned. -/
theorem stepWith_stopped (h : ∀ e, stepWith c a e = none) :
    a.alarm = .ran ∧ a.writer = .returned := by
  constructor
  · cases hA : a.alarm with
    | pending => simpa [stepWith, hA] using h .alarmFires
    | queued s => simpa [stepWith, hA] using h .alarmCallback
    | ran => rfl
  · cases hW : a.writer with
    | armed => simpa [stepWith, hW] using h .writable
    | queued s => simpa [stepWith, hW] using h .enter
    | detached s => simpa [stepWith, hW] using h .cancel
    | cancelled s =>
      cases s <;> simpa [stepWith, hW, onWritableInspect, retryOnEintr] using h (.inspect [⟨0, 0⟩] 0)
    | rearming => simpa [stepWith, hW] using h .rearm
    | finished ep done => simpa [stepWith, hW] using h .leave
    | returned => rfl

/-- **An attempt that can take no step has aborted or is complete.** In every reachable state in
which no event can happen, the process has faulted, or `cb` has been invoked exactly once. On the
pending way, the record has then also been freed exactly once. -/
theorem stopped_attempt_completed (r : Reachable c) (hstop : ∀ e, step e c = none) :
    c.fault ≠ none ∨ (c.cbs.length = 1 ∧ ∀ a, c.ac = some a → a.freed = 1) := by
  cases hf : c.fault with
  | some f => exact .inl (by simp)
  | none =>
    right
    cases ha : c.ac with
    | none =>
      obtain ⟨env, he⟩ := r.immediate ha
      exact ⟨grpcTcpClientConnect_immediate_cb he ha hf, fun _ h => by cases h⟩
    | some a =>
      have hi := r.good a ha
      obtain ⟨hal, hwr⟩ := stepWith_stopped fun e => by simpa [step, hf, ha] using hstop e
      have hr := hi.refs_eq
      simp only [hal, hwr, Alarm.holds, Writer.holds] at hr
      refine ⟨by simpa [hwr, Writer.hasReturned] using hi.cbs_eq, fun a' ha' => ?_⟩
      obtain rfl : a = a' := Option.some.inj ha'
      simpa [hr, hwr, Writer.freeing] using hi.freed_eq

def connectedAttempt : Conn :=
  ⟨⟨true, 0, 0, 1, 0, 1, 1⟩, some ⟨false, 0, .ran, .returned, 1⟩, [true], none⟩

theorem stopped_attempt_completed_connected :
    (∀ e, step e connectedAttempt = none) ∧
      (connectedAttempt.fault ≠ none ∨
        (connectedAttempt.cbs.length = 1 ∧ ∀ a, connectedAttempt.ac = some a → a.freed = 1)) :=
  have hstop : ∀ e, step e connectedAttempt = none := fun e => by cases e <;> rfl
  ⟨hstop, stopped_attempt_completed (Reachable.of_run inProgressEnv
    [.writable, .enter, .cancel, .inspect [⟨0, 0⟩] 0, .leave, .alarmCallback] (by decide)) hstop⟩

end GrpcCore.Iomgr.TcpClient
