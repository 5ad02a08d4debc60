import GrpcCore.Iomgr.TcpClient.Connect

/-! # `tc_on_alarm`, `on_writable` and the runs of a pending attempt

Once `grpc_tcp_client_connect` has returned on its pending way, the attempt goes on through
eight kinds of step, in any order the reactor and the kernel allow: the deadline passes, the
descriptor polls writable, `tc_on_alarm` runs, and `on_writable` runs in five pieces, cut where
it releases `ac->mu` or calls out of the file. Each step that reads or writes the record goes
through `Conn.touch`, so a step on a freed record is a fault and not a silent read. -/

namespace GrpcCore.Iomgr.TcpClient

/-! ## The two callbacks -/

/-- `tc_on_alarm` (lines 92-106): under `ac->mu`, shut the descriptor down if the record still
holds it and drop the alarm's reference; free the record on the last one. Its `success` is not
read. -/
def tcOnAlarm (c : Conn) (a : AsyncConnect) : Conn :=
  let shut := if a.fd then grpcFdShutdown c.sock a.writer else (c.sock, a.writer)
  let refs := a.refs - 1
  { c with sock := shut.1,
           ac := some { a with alarm := .ran, writer := shut.2, refs,
                               freed := if refs = 0 then a.freed + 1 else a.freed } }

/-- Lines 115-123 of `on_writable`: copy `cb` and `cb_arg`, then under `ac->mu` assert that
`ac->fd` is set and move it into the local `fd`. -/
def onWritableEnter (c : Conn) (a : AsyncConnect) (success : Bool) : Conn :=
  if a.fd then c.setAc { a with fd := false, writer := .detached success }
  else { c with fault := some .assertion }

/-- Lines 180-187, the `finish` label: with the local `fd` still set, remove it from
`interested_parties` and orphan it; then drop the write path's reference under `ac->mu`. -/
def finish (c : Conn) (a : AsyncConnect) (fd ep : Bool) : Conn :=
  let sock := if fd then { c.sock with removed := c.sock.removed + 1,
                                       orphaned := c.sock.orphaned + 1 } else c.sock
  let refs := a.refs - 1
  { c with sock, ac := some { a with refs, writer := .finished ep (decide (refs = 0)) } }

/-- Lines 167-171: `SO_ERROR` is 0, so the descriptor leaves `interested_parties` and becomes an
endpoint; the local `fd` is cleared. -/
def connected (c : Conn) : Conn :=
  { c with sock := { c.sock with removed := c.sock.removed + 1,
                                 endpoints := c.sock.endpoints + 1 } }

/-- Lines 127-179 of `on_writable`, under `ac->mu`: with `success`, read `SO_ERROR` through the
EINTR loop and act on it. `soError` is what the loop's last call wrote; `none` while the loop
spins. -/
def onWritableInspect (c : Conn) (a : AsyncConnect) (success : Bool) (calls : List Syscall)
    (soError : Nat) : Option Conn :=
  if success then
    (retryOnEintr calls).map fun r =>
      if r.ret < 0 then finish c a true false
      else if soError ≠ 0 then
        if soError = ENOBUFS then c.setAc { a with writer := .rearming }
        else finish c a true false
      else finish (connected c) a false true
  else some (finish c a true false)

/-- Lines 188-193 of `on_writable`: free the record if the reference dropped at `finish` was the
last one, then invoke `cb` with the local copies of `cb`, `cb_arg` and `ep`. Only the free reads
the record. -/
def onWritableReturn (c : Conn) (a : AsyncConnect) (ep done : Bool) : Conn :=
  let next := { c with ac := some { a with writer := .returned,
                                           freed := if done then a.freed + 1 else a.freed },
                       cbs := c.cbs ++ [ep] }
  if done then c.touch a next else next

/-- What the inspecting piece of `on_writable` can do: re-arm after a successful wakeup whose
`SO_ERROR` is ENOBUFS, or go to `finish`, with an endpoint only for a successful wakeup whose
`SO_ERROR` is 0. -/
theorem onWritableInspect_cases {c x : Conn} {a : AsyncConnect} {success : Bool}
    {calls : List Syscall} {soError : Nat} (h : onWritableInspect c a success calls soError = some x) :
    (success = true ∧ soError = ENOBUFS ∧ x = c.setAc { a with writer := .rearming }) ∨
      ∃ ep, (ep = true → success = true ∧ soError = 0) ∧
        x = finish (if ep then connected c else c) a (!ep) ep := by
  unfold onWritableInspect at h
  cases success <;> simp only [Bool.false_eq_true, ↓reduceIte, Option.some.injEq] at h
  · exact .inr ⟨false, by simp, h.symm⟩
  · obtain ⟨r, -, rfl⟩ := Option.map_eq_some'.mp h
    split_ifs with h₁ h₂ h₃
    · exact .inr ⟨false, by simp, rfl⟩
    · exact .inl ⟨rfl, h₃, rfl⟩
    · exact .inr ⟨false, by simp, rfl⟩
    · exact .inr ⟨true, fun _ => ⟨rfl, by omega⟩, rfl⟩

/-! ## Steps and runs -/

/-- What can happen next to a pending attempt: the deadline passes and the reactor dispatches
`tc_on_alarm(ac, 1)`; the descriptor polls writable and the armed write closure is dispatched;
the dispatched `tc_on_alarm` runs; or the next piece of the dispatched `on_writable` runs (lines
115-123, line 125, lines 127-187 with the getsockopt outcomes and the `SO_ERROR` written, line
154, lines 188-193). -/
inductive Event where
  | alarmFires
  | writable
  | alarmCallback
  | enter
  | cancel
  | inspect (calls : List Syscall) (soError : Nat)
  | rearm
  | leave
  deriving DecidableEq, Repr

/-- One step of a pending attempt whose record is `a`; `none` when the event cannot happen. -/
def stepWith (c : Conn) (a : AsyncConnect) : Event → Option Conn
  | .alarmFires => match a.alarm with
    | .pending => some (c.touch a (c.setAc { a with alarm := .queued true }))
    | _ => none
  | .writable => match a.writer with
    | .armed => some (c.touch a (c.setAc { a with writer := .queued (c.sock.shutdowns = 0) }))
    | _ => none
  | .alarmCallback => match a.alarm with
    | .queued _ => some (c.touch a (tcOnAlarm c a))
    | _ => none
  | .enter => match a.writer with
    | .queued success => some (c.touch a (onWritableEnter c a success))
    | _ => none
  | .cancel => match a.writer with
    | .detached success =>
      some (c.touch a (c.setAc { a with alarm := grpcAlarmCancel a.alarm,
                                         writer := .cancelled success }))
    | _ => none
  | .inspect calls soError => match a.writer with
    | .cancelled success => (onWritableInspect c a success calls soError).map (c.touch a)
    | _ => none
  | .rearm => match a.writer with
    | .rearming => some (c.touch a (c.setAc { a with writer := grpcFdNotifyOnWrite c.sock }))
    | _ => none
  | .leave => match a.writer with
    | .finished ep done => some (onWritableReturn c a ep done)
    | _ => none

/-- One step of an attempt: only a pending one that has not faulted moves. -/
def step (e : Event) (c : Conn) : Option Conn :=
  match c.fault, c.ac with
  | none, some a => stepWith c a e
  | _, _ => none

def run : List Event → Conn → Option Conn
  | [], c => some c
  | e :: es, c => (step e c).bind (run es)

/-- Every state of every attempt: what `grpc_tcp_client_connect` returns, then any steps. -/
inductive Reachable : Conn → Prop where
  | connect {env : ConnectEnv} {c : Conn} : grpcTcpClientConnect env = some c → Reachable c
  | step {c c' : Conn} (e : Event) : Reachable c → step e c = some c' → Reachable c'

def Steps : Conn → Conn → Prop := Relation.ReflTransGen fun c c' => ∃ e, step e c = some c'

/-- Everything one step can do: the event, the guard it needs, and the state it leaves. -/
theorem stepWith_cases {c c' : Conn} {a : AsyncConnect} {e : Event}
    (h : stepWith c a e = some c') :
    (e = .alarmFires ∧ a.alarm = .pending ∧
      c' = c.touch a (c.setAc { a with alarm := .queued true })) ∨
    (e = .writable ∧ a.writer = .armed ∧
      c' = c.touch a (c.setAc { a with writer := .queued (c.sock.shutdowns = 0) })) ∨
    (∃ s, e = .alarmCallback ∧ a.alarm = .queued s ∧ c' = c.touch a (tcOnAlarm c a)) ∨
    (∃ s, e = .enter ∧ a.writer = .queued s ∧ c' = c.touch a (onWritableEnter c a s)) ∨
    (∃ s, e = .cancel ∧ a.writer = .detached s ∧
      c' = c.touch a (c.setAc { a with alarm := grpcAlarmCancel a.alarm, writer := .cancelled s })) ∨
    (∃ s calls soError x, e = .inspect calls soError ∧ a.writer = .cancelled s ∧
      onWritableInspect c a s calls soError = some x ∧ c' = c.touch a x) ∨
    (e = .rearm ∧ a.writer = .rearming ∧
      c' = c.touch a (c.setAc { a with writer := grpcFdNotifyOnWrite c.sock })) ∨
    (∃ ep done, e = .leave ∧ a.writer = .finished ep done ∧ c' = onWritableReturn c a ep done) := by
  cases e <;> simp only [stepWith] at h <;> split at h <;> try cases h
  · exact .inl ⟨rfl, ‹_›, rfl⟩
  · exact .inr (.inl ⟨rfl, ‹_›, rfl⟩)
  · exact .inr (.inr (.inl ⟨_, rfl, ‹_›, rfl⟩))
  · exact .inr (.inr (.inr (.inl ⟨_, rfl, ‹_›, rfl⟩)))
  · exact .inr (.inr (.inr (.inr (.inl ⟨_, rfl, ‹_›, rfl⟩))))
  · obtain ⟨x, hx, rfl⟩ := Option.map_eq_some'.mp h
    exact .inr (.inr (.inr (.inr (.inr (.inl ⟨_, _, _, x, rfl, ‹_›, hx, rfl⟩)))))
  · exact .inr (.inr (.inr (.inr (.inr (.inr (.inl ⟨rfl, ‹_›, rfl⟩))))))
  · exact .inr (.inr (.inr (.inr (.inr (.inr (.inr ⟨_, _, rfl, ‹_›, rfl⟩))))))

theorem step_some {e : Event} {c c' : Conn} (h : step e c = some c') :
    ∃ a, c.fault = none ∧ c.ac = some a ∧ stepWith c a e = some c' := by
  unfold step at h
  split at h
  next a hf ha => exact ⟨a, hf, ha, h⟩
  next => cases h

theorem Reachable.run {c c' : Conn} (r : Reachable c) :
    ∀ {es : List Event}, run es c = some c' → Reachable c'
  | [], h => by cases h; exact r
  | e :: es, h => by
    simp only [TcpClient.run, Option.bind_eq_some] at h
    obtain ⟨c₁, h₁, h₂⟩ := h
    exact (r.step e h₁).run h₂

theorem Reachable.of_run (env : ConnectEnv) (es : List Event) {c : Conn}
    (h : (grpcTcpClientConnect env).bind (TcpClient.run es) = some c) : Reachable c := by
  obtain ⟨c₀, h₀, h⟩ := Option.bind_eq_some.mp h
  exact (Reachable.connect h₀).run h

theorem Steps.of_run {c c' : Conn} : ∀ (es : List Event), run es c = some c' → Steps c c'
  | [], h => by cases h; exact .refl
  | e :: es, h => by
    obtain ⟨c₁, h₁, h₂⟩ := Option.bind_eq_some.mp h
    exact .head ⟨e, h₁⟩ (Steps.of_run es h₂)

theorem Reachable.steps {c c' : Conn} (r : Reachable c) (h : Steps c c') : Reachable c' := by
  induction h with
  | refl => exact r
  | tail _ hs ih => obtain ⟨e, he⟩ := hs; exact ih.step e he

end GrpcCore.Iomgr.TcpClient
