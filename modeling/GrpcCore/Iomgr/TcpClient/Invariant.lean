import GrpcCore.Iomgr.TcpClient.Callbacks

/-! # The invariant of a pending attempt

`Inv` is what holds of the record and the socket in every reachable state of a pending attempt:
`refs` counts the two paths that have not dropped their reference, the record is freed exactly
when both have and the free has run, every disposal of the socket is counted against the write
path, and no step has touched a freed record. `grpc_tcp_client_connect` establishes it, each
step keeps it, so every reachable state has it (`Reachable.good`). -/

namespace GrpcCore.Iomgr.TcpClient

/-- The alarm path still holds its reference: `tc_on_alarm` has not run. -/
def Alarm.holds : Alarm → Bool
  | .ran => false
  | _ => true

/-- The write path still holds its reference: `on_writable` has not reached `finish`. -/
def Writer.holds : Writer → Bool
  | .finished _ _ | .returned => false
  | _ => true

/-- `on_writable` dropped the last reference at `finish`, and has the record still to free. -/
def Writer.freeing : Writer → Bool
  | .finished _ done => done
  | _ => false

/-- `on_writable` has invoked `cb`. -/
def Writer.hasReturned : Writer → Bool
  | .returned => true
  | _ => false

theorem Writer.holding {w : Writer} (h : w.holds = true) :
    w.freeing = false ∧ w.hasReturned = false := by
  cases w <;> simp_all [Writer.holds, Writer.freeing, Writer.hasReturned]

theorem Writer.returned_released {w : Writer} (h : w.hasReturned = true) : w.holds = false := by
  cases w <;> simp_all [Writer.holds, Writer.hasReturned]

theorem Writer.freeing_released {w : Writer} (h : w.freeing = true) : w.holds = false := by
  cases w <;> simp_all [Writer.holds, Writer.freeing]

@[simp] theorem grpcAlarmCancel_holds (a : Alarm) : (grpcAlarmCancel a).holds = a.holds := by
  cases a <;> rfl

@[simp] theorem grpcFdNotifyOnWrite_holds (s : Socket) : (grpcFdNotifyOnWrite s).holds = true := by
  unfold grpcFdNotifyOnWrite; split <;> rfl

@[simp] theorem grpcFdShutdown_sock (s : Socket) (w : Writer) :
    (grpcFdShutdown s w).1 = { s with shutdowns := s.shutdowns + 1 } := rfl

@[simp] theorem grpcFdShutdown_holds (s : Socket) (w : Writer) :
    (grpcFdShutdown s w).2.holds = w.holds := by
  cases w <;> rfl

@[simp] theorem grpcFdShutdown_freeing (s : Socket) (w : Writer) :
    (grpcFdShutdown s w).2.freeing = w.freeing := by
  cases w <;> rfl

@[simp] theorem grpcFdShutdown_hasReturned (s : Socket) (w : Writer) :
    (grpcFdShutdown s w).2.hasReturned = w.hasReturned := by
  cases w <;> rfl

/-- What holds of a pending attempt whose record is `a`, in every reachable state. -/
structure Inv (c : Conn) (a : AsyncConnect) : Prop where
  refs_eq : a.refs = (if a.alarm.holds then 1 else 0) + (if a.writer.holds then 1 else 0)
  freed_eq : a.freed = if a.refs = 0 ∧ a.writer.freeing = false then 1 else 0
  freeing_ran : a.writer.freeing = true → a.alarm.holds = false
  shutdowns_le : c.sock.shutdowns ≤ if a.alarm.holds then 0 else 1
  cbs_eq : c.cbs.length = if a.writer.hasReturned then 1 else 0
  disposed_eq : c.sock.orphaned + c.sock.endpoints = if a.writer.holds then 0 else 1
  removed_eq : c.sock.removed = if a.writer.holds then 0 else 1
  created : c.sock.created = true
  closed : c.sock.closed = 0
  added : c.sock.added = 1
  no_uaf : c.fault ≠ some .useAfterFree

def Good (c : Conn) : Prop := ∀ a, c.ac = some a → Inv c a

variable {c c' : Conn} {a a' : AsyncConnect}

/-- While either path holds its reference, or the write path has the free still to do, the record
is live. -/
theorem Inv.live (hi : Inv c a) (h : a.alarm.holds = true ∨ a.writer.holds = true ∨
    a.writer.freeing = true) : a.freed = 0 := by
  rw [hi.freed_eq, if_neg]
  rintro ⟨h0, hf⟩
  have hr := hi.refs_eq
  rcases h with h | h | h
  · rw [h, if_pos rfl] at hr; split_ifs at hr <;> omega
  · rw [h, if_pos rfl] at hr; split_ifs at hr <;> omega
  · rw [h] at hf; cases hf

theorem Inv.congr (hi : Inv c a) (hs : c'.sock = c.sock) (hcbs : c'.cbs = c.cbs)
    (hf : c'.fault ≠ some .useAfterFree) (hr : a'.refs = a.refs) (hfr : a'.freed = a.freed)
    (ha : a'.alarm.holds = a.alarm.holds) (hw : a'.writer.holds = a.writer.holds)
    (hfg : a'.writer.freeing = a.writer.freeing)
    (hret : a'.writer.hasReturned = a.writer.hasReturned) : Inv c' a' := by
  obtain ⟨h1, h2, h3, h4, h5, h6, h7, h8, h9, h10, -⟩ := hi
  refine ⟨?_, ?_, ?_, ?_, ?_, ?_, ?_, ?_, ?_, ?_, hf⟩ <;>
    simp only [hs, hcbs, hr, hfr, ha, hw, hfg, hret] <;> assumption

theorem Inv.setAc (hi : Inv c a) (hr : a'.refs = a.refs) (hfr : a'.freed = a.freed)
    (ha : a'.alarm.holds = a.alarm.holds) (hw : a.writer.holds = true)
    (hw' : a'.writer.holds = true) : Good (c.setAc a') := by
  rintro _ ⟨⟩
  obtain ⟨hf, hr'⟩ := Writer.holding hw
  obtain ⟨hf', hr''⟩ := Writer.holding hw'
  exact hi.congr rfl rfl hi.no_uaf hr hfr ha (by rw [hw, hw']) (by rw [hf, hf'])
    (by rw [hr', hr''])

theorem Inv.shutdowns_le_one (hi : Inv c a) : c.sock.shutdowns ≤ 1 := by
  have := hi.shutdowns_le; split_ifs at this <;> omega

theorem Inv.tcOnAlarm (hi : Inv c a) (ha : a.alarm.holds = true) : Good (tcOnAlarm c a) := by
  rintro _ ⟨⟩
  have h0 := hi.live (.inl ha)
  have hfree : a.writer.freeing = false := by
    cases h : a.writer.freeing
    · rfl
    · simp [hi.freeing_ran h] at ha
  have hr := hi.refs_eq
  have hs := hi.shutdowns_le
  simp only [ha, if_true] at hr hs
  cases hfd : a.fd <;> refine ⟨?_, ?_, ?_, ?_, ?_, ?_, ?_, ?_, ?_, ?_, ?_⟩ <;>
    simp [TcpClient.tcOnAlarm, hfd, Alarm.holds, hfree, hi.cbs_eq, hi.disposed_eq,
      hi.removed_eq, hi.created, hi.closed, hi.added, hi.no_uaf, h0, hr] <;> omega

theorem Inv.finish (hi : Inv c a) (hw : a.writer.holds = true) (ep : Bool) :
    Good (finish (if ep then connected c else c) a (!ep) ep) := by
  rintro _ ⟨⟩
  have h0 := hi.live (.inr (.inl hw))
  obtain ⟨hfg, hret⟩ := Writer.holding hw
  have hr := hi.refs_eq
  have hd := hi.disposed_eq
  have hm := hi.removed_eq
  have hc := hi.cbs_eq
  simp only [hw, hfg, hret, if_true] at hr hd hm hc
  cases ep <;> refine ⟨?_, ?_, ?_, ?_, ?_, ?_, ?_, ?_, ?_, ?_, ?_⟩ <;>
    simp [TcpClient.finish, connected, Writer.holds, Writer.freeing, Writer.hasReturned, h0, hr, hd, hm, hc,
      hi.shutdowns_le, hi.created, hi.closed, hi.added, hi.no_uaf] <;> omega

theorem Inv.leave (hi : Inv c a) {ep done : Bool} (hw : a.writer = .finished ep done) :
    Good (onWritableReturn c a ep done) := by
  have h0 : done = true → a.freed = 0 := fun hd => hi.live (.inr (.inr (by rw [hw, hd]; rfl)))
  have heq : onWritableReturn c a ep done =
      { c with ac := some { a with writer := .returned,
                                   freed := if done then a.freed + 1 else a.freed },
               cbs := c.cbs ++ [ep] } := by
    unfold onWritableReturn; cases done
    · rfl
    · exact Conn.touch_live _ (h0 rfl)
  have hr := hi.refs_eq
  have hf := hi.freed_eq
  have hc := hi.cbs_eq
  have hd := hi.disposed_eq
  have hm := hi.removed_eq
  have hran := hi.freeing_ran
  simp only [hw, Writer.holds, Writer.freeing, Writer.hasReturned] at hr hf hc hd hm hran
  rw [heq]; rintro _ ⟨⟩
  cases done <;> refine ⟨?_, ?_, ?_, ?_, ?_, ?_, ?_, ?_, ?_, ?_, ?_⟩ <;>
    simp [Writer.holds, Writer.freeing, Writer.hasReturned, hr, hf, hc, hd, hm, hran, hi.shutdowns_le,
      hi.shutdowns_le_one,
      hi.created, hi.closed, hi.added, hi.no_uaf]

/-! ## Every reachable state -/

/-- Each step keeps `Inv`. -/
theorem Inv.stepWith (hi : Inv c a) (hc : c.ac = some a) {e : Event}
    (h : stepWith c a e = some c') : Good c' := by
  have hw : ∀ {w : Writer}, a.writer = w → w.holds = true → a.freed = 0 := fun e hw =>
    hi.live (.inr (.inl (e ▸ hw)))
  rcases stepWith_cases h with ⟨-, hp, rfl⟩ | ⟨-, ha, rfl⟩ | ⟨s, -, hq, rfl⟩ | ⟨s, -, hq, rfl⟩ |
    ⟨s, -, hd, rfl⟩ | ⟨s, calls, soError, x, -, hx, hi', rfl⟩ | ⟨-, hr, rfl⟩ | ⟨ep, done, -, hf, rfl⟩
  · rw [Conn.touch_live _ (hi.live (.inl (by rw [hp]; rfl)))]
    rintro _ ⟨⟩
    exact hi.congr rfl rfl hi.no_uaf rfl rfl (by rw [hp]; rfl) rfl rfl rfl
  · rw [Conn.touch_live _ (hw ha rfl)]
    exact hi.setAc rfl rfl rfl (by rw [ha]; rfl) rfl
  · have ha : a.alarm.holds = true := by rw [hq]; rfl
    rw [Conn.touch_live _ (hi.live (.inl ha))]
    exact hi.tcOnAlarm ha
  · rw [Conn.touch_live _ (hw hq rfl)]
    unfold onWritableEnter
    split
    · exact hi.setAc rfl rfl rfl (by rw [hq]; rfl) rfl
    · rintro a' ha'
      obtain rfl : a = a' := Option.some.inj (hc.symm.trans ha')
      exact hi.congr rfl rfl (by simp) rfl rfl rfl rfl rfl rfl
  · rw [Conn.touch_live _ (hw hd rfl)]
    exact hi.setAc rfl rfl (grpcAlarmCancel_holds _) (by rw [hd]; rfl) rfl
  · rw [Conn.touch_live _ (hw hx rfl)]
    rcases onWritableInspect_cases hi' with ⟨-, -, rfl⟩ | ⟨ep, -, rfl⟩
    · exact hi.setAc rfl rfl rfl (by rw [hx]; rfl) rfl
    · exact hi.finish (by rw [hx]; rfl) ep
  · rw [Conn.touch_live _ (hw hr rfl)]
    exact hi.setAc rfl rfl rfl (by rw [hr]; rfl) (grpcFdNotifyOnWrite_holds _)
  · exact hi.leave hf

theorem Good.step {e : Event} (hg : Good c) (h : step e c = some c') : Good c' := by
  obtain ⟨a, -, ha, h⟩ := step_some h
  exact (hg a ha).stepWith ha h

theorem good_connect {env : ConnectEnv} (h : grpcTcpClientConnect env = some c) : Good c := by
  intro a ha
  obtain ⟨hs, rfl, hfd, hcbs, hf⟩ := grpcTcpClientConnect_pending h ha
  refine ⟨?_, ?_, ?_, ?_, ?_, ?_, ?_, ?_, ?_, ?_, ?_⟩ <;>
    simp [pendingRecord, hs, hcbs, hf, hfd, grpcFdNotifyOnWrite, freshSocket, Alarm.holds,
      Writer.holds, Writer.freeing, Writer.hasReturned]

/-- **Every reachable state has `Inv`.** -/
theorem Reachable.good {c : Conn} (r : Reachable c) : Good c := by
  induction r with
  | connect h => exact good_connect h
  | step _ _ h ih => exact ih.step h

end GrpcCore.Iomgr.TcpClient
