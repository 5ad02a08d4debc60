import GrpcCore.Iomgr.TcpClient.Invariant

/-! # What every run of a connect attempt keeps

From `Reachable.good` and what one step can change: the reference count of the record and its
single free, the single disposal of the socket and its membership in `interested_parties`, the
single shutdown and when it can happen, and the single call of `cb`. -/

namespace GrpcCore.Iomgr.TcpClient

variable {c c' : Conn} {a : AsyncConnect} {e : Event}

/-! ## What one step can change -/

theorem Conn.touch_rec {P : Conn → Prop} {next : Conn} (hn : P next)
    (hf : P { c with fault := some .useAfterFree }) : P (c.touch a next) := by
  unfold Conn.touch; split <;> assumption

theorem stepWith_ac (hc : c.ac = some a) (h : stepWith c a e = some c') :
    ∃ a', c'.ac = some a' := by
  have ht : ∀ {n : Conn}, (∃ a', n.ac = some a') → ∃ a', (c.touch a n).ac = some a' :=
    fun hn => Conn.touch_rec (P := fun x => ∃ a', x.ac = some a') hn ⟨a, hc⟩
  rcases stepWith_cases h with ⟨-, -, rfl⟩ | ⟨-, -, rfl⟩ | ⟨s, -, -, rfl⟩ | ⟨s, -, -, rfl⟩ |
    ⟨s, -, -, rfl⟩ | ⟨s, calls, soError, x, -, -, hx, rfl⟩ | ⟨-, -, rfl⟩ | ⟨ep, done, -, -, rfl⟩
  · exact ht ⟨_, rfl⟩
  · exact ht ⟨_, rfl⟩
  · exact ht ⟨_, rfl⟩
  · exact ht (by unfold onWritableEnter; split; exacts [⟨_, rfl⟩, ⟨a, hc⟩])
  · exact ht ⟨_, rfl⟩
  · exact ht (by rcases onWritableInspect_cases hx with ⟨-, -, rfl⟩ | ⟨ep, -, rfl⟩ <;> exact ⟨_, rfl⟩)
  · exact ht ⟨_, rfl⟩
  · unfold onWritableReturn; split
    · exact ht ⟨_, rfl⟩
    · exact ⟨_, rfl⟩

/-- Once `on_writable` has moved `ac->fd` into its local `fd`, the record never holds the
descriptor again, and nothing shuts it down. -/
theorem stepWith_detached (hc : c.ac = some a) (hfd : a.fd = false)
    (h : stepWith c a e = some c') :
    ∃ a', c'.ac = some a' ∧ a'.fd = false ∧ c'.sock.shutdowns = c.sock.shutdowns := by
  have ht : ∀ {n : Conn}, (∃ a', n.ac = some a' ∧ a'.fd = false ∧
      n.sock.shutdowns = c.sock.shutdowns) → ∃ a', (c.touch a n).ac = some a' ∧ a'.fd = false ∧
      (c.touch a n).sock.shutdowns = c.sock.shutdowns := fun hn =>
    Conn.touch_rec (P := fun x => ∃ a', x.ac = some a' ∧ a'.fd = false ∧
      x.sock.shutdowns = c.sock.shutdowns) hn ⟨a, hc, hfd, rfl⟩
  rcases stepWith_cases h with ⟨-, -, rfl⟩ | ⟨-, -, rfl⟩ | ⟨s, -, -, rfl⟩ | ⟨s, -, -, rfl⟩ |
    ⟨s, -, -, rfl⟩ | ⟨s, calls, soError, x, -, -, hx, rfl⟩ | ⟨-, -, rfl⟩ | ⟨ep, done, -, -, rfl⟩
  · exact ht ⟨_, rfl, hfd, rfl⟩
  · exact ht ⟨_, rfl, hfd, rfl⟩
  · exact ht ⟨_, rfl, hfd, by simp [tcOnAlarm, hfd]⟩
  · exact ht (by unfold onWritableEnter; rw [hfd]; exact ⟨a, hc, hfd, rfl⟩)
  · exact ht ⟨_, rfl, hfd, rfl⟩
  · refine ht ?_
    rcases onWritableInspect_cases hx with ⟨-, -, rfl⟩ | ⟨ep, -, rfl⟩
    · exact ⟨_, rfl, hfd, rfl⟩
    · cases ep <;> exact ⟨_, rfl, hfd, rfl⟩
  · exact ht ⟨_, rfl, hfd, rfl⟩
  · unfold onWritableReturn; split
    · exact ht ⟨_, rfl, hfd, rfl⟩
    · exact ⟨_, rfl, hfd, rfl⟩

/-- Only two steps free the record: `tc_on_alarm` whose decrement takes `refs` from 1 to 0, and
the return of an `on_writable` whose decrement at `finish` did. -/
theorem stepWith_frees {a' : AsyncConnect} (hc : c.ac = some a) (h : stepWith c a e = some c')
    (ha' : c'.ac = some a') (hlt : a.freed < a'.freed) :
    (e = .alarmCallback ∧ a.refs = 1 ∧ a'.refs = 0) ∨
      (e = .leave ∧ ∃ ep, a.writer = .finished ep true) := by
  have keep : ∀ {n : Conn}, (∀ b, n.ac = some b → b.freed = a.freed) →
      ∀ b, (c.touch a n).ac = some b → b.freed = a.freed := fun hn =>
    Conn.touch_rec (P := fun x => ∀ b, x.ac = some b → b.freed = a.freed) hn
      (fun b hb => by rw [hc] at hb; cases hb; rfl)
  rcases stepWith_cases h with ⟨-, -, rfl⟩ | ⟨-, -, rfl⟩ | ⟨s, rfl, -, rfl⟩ | ⟨s, -, -, rfl⟩ |
    ⟨s, -, -, rfl⟩ | ⟨s, calls, soError, x, -, -, hx, rfl⟩ | ⟨-, -, rfl⟩ | ⟨ep, done, rfl, hw, rfl⟩
  · exact absurd (keep (by rintro b ⟨⟩; rfl) a' ha') (by omega)
  · exact absurd (keep (by rintro b ⟨⟩; rfl) a' ha') (by omega)
  · left; refine ⟨rfl, ?_⟩
    unfold Conn.touch at ha'
    split at ha'
    · simp only [tcOnAlarm, Option.some.injEq] at ha'
      subst ha'
      dsimp only at hlt ⊢
      split_ifs at hlt <;> exact ⟨by omega, by omega⟩
    · rw [hc] at ha'; cases ha'; omega
  · refine absurd (keep ?_ a' ha') (by omega)
    unfold onWritableEnter; split
    · rintro b ⟨⟩; rfl
    · intro b hb; rw [hc] at hb; cases hb; rfl
  · exact absurd (keep (by rintro b ⟨⟩; rfl) a' ha') (by omega)
  · refine absurd (keep ?_ a' ha') (by omega)
    rcases onWritableInspect_cases hx with ⟨-, -, rfl⟩ | ⟨ep, -, rfl⟩
    · rintro b ⟨⟩; rfl
    · cases ep <;> (rintro b ⟨⟩; rfl)
  · exact absurd (keep (by rintro b ⟨⟩; rfl) a' ha') (by omega)
  · refine .inr ⟨rfl, ep, ?_⟩
    cases done
    · simp only [onWritableReturn, Bool.false_eq_true, ↓reduceIte, Option.some.injEq] at ha'
      subst ha'; simp at hlt
    · exact hw

theorem stepWith_last_frees {a' : AsyncConnect} (hl : a.freed = 0) (h : stepWith c a e = some c')
    (ha' : c'.ac = some a')
    (he : (e = .alarmCallback ∧ a.refs = 1 ∧ a'.refs = 0) ∨
      (e = .leave ∧ ∃ ep, a.writer = .finished ep true)) : a'.freed = a.freed + 1 := by
  rcases he with ⟨rfl, h1, -⟩ | ⟨rfl, ep, hw⟩
  · simp only [stepWith] at h
    split at h <;> cases h
    simp only [Conn.touch_live _ hl, tcOnAlarm, Option.some.injEq] at ha'
    subst ha'
    simp [h1]
  · simp only [stepWith, hw, Option.some.injEq] at h
    subst h
    simp only [onWritableReturn, if_true, Conn.touch_live _ hl, Option.some.injEq] at ha'
    subst ha'
    rfl

/-! ## Every reachable state -/

theorem Reachable.immediate (r : Reachable c) (h : c.ac = none) :
    ∃ env, grpcTcpClientConnect env = some c := by
  cases r with
  | connect hc => exact ⟨_, hc⟩
  | step e _ hs =>
    obtain ⟨a, -, ha, hs⟩ := step_some hs
    obtain ⟨a', ha'⟩ := stepWith_ac ha hs
    rw [h] at ha'; cases ha'

theorem Steps.detached (hc : c.ac = some a) (hfd : a.fd = false) (h : Steps c c') :
    ∃ a', c'.ac = some a' ∧ a'.fd = false ∧ c'.sock.shutdowns = c.sock.shutdowns := by
  induction h with
  | refl => exact ⟨a, hc, hfd, rfl⟩
  | tail _ hs ih =>
    obtain ⟨a', ha', hfd', hsh⟩ := ih
    obtain ⟨e, hs⟩ := hs
    obtain ⟨b, -, hb, hs⟩ := step_some hs
    rw [ha'] at hb; cases hb
    obtain ⟨a'', h1, h2, h3⟩ := stepWith_detached ha' hfd' hs
    exact ⟨a'', h1, h2, h3.trans hsh⟩

/-- **The reference count of the record.** On the pending way, from `ac->refs = 2`, `refs` is in
every reachable state the number of the two paths that have not yet decremented (`tc_on_alarm`,
and `on_writable` at `finish`), so it is never negative. The record, with its mutex and
`addr_str`, is freed at most once: exactly when `refs` is 0, but for the moment in which
`on_writable`, whose decrement reached 0, has its free still to run. No step has touched the
record after its free. A step frees the record exactly when it is one of the two decrements
that reach 0: `tc_on_alarm` taking `refs` from 1 to 0, or the return of an `on_writable` whose
decrement at `finish` did (lines 188-191). -/
theorem refs_count_pending_paths (r : Reachable c) (ha : c.ac = some a) :
    (a.refs = (if a.alarm = .ran then 0 else 1) + (if a.writer.holds then 1 else 0) ∧
      0 ≤ a.refs ∧ a.freed ≤ 1 ∧ (a.freed = 1 ↔ a.refs = 0 ∧ a.writer.freeing = false) ∧
      (a.writer.freeing = true → a.refs = 0) ∧ c.fault ≠ some .useAfterFree) ∧
    ∀ e c' a', step e c = some c' → c'.ac = some a' →
      (a.freed < a'.freed ↔ (e = .alarmCallback ∧ a.refs = 1 ∧ a'.refs = 0) ∨
        (e = .leave ∧ ∃ ep, a.writer = .finished ep true)) := by
  have hi := r.good a ha
  have hr := hi.refs_eq
  have hf := hi.freed_eq
  have hran := hi.freeing_ran
  have hal : (if a.alarm.holds then (1 : Int) else 0) = if a.alarm = .ran then 0 else 1 := by
    cases a.alarm <;> rfl
  refine ⟨⟨hal ▸ hr, ?_, ?_, ?_, fun h => ?_, hi.no_uaf⟩, fun e c' a' hs ha' => ?_⟩
  · split_ifs at hr <;> omega
  · split_ifs at hf <;> omega
  · rw [hf]; split_ifs with h <;> simp [h]
  · rw [hr, hran h, Writer.freeing_released h]; rfl
  · obtain ⟨b, -, hb, hs⟩ := step_some hs
    rw [ha] at hb; cases hb
    refine ⟨stepWith_frees ha hs ha', fun he => ?_⟩
    have hl : a.freed = 0 := by
      rw [hf, if_neg]
      rcases he with ⟨-, h1, -⟩ | ⟨-, ep, hw⟩
      · omega
      · simp [hw, Writer.freeing]
    rw [stepWith_last_frees hl hs ha' he]
    omega

/-- A pending attempt whose descriptor connects after `tc_on_alarm` has run: the decrement at
`finish` reached 0, and the return of `on_writable` frees the record. -/
theorem refs_count_write_path_frees :
    let a : AsyncConnect := ⟨false, 0, .ran, .finished true true, 0⟩
    let c : Conn := ⟨⟨true, 0, 0, 1, 0, 1, 1⟩, some a, [], none⟩
    step .leave c = some ⟨⟨true, 0, 0, 1, 0, 1, 1⟩, some { a with writer := .returned, freed := 1 },
      [true], none⟩ ∧
    (a.refs = (if a.alarm = .ran then 0 else 1) + (if a.writer.holds then 1 else 0) ∧
      0 ≤ a.refs ∧ a.freed ≤ 1 ∧ (a.freed = 1 ↔ a.refs = 0 ∧ a.writer.freeing = false) ∧
      (a.writer.freeing = true → a.refs = 0) ∧ c.fault ≠ some .useAfterFree) ∧
    ∀ e c' a', step e c = some c' → c'.ac = some a' →
      (a.freed < a'.freed ↔ (e = .alarmCallback ∧ a.refs = 1 ∧ a'.refs = 0) ∨
        (e = .leave ∧ ∃ ep, a.writer = .finished ep true)) :=
  ⟨rfl, refs_count_pending_paths (Reachable.of_run inProgressEnv
    [.writable, .enter, .cancel, .alarmCallback, .inspect [⟨0, 0⟩] 0] (by decide)) rfl⟩

/-- **The socket is disposed of once.** When socket creation succeeded, at most one of `close`
in `prepare_socket`, `grpc_fd_orphan` and `grpc_tcp_create` has happened in any reachable
state, and exactly one once `cb` has been invoked. The descriptor joins `interested_parties`
only on the pending way, and leaves it at most once, before `cb`. It is shut down at most once,
and never after `on_writable` has detached it from `ac->fd`. -/
theorem socket_disposed_once (r : Reachable c) :
    (c.sock.created = true →
      c.sock.closed + c.sock.orphaned + c.sock.endpoints ≤ 1 ∧
        (c.cbs ≠ [] → c.sock.closed + c.sock.orphaned + c.sock.endpoints = 1)) ∧
    c.sock.added = (if c.ac.isSome then 1 else 0) ∧ c.sock.removed ≤ c.sock.added ∧
    (c.cbs ≠ [] → c.sock.removed = c.sock.added) ∧ c.sock.shutdowns ≤ 1 ∧
    ∀ a c', c.ac = some a → a.fd = false → Steps c c' → c'.sock.shutdowns = c.sock.shutdowns := by
  cases h : c.ac with
  | none =>
    obtain ⟨env, he⟩ := r.immediate h
    obtain ⟨h1, h2, -, h3, h4, h5, -⟩ := grpcTcpClientConnect_immediate he h
    exact ⟨fun hc => ⟨h1, fun hb => h2 hb hc⟩, h4, by omega, fun _ => by omega, by omega,
      fun a _ ha => by cases ha⟩
  | some a =>
    have hi := r.good a h
    have hd := hi.disposed_eq
    have hm := hi.removed_eq
    have hcb : c.cbs ≠ [] → a.writer.holds = false := fun hb =>
      Writer.returned_released (by
        have := hi.cbs_eq; split_ifs at this with hr
        · exact hr
        · exact absurd (List.length_eq_zero.mp this) hb)
    refine ⟨fun _ => ⟨?_, fun hb => ?_⟩, by simp [hi.added], ?_, fun hb => ?_,
      hi.shutdowns_le_one, fun a' c' ha' hfd hs => ?_⟩
    · rw [hi.closed]; split_ifs at hd <;> omega
    · rw [hcb hb] at hd; rw [hi.closed]; simp at hd; omega
    · rw [hi.added]; split_ifs at hm <;> omega
    · rw [hi.added, hm, hcb hb]; rfl
    · cases ha'; obtain ⟨_, _, _, h⟩ := Steps.detached h hfd hs; exact h

theorem socket_disposed_after_connecting :
    let c : Conn := ⟨⟨true, 0, 0, 1, 0, 1, 1⟩, some ⟨false, 0, .ran, .returned, 1⟩, [true], none⟩
    (c.sock.created = true →
      c.sock.closed + c.sock.orphaned + c.sock.endpoints ≤ 1 ∧
        (c.cbs ≠ [] → c.sock.closed + c.sock.orphaned + c.sock.endpoints = 1)) ∧
    c.sock.added = (if c.ac.isSome then 1 else 0) ∧ c.sock.removed ≤ c.sock.added ∧
    (c.cbs ≠ [] → c.sock.removed = c.sock.added) ∧ c.sock.shutdowns ≤ 1 ∧
    ∀ a c', c.ac = some a → a.fd = false → Steps c c' → c'.sock.shutdowns = c.sock.shutdowns :=
  socket_disposed_once (Reachable.of_run inProgressEnv
    [.writable, .enter, .cancel, .inspect [⟨0, 0⟩] 0, .leave, .alarmCallback] (by decide))

/-- **`cb` is invoked at most once**, on every way `grpc_tcp_client_connect` goes and in every
interleaving of the pending way. -/
theorem cb_at_most_once (r : Reachable c) : c.cbs.length ≤ 1 := by
  cases h : c.ac with
  | none =>
    obtain ⟨env, he⟩ := r.immediate h
    exact (grpcTcpClientConnect_immediate he h).2.2.1
  | some a =>
    have := (r.good a h).cbs_eq
    split_ifs at this <;> omega

theorem cb_at_most_once_after_connecting :
    (⟨⟨true, 0, 0, 1, 0, 1, 1⟩, some ⟨false, 0, .ran, .returned, 1⟩, [true], none⟩ : Conn).cbs.length
      ≤ 1 :=
  cb_at_most_once (Reachable.of_run inProgressEnv
    [.writable, .enter, .cancel, .inspect [⟨0, 0⟩] 0, .leave, .alarmCallback] (by decide))

end GrpcCore.Iomgr.TcpClient
