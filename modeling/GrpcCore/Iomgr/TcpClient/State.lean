import Mathlib.Logic.Relation

/-! # The state of one `grpc_tcp_client_connect` attempt

The socket of the attempt, the `async_connect` record of its pending path, the calls of the
caller's `cb`, and the two closures that race on the record: the deadline alarm, which runs
`tc_on_alarm`, and the write closure, which runs `on_writable`. The descriptor layer and the
alarm are not part of the source; the operations of theirs that `tcp_client_posix.c` calls are
modelled from the spec's contracts for them. -/

namespace GrpcCore.Iomgr.TcpClient

/-! ## errno and the EINTR loops -/

/-- `EINTR`, as the Linux ABI numbers it; so are the four below. -/
def EINTR : Nat := 4
def EWOULDBLOCK : Nat := 11
def ENOBUFS : Nat := 105
def ECONNREFUSED : Nat := 111
def EINPROGRESS : Nat := 115

structure Syscall where
  ret : Int
  errno : Nat
  deriving DecidableEq, Repr

/-- `do { r = call(); } while (r < 0 && errno == EINTR);` over the outcomes of the successive
calls: the first that is not an interrupted failure, or `none` while the loop still spins. -/
def retryOnEintr : List Syscall → Option Syscall
  | [] => none
  | r :: rest => if r.ret < 0 ∧ r.errno = EINTR then retryOnEintr rest else some r

theorem retryOnEintr_mem {calls : List Syscall} {r : Syscall}
    (h : retryOnEintr calls = some r) : r ∈ calls ∧ ¬(r.ret < 0 ∧ r.errno = EINTR) := by
  induction calls with
  | nil => cases h
  | cons x rest ih =>
    simp only [retryOnEintr] at h
    split at h
    · exact ⟨List.mem_cons_of_mem x (ih h).1, (ih h).2⟩
    · cases h; exact ⟨List.mem_cons_self _ _, by assumption⟩

/-! ## The record, the socket and the attempt -/

/-- The deadline alarm `ac->alarm`: armed by `grpc_alarm_init` and neither expired nor cancelled,
`tc_on_alarm` dispatched with its `success` and not yet run, or `tc_on_alarm` run. -/
inductive Alarm where
  | pending
  | queued (success : Bool)
  | ran
  deriving DecidableEq, Repr

/-- The write closure `ac->write_closure`, and how far the `on_writable` call it started has
got, cut where it releases `ac->mu` or calls out of the file. The closure is registered by
`grpc_fd_notify_on_write`, then dispatched with its `success`. Lines 115-123 move `ac->fd` into
the local `fd`, and line 125 cancels the alarm. The ENOBUFS branch releases `ac->mu` at line 153
before it re-arms at 154. Line 187 drops the reference at `finish`, with the local `ep` and
`done`, and lines 188-193 free the record if `done` and invoke `cb`. -/
inductive Writer where
  | armed
  | queued (success : Bool)
  | detached (success : Bool)
  | cancelled (success : Bool)
  | rearming
  | finished (ep : Bool) (done : Bool)
  | returned
  deriving DecidableEq, Repr

/-- The fields of `async_connect` that change once `grpc_tcp_client_connect` has returned, with
`fd` for `ac->fd != NULL`. `freed` counts the `gpr_free(ac)` calls, each of which comes with
`gpr_mu_destroy(&ac->mu)` and `gpr_free(ac->addr_str)`. -/
structure AsyncConnect where
  fd : Bool
  refs : Int
  alarm : Alarm
  writer : Writer
  freed : Nat
  deriving DecidableEq, Repr

/-- The socket of the attempt: whether `grpc_create_dualstack_socket` returned one, and the count
of each call applied to it: `close` in `prepare_socket`, `grpc_fd_orphan`, `grpc_tcp_create`,
`grpc_fd_shutdown`, and `grpc_pollset_set_add_fd` and `_del_fd` on `interested_parties`. -/
structure Socket where
  created : Bool
  closed : Nat
  orphaned : Nat
  endpoints : Nat
  shutdowns : Nat
  added : Nat
  removed : Nat
  deriving DecidableEq, Repr

/-- What stops the process: a failed `GPR_ASSERT`, or a step that reads or writes the record
after `gpr_free(ac)`. -/
inductive Fault where
  | assertion
  | useAfterFree
  deriving DecidableEq, Repr

/-- One connect attempt: its socket, its record (on the pending path only), the endpoint passed
to each call of the caller's `cb` in call order (`true` for a non-NULL one), and a fault. -/
structure Conn where
  sock : Socket
  ac : Option AsyncConnect
  cbs : List Bool
  fault : Option Fault
  deriving DecidableEq, Repr

/-! ## The descriptor layer and the alarm -/

/-- Modelled from the spec: `grpc_fd_shutdown`, whose source is not in this repository. It marks
the descriptor shut down and fires a pending write closure with failure. -/
def grpcFdShutdown (s : Socket) (w : Writer) : Socket × Writer :=
  ({ s with shutdowns := s.shutdowns + 1 }, if w = .armed then .queued false else w)

/-- Modelled from the spec: `grpc_fd_notify_on_write`. On a descriptor already shut down the
closure fires at once with failure; otherwise it waits for writability. -/
def grpcFdNotifyOnWrite (s : Socket) : Writer :=
  if s.shutdowns = 0 then .armed else .queued false

/-- Modelled from the spec: `grpc_alarm_cancel`. A pending alarm runs its callback with
`success = 0`; cancelling an alarm that has fired changes nothing. -/
def grpcAlarmCancel : Alarm → Alarm
  | .pending => .queued false
  | a => a

def Conn.setAc (c : Conn) (a : AsyncConnect) : Conn := { c with ac := some a }

/-- A step that reads or writes the record: on a record already freed it faults instead. -/
def Conn.touch (c : Conn) (a : AsyncConnect) (next : Conn) : Conn :=
  if a.freed = 0 then next else { c with fault := some .useAfterFree }

@[simp] theorem Conn.setAc_sock (c : Conn) (a : AsyncConnect) : (c.setAc a).sock = c.sock := rfl
@[simp] theorem Conn.setAc_ac (c : Conn) (a : AsyncConnect) : (c.setAc a).ac = some a := rfl
@[simp] theorem Conn.setAc_cbs (c : Conn) (a : AsyncConnect) : (c.setAc a).cbs = c.cbs := rfl
@[simp] theorem Conn.setAc_fault (c : Conn) (a : AsyncConnect) :
    (c.setAc a).fault = c.fault := rfl

theorem Conn.touch_live {c : Conn} {a : AsyncConnect} (next : Conn) (h : a.freed = 0) :
    c.touch a next = next := if_pos h

end GrpcCore.Iomgr.TcpClient
