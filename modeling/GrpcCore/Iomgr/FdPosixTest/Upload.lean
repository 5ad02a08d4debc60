import Mathlib.Logic.Relation

/-! # The upload of `test_grpc_fd`

`test/core/iomgr/fd_posix_test.c` runs an upload server and an upload client on one pollset. The
client writes a stream of bytes until its socket is full, re-arms its write closure
`CLIENT_TOTAL_WRITE_CNT` times, and then orphans its descriptor. The server accepts the
connection, reads each session until the end of stream, then shuts its listening descriptor down.
The test waits for both and asserts that the server read every byte the client wrote.

The callbacks run one at a time, from the single thread that polls; the kernel moves bytes from
the client's send buffer to the server socket's receive buffer at any moment, also in the middle of
a callback's loop. So each loop turn is a step of its own. The kernel's `read(2)` and `write(2)`
on a non-blocking stream socket, and the descriptor layer's dispatch, are modelled from their
contracts: neither is part of the source. -/

namespace GrpcCore.Iomgr.FdPosixTest

/-! ## Constants and the kernel's contracts -/

/-- `BUF_SIZE`, `CLIENT_WRITE_BUF_SIZE` and `CLIENT_TOTAL_WRITE_CNT`, and `EAGAIN` as the Linux
ABI numbers it. -/
def bufSize : Nat := 1024
def clientWriteBufSize : Nat := 10
def clientTotalWriteCnt : Nat := 3
def EAGAIN : Nat := 11

/-- The capacities of the two kernel buffers of the connection: the client's send buffer and
the server socket's receive buffer. -/
structure SocketBuffers where
  snd : Nat
  rcv : Nat
  snd_pos : 0 < snd
  rcv_pos : 0 < rcv

/-- Modelled from `write(2)`: a write of `CLIENT_WRITE_BUF_SIZE` bytes to a non-blocking socket
whose send buffer has `space` bytes free returns how many of them it took, at least one, or -1
with `EAGAIN` when the buffer is full. -/
def writeResult (space : Nat) (ret : Int) (errno : Nat) : Prop :=
  (space = 0 ∧ ret = -1 ∧ errno = EAGAIN) ∨
    (0 < ret ∧ ret ≤ clientWriteBufSize ∧ ret ≤ space)

instance (space : Nat) (ret : Int) (errno : Nat) : Decidable (writeResult space ret errno) :=
  inferInstanceAs (Decidable (_ ∨ _))

/-- Modelled from `read(2)`: a read of `BUF_SIZE` bytes from a non-blocking socket returns some
of the `rcvBuf` bytes waiting, at least one; or 0 at the end of stream; or -1 with `EAGAIN`. -/
def readResult (rcvBuf : Nat) (fin : Bool) (ret : Int) (errno : Nat) : Prop :=
  (0 < rcvBuf ∧ 0 < ret ∧ ret ≤ bufSize ∧ ret ≤ rcvBuf) ∨ (rcvBuf = 0 ∧ fin = true ∧ ret = 0) ∨
    (rcvBuf = 0 ∧ fin = false ∧ ret = -1 ∧ errno = EAGAIN)

instance (rcvBuf : Nat) (fin : Bool) (ret : Int) (errno : Nat) :
    Decidable (readResult rcvBuf fin ret errno) :=
  inferInstanceAs (Decidable (_ ∨ _ ∨ _))

/-! ## The state of the test -/

/-- `session`, the upload session `listen_cb` creates for the connection: whether
`session_read_closure` is registered on `se->em_fd`, the local `read_total` while
`session_read_cb` is in its read loop, and the counts of `grpc_fd_orphan(se->em_fd)` and
`gpr_free(se)`. -/
structure Session where
  readArmed : Bool
  reading : Option Nat
  orphaned : Nat
  freed : Nat
  deriving DecidableEq, Repr

/-- `server`, the upload server, with whether `listen_closure` is registered on `sv->em_fd`,
whether `grpc_fd_shutdown(sv->em_fd)` has been called, and the count of its orphans. -/
structure Server where
  readBytesTotal : Nat
  done : Bool
  listenArmed : Bool
  listenShutdown : Bool
  listenOrphaned : Nat
  session : Option Session
  deriving DecidableEq, Repr

/-- `client`, the upload client, with whether `write_closure` is registered on `cl->em_fd`,
whether `client_session_write` is in its write loop, and the count of its orphans. -/
structure Client where
  writeBytesTotal : Nat
  clientWriteCnt : Nat
  done : Bool
  writeArmed : Bool
  writing : Bool
  orphaned : Nat
  deriving DecidableEq, Repr

/-- The kernel's side of the connection from the client's socket to the server's: whether
`accept` has taken it from the listen queue, the bytes in the two buffers, whether the client's
descriptor is closed, and whether the end of stream has reached the server's socket. -/
structure Wire where
  accepted : Bool
  sndBuf : Nat
  rcvBuf : Nat
  closed : Bool
  fin : Bool
  deriving DecidableEq, Repr

/-- The test, with `aborted` for a failed `GPR_ASSERT` or an `abort()`. -/
structure Upload where
  sv : Server
  cl : Client
  wire : Wire
  aborted : Bool
  deriving DecidableEq, Repr

def Upload.idle (u : Upload) : Bool :=
  !u.cl.writing && (u.sv.session.bind Session.reading).isNone

def Upload.mapSession (u : Upload) (f : Session → Session) : Upload :=
  { u with sv := { u.sv with session := u.sv.session.map f } }

@[simp] theorem Upload.mapSession_sv (u : Upload) (f : Session → Session) :
    (u.mapSession f).sv = { u.sv with session := u.sv.session.map f } := rfl
@[simp] theorem Upload.mapSession_cl (u : Upload) (f : Session → Session) :
    (u.mapSession f).cl = u.cl := rfl
@[simp] theorem Upload.mapSession_wire (u : Upload) (f : Session → Session) :
    (u.mapSession f).wire = u.wire := rfl
@[simp] theorem Upload.mapSession_aborted (u : Upload) (f : Session → Session) :
    (u.mapSession f).aborted = u.aborted := rfl

/-! ## The server -/

/-- `session_shutdown_cb` (lines 120-128): orphan the session's descriptor, free the session,
and shut the listening descriptor down. -/
def sessionShutdownCb (u : Upload) : Upload :=
  let u := u.mapSession fun se => { se with orphaned := se.orphaned + 1, freed := se.freed + 1 }
  { u with sv := { u.sv with listenShutdown := true } }

/-- `session_read_cb` (lines 131-172) up to its read loop. -/
def sessionReadCb (u : Upload) (success : Bool) : Upload :=
  if success then u.mapSession fun se => { se with reading := some 0 } else sessionShutdownCb u

/-- One turn of the read loop of `session_read_cb` (lines 146-149) with the `read` that returned
`ret`; and, when the loop ends, lines 150-171. -/
def sessionReadOnce (u : Upload) (readTotal : Nat) (ret : Int) (errno : Nat) : Upload :=
  if 0 < ret then
    let u := u.mapSession fun se => { se with reading := some (readTotal + ret.toNat) }
    { u with wire := { u.wire with rcvBuf := u.wire.rcvBuf - ret.toNat } }
  else
    let u := u.mapSession fun se => { se with reading := none }
    let u := { u with sv := { u.sv with readBytesTotal := u.sv.readBytesTotal + readTotal } }
    if ret = 0 then sessionShutdownCb u
    else if ret = -1 then
      if errno = EAGAIN then u.mapSession fun se => { se with readArmed := true }
      else { u with aborted := true }
    else u

/-- `listen_shutdown_cb` (lines 176-185). -/
def listenShutdownCb (u : Upload) : Upload :=
  { u with sv := { u.sv with listenOrphaned := u.sv.listenOrphaned + 1, done := true } }

/-- `listen_cb` (lines 188-218): on failure `listen_shutdown_cb`; otherwise accept the waiting
connection, asserting there is one, register the new session's read closure, and re-register
the listen closure. -/
def listenCb (u : Upload) (success : Bool) : Upload :=
  if !success then listenShutdownCb u
  else if u.wire.accepted then { u with aborted := true }
  else
    { u with wire := { u.wire with accepted := true },
             sv := { u.sv with listenArmed := true,
                               session := some ⟨true, none, 0, 0⟩ } }

/-! ## The client -/

/-- `client_session_shutdown_cb` (lines 288-293): orphan the client's descriptor, which closes
it, and set `done`. -/
def clientSessionShutdownCb (u : Upload) : Upload :=
  { u with cl := { u.cl with orphaned := u.cl.orphaned + 1, done := true },
           wire := { u.wire with closed := true } }

/-- `client_session_write` (lines 296-329) up to its write loop. -/
def clientSessionWrite (u : Upload) (success : Bool) : Upload :=
  if success then { u with cl := { u.cl with writing := true } } else clientSessionShutdownCb u

/-- One turn of the write loop of `client_session_write` (lines 309-312) with the `write` that
returned `ret`; and, when the loop ends, lines 314-328. -/
def clientWriteOnce (u : Upload) (ret : Int) (errno : Nat) : Upload :=
  if 0 < ret then
    { u with cl := { u.cl with writeBytesTotal := u.cl.writeBytesTotal + ret.toNat },
             wire := { u.wire with sndBuf := u.wire.sndBuf + ret.toNat } }
  else
    let u := { u with cl := { u.cl with writing := false } }
    if errno = EAGAIN then
      if u.cl.clientWriteCnt < clientTotalWriteCnt then
        { u with cl := { u.cl with writeArmed := true, clientWriteCnt := u.cl.clientWriteCnt + 1 } }
      else clientSessionShutdownCb u
    else { u with aborted := true }

/-- The test as `client_start` (lines 332-356) calls `client_session_write(cl, 1)`: the server
initialised and listening (`server_init`, `server_start`), the client initialised
(`client_init`) and connected, the connection waiting to be accepted. -/
def testGrpcFd : Upload :=
  clientSessionWrite
    { sv := { readBytesTotal := 0, done := false, listenArmed := true, listenShutdown := false,
              listenOrphaned := 0, session := none },
      cl := { writeBytesTotal := 0, clientWriteCnt := 0, done := false, writeArmed := false,
              writing := false, orphaned := 0 },
      wire := { accepted := false, sndBuf := 0, rcvBuf := 0, closed := false, fin := false },
      aborted := false } true

/-! ## Steps and runs -/

/-- What can happen next in the test: the kernel moves `n` bytes from the client's send buffer
to the server's receive buffer, or the end of stream to the server's socket; one of the three
closures runs; or one `read` or `write` of a running loop returns `ret`, with `errno`. -/
inductive Event where
  | transfer (n : Nat)
  | deliverFin
  | listen
  | sessionRead
  | readOnce (ret : Int) (errno : Nat)
  | clientWrite
  | writeOnce (ret : Int) (errno : Nat)
  deriving DecidableEq, Repr

/-- One step of the test over buffers of capacities `b`; `none` when the event cannot happen.
A closure runs only when no callback is running, when it is registered and its descriptor is
ready; the descriptor layer then unregisters it. A shut-down descriptor fires its closure with
failure. -/
def step (b : SocketBuffers) (u : Upload) : Event → Option Upload
  | .transfer n =>
    if 0 < n ∧ n ≤ u.wire.sndBuf ∧ u.wire.rcvBuf + n ≤ b.rcv then
      some { u with wire := { u.wire with sndBuf := u.wire.sndBuf - n,
                                          rcvBuf := u.wire.rcvBuf + n } }
    else none
  | .deliverFin =>
    if u.wire.closed ∧ u.wire.sndBuf = 0 ∧ u.wire.fin = false then
      some { u with wire := { u.wire with fin := true } }
    else none
  | .listen =>
    if u.idle ∧ u.sv.listenArmed ∧ (u.wire.accepted = false ∨ u.sv.listenShutdown) then
      some (listenCb { u with sv := { u.sv with listenArmed := false } } !u.sv.listenShutdown)
    else none
  | .sessionRead => match u.sv.session with
    | some se =>
      if u.idle ∧ se.readArmed ∧ (0 < u.wire.rcvBuf ∨ u.wire.fin) then
        some (sessionReadCb (u.mapSession fun se => { se with readArmed := false }) true)
      else none
    | none => none
  | .readOnce ret errno => match u.sv.session with
    | some ⟨_, some t, _, _⟩ =>
      if readResult u.wire.rcvBuf u.wire.fin ret errno then some (sessionReadOnce u t ret errno)
      else none
    | _ => none
  | .clientWrite =>
    if u.idle ∧ u.cl.writeArmed ∧ u.wire.sndBuf < b.snd then
      some (clientSessionWrite { u with cl := { u.cl with writeArmed := false } } true)
    else none
  | .writeOnce ret errno =>
    if u.cl.writing ∧ writeResult (b.snd - u.wire.sndBuf) ret errno then
      some (clientWriteOnce u ret errno)
    else none

def stepLive (b : SocketBuffers) (e : Event) (u : Upload) : Option Upload :=
  if u.aborted then none else step b u e

def run (b : SocketBuffers) : List Event → Upload → Option Upload
  | [], u => some u
  | e :: es, u => (stepLive b e u).bind (run b es)

/-- Every state of the test: `testGrpcFd`, then any steps. -/
inductive Reachable (b : SocketBuffers) : Upload → Prop where
  | start : Reachable b testGrpcFd
  | step {u u' : Upload} (e : Event) : Reachable b u → stepLive b e u = some u' → Reachable b u'

theorem Reachable.run {b : SocketBuffers} {u u' : Upload} (r : Reachable b u) :
    ∀ (es : List Event), run b es u = some u' → Reachable b u'
  | [], h => by cases h; exact r
  | e :: es, h => by
    obtain ⟨u₁, h₁, h₂⟩ := Option.bind_eq_some.mp h
    exact (r.step e h₁).run es h₂

end GrpcCore.Iomgr.FdPosixTest
