import GrpcCore.Iomgr.TcpClient.State

/-! # `grpc_tcp_client_connect`

The call itself, up to its return: socket creation and `prepare_socket`, the connect loop, and
the errno test that picks one of the three ways on. The immediate ways invoke `cb` before the
call returns; the pending way returns with the record set up, and its two callbacks go on from
there (Callbacks). errno is state here: the three calls between the connect loop and the errno
test may leave any value in it. -/

namespace GrpcCore.Iomgr.TcpClient

/-- What `prepare_socket` reads from its four setters, `grpc_set_socket_nonblocking`,
`grpc_set_socket_cloexec`, `grpc_set_socket_low_latency` and
`grpc_set_socket_no_sigpipe_if_possible`: whether each succeeded. -/
structure SocketOptions where
  nonblocking : Bool
  cloexec : Bool
  lowLatency : Bool
  noSigpipe : Bool
  deriving DecidableEq, Repr

/-- `prepare_socket` (lines 70-90): whether the socket is ready, and whether it closed `fd` on
its error path. `unix` is `addr->sa_family == AF_UNIX`. -/
def prepareSocket (unix : Bool) (fd : Int) (o : SocketOptions) : Bool × Bool :=
  if fd < 0 then (false, false)
  else if o.nonblocking && o.cloexec && (unix || o.lowLatency) && o.noSigpipe then (true, false)
  else (false, true)

/-- What `grpc_tcp_client_connect` gets back from the calls it makes: the results of
`grpc_sockaddr_to_v4mapped`, `grpc_create_dualstack_socket` (with `dsmode == GRPC_DSMODE_IPV4`)
and `grpc_sockaddr_is_v4mapped`, the caller's `addr_len` and whether its address is `AF_UNIX`.
The last three fields are the errno that `grpc_sockaddr_to_uri`, `gpr_asprintf` and
`grpc_fd_create` leave behind, `none` for a call that does not touch it. -/
structure ConnectEnv where
  v4mapped : Bool
  addrLen : Nat
  socketFd : Int
  dsmodeIpv4 : Bool
  isV4mapped : Bool
  unix : Bool
  options : SocketOptions
  connectCalls : List Syscall
  uriErrno : Option Nat
  asprintfErrno : Option Nat
  fdCreateErrno : Option Nat
  deriving DecidableEq, Repr

/-- `sizeof(struct sockaddr_in6)` and `sizeof(struct sockaddr_in)`. -/
def sizeofSockaddrIn6 : Nat := 28
def sizeofSockaddrIn : Nat := 16

/-- `~(socklen_t)0`, the bound of the `GPR_ASSERT` in the connect loop. -/
def socklenMax : Nat := 4294967295

/-- errno at the test of line 246: what the connect loop left, overwritten by each of the three
calls that sets it. -/
def ConnectEnv.errnoAt (env : ConnectEnv) (r : Syscall) : Nat :=
  env.fdCreateErrno.getD (env.asprintfErrno.getD (env.uriErrno.getD r.errno))

/-- The record as lines 255-272 leave it: `ac->fd` set, two references, the alarm armed and the
write closure registered on the new descriptor. -/
def pendingRecord (sock : Socket) : AsyncConnect :=
  { fd := true, refs := 2, alarm := .pending, writer := grpcFdNotifyOnWrite sock, freed := 0 }

/-- Lines 241-272, once the connect loop has returned `r`: the three ways on. -/
def connectResult (env : ConnectEnv) (sock : Socket) (r : Syscall) : Conn :=
  if 0 ≤ r.ret then { sock := { sock with endpoints := 1 }, ac := none, cbs := [true], fault := none }
  else if env.errnoAt r ≠ EWOULDBLOCK ∧ env.errnoAt r ≠ EINPROGRESS then
    { sock := { sock with orphaned := 1 }, ac := none, cbs := [false], fault := none }
  else
    let sock := { sock with added := 1 }
    { sock, ac := some (pendingRecord sock), cbs := [], fault := none }

def freshSocket (fd : Int) : Socket :=
  { created := decide (0 ≤ fd), closed := 0, orphaned := 0, endpoints := 0, shutdowns := 0,
    added := 0, removed := 0 }

/-- `addr_len` at the connect loop (lines 210-225): the size of the v4-mapped copy, or of the
IPv4 copy that IPv4 mode maps it back to, or else the caller's. -/
def ConnectEnv.connectAddrLen (env : ConnectEnv) : Nat :=
  if env.dsmodeIpv4 then sizeofSockaddrIn
  else if env.v4mapped then sizeofSockaddrIn6 else env.addrLen

def ConnectEnv.unixFamily (env : ConnectEnv) : Bool :=
  env.unix && !env.v4mapped && !env.dsmodeIpv4

/-- `grpc_tcp_client_connect` (lines 196-277), up to its return; `none` while the connect loop
spins. -/
def grpcTcpClientConnect (env : ConnectEnv) : Option Conn :=
  let sock := freshSocket env.socketFd
  let aborted : Conn := { sock, ac := none, cbs := [], fault := some .assertion }
  let prep := prepareSocket env.unixFamily env.socketFd env.options
  if env.dsmodeIpv4 ∧ env.isV4mapped = false then some aborted
  else if prep.1 = false then
    let closed := if prep.2 then 1 else 0
    some { sock := { sock with closed }, ac := none, cbs := [false], fault := none }
  else if socklenMax ≤ env.connectAddrLen then some aborted
  else (retryOnEintr env.connectCalls).map (connectResult env sock)

/-- A connect to an IPv4 address over a dual-stack socket, whose connect call reports
`EINPROGRESS` and which no later call disturbs: the pending way. -/
def inProgressEnv : ConnectEnv :=
  { v4mapped := true, addrLen := sizeofSockaddrIn, socketFd := 7, dsmodeIpv4 := false,
    isV4mapped := true, unix := false, options := ⟨true, true, true, true⟩,
    connectCalls := [⟨-1, EINPROGRESS⟩], uriErrno := none, asprintfErrno := none,
    fdCreateErrno := none }

theorem prepareSocket_ok {unix : Bool} {fd : Int} {o : SocketOptions}
    (h : (prepareSocket unix fd o).1 = true) : 0 ≤ fd := by
  unfold prepareSocket at h; split_ifs at h; omega

theorem prepareSocket_closed {unix : Bool} {fd : Int} {o : SocketOptions}
    (h : (prepareSocket unix fd o).1 = false) : (prepareSocket unix fd o).2 = decide (0 ≤ fd) := by
  unfold prepareSocket at h ⊢; split_ifs at h ⊢ <;> simp_all [Int.not_le, Int.not_lt]

/-- The pending way: the only return with a record, which is as lines 253-272 set it up. -/
theorem grpcTcpClientConnect_pending {env : ConnectEnv} {c : Conn} {a : AsyncConnect}
    (h : grpcTcpClientConnect env = some c) (ha : c.ac = some a) :
    c.sock = { freshSocket env.socketFd with added := 1 } ∧ a = pendingRecord c.sock ∧
      0 ≤ env.socketFd ∧ c.cbs = [] ∧ c.fault = none := by
  unfold grpcTcpClientConnect at h
  dsimp only at h
  split_ifs at h with _ hprep <;> try (cases h; cases ha)
  obtain ⟨r, -, rfl⟩ := Option.map_eq_some'.mp h
  unfold connectResult at ha ⊢
  split_ifs at ha ⊢
  cases ha
  exact ⟨rfl, rfl, prepareSocket_ok (Bool.not_eq_false _ ▸ hprep), rfl, rfl⟩

/-- The immediate ways: `cb` is invoked at most once before the call returns, with the socket
disposed of by exactly one route if it was created, and nothing else done to it. -/
theorem grpcTcpClientConnect_immediate {env : ConnectEnv} {c : Conn}
    (h : grpcTcpClientConnect env = some c) (ha : c.ac = none) :
    c.sock.closed + c.sock.orphaned + c.sock.endpoints ≤ 1 ∧
      (c.cbs ≠ [] → c.sock.created = true → c.sock.closed + c.sock.orphaned + c.sock.endpoints = 1) ∧
      c.cbs.length ≤ 1 ∧ c.sock.shutdowns = 0 ∧ c.sock.added = 0 ∧ c.sock.removed = 0 ∧
      c.fault ≠ some .useAfterFree := by
  unfold grpcTcpClientConnect at h
  dsimp only at h
  split_ifs at h with _ hprep <;> try (cases h; simp_all [freshSocket, prepareSocket_closed])
  obtain ⟨r, -, rfl⟩ := Option.map_eq_some'.mp h
  unfold connectResult at ha ⊢
  split_ifs at ha ⊢ <;> simp_all [freshSocket]

theorem grpcTcpClientConnect_immediate_cb {env : ConnectEnv} {c : Conn}
    (h : grpcTcpClientConnect env = some c) (ha : c.ac = none) (hf : c.fault = none) :
    c.cbs.length = 1 := by
  unfold grpcTcpClientConnect at h
  dsimp only at h
  split_ifs at h <;> try (cases h; simp_all)
  obtain ⟨r, -, rfl⟩ := Option.map_eq_some'.mp h
  unfold connectResult at ha ⊢
  split_ifs at ha ⊢ <;> simp_all

end GrpcCore.Iomgr.TcpClient
