import Mathlib.Logic.Function.Basic

/-! # The reconnect server of the tests

`test/core/util/reconnect_server.c` accepts connections and records the time of each one in a
singly linked list of `timestamp_list` blocks, reached from `head` and appended at `tail`. It
keeps the peer of the first connection and logs an error when a later one comes from elsewhere.
`reconnect_server_clear_timestamps` frees the list and the stored peer.

The blocks live in a heap of addresses. `gpr_malloc` returns an address that holds no block.
A read, a write or a `gpr_free` at an address that holds no block is a fault (`none`). Two
loops follow `next` pointers; each is given as fuel the number of blocks allocated, which is
enough while the blocks form one list of distinct blocks (`GrpcCore.Util.ReconnectServer.Timestamps`
proves that they always do). `strrchr` and `strncmp` are modelled from the C standard. -/

namespace GrpcCore.Util.Reconnect

/-! ## C strings -/

/-- A NUL-terminated C string, as the bytes before its terminator. -/
structure CString where
  bytes : List UInt8
  no_nul : 0 ∉ bytes
  deriving DecidableEq

def colon : UInt8 := 58

/-- `strrchr(s, c)`, as the offset from `s` of the last byte equal to `c`. -/
def strrchr : List UInt8 → UInt8 → Option Nat
  | [], _ => none
  | b :: s, c => match strrchr s c with
    | some i => some (i + 1)
    | none => if b = c then some 0 else none

/-- `strncmp(s1, s2, n)`: the difference of the first two bytes that differ among the first
`n`, a terminator counting as 0; 0 when there are none. -/
def strncmp : List UInt8 → List UInt8 → Nat → Int
  | _, _, 0 => 0
  | [], [], _ + 1 => 0
  | [], d :: _, _ + 1 => -(d.toNat : Int)
  | c :: _, [], _ + 1 => c.toNat
  | c :: s, d :: t, n + 1 => if c = d then strncmp s t n else (c.toNat : Int) - d.toNat

/-! ## The heap of `timestamp_list` blocks -/

/-- `gpr_timespec`: the file only stores it and reads it back. -/
structure GprTimespec where
  tvSec : Int
  tvNsec : Int
  deriving DecidableEq, Repr

/-- A `timestamp_list` block. -/
structure TimestampList where
  timestamp : GprTimespec
  next : Option Nat
  deriving DecidableEq, Repr

/-- The blocks that `gpr_malloc` has returned and `gpr_free` has not taken back, by address,
and their number. -/
structure Heap where
  block : Nat → Option TimestampList
  count : Nat

def Heap.empty : Heap := ⟨fun _ => none, 0⟩

/-- `gpr_malloc` returning the free address `a`, and the block's fields written. -/
def Heap.alloc (h : Heap) (a : Nat) (b : TimestampList) : Heap :=
  ⟨Function.update h.block a (some b), h.count + 1⟩

/-- `a->next = n`; a fault when `a` holds no block. -/
def Heap.setNext (h : Heap) (a n : Nat) : Option Heap :=
  (h.block a).map fun b => { h with block := Function.update h.block a (some { b with next := some n }) }

/-- `gpr_free(a)`; a fault when `a` holds no block. -/
def Heap.free (h : Heap) (a : Nat) : Option Heap :=
  (h.block a).map fun _ => ⟨Function.update h.block a none, h.count - 1⟩

/-! ## The server -/

/-- The lines the server logs: "peer does not contain a ':'", "mismatched peer! %s vs %s",
"reconnect server: new connection", and "retry %2d:backoff ..." for retry `i`, with the two
timestamps it subtracts. -/
inductive LogLine where
  | noColon
  | mismatchedPeer (stored peer : CString)
  | newConnection
  | retry (i : Nat) (prev next : GprTimespec)
  deriving DecidableEq

/-- `reconnect_server`: the list's `head` and `tail` and the stored `peer`; with the heap of
list blocks, the number of peer strings allocated and not yet freed, and the log. -/
structure ReconnectServer where
  head : Option Nat
  tail : Option Nat
  peer : Option CString
  heap : Heap
  peersLive : Nat
  log : List LogLine

/-- `reconnect_server_init` (lines 104-112). -/
def reconnectServerInit : ReconnectServer := ⟨none, none, none, Heap.empty, 0, []⟩

/-- Lines 78-89 of `on_connect`: the check of a later peer against the stored one. -/
def checkPeer (stored peer : CString) : List LogLine :=
  match strrchr peer.bytes colon with
  | none => [.noColon]
  | some lastColon =>
    if strncmp stored.bytes peer.bytes lastColon ≠ 0 then [.mismatchedPeer stored peer] else []

/-- Lines 77-90 of `on_connect`, with what `grpc_endpoint_get_peer` returned: keep the first
peer; check a later one and free it. -/
def onConnectPeer (s : ReconnectServer) : Option CString → ReconnectServer
  | none => s
  | some p => match s.peer with
    | none => { s with peer := some p, peersLive := s.peersLive + 1 }
    | some q => { s with log := s.log ++ checkPeer q p }

@[simp] theorem onConnectPeer_heap (s : ReconnectServer) (p : Option CString) :
    (onConnectPeer s p).heap = s.heap := by
  cases p <;> simp only [onConnectPeer]; split <;> rfl

@[simp] theorem onConnectPeer_head (s : ReconnectServer) (p : Option CString) :
    (onConnectPeer s p).head = s.head := by
  cases p <;> simp only [onConnectPeer]; split <;> rfl

@[simp] theorem onConnectPeer_tail (s : ReconnectServer) (p : Option CString) :
    (onConnectPeer s p).tail = s.tail := by
  cases p <;> simp only [onConnectPeer]; split <;> rfl

/-- Lines 91-100 of `on_connect`: a block at the free address `a` holding `now`, linked at the
tail. -/
def appendTimestamp (s : ReconnectServer) (now : GprTimespec) (a : Nat) : Option ReconnectServer :=
  let heap := s.heap.alloc a ⟨now, none⟩
  match s.tail with
  | none => some { s with heap, head := some a, tail := some a }
  | some t => (heap.setNext t a).map fun heap => { s with heap, tail := some a }

/-- The loop of `pretty_print_backoffs` (lines 54-65) from the block at `p`, as retry `i`: the
lines it logs. -/
def backoffsFrom (h : Heap) : Nat → Nat → Option Nat → Option (List LogLine)
  | _, _, none => some []
  | 0, _, some _ => none
  | fuel + 1, i, some p => (h.block p).bind fun b => match b.next with
    | none => some []
    | some q => (h.block q).bind fun c =>
      (backoffsFrom h fuel (i + 1) (some q)).map (.retry i b.timestamp c.timestamp :: ·)

/-- `pretty_print_backoffs` (lines 48-66): the lines it logs. The arithmetic of the backoffs
only shapes the text of a line. -/
def prettyPrintBackoffs (s : ReconnectServer) : Option (List LogLine) :=
  (backoffsFrom s.heap s.heap.count 1 s.head).map (.newConnection :: ·)

/-- `on_connect` (lines 68-102) at time `now`, with what `grpc_endpoint_get_peer` returned and
the address `gpr_malloc` returned. -/
def onConnect (s : ReconnectServer) (now : GprTimespec) (peer : Option CString) (newTail : Nat) :
    Option ReconnectServer :=
  (appendTimestamp (onConnectPeer s peer) now newTail).bind fun s =>
    (prettyPrintBackoffs s).map fun lines => { s with log := s.log ++ lines }

/-- The loop of `reconnect_server_clear_timestamps` (lines 145-149). -/
def clearLoop (fuel : Nat) (s : ReconnectServer) : Option ReconnectServer :=
  match s.head, fuel with
  | none, _ => some s
  | some _, 0 => none
  | some p, fuel + 1 => (s.heap.block p).bind fun b =>
    (s.heap.free p).bind fun heap => clearLoop fuel { s with head := b.next, heap }

/-- `reconnect_server_clear_timestamps` (lines 143-153); `gpr_free(NULL)` frees nothing.
`reconnect_server_destroy` calls it on the same state. -/
def reconnectServerClearTimestamps (s : ReconnectServer) : Option ReconnectServer :=
  (clearLoop s.heap.count s).map fun s =>
    { s with tail := none, peer := none,
             peersLive := if s.peer.isSome then s.peersLive - 1 else s.peersLive }

/-! ## Runs -/

/-- A call into the server: `on_connect` at time `now`, with the peer and the address
`gpr_malloc` returns, or `reconnect_server_clear_timestamps`. -/
inductive Event where
  | onConnect (now : GprTimespec) (peer : Option CString) (newTail : Nat)
  | clearTimestamps
  deriving DecidableEq

/-- `gpr_malloc` returns only an address that holds no block. -/
def Event.Enabled (s : ReconnectServer) : Event → Prop
  | .onConnect _ _ a => s.heap.block a = none
  | .clearTimestamps => True

instance (s : ReconnectServer) : (e : Event) → Decidable (e.Enabled s)
  | .onConnect _ _ a => inferInstanceAs (Decidable (s.heap.block a = none))
  | .clearTimestamps => inferInstanceAs (Decidable True)

/-- One call; `none` is a fault. -/
def step (s : ReconnectServer) : Event → Option ReconnectServer
  | .onConnect now peer a => onConnect s now peer a
  | .clearTimestamps => reconnectServerClearTimestamps s

def run : List Event → ReconnectServer → Option ReconnectServer
  | [], s => some s
  | e :: es, s => if e.Enabled s then (step s e).bind (run es) else none

/-- `Runs es s`: the calls `es`, each one possible when it is made, lead from
`reconnect_server_init` to `s`. -/
inductive Runs : List Event → ReconnectServer → Prop where
  | init : Runs [] reconnectServerInit
  | step {es : List Event} {s s' : ReconnectServer} {e : Event} :
      Runs es s → e.Enabled s → step s e = some s' → Runs (es ++ [e]) s'

theorem Runs.run {es : List Event} {s s' : ReconnectServer} (hr : Runs es s) :
    ∀ (es' : List Event), run es' s = some s' → Runs (es ++ es') s'
  | [], h => by cases h; simpa using hr
  | e :: es', h => by
    simp only [Reconnect.run] at h
    split_ifs at h with he
    obtain ⟨s₁, h₁, h₂⟩ := Option.bind_eq_some.mp h
    simpa using (hr.step he h₁).run es' h₂

end GrpcCore.Util.Reconnect
