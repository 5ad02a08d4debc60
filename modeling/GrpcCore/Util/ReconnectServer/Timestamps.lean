import GrpcCore.Util.ReconnectServer.Peer
import Mathlib.Data.List.Nodup

/-! # The timestamp list refines a list of arrival times

What the reconnect server is for is `Arrivals`: the times of the connections since the last
clear, in order, the first peer since then, and the log. Every run of `on_connect` and
`reconnect_server_clear_timestamps` refines it (`Abs`). The blocks from `head` to `tail` are
distinct and hold those times in order, and they are all the blocks allocated. From this: no
call faults, walking the list reads the arrival times back, and a clear frees every block. -/

namespace GrpcCore.Util.Reconnect

/-! ## The heap operations -/

section Heap

variable {h : Heap} {a c n : Nat} {b : TimestampList}

@[simp] theorem Heap.alloc_count : (h.alloc a b).count = h.count + 1 := rfl

@[simp] theorem Heap.alloc_block_self : (h.alloc a b).block a = some b := Function.update_same _ _ _

theorem Heap.alloc_block_ne (hc : c ≠ a) : (h.alloc a b).block c = h.block c :=
  Function.update_noteq hc _ _

theorem Heap.alloc_block_eq_none {keys : List Nat} (hk : ∀ c, h.block c = none ↔ c ∉ keys)
    (c : Nat) : (h.alloc a b).block c = none ↔ c ∉ keys ++ [a] := by
  by_cases hc : c = a
  · subst hc; simp
  · simpa [Heap.alloc_block_ne hc, hc] using hk c

theorem Heap.setNext_of_block (hb : h.block a = some b) :
    h.setNext a n = some ⟨Function.update h.block a (some { b with next := some n }), h.count⟩ := by
  simp [Heap.setNext, hb]

theorem Heap.free_of_block (hb : h.block a = some b) :
    h.free a = some ⟨Function.update h.block a none, h.count - 1⟩ := by
  simp [Heap.free, hb]

end Heap

/-! ## Segments of the list -/

/-- Where the last of `cells` links to: the first cell's address, or `e` when there is none. -/
def linkTo : List (Nat × GprTimespec) → Option Nat → Option Nat
  | [], e => e
  | c :: _, _ => some c.1

/-- `Seg h cells e`: at each cell's address a block holds the cell's time and links to the next
cell's address, the last one to `e`. -/
def Seg (h : Heap) : List (Nat × GprTimespec) → Option Nat → Prop
  | [], _ => True
  | c :: cells, e => h.block c.1 = some ⟨c.2, linkTo cells e⟩ ∧ Seg h cells e

section Seg

variable {h h' : Heap} {cells : List (Nat × GprTimespec)} {e : Option Nat}

@[simp] theorem linkTo_cons (c : Nat × GprTimespec) (cells : List (Nat × GprTimespec))
    (e : Option Nat) : linkTo (c :: cells) e = some c.1 := rfl

@[simp] theorem linkTo_append (cells rest : List (Nat × GprTimespec)) (c : Nat × GprTimespec)
    (e : Option Nat) : linkTo (cells ++ c :: rest) e = linkTo cells (some c.1) := by
  cases cells <;> rfl

theorem Seg.append_iff {a : Nat} {t : GprTimespec} :
    Seg h (cells ++ [(a, t)]) e ↔ Seg h cells (some a) ∧ h.block a = some ⟨t, e⟩ := by
  induction cells with
  | nil => simp [Seg, linkTo]
  | cons c cells ih => simp [Seg, ih, linkTo_append, and_assoc]

theorem Seg.frame (hs : Seg h cells e) (hh : ∀ c ∈ cells, h'.block c.1 = h.block c.1) :
    Seg h' cells e := by
  induction cells with
  | nil => trivial
  | cons c cells ih =>
    exact ⟨(hh c (.head _)).trans hs.1, ih hs.2 fun d hd => hh d (.tail _ hd)⟩

end Seg

/-! ## What the server is for -/

/-- The connections' times since the last clear, the first peer since then, and the log. -/
structure Arrivals where
  stamps : List GprTimespec
  peer : Option CString
  log : List LogLine

def Arrivals.init : Arrivals := ⟨[], none, []⟩

/-- A retry line for each two consecutive times, numbered from `i`. -/
def retries : Nat → List GprTimespec → List LogLine
  | _, [] => []
  | i, t :: ts => match ts with
    | [] => []
    | u :: _ => .retry i t u :: retries (i + 1) ts

/-- The first peer since the last clear is kept; a later one is checked against it. -/
def Arrivals.takePeer (r : Arrivals) : Option CString → Arrivals
  | none => r
  | some p => match r.peer with
    | none => { r with peer := some p }
    | some q => { r with log := r.log ++ checkPeerSpec q p }

/-- A connection at `now`: its time joins the list, and the log gets a new-connection line and a
retry line for each two consecutive times. -/
def Arrivals.arrive (r : Arrivals) (now : GprTimespec) : Arrivals :=
  { r with stamps := r.stamps ++ [now],
           log := r.log ++ .newConnection :: retries 1 (r.stamps ++ [now]) }

def Arrivals.step (r : Arrivals) : Event → Arrivals
  | .onConnect now peer _ => (r.takePeer peer).arrive now
  | .clearTimestamps => { r with stamps := [], peer := none }

def Arrivals.run (es : List Event) : Arrivals := es.foldl Arrivals.step Arrivals.init

theorem Arrivals.run_append (es : List Event) (e : Event) :
    Arrivals.run (es ++ [e]) = (Arrivals.run es).step e := by
  simp [Arrivals.run]

/-! ## The refinement -/

/-- The list from `head` to `tail` is `cells`, of distinct blocks, and every allocated block is
one of them. -/
structure ListRep (s : ReconnectServer) (cells : List (Nat × GprTimespec)) : Prop where
  seg : Seg s.heap cells none
  nodup : (cells.map Prod.fst).Nodup
  allocated : ∀ a, s.heap.block a = none ↔ a ∉ cells.map Prod.fst
  count : s.heap.count = cells.length
  head : s.head = linkTo cells none
  tail : s.tail = cells.getLast?.map Prod.fst

/-- `s` refines the arrivals `r`, its list being `cells`. -/
structure Abs (s : ReconnectServer) (cells : List (Nat × GprTimespec)) (r : Arrivals)
    extends ListRep s cells : Prop where
  stamps : cells.map Prod.snd = r.stamps
  peer : s.peer = r.peer
  peersLive : s.peersLive = if r.peer.isSome then 1 else 0
  log : s.log = r.log

section Refinement

variable {s : ReconnectServer} {cells : List (Nat × GprTimespec)} {r : Arrivals}

theorem ListRep.congr {s' : ReconnectServer} (hs : ListRep s cells) (hh : s'.heap = s.heap)
    (hd : s'.head = s.head) (ht : s'.tail = s.tail) : ListRep s' cells where
  seg := hh ▸ hs.seg
  nodup := hs.nodup
  allocated := hh ▸ hs.allocated
  count := hh ▸ hs.count
  head := hd.trans hs.head
  tail := ht.trans hs.tail

theorem Abs.init : Abs reconnectServerInit [] Arrivals.init where
  seg := trivial
  nodup := List.nodup_nil
  allocated _ := by simp [reconnectServerInit, Heap.empty]
  count := rfl
  head := rfl
  tail := rfl
  stamps := rfl
  peer := rfl
  peersLive := rfl
  log := rfl

/-- The peer part of `on_connect` keeps the first peer and checks a later one as
`checkPeerSpec` says; it leaves the list alone. -/
theorem Abs.takePeer (hs : Abs s cells r) (p : Option CString) :
    Abs (onConnectPeer s p) cells (r.takePeer p) := by
  cases p with
  | none => exact hs
  | some p =>
    cases hq : r.peer with
    | none =>
      simp only [onConnectPeer, hs.peer, hq, Arrivals.takePeer]
      exact { hs with toListRep := hs.congr rfl rfl rfl, peer := rfl,
                      peersLive := by simp [hs.peersLive, hq] }
    | some q =>
      simp only [onConnectPeer, hs.peer, hq, Arrivals.takePeer]
      exact { hs with toListRep := hs.congr rfl rfl rfl, peer := rfl,
                      peersLive := by simp [hs.peersLive, hq], log := by simp [hs.log, checkPeer_eq_spec] }

theorem nodup_concat_iff {l : List Nat} {x : Nat} : (l ++ [x]).Nodup ↔ x ∉ l ∧ l.Nodup := by
  rw [List.nodup_append_comm]; exact List.nodup_cons

/-- Lines 91-100 link a new block at a free address after the tail. -/
theorem ListRep.append (hs : ListRep s cells) {a : Nat} (ha : s.heap.block a = none)
    (now : GprTimespec) :
    ∃ s', appendTimestamp s now a = some s' ∧ ListRep s' (cells ++ [(a, now)]) ∧
      s'.peer = s.peer ∧ s'.peersLive = s.peersLive ∧ s'.log = s.log := by
  have hfresh : a ∉ cells.map Prod.fst := (hs.allocated a).mp ha
  have hnodup : ((cells ++ [(a, now)]).map Prod.fst).Nodup := by
    simp only [List.map_append, List.map_cons, List.map_nil, nodup_concat_iff]
    exact ⟨hfresh, hs.nodup⟩
  obtain rfl | ⟨pre, ⟨t, u⟩, rfl⟩ := List.eq_nil_or_concat cells
  · -- an empty list: the block becomes head and tail
    have hnil : s.tail = none := by simpa using hs.tail
    simp only [appendTimestamp, hnil]
    refine ⟨_, rfl, ⟨?_, hnodup, fun b => ?_, ?_, rfl, rfl⟩, rfl, rfl, rfl⟩
    · simp [Seg, linkTo]
    · simpa using Heap.alloc_block_eq_none hs.allocated b
    · simp [hs.count]
  · -- the block is linked after the tail `t`
    simp only [List.concat_eq_append] at *
    have htail : s.tail = some t := by simpa using hs.tail
    obtain ⟨hpre, ht⟩ := Seg.append_iff.mp hs.seg
    have hta : t ≠ a := fun h => hfresh (by simp [h])
    have htpre : t ∉ pre.map Prod.fst := by
      have := hs.nodup
      simp only [List.map_append, List.map_cons, List.map_nil, nodup_concat_iff] at this
      exact this.1
    have hlast : ∀ c ∈ pre, c.1 ≠ t ∧ c.1 ≠ a := fun c hc =>
      ⟨fun h => htpre (h ▸ List.mem_map_of_mem _ hc),
       fun h => hfresh (h ▸ List.mem_map_of_mem _ (List.mem_append_left _ hc))⟩
    simp only [appendTimestamp, htail, Heap.setNext_of_block ((Heap.alloc_block_ne hta).trans ht),
      Option.map_some']
    refine ⟨_, rfl, ⟨?_, hnodup, fun b => ?_, ?_, ?_, by simp⟩, rfl, rfl, rfl⟩
    · refine Seg.append_iff.mpr ⟨Seg.append_iff.mpr ⟨hpre.frame fun c hc => ?_, by simp⟩, ?_⟩
      · simp [Function.update_noteq (hlast c hc).1, Heap.alloc_block_ne (hlast c hc).2]
      · simp [Function.update_noteq hta.symm]
    · by_cases hb : b = t
      · subst hb; simp
      · simpa [Function.update_noteq hb] using Heap.alloc_block_eq_none hs.allocated b
    · simp [hs.count]
    · simpa [linkTo_append] using hs.head

/-- The loop of `pretty_print_backoffs` reads a segment to its end: a retry line for each two
consecutive blocks. -/
theorem backoffsFrom_seg {h : Heap} {fuel i : Nat} (hs : Seg h cells none)
    (hl : cells.length ≤ fuel) :
    backoffsFrom h fuel i (linkTo cells none) = some (retries i (cells.map Prod.snd)) := by
  induction cells generalizing fuel i with
  | nil => cases fuel <;> rfl
  | cons c cells ih =>
    obtain _ | fuel := fuel
    · simp at hl
    obtain ⟨hc, hs⟩ := hs
    cases cells with
    | nil => simp [linkTo, backoffsFrom, hc, retries]
    | cons d cells =>
      have := ih hs (Nat.le_of_succ_le_succ hl) (i := i + 1)
      simp only [linkTo_cons] at this hc
      simp [backoffsFrom, hc, hs.1, this, retries]

theorem ListRep.prettyPrintBackoffs (hs : ListRep s cells) :
    prettyPrintBackoffs s = some (.newConnection :: retries 1 (cells.map Prod.snd)) := by
  simp [Reconnect.prettyPrintBackoffs, hs.head, hs.count, backoffsFrom_seg hs.seg]

/-- `on_connect` at a free address adds one arrival. -/
theorem Abs.onConnect (hs : Abs s cells r) {a : Nat} (ha : s.heap.block a = none)
    (now : GprTimespec) (peer : Option CString) :
    ∃ s', onConnect s now peer a = some s' ∧
      Abs s' (cells ++ [(a, now)]) ((r.takePeer peer).arrive now) := by
  have hp := hs.takePeer peer
  obtain ⟨s₁, h₁, hl, hpeer, hlive, hlog⟩ :=
    hp.toListRep.append (a := a) (by simpa using ha) now
  have hon : Reconnect.onConnect s now peer a = some
      { s₁ with log := s₁.log ++ .newConnection :: retries 1 ((cells ++ [(a, now)]).map Prod.snd) } := by
    simp [Reconnect.onConnect, h₁, hl.prettyPrintBackoffs]
  refine ⟨_, hon, { toListRep := hl.congr rfl rfl rfl, stamps := ?_, peer := ?_, peersLive := ?_,
                                   log := ?_ }⟩
  · simp [hp.stamps, Arrivals.arrive]
  · exact hpeer.trans hp.peer
  · exact hlive.trans hp.peersLive
  · simp [hlog, hp.log, Arrivals.arrive, hp.stamps]

theorem clearLoop_succ {fuel p : Nat} {b : TimestampList} (hh : s.head = some p)
    (hb : s.heap.block p = some b) :
    clearLoop (fuel + 1) s =
      clearLoop fuel { s with head := b.next,
                              heap := ⟨Function.update s.heap.block p none, s.heap.count - 1⟩ } := by
  rw [clearLoop.eq_def, hh]; simp [hb, Heap.free_of_block hb]

/-- The loop of `reconnect_server_clear_timestamps` frees the blocks of a segment of distinct
blocks, one per turn, and stops at its end. -/
theorem clearLoop_seg {fuel : Nat} (hs : Seg s.heap cells none)
    (hn : (cells.map Prod.fst).Nodup) (hh : s.head = linkTo cells none) (hl : cells.length ≤ fuel) :
    ∃ h', clearLoop fuel s = some { s with head := none, heap := h' } ∧
      (∀ a, h'.block a = if a ∈ cells.map Prod.fst then none else s.heap.block a) ∧
      h'.count = s.heap.count - cells.length := by
  induction cells generalizing s fuel with
  | nil =>
    obtain ⟨head, tail, peer, heap, live, log⟩ := s
    obtain rfl : head = none := hh
    exact ⟨heap, by cases fuel <;> rfl, by simp, by simp⟩
  | cons c cells ih =>
    obtain _ | fuel := fuel
    · simp at hl
    obtain ⟨hc, hs⟩ := hs
    have hcn : c.1 ∉ cells.map Prod.fst := (List.nodup_cons.mp hn).1
    have hframe : ∀ d ∈ cells, Function.update s.heap.block c.1 none d.1 = s.heap.block d.1 :=
      fun d hd => Function.update_noteq (fun h => hcn (by rw [← h]; exact List.mem_map_of_mem _ hd)) _ _
    obtain ⟨h', hrun, hblock, hcount⟩ :=
      ih (s := { s with head := linkTo cells none,
                        heap := ⟨Function.update s.heap.block c.1 none, s.heap.count - 1⟩ })
        (hs.frame hframe) (List.nodup_cons.mp hn).2 rfl (Nat.le_of_succ_le_succ hl)
    refine ⟨h', (clearLoop_succ hh hc).trans hrun, fun a => ?_, ?_⟩
    · by_cases ha : a = c.1
      · subst ha; simp [hblock, hcn]
      · simp only [hblock, List.map_cons, List.mem_cons, ha, false_or, Function.update_noteq ha]
    · simp only at hcount
      simp only [hcount, List.length_cons]
      omega

/-- `reconnect_server_clear_timestamps` frees every block of the list, which are all the blocks
allocated, and the stored peer. -/
theorem ListRep.clear (hs : ListRep s cells) :
    reconnectServerClearTimestamps s = some
      { s with head := none, tail := none, peer := none, heap := Heap.empty,
               peersLive := if s.peer.isSome then s.peersLive - 1 else s.peersLive } := by
  obtain ⟨⟨block, count⟩, hrun, hblock, hcount⟩ :=
    clearLoop_seg hs.seg hs.nodup hs.head (Nat.le_of_eq hs.count.symm)
  simp only at hblock hcount
  have hempty : (⟨block, count⟩ : Heap) = Heap.empty := by
    simp only [Heap.empty, Heap.mk.injEq]
    refine ⟨funext fun a => ?_, by rw [hcount, hs.count, Nat.sub_self]⟩
    rw [hblock]; split_ifs with ha
    · rfl
    · exact (hs.allocated a).mpr ha
  simp [reconnectServerClearTimestamps, hrun, hempty]

theorem Abs.clear (hs : Abs s cells r) :
    ∃ s', reconnectServerClearTimestamps s = some s' ∧
      Abs s' [] { r with stamps := [], peer := none } :=
  ⟨_, hs.toListRep.clear,
    { seg := trivial, nodup := List.nodup_nil, allocated := fun _ => by simp [Heap.empty],
      count := rfl, head := rfl, tail := rfl, stamps := rfl, peer := rfl,
      peersLive := by cases hp : r.peer <;> simp [hs.peer, hs.peersLive, hp], log := hs.log }⟩

/-- Every possible call succeeds and keeps the refinement. -/
theorem Abs.step (hs : Abs s cells r) {e : Event} (he : e.Enabled s) :
    ∃ s' cells', step s e = some s' ∧ Abs s' cells' (r.step e) := by
  cases e with
  | onConnect now peer a =>
    obtain ⟨s', h, hs'⟩ := hs.onConnect he now peer
    exact ⟨s', _, h, hs'⟩
  | clearTimestamps =>
    obtain ⟨s', h, hs'⟩ := hs.clear
    exact ⟨s', [], h, hs'⟩

theorem Runs.abs {es : List Event} (hr : Runs es s) : ∃ cells, Abs s cells (Arrivals.run es) := by
  induction hr with
  | init => exact ⟨[], Abs.init⟩
  | step _ he hst ih =>
    obtain ⟨cells, hs⟩ := ih
    obtain ⟨s', cells', h, hs'⟩ := hs.step he
    rw [Arrivals.run_append]
    exact ⟨cells', Option.some.inj (h.symm.trans hst) ▸ hs'⟩

/-! ## Reading the list back -/

def timestampsFrom (h : Heap) : Nat → Option Nat → Option (List GprTimespec)
  | _, none => some []
  | 0, some _ => none
  | fuel + 1, some p => (h.block p).bind fun b => (timestampsFrom h fuel b.next).map (b.timestamp :: ·)

theorem timestampsFrom_seg {h : Heap} {fuel : Nat} (hs : Seg h cells none)
    (hl : cells.length ≤ fuel) :
    timestampsFrom h fuel (linkTo cells none) = some (cells.map Prod.snd) := by
  induction cells generalizing fuel with
  | nil => cases fuel <;> rfl
  | cons c cells ih =>
    obtain _ | fuel := fuel
    · simp at hl
    simp [timestampsFrom, hs.1, ih hs.2 (Nat.le_of_succ_le_succ hl)]

theorem Seg.getLast {h : Heap} {e : Option Nat} (hs : Seg h cells e) :
    (cells.getLast?.map Prod.fst).bind h.block = cells.getLast?.map fun c => ⟨c.2, e⟩ := by
  obtain rfl | ⟨pre, ⟨a, t⟩, rfl⟩ := List.eq_nil_or_concat cells
  · rfl
  · rw [List.concat_eq_append] at hs ⊢
    simp [(Seg.append_iff.mp hs).2]

end Refinement

/-! ## What every run does -/

section Runs

variable {es : List Event} {s : ReconnectServer}

/-- Two connections from one host, whose blocks `gpr_malloc` puts at 7 and 3. -/
def twoConnections : List Event :=
  [.onConnect ⟨10, 0⟩ (some ⟨[97, 58, 49], by decide⟩) 7,
   .onConnect ⟨11, 500⟩ (some ⟨[97, 58, 50], by decide⟩) 3]

def afterTwo : ReconnectServer := (run twoConnections reconnectServerInit).getD reconnectServerInit

theorem runs_twoConnections : Runs twoConnections afterTwo := Runs.init.run twoConnections rfl

/-- **Walking the list from `head` reads the times of the connections since the last clear, in
order.** In every run, the block at `tail` holds the last of them and links nowhere, the stored
peer is the first since the last clear, and the log is what `Arrivals` logs: for each connection
a new-connection line and a retry line for each two consecutive times. -/
theorem list_holds_arrivals (hr : Runs es s) :
    timestampsFrom s.heap s.heap.count s.head = some (Arrivals.run es).stamps ∧
      s.tail.bind s.heap.block = (Arrivals.run es).stamps.getLast?.map (⟨·, none⟩) ∧
      s.peer = (Arrivals.run es).peer ∧ s.log = (Arrivals.run es).log := by
  obtain ⟨cells, hs⟩ := hr.abs
  refine ⟨?_, ?_, hs.peer, hs.log⟩
  · rw [hs.head, hs.count, timestampsFrom_seg hs.seg le_rfl, hs.stamps]
  · rw [hs.tail, hs.seg.getLast, ← hs.stamps, List.getLast?_map, Option.map_map]; rfl

theorem list_holds_arrivals_after_two :
    timestampsFrom afterTwo.heap afterTwo.heap.count afterTwo.head =
        some (Arrivals.run twoConnections).stamps ∧
      afterTwo.tail.bind afterTwo.heap.block =
        (Arrivals.run twoConnections).stamps.getLast?.map (⟨·, none⟩) ∧
      afterTwo.peer = (Arrivals.run twoConnections).peer ∧
      afterTwo.log = (Arrivals.run twoConnections).log :=
  list_holds_arrivals runs_twoConnections

/-- **No call faults.** In every run, each call that can be made next succeeds: neither
`on_connect` nor `reconnect_server_clear_timestamps` reads, writes or frees an address that
holds no block, and both loops that follow `next` end within their bound. -/
theorem reconnect_server_never_faults (hr : Runs es s) {e : Event} (he : e.Enabled s) :
    ∃ s', step s e = some s' := by
  obtain ⟨cells, hs⟩ := hr.abs
  obtain ⟨s', -, h, -⟩ := hs.step he
  exact ⟨s', h⟩

theorem reconnect_server_never_faults_after_two :
    ∃ s', step afterTwo (.onConnect ⟨12, 0⟩ none 5) = some s' :=
  reconnect_server_never_faults runs_twoConnections (by decide)

/-- **A clear frees every block.** In every run, `reconnect_server_clear_timestamps`, which
`reconnect_server_destroy` also calls, frees each block of the list and the stored peer, and
leaves no block allocated and no peer string live. -/
theorem clear_frees_every_block (hr : Runs es s) :
    step s .clearTimestamps = some
      { s with head := none, tail := none, peer := none, heap := Heap.empty, peersLive := 0 } := by
  obtain ⟨cells, hs⟩ := hr.abs
  have hlive : (if s.peer.isSome then s.peersLive - 1 else s.peersLive) = 0 := by
    cases hp : (Arrivals.run es).peer <;> simp [hs.peer, hs.peersLive, hp]
  exact hlive ▸ hs.toListRep.clear

theorem clear_frees_every_block_after_two :
    step afterTwo .clearTimestamps = some
      { afterTwo with head := none, tail := none, peer := none, heap := Heap.empty,
                      peersLive := 0 } :=
  clear_frees_every_block runs_twoConnections

end Runs

end GrpcCore.Util.Reconnect
