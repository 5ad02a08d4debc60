import Mathlib.Data.List.Nodup

/-! # The container stack of `json_rewrite`

For each object or array the reader opens, `json_reader_container_begins` pushes a
`stacked_container` block. `json_reader_container_ends` pops the block, tells the writer which
kind of container ends, and returns the kind of the container around it. When the reader stops,
`rewrite` frees the blocks still on the stack. The blocks live in a heap of addresses:
`gpr_malloc` returns an address that holds no block, and reading, writing or freeing an address
that holds none is a fault (`none`). The cleanup loop is given the number of blocks as fuel,
which `freeContainers_chain` proves is enough.

The reader itself is not among the sources. It is assumed to end only a container it has opened,
which is `stackOf` being non-empty at each `ends`. -/

namespace GrpcCore.Json.Rewrite

/-! ## The model -/

/-- `grpc_json_type`, as `src/core/json/json_common.h` lists it. -/
inductive GrpcJsonType where
  | object | array | string | number | jsonTrue | jsonFalse | null | topLevel
  deriving DecidableEq, Repr

/-- A `stacked_container` block (lines 46-49). -/
structure StackedContainer where
  type : GrpcJsonType
  next : Option Nat
  deriving DecidableEq, Repr

/-- The calls the container callbacks make into the writer. -/
inductive WriterCall where
  | containerBegins (type : GrpcJsonType)
  | containerEnds (type : GrpcJsonType)
  deriving DecidableEq, Repr

/-- The field `top` of `json_reader_userdata`, with the heap of `stacked_container` blocks, their
number, and the calls made into the writer. -/
structure ContainerState where
  top : Option Nat
  block : Nat → Option StackedContainer
  count : Nat
  writer : List WriterCall

/-- `rewrite` sets `top` to NULL (line 219); no block is allocated. -/
def containersInit : ContainerState := ⟨none, fun _ => none, 0, []⟩

/-- `gpr_free(p)`; a fault when `p` holds no block. -/
def ContainerState.free (s : ContainerState) (p : Nat) : Option ContainerState :=
  (s.block p).map fun _ => { s with block := Function.update s.block p none, count := s.count - 1 }

/-- `json_reader_container_begins` (lines 140-149), with the address `gpr_malloc` returns. -/
def jsonReaderContainerBegins (s : ContainerState) (type : GrpcJsonType) (container : Nat) :
    ContainerState :=
  { s with block := Function.update s.block container (some ⟨type, s.top⟩), count := s.count + 1,
           top := some container, writer := s.writer ++ [.containerBegins type] }

/-- `json_reader_container_ends` (lines 151-159): the state and the kind it returns. -/
def jsonReaderContainerEnds (s : ContainerState) : Option (ContainerState × GrpcJsonType) :=
  s.top.bind fun p => (s.block p).bind fun (c : StackedContainer) =>
    ({ s with writer := s.writer ++ [WriterCall.containerEnds c.type], top := c.next }.free p).bind
      fun s =>
        match s.top with
        | none => some (s, .topLevel)
        | some q => (s.block q).map fun (d : StackedContainer) => (s, d.type)

/-- The loop of `rewrite` that frees the blocks left on the stack (lines 233-237). -/
def freeContainers (fuel : Nat) (s : ContainerState) : Option ContainerState :=
  match s.top, fuel with
  | none, _ => some s
  | some _, 0 => none
  | some p, fuel + 1 => (s.block p).bind fun c =>
    (s.free p).bind fun s => freeContainers fuel { s with top := c.next }

/-- The end of `rewrite` for the stack, run with one turn per block allocated. -/
def rewriteFreeContainers (s : ContainerState) : Option ContainerState := freeContainers s.count s

/-! ## Runs -/

/-- A call of the reader into the container callbacks: `json_reader_container_begins`, with the
address `gpr_malloc` returns, or `json_reader_container_ends`. -/
inductive ContainerCall where
  | begins (type : GrpcJsonType) (container : Nat)
  | ends
  deriving DecidableEq, Repr

/-- What a call does to the kinds of the open containers, innermost first. -/
def stackStep (st : List GrpcJsonType) : ContainerCall → List GrpcJsonType
  | .begins type _ => type :: st
  | .ends => st.tail

def stackOf (es : List ContainerCall) : List GrpcJsonType := es.foldl stackStep []

/-- `ContainerRuns es s`: the calls `es` lead from `rewrite`'s state to `s`. `gpr_malloc`
returns a free address, and the reader ends only an open container. -/
inductive ContainerRuns : List ContainerCall → ContainerState → Prop where
  | init : ContainerRuns [] containersInit
  | begins {es : List ContainerCall} {s : ContainerState} {type : GrpcJsonType} {a : Nat} :
      ContainerRuns es s → s.block a = none →
      ContainerRuns (es ++ [.begins type a]) (jsonReaderContainerBegins s type a)
  | ends {es : List ContainerCall} {s s' : ContainerState} {type : GrpcJsonType} :
      ContainerRuns es s → stackOf es ≠ [] → jsonReaderContainerEnds s = some (s', type) →
      ContainerRuns (es ++ [.ends]) s'

/-- The writer's calls read as brackets: the kinds left open, innermost first; `none` once an end
names another kind than the innermost open one, or ends nothing. -/
def bracketStep : Option (List GrpcJsonType) → WriterCall → Option (List GrpcJsonType)
  | some st, .containerBegins type => some (type :: st)
  | some (open_ :: st), .containerEnds type => if type = open_ then some st else none
  | _, _ => none

def bracketed (w : List WriterCall) : Option (List GrpcJsonType) := w.foldl bracketStep (some [])

def typesFrom (block : Nat → Option StackedContainer) : Nat → Option Nat → Option (List GrpcJsonType)
  | _, none => some []
  | 0, some _ => none
  | fuel + 1, some p => (block p).bind fun c => (typesFrom block fuel c.next).map (c.type :: ·)

/-! ## The stack in the heap -/

/-- `StackChain block cells`: at each cell's address a block holds the cell's kind and links to
the next cell's address, the last one to NULL. -/
def StackChain (block : Nat → Option StackedContainer) : List (Nat × GrpcJsonType) → Prop
  | [] => True
  | c :: cells => block c.1 = some ⟨c.2, cells.head?.map Prod.fst⟩ ∧ StackChain block cells

/-- The blocks from `top` are `cells`, distinct, and every allocated block is one of them. -/
structure StackRep (s : ContainerState) (cells : List (Nat × GrpcJsonType)) : Prop where
  chain : StackChain s.block cells
  nodup : (cells.map Prod.fst).Nodup
  allocated : ∀ a, s.block a = none ↔ a ∉ cells.map Prod.fst
  count : s.count = cells.length
  top : s.top = cells.head?.map Prod.fst

section Stack

variable {s : ContainerState} {cells : List (Nat × GrpcJsonType)}

theorem StackChain.frame {block block' : Nat → Option StackedContainer}
    (hs : StackChain block cells) (hh : ∀ c ∈ cells, block' c.1 = block c.1) :
    StackChain block' cells := by
  induction cells with
  | nil => trivial
  | cons c cells ih =>
    exact ⟨(hh c (.head _)).trans hs.1, ih hs.2 fun d hd => hh d (.tail _ hd)⟩

theorem StackRep.init : StackRep containersInit [] :=
  ⟨trivial, List.nodup_nil, fun _ => by simp [containersInit], rfl, rfl⟩

/-- `json_reader_container_begins` at a free address pushes one block. -/
theorem StackRep.begins (hs : StackRep s cells) {a : Nat} (ha : s.block a = none)
    (type : GrpcJsonType) : StackRep (jsonReaderContainerBegins s type a) ((a, type) :: cells) := by
  have hfresh : a ∉ cells.map Prod.fst := (hs.allocated a).mp ha
  have hne : ∀ c ∈ cells, c.1 ≠ a := fun c hc h => hfresh (by rw [← h]; exact List.mem_map_of_mem _ hc)
  refine ⟨⟨by simp [jsonReaderContainerBegins, hs.top], hs.chain.frame fun c hc => ?_⟩,
    List.nodup_cons.mpr ⟨hfresh, hs.nodup⟩, fun b => ?_, by simp [jsonReaderContainerBegins, hs.count],
    rfl⟩
  · exact Function.update_noteq (hne c hc) _ _
  · by_cases hb : b = a
    · subst hb; simp [jsonReaderContainerBegins]
    · simpa [jsonReaderContainerBegins, Function.update_noteq hb, hb] using hs.allocated b

/-- `json_reader_container_ends` on a non-empty stack pops its top block, tells the writer the
top's kind, and returns the kind below it, or `GRPC_JSON_TOP_LEVEL`. -/
theorem StackRep.ends (hs : StackRep s (c :: cells)) :
    ∃ s', jsonReaderContainerEnds s = some (s', (cells.head?.map Prod.snd).getD .topLevel) ∧
      StackRep s' cells ∧ s'.writer = s.writer ++ [.containerEnds c.2] := by
  obtain ⟨⟨hc, hchain⟩, hn, halloc, hcount, htop⟩ := hs
  have hcn : c.1 ∉ cells.map Prod.fst := (List.nodup_cons.mp hn).1
  have hne : ∀ d ∈ cells, d.1 ≠ c.1 := fun d hd h => hcn (by rw [← h]; exact List.mem_map_of_mem _ hd)
  have hrep : StackRep { s with writer := s.writer ++ [.containerEnds c.2],
                                top := cells.head?.map Prod.fst,
                                block := Function.update s.block c.1 none,
                                count := s.count - 1 } cells := by
    refine ⟨hchain.frame fun d hd => Function.update_noteq (hne d hd) _ _,
      (List.nodup_cons.mp hn).2, fun b => ?_, by simp [hcount], rfl⟩
    by_cases hb : b = c.1
    · subst hb; simp [hcn]
    · simpa [Function.update_noteq hb, hb] using halloc b
  refine ⟨_, ?_, hrep, rfl⟩
  cases cells with
  | nil => simp [jsonReaderContainerEnds, htop, hc, ContainerState.free]
  | cons d cells =>
    simp [jsonReaderContainerEnds, htop, hc, ContainerState.free, Function.update_noteq (hne d (.head _)),
      hchain.1]

theorem freeContainers_chain {fuel : Nat} (hs : StackChain s.block cells)
    (hn : (cells.map Prod.fst).Nodup) (ht : s.top = cells.head?.map Prod.fst)
    (hl : cells.length ≤ fuel) :
    ∃ b', freeContainers fuel s = some { s with top := none, block := b',
                                                count := s.count - cells.length } ∧
      ∀ a, b' a = if a ∈ cells.map Prod.fst then none else s.block a := by
  induction cells generalizing s fuel with
  | nil =>
    obtain ⟨top, block, count, writer⟩ := s
    obtain rfl : top = none := ht
    exact ⟨block, by cases fuel <;> rfl, by simp⟩
  | cons c cells ih =>
    obtain _ | fuel := fuel
    · simp at hl
    obtain ⟨hc, hs⟩ := hs
    have hcn : c.1 ∉ cells.map Prod.fst := (List.nodup_cons.mp hn).1
    obtain ⟨b', hrun, hb'⟩ :=
      ih (s := { s with top := cells.head?.map Prod.fst,
                        block := Function.update s.block c.1 none, count := s.count - 1 })
        (hs.frame fun d hd => Function.update_noteq
          (fun h => hcn (by rw [← h]; exact List.mem_map_of_mem _ hd)) _ _)
        (List.nodup_cons.mp hn).2 rfl (Nat.le_of_succ_le_succ hl)
    refine ⟨b', ?_, fun a => ?_⟩
    · rw [freeContainers.eq_def, ht]
      simp only [List.head?_cons, Option.map_some', hc, Option.some_bind, ContainerState.free,
        Option.map_some']
      rw [hrun]; simp only [List.length_cons, Nat.sub_sub, Nat.add_comm 1]
    · by_cases ha : a = c.1
      · subst ha; simp [hb', hcn]
      · simp only [hb', List.map_cons, List.mem_cons, ha, false_or, Function.update_noteq ha]

theorem typesFrom_chain {block : Nat → Option StackedContainer} {fuel : Nat}
    (hs : StackChain block cells) (hl : cells.length ≤ fuel) :
    typesFrom block fuel (cells.head?.map Prod.fst) = some (cells.map Prod.snd) := by
  induction cells generalizing fuel with
  | nil => cases fuel <;> rfl
  | cons c cells ih =>
    obtain _ | fuel := fuel
    · simp at hl
    simp [typesFrom, hs.1, ih hs.2 (Nat.le_of_succ_le_succ hl)]

end Stack

/-! ## Every run -/

theorem stackOf_append (es : List ContainerCall) (e : ContainerCall) :
    stackOf (es ++ [e]) = stackStep (stackOf es) e := by
  simp [stackOf]

theorem bracketed_append (w : List WriterCall) (x : WriterCall) :
    bracketed (w ++ [x]) = bracketStep (bracketed w) x := by
  simp [bracketed]

/-- Every run keeps the stack in the heap, the abstract stack and the writer's brackets in step. -/
theorem ContainerRuns.rep {es : List ContainerCall} {s : ContainerState} (hr : ContainerRuns es s) :
    ∃ cells, StackRep s cells ∧ cells.map Prod.snd = stackOf es ∧
      bracketed s.writer = some (stackOf es) := by
  induction hr with
  | init => exact ⟨[], StackRep.init, rfl, rfl⟩
  | @begins es s type a _ ha ih =>
    obtain ⟨cells, hs, hst, hw⟩ := ih
    refine ⟨(a, type) :: cells, hs.begins ha type, ?_, ?_⟩
    · simp [stackOf_append, stackStep, hst]
    · simp [jsonReaderContainerBegins, bracketed_append, hw, bracketStep, stackOf_append, stackStep]
  | @ends es s s' type _ hne he ih =>
    obtain ⟨cells, hs, hst, hw⟩ := ih
    obtain _ | ⟨c, cells⟩ := cells
    · exact absurd hst.symm hne
    obtain ⟨s'', h, hs', hw'⟩ := hs.ends
    obtain rfl := (Prod.mk.inj (Option.some.inj (he.symm.trans h))).1
    refine ⟨cells, hs', ?_, ?_⟩
    · simp [stackOf_append, stackStep, ← hst]
    · rw [hw', bracketed_append, hw, ← hst]; simp [bracketStep, stackOf_append, stackStep, ← hst]

def nestedCalls : List ContainerCall := [.begins .array 4, .begins .object 9, .ends, .begins .object 2]

def afterNested : ContainerState :=
  let s₁ := jsonReaderContainerBegins (jsonReaderContainerBegins containersInit .array 4) .object 9
  jsonReaderContainerBegins ((jsonReaderContainerEnds s₁).map Prod.fst |>.getD s₁) .object 2

theorem containerRuns_nested : ContainerRuns nestedCalls afterNested :=
  @ContainerRuns.begins _ _ .object 2
    (@ContainerRuns.ends _ _ _ .array
      (@ContainerRuns.begins _ _ .object 9 (@ContainerRuns.begins [] _ .array 4 .init rfl) rfl)
      (by decide) rfl) rfl

section Runs

variable {es : List ContainerCall} {s : ContainerState}

/-- **The stack holds the open containers, and the writer sees them well bracketed.** In every
run in which the reader ends only open containers, a walk from `top` reads the kinds of the open
containers, innermost first. Read as brackets, the writer's calls leave the same containers open:
each end it has received names the kind of the innermost container open. -/
theorem container_stack_holds_open (hr : ContainerRuns es s) :
    typesFrom s.block s.count s.top = some (stackOf es) ∧ bracketed s.writer = some (stackOf es) := by
  obtain ⟨cells, hs, hst, hw⟩ := hr.rep
  rw [hs.top, hs.count, typesFrom_chain hs.chain le_rfl, hst]
  exact ⟨rfl, hw⟩

theorem container_stack_holds_open_nested :
    typesFrom afterNested.block afterNested.count afterNested.top = some (stackOf nestedCalls) ∧
      bracketed afterNested.writer = some (stackOf nestedCalls) :=
  container_stack_holds_open containerRuns_nested

/-- **Ending an open container never faults and returns the kind around it.** In every run, when
a container is open, `json_reader_container_ends` reads and frees only allocated blocks, and
returns the kind of the container enclosing the one it ends, or `GRPC_JSON_TOP_LEVEL`. -/
theorem container_ends_returns_enclosing (hr : ContainerRuns es s) (hne : stackOf es ≠ []) :
    ∃ s', jsonReaderContainerEnds s = some (s', (stackOf es).tail.head?.getD .topLevel) := by
  obtain ⟨cells, hs, hst, -⟩ := hr.rep
  obtain _ | ⟨c, cells⟩ := cells
  · exact absurd hst.symm hne
  obtain ⟨s', h, -⟩ := hs.ends
  exact ⟨s', by rw [h, ← hst]; simp⟩

theorem container_ends_returns_enclosing_nested :
    stackOf nestedCalls ≠ [] ∧
      ∃ s', jsonReaderContainerEnds afterNested =
        some (s', (stackOf nestedCalls).tail.head?.getD .topLevel) :=
  ⟨by decide, container_ends_returns_enclosing containerRuns_nested (by decide)⟩

/-- **`rewrite` frees every container.** Wherever the reader stops, the loop at the end of
`rewrite` frees each block left on the stack, once, and leaves no block allocated. -/
theorem rewrite_frees_every_container (hr : ContainerRuns es s) :
    rewriteFreeContainers s = some { s with top := none, block := fun _ => none, count := 0 } := by
  obtain ⟨cells, hs, -, -⟩ := hr.rep
  obtain ⟨b', hrun, hb'⟩ := freeContainers_chain hs.chain hs.nodup hs.top (Nat.le_of_eq hs.count.symm)
  have hempty : b' = fun _ => none := funext fun a => by
    rw [hb']; split_ifs with ha
    · rfl
    · exact (hs.allocated a).mpr ha
  rw [rewriteFreeContainers, hrun, hempty, hs.count, Nat.sub_self]

theorem rewrite_frees_every_container_nested :
    rewriteFreeContainers afterNested =
      some { afterNested with top := none, block := fun _ => none, count := 0 } :=
  rewrite_frees_every_container containerRuns_nested

end Runs

end GrpcCore.Json.Rewrite
