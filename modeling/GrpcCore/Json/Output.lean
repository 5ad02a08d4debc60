import GrpcCore.Json.Utf8
import GrpcCore.Json.Containers

/-! # What `rewrite` hands the writer

`rewrite` (lines 210-240) connects the reader to the writer through `reader_vtable`. The string
callbacks put the bytes of a token into the scratchpad. `json_reader_set_key` and
`json_reader_set_string` end it with a NUL and hand the writer the C string at `scratchpad`.
`json_reader_set_number` hands over `string_len` bytes. The container callbacks keep a stack of
`stacked_container` blocks and tell the writer where containers begin and end.

This file adds the bytes of the scratchpad to the counters of `Rewrite`. A byte that `gpr_realloc`
has not had written yet is `none`, and reading one is a fault. It then joins the string and
container callbacks into one run, and compares that run with `Echo`, a model of what `rewrite`
is for: the writer receives the values and brackets the reader reports. The run refines `Echo`
for every sequence of callbacks whose tokens fit the 256-byte block and whose keys and strings
hold no NUL. A key or string with a NUL reaches the writer cut at the NUL. -/

namespace GrpcCore.Json.Rewrite

/-! ## The bytes of the scratchpad -/

/-- The string side of `json_reader_userdata`, with the bytes of the block `scratchpad` points
to: `none` for a byte not written since `gpr_realloc` made the block. -/
structure Scratchpad where
  user : JsonReaderUserdata
  bytes : List (Option UInt8)
  deriving DecidableEq, Repr

/-- `gpr_realloc` to `size` bytes: the block keeps the bytes it held, up to its new size, and
the bytes past the old end are not written yet. -/
def gprRealloc (bytes : List (Option UInt8)) (size : Nat) : List (Option UInt8) :=
  bytes.take size ++ List.replicate (size - bytes.length) none

/-- `check_string` (lines 82-89) with the block it reallocates. -/
def checkStringPad (p : Scratchpad) (needed : UInt64) : Scratchpad :=
  if p.user.freeSpace ≥ needed then p
  else ⟨checkString p.user needed, gprRealloc p.bytes (checkString p.user needed).scratchpad.toNat⟩

/-- The store `state->scratchpad[index] = (char)c`; a fault past the end of the block. -/
def storeByte (bytes : List (Option UInt8)) (w : Store) (c : UInt32) :
    Option (List (Option UInt8)) :=
  if w.index.toNat < bytes.length then some (bytes.set w.index.toNat (some c.toUInt8)) else none

/-- `json_reader_string_clear` (lines 91-95); the bytes stay. -/
def jsonReaderStringClearPad (p : Scratchpad) : Scratchpad :=
  { p with user := jsonReaderStringClear p.user }

/-- `json_reader_string_add_char` (lines 97-102): the counters of `jsonReaderStringAddChar`, and
the byte it stores into the block `check_string` leaves. -/
def jsonReaderStringAddCharPad (p : Scratchpad) (c : UInt32) : Option Scratchpad :=
  (jsonReaderStringAddChar p.user c).bind fun r =>
    (storeByte (checkStringPad p 1).bytes r.2 c).map (⟨r.1, ·⟩)

def addCharsPad (p : Scratchpad) : List UInt32 → Option Scratchpad
  | [] => some p
  | c :: cs => (jsonReaderStringAddCharPad p c).bind (addCharsPad · cs)

/-- `json_reader_string_add_utf32` (lines 104-129) with the bytes it stores. -/
def jsonReaderStringAddUtf32Pad (p : Scratchpad) (c : UInt32) : Option Scratchpad :=
  addCharsPad p (utf32Bytes c)

/-- The C string at the start of the block, as the writer reads it: the bytes before the first
NUL. `none` when it would read a byte not written, or run past the block. -/
def cString : List (Option UInt8) → Option (List UInt8)
  | [] => none
  | none :: _ => none
  | some b :: bs => if b = 0 then some [] else (cString bs).map (b :: ·)

/-- The first `len` bytes of the block, as `grpc_json_writer_value_raw_with_len` reads them. -/
def rawBytes : List (Option UInt8) → Nat → Option (List UInt8)
  | _, 0 => some []
  | [], _ + 1 => none
  | none :: _, _ + 1 => none
  | some b :: bs, n + 1 => (rawBytes bs n).map (b :: ·)

/-! ## The calls into the writer -/

/-- A call that `rewrite`'s callbacks make into the writer: `grpc_json_writer_container_begins`
or `_ends`, `grpc_json_writer_object_key` and `grpc_json_writer_value_string` with the C string at
`scratchpad`, and `grpc_json_writer_value_raw_with_len`. -/
inductive WriterEvent where
  | container (call : WriterCall)
  | objectKey (key : List UInt8)
  | valueString (string : List UInt8)
  | valueRaw (raw : List UInt8)
  deriving DecidableEq, Repr

/-- `json_reader_set_key` and `json_reader_set_string` (lines 161-173): end the token with a NUL,
then hand the writer the C string at `scratchpad`, as `call`. -/
def setFromScratchpad (p : Scratchpad) (call : List UInt8 → WriterEvent) :
    Option (Scratchpad × WriterEvent) :=
  (jsonReaderStringAddCharPad p 0).bind fun p => (cString p.bytes).map fun s => (p, call s)

/-- `json_reader_set_key` (lines 161-166). -/
def jsonReaderSetKeyPad (p : Scratchpad) : Option (Scratchpad × WriterEvent) :=
  setFromScratchpad p .objectKey

/-- `json_reader_set_string` (lines 168-173). -/
def jsonReaderSetStringPad (p : Scratchpad) : Option (Scratchpad × WriterEvent) :=
  setFromScratchpad p .valueString

/-- `json_reader_set_number` (lines 175-182): the `string_len` bytes at `scratchpad`, as they
are. -/
def jsonReaderSetNumberPad (p : Scratchpad) : Option WriterEvent :=
  (rawBytes p.bytes p.user.stringLen.toNat).map .valueRaw

def rawText (s : String) : List UInt8 := s.toList.map fun ch => ch.toNat.toUInt8

/-- `grpc_json_writer_value_raw_with_len(state->writer, text, len)`, as the three literal
setters call it. -/
def setLiteral (text : String) (len : Nat) : WriterEvent := .valueRaw ((rawText text).take len)

/-- `json_reader_set_true` (lines 184-188). -/
def jsonReaderSetTrue : WriterEvent := setLiteral "true" 4

/-- `json_reader_set_false` (lines 190-194). -/
def jsonReaderSetFalse : WriterEvent := setLiteral "false" 5

/-- `json_reader_set_null` (lines 196-200). -/
def jsonReaderSetNull : WriterEvent := setLiteral "null" 4

/-! ## One run of `reader_vtable` -/

/-- `json_reader_userdata` as the callbacks use it: the scratchpad, the container stack, and the
calls made into the writer so far. -/
structure ReaderUserdata where
  pad : Scratchpad
  stack : ContainerState
  out : List WriterEvent

/-- The state `rewrite` sets up (lines 217-223). -/
def rewriteUserdata : ReaderUserdata := ⟨⟨rewriteInit, []⟩, containersInit, []⟩

/-- A call of the reader into `reader_vtable` (lines 202-208), `json_reader_read_char` aside:
it reads the input, and the reader is not among the sources. `containerBegins` carries the
address `gpr_malloc` returns. -/
inductive Callback where
  | stringClear
  | stringAddChar (c : UInt32)
  | stringAddUtf32 (c : UInt32)
  | containerBegins (type : GrpcJsonType) (container : Nat)
  | containerEnds
  | setKey
  | setString
  | setNumber
  | setTrue
  | setFalse
  | setNull
  deriving DecidableEq, Repr

def ReaderUserdata.withStack (u : ReaderUserdata) (stack : ContainerState) : ReaderUserdata :=
  { u with stack, out := u.out ++ (stack.writer.drop u.stack.writer.length).map .container }

def Callback.apply (u : ReaderUserdata) : Callback → Option ReaderUserdata
  | .stringClear => some { u with pad := jsonReaderStringClearPad u.pad }
  | .stringAddChar c => (jsonReaderStringAddCharPad u.pad c).map fun pad => { u with pad }
  | .stringAddUtf32 c => (jsonReaderStringAddUtf32Pad u.pad c).map fun pad => { u with pad }
  | .containerBegins type a => some (u.withStack (jsonReaderContainerBegins u.stack type a))
  | .containerEnds => (jsonReaderContainerEnds u.stack).map fun r => u.withStack r.1
  | .setKey => (jsonReaderSetKeyPad u.pad).map fun r => { u with pad := r.1, out := u.out ++ [r.2] }
  | .setString =>
    (jsonReaderSetStringPad u.pad).map fun r => { u with pad := r.1, out := u.out ++ [r.2] }
  | .setNumber => (jsonReaderSetNumberPad u.pad).map fun w => { u with out := u.out ++ [w] }
  | .setTrue => some { u with out := u.out ++ [jsonReaderSetTrue] }
  | .setFalse => some { u with out := u.out ++ [jsonReaderSetFalse] }
  | .setNull => some { u with out := u.out ++ [jsonReaderSetNull] }

def rewriteCallbacks (u : ReaderUserdata) : List Callback → Option ReaderUserdata
  | [] => some u
  | c :: cs => (c.apply u).bind (rewriteCallbacks · cs)

theorem rewriteCallbacks_append (u : ReaderUserdata) (cs cs' : List Callback) :
    rewriteCallbacks u (cs ++ cs') = (rewriteCallbacks u cs).bind (rewriteCallbacks · cs') := by
  induction cs generalizing u with
  | nil => rfl
  | cons c cs ih =>
    simp only [List.cons_append, rewriteCallbacks, Option.bind_assoc, List.append_eq, ih]

/-! ## What `rewrite` is for -/

/-- The writer receives what the reader reports. `token` is the token read since the last
`json_reader_string_clear`, as the counters see it, and `open_` the open containers, innermost
first, with their blocks. A step is `none` where the code does not echo: a byte of 256 or more,
a token that does not fit the 256-byte block, a key or string holding a NUL, an end with no
container open, or a block `gpr_malloc` cannot return because a container open holds it. -/
structure Echo where
  token : List UInt8
  open_ : List (Nat × GrpcJsonType)
  out : List WriterEvent
  deriving DecidableEq, Repr

def Echo.init : Echo := ⟨[], [], []⟩

/-- One callback, as `Echo` sees it. -/
def Echo.step (e : Echo) : Callback → Option Echo
  | .stringClear => some { e with token := [] }
  | .stringAddChar c =>
    if c < 256 ∧ e.token.length < 256 then some { e with token := e.token ++ [c.toUInt8] }
    else none
  | .stringAddUtf32 c =>
    if e.token.length + (utf32Bytes c).length ≤ 256 then
      some { e with token := e.token ++ (utf32Bytes c).map UInt32.toUInt8 }
    else none
  | .containerBegins type a =>
    if a ∈ e.open_.map Prod.fst then none
    else some { e with open_ := (a, type) :: e.open_,
                       out := e.out ++ [.container (.containerBegins type)] }
  | .containerEnds =>
    match e.open_ with
    | [] => none
    | c :: open_ => some { e with open_, out := e.out ++ [.container (.containerEnds c.2)] }
  | .setKey =>
    if 0 ∉ e.token ∧ e.token.length < 256 then
      some { e with token := e.token ++ [0], out := e.out ++ [.objectKey e.token] }
    else none
  | .setString =>
    if 0 ∉ e.token ∧ e.token.length < 256 then
      some { e with token := e.token ++ [0], out := e.out ++ [.valueString e.token] }
    else none
  | .setNumber => some { e with out := e.out ++ [.valueRaw e.token] }
  | .setTrue => some { e with out := e.out ++ [.valueRaw (rawText "true")] }
  | .setFalse => some { e with out := e.out ++ [.valueRaw (rawText "false")] }
  | .setNull => some { e with out := e.out ++ [.valueRaw (rawText "null")] }

def Echo.run (e : Echo) : List Callback → Option Echo
  | [] => some e
  | c :: cs => (e.step c).bind (Echo.run · cs)

theorem Echo.run_append (e : Echo) (cs cs' : List Callback) :
    e.run (cs ++ cs') = (e.run cs).bind (Echo.run · cs') := by
  induction cs generalizing e with
  | nil => rfl
  | cons c cs ih => simp only [List.cons_append, Echo.run, Option.bind_assoc, List.append_eq, ih]

/-! ## The scratchpad holds the token -/

theorem toNat_add_one (l : UInt64) (h : l.toNat < 256) : (l + 1).toNat = l.toNat + 1 := by
  show (l.toBitVec + (1 : UInt64).toBitVec).toNat = _
  rw [BitVec.toNat_add]
  show (l.toNat + 1) % _ = _
  exact Nat.mod_eq_of_lt (by omega)

theorem take_set_length {bytes : List (Option UInt8)} {t : List UInt8}
    (hb : bytes.take t.length = t.map some) (hl : t.length < bytes.length) (b : UInt8) :
    (bytes.set t.length (some b)).take (t.length + 1) = (t ++ [b]).map some := by
  rw [List.take_succ, List.set_take, List.getElem?_set_self hl, hb,
    List.set_eq_of_length_le (by simp)]
  simp

/-- The C string of a block that holds a token and then a NUL: the token up to its first NUL. -/
theorem cString_of_take {bytes : List (Option UInt8)} {t : List UInt8}
    (h : bytes.take (t.length + 1) = (t ++ [0]).map some) :
    cString bytes = some (t.takeWhile (· ≠ 0)) := by
  induction t generalizing bytes with
  | nil =>
    obtain _ | ⟨x, bytes⟩ := bytes
    · cases h
    · simp only [List.length_nil, List.take_succ_cons, List.take_zero, List.nil_append,
        List.map_cons, List.map_nil, List.cons.injEq, and_true] at h
      simp [cString, h]
  | cons b t ih =>
    obtain _ | ⟨x, bytes⟩ := bytes
    · cases h
    · simp only [List.length_cons, List.take_succ_cons, List.cons_append, List.map_cons,
        List.cons.injEq] at h
      obtain ⟨rfl, h⟩ := h
      by_cases hb : b = 0
      · simp [cString, hb]
      · simp [cString, hb, ih h]

theorem takeWhile_ne_zero {t : List UInt8} (h : 0 ∉ t) : t.takeWhile (· ≠ 0) = t :=
  List.takeWhile_eq_self_iff.mpr fun x hx => decide_eq_true fun (h0 : x = 0) => h (h0 ▸ hx)

theorem rawBytes_of_take {bytes : List (Option UInt8)} {t : List UInt8}
    (h : bytes.take t.length = t.map some) : rawBytes bytes t.length = some t := by
  induction t generalizing bytes with
  | nil => simp [rawBytes]
  | cons b t ih =>
    obtain _ | ⟨x, bytes⟩ := bytes
    · cases h
    · simp only [List.length_cons, List.take_succ_cons, List.map_cons, List.cons.injEq] at h
      obtain ⟨rfl, h⟩ := h
      simp [rawBytes, ih h]

/-- The scratchpad holds `token`: the counters keep `Inv`, the block has `scratchpad` bytes, and
its first `string_len` bytes are the token's. -/
structure PadRep (p : Scratchpad) (token : List UInt8) : Prop where
  inv : Inv p.user
  size : p.bytes.length = p.user.scratchpad.toNat
  len : p.user.stringLen.toNat = token.length
  holds : p.bytes.take token.length = token.map some

section Pad

variable {p : Scratchpad} {t : List UInt8}

theorem PadRep.init : PadRep ⟨rewriteInit, []⟩ [] := ⟨inv_rewriteInit, rfl, rfl, rfl⟩

theorem PadRep.clear (h : PadRep p t) : PadRep (jsonReaderStringClearPad p) [] :=
  ⟨h.inv.clear, h.size, rfl, rfl⟩

/-- After `check_string(state, 1)` the block has 256 bytes and still holds the token: a NULL
block holds no token and becomes 256 bytes not written yet. -/
theorem PadRep.checkString (h : PadRep p t) :
    (checkStringPad p 1).bytes.length = 256 ∧
      (checkStringPad p 1).bytes.take t.length = t.map some := by
  rcases h.inv.sizes with ⟨h0, hl0⟩ | h256
  · have hb : p.bytes = [] := List.length_eq_zero.mp (by rw [h.size, h.inv.block_eq, h0]; rfl)
    have ht : t = [] := List.length_eq_zero.mp (by rw [← h.len, hl0]; rfl)
    have hf : ¬ p.user.freeSpace ≥ 1 := by rw [h.inv.free_eq, h0]; decide
    simp only [checkStringPad, if_neg hf, checkString_one h.inv, gprRealloc, hb, ht, List.take_nil,
      List.nil_append, List.length_replicate, List.length_nil, Nat.sub_zero, List.take_zero,
      List.map_nil, and_true]
    rfl
  · have hf : p.user.freeSpace ≥ 1 := by rw [h.inv.free_eq, h256]; decide
    simp only [checkStringPad, if_pos hf]
    exact ⟨by rw [h.size, h.inv.block_eq, h256]; rfl, h.holds⟩

/-- `json_reader_string_add_char` stores a byte below 256 just past a token of fewer than 256
bytes. -/
theorem PadRep.addChar (h : PadRep p t) {c : UInt32} (hc : c < 256) (ht : t.length < 256) :
    ∃ p', jsonReaderStringAddCharPad p c = some p' ∧ PadRep p' (t ++ [c.toUInt8]) := by
  obtain ⟨hlen, htake⟩ := h.checkString
  have hi : t.length < (checkStringPad p 1).bytes.length := hlen ▸ ht
  refine ⟨⟨⟨256, 256, 256, p.user.stringLen + 1⟩,
    (checkStringPad p 1).bytes.set t.length (some c.toUInt8)⟩, ?_, inv_full _,
    by rw [List.length_set, hlen]; rfl, ?_, ?_⟩
  · simp only [jsonReaderStringAddCharPad, jsonReaderStringAddChar_of_inv h.inv hc, Option.some_bind,
      storeByte, if_pos hi, h.len, Option.map_some']
  · rw [toNat_add_one _ (h.len ▸ ht), h.len, List.length_append, List.length_singleton]
  · rw [List.length_append, List.length_singleton, take_set_length htake (hlen ▸ ht)]

theorem PadRep.addChars (h : PadRep p t) {cs : List UInt32} (hc : ∀ c ∈ cs, c < 256)
    (hl : t.length + cs.length ≤ 256) :
    ∃ p', addCharsPad p cs = some p' ∧ PadRep p' (t ++ cs.map UInt32.toUInt8) := by
  induction cs generalizing p t with
  | nil => exact ⟨p, rfl, by simpa using h⟩
  | cons c cs ih =>
    simp only [List.length_cons] at hl
    obtain ⟨p₁, h₁, hr₁⟩ := h.addChar (hc c (List.mem_cons_self c cs)) (by omega)
    obtain ⟨p₂, h₂, hr₂⟩ := ih hr₁ (fun b hb => hc b (List.mem_cons_of_mem c hb))
      (by simp only [List.length_append, List.length_singleton]; omega)
    exact ⟨p₂, by simp [addCharsPad, h₁, h₂], by simpa using hr₂⟩

/-- `json_reader_set_key` and `json_reader_set_string` hand the writer the token up to its first
NUL, when the token and its NUL fit the block. -/
theorem PadRep.set (h : PadRep p t) (ht : t.length < 256) (call : List UInt8 → WriterEvent) :
    ∃ p', setFromScratchpad p call = some (p', call (t.takeWhile (· ≠ 0))) ∧ PadRep p' (t ++ [0]) := by
  obtain ⟨p', h₁, hr⟩ := h.addChar (c := 0) (by decide) ht
  refine ⟨p', ?_, hr⟩
  simp only [setFromScratchpad, h₁, Option.some_bind, cString_of_take (by simpa using hr.holds),
    Option.map_some']

/-- `json_reader_set_number` hands the writer the token, NULs and all. -/
theorem PadRep.setNumber (h : PadRep p t) : jsonReaderSetNumberPad p = some (.valueRaw t) := by
  simp [jsonReaderSetNumberPad, h.len, rawBytes_of_take h.holds]

end Pad

/-! ## The run refines `Echo` -/

/-- The callbacks' state holds what `Echo` has seen: the token in the scratchpad, the open
containers in the heap, and the same calls made into the writer. -/
structure Rep (u : ReaderUserdata) (e : Echo) : Prop where
  pad : PadRep u.pad e.token
  stack : StackRep u.stack e.open_
  out : u.out = e.out

theorem Rep.init : Rep rewriteUserdata Echo.init := ⟨PadRep.init, StackRep.init, rfl⟩

theorem ReaderUserdata.withStack_out {u : ReaderUserdata} {s : ContainerState} {x : WriterCall}
    (h : s.writer = u.stack.writer ++ [x]) : (u.withStack s).out = u.out ++ [.container x] := by
  simp [ReaderUserdata.withStack, h]

section Refinement

variable {u : ReaderUserdata} {e e' : Echo}

/-- **Each callback refines a step of `Echo`.** -/
theorem Rep.step (h : Rep u e) {c : Callback} (he : e.step c = some e') :
    ∃ u', c.apply u = some u' ∧ Rep u' e' := by
  cases c with
  | stringClear => cases he; exact ⟨_, rfl, h.pad.clear, h.stack, h.out⟩
  | stringAddChar c =>
    simp only [Echo.step] at he
    split_ifs at he with hc
    cases he
    obtain ⟨p', hp, hr⟩ := h.pad.addChar hc.1 hc.2
    exact ⟨{ u with pad := p' }, by simp [Callback.apply, hp], hr, h.stack, h.out⟩
  | stringAddUtf32 c =>
    simp only [Echo.step] at he
    split_ifs at he with hl
    cases he
    obtain ⟨p', hp, hr⟩ := h.pad.addChars (fun b hb => utf32Bytes_lt hb) hl
    exact ⟨{ u with pad := p' }, by simp [Callback.apply, jsonReaderStringAddUtf32Pad, hp], hr,
      h.stack, h.out⟩
  | containerBegins type a =>
    simp only [Echo.step] at he
    split_ifs at he with ha
    cases he
    exact ⟨_, rfl, h.pad, h.stack.begins ((h.stack.allocated a).mpr ha) type,
      (ReaderUserdata.withStack_out rfl).trans (by rw [h.out])⟩
  | containerEnds =>
    obtain ⟨token, open_, out⟩ := e
    obtain _ | ⟨c, open_⟩ := open_
    · cases he
    cases he
    obtain ⟨s', hs, hr, hw⟩ := h.stack.ends
    exact ⟨u.withStack s', by simp [Callback.apply, hs], h.pad, hr,
      (ReaderUserdata.withStack_out hw).trans (by rw [h.out])⟩
  | setKey =>
    simp only [Echo.step] at he
    split_ifs at he with hk
    cases he
    obtain ⟨p', hp, hr⟩ := h.pad.set hk.2 .objectKey
    rw [takeWhile_ne_zero hk.1] at hp
    exact ⟨{ u with pad := p', out := u.out ++ [.objectKey e.token] },
      by simp [Callback.apply, jsonReaderSetKeyPad, hp], hr, h.stack, by rw [h.out]⟩
  | setString =>
    simp only [Echo.step] at he
    split_ifs at he with hk
    cases he
    obtain ⟨p', hp, hr⟩ := h.pad.set hk.2 .valueString
    rw [takeWhile_ne_zero hk.1] at hp
    exact ⟨{ u with pad := p', out := u.out ++ [.valueString e.token] },
      by simp [Callback.apply, jsonReaderSetStringPad, hp], hr, h.stack, by rw [h.out]⟩
  | setNumber =>
    cases he
    exact ⟨{ u with out := u.out ++ [.valueRaw e.token] },
      by simp [Callback.apply, h.pad.setNumber], h.pad, h.stack, by rw [h.out]⟩
  | setTrue | setFalse | setNull => cases he; exact ⟨_, rfl, h.pad, h.stack, by rw [h.out]; rfl⟩

/-- Every run `Echo` accepts runs the callbacks without a fault, in step with `Echo`. -/
theorem Rep.run (h : Rep u e) {cs : List Callback} (he : e.run cs = some e') :
    ∃ u', rewriteCallbacks u cs = some u' ∧ Rep u' e' := by
  induction cs generalizing u e with
  | nil => cases he; exact ⟨u, rfl, h⟩
  | cons c cs ih =>
    obtain ⟨e₁, h₁, h₂⟩ := Option.bind_eq_some.mp he
    obtain ⟨u₁, hu₁, hr₁⟩ := h.step h₁
    obtain ⟨u₂, hu₂, hr₂⟩ := ih hr₁ h₂
    exact ⟨u₂, by simp [rewriteCallbacks, hu₁, hu₂], hr₂⟩

end Refinement

/-- **`rewrite` hands the writer what the reader reports.** For every sequence of callbacks that
`Echo` accepts, run from the state `rewrite` sets up, no callback faults. No assertion fails, no
store leaves the scratchpad, the writer reads no byte that was not written, and only allocated
`stacked_container` blocks are read and freed. The writer receives each key and string as the
bytes the reader added, each number as its bytes, the three literals, and the begin and end of
each container with its kind. -/
theorem rewrite_echoes_reader {cs : List Callback} {e : Echo} (h : Echo.init.run cs = some e) :
    ∃ u, rewriteCallbacks rewriteUserdata cs = some u ∧ u.out = e.out := by
  obtain ⟨u, hu, hr⟩ := Rep.init.run h
  exact ⟨u, hu, hr.out⟩

/-- `{"a": [1, "bé"], "t": true}`, with the blocks 7 and 3 for the two containers. -/
def objectCallbacks : List Callback :=
  [.containerBegins .object 7, .stringClear, .stringAddChar 97, .setKey,
   .containerBegins .array 3, .stringClear, .stringAddChar 49, .setNumber,
   .stringClear, .stringAddChar 98, .stringAddUtf32 0xe9, .setString, .containerEnds,
   .stringClear, .stringAddChar 116, .setKey, .setTrue, .containerEnds]

def objectEcho : Echo := (Echo.init.run objectCallbacks).getD Echo.init

theorem rewrite_echoes_reader_object :
    Echo.init.run objectCallbacks = some objectEcho ∧
      ∃ u, rewriteCallbacks rewriteUserdata objectCallbacks = some u ∧ u.out = objectEcho.out :=
  have h : Echo.init.run objectCallbacks = some objectEcho := by decide
  ⟨h, rewrite_echoes_reader h⟩

-- "bé" arrives as its UTF-8 bytes.
example : objectEcho.out =
    [.container (.containerBegins .object), .objectKey [97], .container (.containerBegins .array),
     .valueRaw [49], .valueString [98, 0xc3, 0xa9], .container (.containerEnds .array),
     .objectKey [116], .valueRaw [116, 114, 117, 101], .container (.containerEnds .object)] := by
  decide

/-! ## Keys and strings with a NUL -/

theorem Echo.run_addChars (e : Echo) {bs : List UInt32} (hb : ∀ b ∈ bs, b < 256)
    (hl : e.token.length + bs.length ≤ 256) :
    e.run (bs.map .stringAddChar) = some { e with token := e.token ++ bs.map UInt32.toUInt8 } := by
  induction bs generalizing e with
  | nil => simp [Echo.run]
  | cons b bs ih =>
    simp only [List.length_cons] at hl
    have hstep : e.step (.stringAddChar b) = some { e with token := e.token ++ [b.toUInt8] } := by
      simp [Echo.step, hb b (List.mem_cons_self b bs), show e.token.length < 256 by omega]
    simp only [List.map_cons, Echo.run, hstep, Option.some_bind]
    rw [ih _ (fun c hc => hb c (List.mem_cons_of_mem b hc)) (by simp; omega)]
    simp

/-- A token read after any run `Echo` accepts: the scratchpad holds it and nothing else changed. -/
theorem token_after_run {cs : List Callback} {e : Echo} (h : Echo.init.run cs = some e)
    {bs : List UInt32} (hb : ∀ b ∈ bs, b < 256) (hn : bs.length < 256) :
    ∃ u, rewriteCallbacks rewriteUserdata (cs ++ .stringClear :: bs.map .stringAddChar) = some u ∧
      Rep u { e with token := bs.map UInt32.toUInt8 } := by
  have he : Echo.init.run (cs ++ .stringClear :: bs.map .stringAddChar) =
      some { e with token := bs.map UInt32.toUInt8 } := by
    rw [Echo.run_append, h, Option.some_bind, Echo.run]
    exact Echo.run_addChars { e with token := [] } hb (by simp; omega)
  exact Rep.init.run he

/-- **A key or string holding a NUL reaches the writer cut at its first NUL.** After any sequence
of callbacks `Echo` accepts, take a token of fewer than 256 bytes, each below 256.
`json_reader_set_key` and `json_reader_set_string` hand the writer its bytes before the first
NUL, since the writer reads a C string. `json_reader_set_number` hands over all its bytes. -/
theorem string_cut_at_nul {cs : List Callback} {e : Echo} (h : Echo.init.run cs = some e)
    {bs : List UInt32} (hb : ∀ b ∈ bs, b < 256) (hn : bs.length < 256) :
    (∃ u, rewriteCallbacks rewriteUserdata (cs ++ .stringClear :: bs.map .stringAddChar ++ [.setKey]) =
        some u ∧ u.out = e.out ++ [.objectKey ((bs.map UInt32.toUInt8).takeWhile (· ≠ 0))]) ∧
    (∃ u, rewriteCallbacks rewriteUserdata (cs ++ .stringClear :: bs.map .stringAddChar ++ [.setString]) =
        some u ∧ u.out = e.out ++ [.valueString ((bs.map UInt32.toUInt8).takeWhile (· ≠ 0))]) ∧
    (∃ u, rewriteCallbacks rewriteUserdata (cs ++ .stringClear :: bs.map .stringAddChar ++ [.setNumber]) =
        some u ∧ u.out = e.out ++ [.valueRaw (bs.map UInt32.toUInt8)]) := by
  obtain ⟨u, hu, hr⟩ := token_after_run h hb hn
  have ht : (bs.map UInt32.toUInt8).length < 256 := by simpa using hn
  obtain ⟨pk, hk, -⟩ := hr.pad.set ht .objectKey
  obtain ⟨ps, hs, -⟩ := hr.pad.set ht .valueString
  refine ⟨⟨{ u with pad := pk, out := u.out ++ [.objectKey ((bs.map UInt32.toUInt8).takeWhile (· ≠ 0))] },
      ?_, by rw [hr.out]⟩,
    ⟨{ u with pad := ps, out := u.out ++ [.valueString ((bs.map UInt32.toUInt8).takeWhile (· ≠ 0))] },
      ?_, by rw [hr.out]⟩,
    ⟨{ u with out := u.out ++ [.valueRaw (bs.map UInt32.toUInt8)] }, ?_, by rw [hr.out]⟩⟩
  all_goals
    rw [rewriteCallbacks_append, hu]
    simp [rewriteCallbacks, Callback.apply, jsonReaderSetKeyPad, jsonReaderSetStringPad, hk, hs,
      hr.pad.setNumber]

theorem string_cut_at_nul_a_nul_b :
    Echo.init.run [] = some Echo.init ∧ (∀ b ∈ [97, 0, 98], b < (256 : UInt32)) ∧
      [(97 : UInt32), 0, 98].length < 256 ∧
      ((∃ u, rewriteCallbacks rewriteUserdata
          ([] ++ .stringClear :: [(97 : UInt32), 0, 98].map .stringAddChar ++ [.setKey]) = some u ∧
          u.out = Echo.init.out ++
            [.objectKey (([(97 : UInt32), 0, 98].map UInt32.toUInt8).takeWhile (· ≠ 0))]) ∧
      (∃ u, rewriteCallbacks rewriteUserdata
          ([] ++ .stringClear :: [(97 : UInt32), 0, 98].map .stringAddChar ++ [.setString]) = some u ∧
          u.out = Echo.init.out ++
            [.valueString (([(97 : UInt32), 0, 98].map UInt32.toUInt8).takeWhile (· ≠ 0))]) ∧
      (∃ u, rewriteCallbacks rewriteUserdata
          ([] ++ .stringClear :: [(97 : UInt32), 0, 98].map .stringAddChar ++ [.setNumber]) = some u ∧
          u.out = Echo.init.out ++ [.valueRaw ([(97 : UInt32), 0, 98].map UInt32.toUInt8)])) :=
  have hb : ∀ b ∈ [97, 0, 98], b < (256 : UInt32) := by decide
  have hn : [(97 : UInt32), 0, 98].length < 256 := by decide
  ⟨rfl, hb, hn, @string_cut_at_nul [] Echo.init rfl _ hb hn⟩

/-! ## Code points -/

theorem toUInt8_toNat {b : UInt32} (h : b < 256) : b.toUInt8.toNat = b.toNat := by
  show b.toNat % 256 = b.toNat
  exact Nat.mod_eq_of_lt h

theorem utf32Bytes_stored (c : UInt32) :
    ((utf32Bytes c).map UInt32.toUInt8).map UInt8.toNat = utf8Encode c.toNat := by
  rw [List.map_map, ← utf32Bytes_toNat]
  exact List.map_congr_left fun b hb => toUInt8_toNat (utf32Bytes_lt hb)

theorem zero_not_mem_utf8Encode {n : Nat} (h : n ≠ 0) : 0 ∉ utf8Encode n := by
  unfold utf8Encode
  split_ifs <;> simp <;> omega

theorem Echo.run_addUtf32s (e : Echo) {cps : List UInt32}
    (hl : e.token.length + (cps.flatMap utf32Bytes).length ≤ 256) :
    e.run (cps.map .stringAddUtf32) =
      some { e with token := e.token ++ cps.flatMap fun c => (utf32Bytes c).map UInt32.toUInt8 } := by
  induction cps generalizing e with
  | nil => simp [Echo.run]
  | cons c cps ih =>
    simp only [List.flatMap_cons, List.length_append] at hl
    have hstep : e.step (.stringAddUtf32 c) =
        some { e with token := e.token ++ (utf32Bytes c).map UInt32.toUInt8 } := by
      simp [Echo.step, show e.token.length + (utf32Bytes c).length ≤ 256 by omega]
    simp only [List.map_cons, Echo.run, hstep, Option.some_bind]
    rw [ih _ (by simp only [List.length_append, List.length_map]; omega)]
    simp

/-- **A string of code points reaches the writer as UTF-8 that decodes back to them.** After any
sequence of callbacks `Echo` accepts, take a string the reader hands over as code points other
than U+0000, through `json_reader_string_add_utf32`. If it is made of Unicode scalar values and
its bytes fit the block, `json_reader_set_string` hands the writer bytes from which a strict UTF-8
decoder reads those code points back. -/
theorem unicode_string_reaches_writer {cs : List Callback} {e : Echo}
    (h : Echo.init.run cs = some e) {cps : List UInt32} (hs : ∀ c ∈ cps, IsScalar c.toNat ∧ c ≠ 0)
    (hn : (cps.flatMap utf32Bytes).length < 256) :
    ∃ u s, rewriteCallbacks rewriteUserdata
        (cs ++ .stringClear :: cps.map .stringAddUtf32 ++ [.setString]) = some u ∧
      u.out = e.out ++ [.valueString s] ∧
      utf8DecodeString (s.map UInt8.toNat) = some (cps.map UInt32.toNat) := by
  set token := cps.flatMap fun c => (utf32Bytes c).map UInt32.toUInt8 with htok
  have htoken : token.map UInt8.toNat = (cps.map UInt32.toNat).flatMap utf8Encode := by
    simp only [token, List.map_flatMap, utf32Bytes_stored, List.flatMap_map]
  have hlen : token.length < 256 := by rwa [htok, ← List.map_flatMap, List.length_map]
  have hzero : (0 : UInt8) ∉ token := fun h0 => by
    obtain ⟨n, hn, h0⟩ := List.mem_flatMap.mp (htoken ▸ List.mem_map_of_mem UInt8.toNat h0)
    obtain ⟨c, hc, rfl⟩ := List.mem_map.mp hn
    exact zero_not_mem_utf8Encode (fun h => (hs c hc).2 (UInt32.toNat.inj h)) h0
  have he : Echo.init.run (cs ++ .stringClear :: cps.map .stringAddUtf32 ++ [.setString]) =
      some { e with token := token ++ [0], out := e.out ++ [.valueString token] } := by
    have hadd := @Echo.run_addUtf32s { e with token := [] } cps (by simpa using hn.le)
    rw [← htok] at hadd
    rw [Echo.run_append, Echo.run_append, h, Option.some_bind, Echo.run, Echo.step, Option.some_bind,
      hadd]
    simp [Echo.run, Echo.step, hzero, hlen]
  obtain ⟨u, hu, hr⟩ := Rep.init.run he
  have hs' : ∀ n ∈ cps.map UInt32.toNat, IsScalar n := by simpa using fun c hc => (hs c hc).1
  refine ⟨u, token, hu, hr.out, ?_⟩
  rw [utf8DecodeString, htoken]
  exact utf8DecodeAll_flatMap hs' (length_le_flatMap_utf8Encode hs')


theorem unicode_string_reaches_writer_a_e_euro :
    Echo.init.run [] = some Echo.init ∧
      (∀ c ∈ [(0x41 : UInt32), 0xe9, 0x20ac], IsScalar c.toNat ∧ c ≠ 0) ∧
      ([(0x41 : UInt32), 0xe9, 0x20ac].flatMap utf32Bytes).length < 256 ∧
      ∃ u s, rewriteCallbacks rewriteUserdata
          ([] ++ .stringClear :: [(0x41 : UInt32), 0xe9, 0x20ac].map .stringAddUtf32 ++
            [.setString]) = some u ∧
        u.out = Echo.init.out ++ [.valueString s] ∧
        utf8DecodeString (s.map UInt8.toNat) = some ([(0x41 : UInt32), 0xe9, 0x20ac].map UInt32.toNat) :=
  have hs : ∀ c ∈ [(0x41 : UInt32), 0xe9, 0x20ac], IsScalar c.toNat ∧ c ≠ 0 := by decide
  have hn : ([(0x41 : UInt32), 0xe9, 0x20ac].flatMap utf32Bytes).length < 256 := by decide
  ⟨rfl, hs, hn, @unicode_string_reaches_writer [] Echo.init rfl _ hs hn⟩

end GrpcCore.Json.Rewrite
