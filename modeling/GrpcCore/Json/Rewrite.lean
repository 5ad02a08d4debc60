import Mathlib.Data.UInt

/-! # The scratchpad of `json_rewrite`

`test/core/json/json_rewrite.c` reads JSON through the reader's callbacks and prints it back. The
reader hands each string, key and number over one byte at a time: `json_reader_string_clear`
starts a token, `json_reader_string_add_char` and `json_reader_string_add_utf32` append to it,
and `json_reader_set_key` and `json_reader_set_string` end it with a NUL. The bytes go to a heap
block, `scratchpad`, that `check_string` is to grow ahead of each store. This file gives those
five callbacks over the `size_t` fields they use, and every store they make. -/

namespace GrpcCore.Json.Rewrite

/-! ## The reader's user data and the five callbacks -/

/-- The fields of `json_reader_userdata` that the string callbacks use: the size of the block
`scratchpad` points to (0 for NULL), and the three `size_t` counters. -/
structure JsonReaderUserdata where
  scratchpad : UInt64
  freeSpace : UInt64
  allocated : UInt64
  stringLen : UInt64
  deriving DecidableEq, Repr

/-- A store `state->scratchpad[index] = (char)c` into the block of `size` bytes. -/
structure Store where
  index : UInt64
  size : UInt64
  deriving DecidableEq, Repr

def Store.inBounds (w : Store) : Prop := w.index < w.size

instance : DecidablePred Store.inBounds := fun w => inferInstanceAs (Decidable (w.index < w.size))

/-- The state `rewrite` sets up (lines 217-223): `scratchpad` NULL and the counters 0. -/
def rewriteInit : JsonReaderUserdata := ⟨0, 0, 0, 0⟩

/-- `check_string` (lines 82-89): unless `needed` bytes are free, grow the block by what is
missing, rounded up to a multiple of 256. `~0xffu` is an `unsigned int`, widened with zeros. -/
def checkString (s : JsonReaderUserdata) (needed : UInt64) : JsonReaderUserdata :=
  if s.freeSpace ≥ needed then s
  else
    let needed := needed - s.freeSpace
    let needed := (needed + 0xff) &&& (~~~(0xff : UInt32)).toUInt64
    { s with scratchpad := s.allocated + needed, freeSpace := s.freeSpace + needed,
             allocated := s.allocated + needed }

/-- `json_reader_string_clear` (lines 91-95). -/
def jsonReaderStringClear (s : JsonReaderUserdata) : JsonReaderUserdata :=
  { s with freeSpace := s.allocated, stringLen := 0 }

/-- `json_reader_string_add_char` (lines 97-102): make room for one byte, assert `c < 256`, and
store at `string_len`; `none` when the assertion aborts. -/
def jsonReaderStringAddChar (s : JsonReaderUserdata) (c : UInt32) :
    Option (JsonReaderUserdata × Store) :=
  let s := checkString s 1
  if c < 256 then some ({ s with stringLen := s.stringLen + 1 }, ⟨s.stringLen, s.scratchpad⟩)
  else none

/-- `json_reader_string_add_char` on each byte in turn, with the stores in order. -/
def addChars (s : JsonReaderUserdata) : List UInt32 → Option (JsonReaderUserdata × List Store)
  | [] => some (s, [])
  | c :: cs => (jsonReaderStringAddChar s c).bind fun r =>
    (addChars r.1 cs).map fun r' => (r'.1, r.2 :: r'.2)

/-- The bytes `b1`, ... that a branch of `json_reader_string_add_utf32` computes: the UTF-8
encoding of `c`, and nothing above `0x1fffff`. -/
def utf32Bytes (c : UInt32) : List UInt32 :=
  if c ≤ 0x7f then [c]
  else if c ≤ 0x7ff then [(0xc0 : UInt32) ||| ((c >>> 6) &&& 0x1f), (0x80 : UInt32) ||| (c &&& 0x3f)]
  else if c ≤ 0xffff then
    [(0xe0 : UInt32) ||| ((c >>> 12) &&& 0x0f), (0x80 : UInt32) ||| ((c >>> 6) &&& 0x3f),
      (0x80 : UInt32) ||| (c &&& 0x3f)]
  else if c ≤ 0x1fffff then
    [(0xf0 : UInt32) ||| ((c >>> 18) &&& 0x07), (0x80 : UInt32) ||| ((c >>> 12) &&& 0x3f),
      (0x80 : UInt32) ||| ((c >>> 6) &&& 0x3f), (0x80 : UInt32) ||| (c &&& 0x3f)]
  else []

/-- `json_reader_string_add_utf32` (lines 104-129). -/
def jsonReaderStringAddUtf32 (s : JsonReaderUserdata) (c : UInt32) :
    Option (JsonReaderUserdata × List Store) :=
  addChars s (utf32Bytes c)

/-- `json_reader_set_key` (lines 161-166): end the key with a NUL; the writer then reads
`scratchpad`. -/
def jsonReaderSetKey (s : JsonReaderUserdata) : Option (JsonReaderUserdata × Store) :=
  jsonReaderStringAddChar s 0

/-- `json_reader_set_string` (lines 168-173), as `json_reader_set_key`. -/
def jsonReaderSetString (s : JsonReaderUserdata) : Option (JsonReaderUserdata × Store) :=
  jsonReaderStringAddChar s 0

/-! ## Runs of callbacks -/

/-- A call of one of the five callbacks, with its argument. -/
inductive ReaderCall where
  | stringClear
  | stringAddChar (c : UInt32)
  | stringAddUtf32 (c : UInt32)
  | setKey
  | setString
  deriving DecidableEq, Repr

/-- One callback: the state it leaves and the stores it makes; `none` when it aborts. -/
def ReaderCall.apply (s : JsonReaderUserdata) : ReaderCall → Option (JsonReaderUserdata × List Store)
  | .stringClear => some (jsonReaderStringClear s, [])
  | .stringAddChar c => (jsonReaderStringAddChar s c).map fun r => (r.1, [r.2])
  | .stringAddUtf32 c => jsonReaderStringAddUtf32 s c
  | .setKey => (jsonReaderSetKey s).map fun r => (r.1, [r.2])
  | .setString => (jsonReaderSetString s).map fun r => (r.1, [r.2])

def runReader (s : JsonReaderUserdata) : List ReaderCall → Option (JsonReaderUserdata × List Store)
  | [] => some (s, [])
  | e :: es => (e.apply s).bind fun r => (runReader r.1 es).map fun r' => (r'.1, r.2 ++ r'.2)

theorem runReader_append (s : JsonReaderUserdata) (es es' : List ReaderCall) :
    runReader s (es ++ es') = (runReader s es).bind fun r =>
      (runReader r.1 es').map fun r' => (r'.1, r.2 ++ r'.2) := by
  induction es generalizing s with
  | nil => simp [runReader]
  | cons e es ih =>
    rw [List.cons_append]
    simp only [runReader]
    cases e.apply s with
    | none => rfl
    | some r =>
      simp only [Option.some_bind, ih]
      cases runReader r.1 es with
      | none => rfl
      | some q => simp [Function.comp_def]

theorem runReader_addChars (s : JsonReaderUserdata) (cs : List UInt32) :
    runReader s (cs.map .stringAddChar) = addChars s cs := by
  induction cs generalizing s with
  | nil => rfl
  | cons c cs ih =>
    simp only [List.map_cons, runReader, ReaderCall.apply, addChars, ih]
    cases jsonReaderStringAddChar s c <;> rfl

/-! ## Aborts

`GPR_ASSERT(c < 256)` is the only way a callback fails, and only a byte the reader passes to
`json_reader_string_add_char` can trip it: the bytes of `json_reader_string_add_utf32` and the
NUL of the two setters are all below 256. -/

theorem jsonReaderStringAddChar_eq_none {s : JsonReaderUserdata} {c : UInt32} :
    jsonReaderStringAddChar s c = none ↔ 256 ≤ c := by
  unfold jsonReaderStringAddChar
  split_ifs with h
  · exact iff_of_false (by simp) (UInt32.not_le.mpr h)
  · exact iff_of_true rfl (UInt32.not_lt.mp h)

theorem addChars_eq_none {s : JsonReaderUserdata} {cs : List UInt32} :
    addChars s cs = none ↔ ∃ c ∈ cs, 256 ≤ c := by
  induction cs generalizing s with
  | nil => simp [addChars]
  | cons c cs ih =>
    simp only [addChars, List.mem_cons, exists_eq_or_imp]
    cases h : jsonReaderStringAddChar s c with
    | none => exact iff_of_true rfl (.inl (jsonReaderStringAddChar_eq_none.mp h))
    | some r =>
      have : ¬ 256 ≤ c := fun hc => by simp [jsonReaderStringAddChar_eq_none.mpr hc] at h
      simp [ih, this]

theorem utf8Byte_lt {lead mask x : UInt32} (hl : lead.toNat < 256) (hm : mask.toNat < 256) :
    lead ||| (x &&& mask) < 256 :=
  Nat.or_lt_two_pow (n := 8) hl (lt_of_le_of_lt Nat.and_le_right hm)

theorem utf32Bytes_lt {c b : UInt32} (h : b ∈ utf32Bytes c) : b < 256 := by
  unfold utf32Bytes at h
  split_ifs at h with h₁ <;>
    simp only [List.mem_cons, List.mem_singleton, List.not_mem_nil, or_false] at h
  · subst h; exact Nat.lt_of_le_of_lt h₁ (by decide)
  all_goals rcases h with rfl | rfl | rfl | rfl <;> exact utf8Byte_lt (by decide) (by decide)

theorem ReaderCall.apply_eq_none {s : JsonReaderUserdata} {e : ReaderCall} :
    e.apply s = none ↔ ∃ c, e = .stringAddChar c ∧ 256 ≤ c := by
  cases e <;> simp only [ReaderCall.apply, jsonReaderStringAddUtf32, jsonReaderSetKey,
    jsonReaderSetString, Option.map_eq_none', jsonReaderStringAddChar_eq_none, addChars_eq_none,
    reduceCtorEq, false_and, exists_false, ReaderCall.stringAddChar.injEq, exists_eq_left']
  · exact iff_of_false (fun ⟨_, hb, h⟩ => absurd (utf32Bytes_lt hb) (UInt32.not_lt.mpr h)) (by simp)
  all_goals decide

/-- **A run aborts exactly when the reader passes a byte of 256 or more to
`json_reader_string_add_char`.** Every other callback completes, from any state. -/
theorem reader_aborts_iff (s : JsonReaderUserdata) (es : List ReaderCall) :
    runReader s es = none ↔ ∃ c, .stringAddChar c ∈ es ∧ 256 ≤ c := by
  induction es generalizing s with
  | nil => simp [runReader]
  | cons e es ih =>
    simp only [runReader, List.mem_cons]
    cases h : e.apply s with
    | none =>
      obtain ⟨c, rfl, hc⟩ := ReaderCall.apply_eq_none.mp h
      exact iff_of_true rfl ⟨c, .inl rfl, hc⟩
    | some r =>
      have hne : ∀ c, e = .stringAddChar c → ¬ 256 ≤ c := fun c he hc =>
        by simp [ReaderCall.apply_eq_none.mpr ⟨c, he, hc⟩] at h
      simp only [Option.some_bind, Option.map_eq_none', ih]
      exact ⟨fun ⟨c, hm, hc⟩ => ⟨c, .inr hm, hc⟩,
        fun ⟨c, hm, hc⟩ => ⟨c, hm.resolve_left fun he => hne c he.symm hc, hc⟩⟩

/-! ## The block never grows past 256 bytes -/

/-- What every callback keeps of the state `rewrite` sets up: `allocated` is the size of the
block, `free_space` equals it, and the block is NULL, with no byte added yet, or 256 bytes. -/
structure Inv (s : JsonReaderUserdata) : Prop where
  block_eq : s.scratchpad = s.allocated
  free_eq : s.freeSpace = s.allocated
  sizes : s.allocated = 0 ∧ s.stringLen = 0 ∨ s.allocated = 256

theorem inv_rewriteInit : Inv rewriteInit := ⟨rfl, rfl, .inl ⟨rfl, rfl⟩⟩

theorem inv_full (l : UInt64) : Inv ⟨256, 256, 256, l⟩ := ⟨rfl, rfl, .inr rfl⟩

theorem Inv.clear {s : JsonReaderUserdata} (hi : Inv s) : Inv (jsonReaderStringClear s) :=
  ⟨hi.block_eq, rfl, hi.sizes.imp (fun h => ⟨h.1, rfl⟩) id⟩

/-- `check_string(state, 1)` allocates 256 bytes once, and never again: `add_char` does not
decrement `free_space`, so one byte is always free after. -/
theorem checkString_one {s : JsonReaderUserdata} (hi : Inv s) :
    checkString s 1 = ⟨256, 256, 256, s.stringLen⟩ := by
  obtain ⟨sp, fs, al, l⟩ := s
  obtain ⟨hb, hf, ⟨rfl, rfl⟩ | rfl⟩ := hi <;> dsimp only at hb hf ⊢ <;> subst hb hf
  · decide
  · rfl

theorem jsonReaderStringAddChar_of_inv {s : JsonReaderUserdata} {c : UInt32} (hi : Inv s)
    (hc : c < 256) :
    jsonReaderStringAddChar s c = some (⟨256, 256, 256, s.stringLen + 1⟩, ⟨s.stringLen, 256⟩) := by
  simp only [jsonReaderStringAddChar, checkString_one hi, if_pos hc]

theorem toUInt64_zero : (0 : Nat).toUInt64 = 0 := rfl

theorem add_one_add_toUInt64 (l : UInt64) (i : Nat) : l + 1 + i.toUInt64 = l + (i + 1).toUInt64 := by
  rw [show (i + 1).toUInt64 = i.toUInt64 + 1 from UInt64.eq_of_toBitVec_eq (BitVec.ofNat_add i 1),
    add_right_comm, add_assoc]

/-- With bytes below 256, `add_char` stores them at `string_len`, `string_len + 1`, ... of a
256-byte block. -/
theorem addChars_stores {s : JsonReaderUserdata} {cs : List UInt32} (hi : Inv s)
    (hc : ∀ c ∈ cs, c < 256) :
    ∃ s', addChars s cs =
        some (s', (List.range cs.length).map fun i => ⟨s.stringLen + i.toUInt64, 256⟩) ∧
      Inv s' ∧ s'.stringLen = s.stringLen + cs.length.toUInt64 := by
  induction cs generalizing s with
  | nil => exact ⟨s, rfl, hi, (add_zero _).symm⟩
  | cons c cs ih =>
    obtain ⟨s', h, hi', hl⟩ :=
      ih (inv_full (s.stringLen + 1)) fun b hb => hc b (List.mem_cons_of_mem c hb)
    refine ⟨s', ?_, hi', by rw [hl, List.length_cons, ← add_one_add_toUInt64]⟩
    simp only [addChars, jsonReaderStringAddChar_of_inv hi (hc c (List.mem_cons_self c cs)),
      Option.some_bind, h, Option.map_some', List.length_cons, List.range_succ_eq_map,
      List.map_cons, List.map_map, Function.comp_def, Nat.succ_eq_add_one, add_one_add_toUInt64,
      toUInt64_zero, add_zero]

theorem addChar_inv {s s' : JsonReaderUserdata} {ws : List Store} {c : UInt32} (hi : Inv s)
    (h : (jsonReaderStringAddChar s c).map (fun r => (r.1, [r.2])) = some (s', ws)) :
    Inv s' ∧ ∀ w ∈ ws, w.size = 256 := by
  obtain ⟨r, hc, he⟩ := Option.map_eq_some'.mp h
  have hlt : c < 256 :=
    UInt32.not_le.mp fun h' => by simp [jsonReaderStringAddChar_eq_none.mpr h'] at hc
  rw [jsonReaderStringAddChar_of_inv hi hlt, Option.some.injEq] at hc
  subst hc; cases he; exact ⟨inv_full _, by simp⟩

theorem ReaderCall.apply_inv {s s' : JsonReaderUserdata} {ws : List Store} {e : ReaderCall}
    (hi : Inv s) (h : e.apply s = some (s', ws)) : Inv s' ∧ ∀ w ∈ ws, w.size = 256 := by
  cases e with
  | stringClear => cases h; exact ⟨hi.clear, by simp⟩
  | stringAddChar c => exact addChar_inv hi h
  | stringAddUtf32 c =>
    obtain ⟨s'', h', hi'', -⟩ := addChars_stores hi fun b => utf32Bytes_lt (c := c)
    simp only [ReaderCall.apply, jsonReaderStringAddUtf32, h', Option.some.injEq,
      Prod.mk.injEq] at h
    obtain ⟨rfl, rfl⟩ := h
    exact ⟨hi'', by simp⟩
  | setKey => exact addChar_inv (c := 0) hi h
  | setString => exact addChar_inv (c := 0) hi h

theorem runReader_inv {s s' : JsonReaderUserdata} {ws : List Store} (hi : Inv s) :
    ∀ {es : List ReaderCall}, runReader s es = some (s', ws) → Inv s' ∧ ∀ w ∈ ws, w.size = 256
  | [], h => by cases h; exact ⟨hi, by simp⟩
  | e :: es, h => by
    obtain ⟨r₁, h₁, h₂⟩ := Option.bind_eq_some.mp h
    obtain ⟨r₂, h₃, he⟩ := Option.map_eq_some'.mp h₂
    cases he
    obtain ⟨hi₁, hw₁⟩ := ReaderCall.apply_inv hi h₁
    obtain ⟨hi₂, hw₂⟩ := runReader_inv hi₁ h₃
    exact ⟨hi₂, fun w hw => (List.mem_append.mp hw).elim (hw₁ w) (hw₂ w)⟩

/-- **Whatever the reader calls, the scratchpad stays one block of 256 bytes.** From the state
`rewrite` sets up, every run of the five callbacks that does not abort leaves `free_space` equal
to `allocated`, which is the size of the block, 0 or 256; and every store goes to a block of 256
bytes. So `free_space` is never `allocated - string_len` once a byte has been added. -/
theorem scratchpad_stays_one_block (es : List ReaderCall) {s : JsonReaderUserdata}
    {ws : List Store} (h : runReader rewriteInit es = some (s, ws)) :
    Inv s ∧ ∀ w ∈ ws, w.size = 256 :=
  runReader_inv inv_rewriteInit h

theorem scratchpad_stays_one_block_on_key :
    runReader rewriteInit [.stringClear, .stringAddUtf32 0x20ac, .setKey] =
        some (⟨256, 256, 256, 4⟩, [⟨0, 256⟩, ⟨1, 256⟩, ⟨2, 256⟩, ⟨3, 256⟩]) ∧
      Inv ⟨256, 256, 256, 4⟩ ∧ ∀ w ∈ [(⟨0, 256⟩ : Store), ⟨1, 256⟩, ⟨2, 256⟩, ⟨3, 256⟩], w.size = 256 :=
  ⟨by decide, scratchpad_stays_one_block [.stringClear, .stringAddUtf32 0x20ac, .setKey] (by decide)⟩

/-! ## A long string token -/

/-- A string token of `n` bytes below 256, read from any state the callbacks keep: its bytes and
its NUL are stored at indices `0` to `n` of a block of 256 bytes. -/
theorem stringToken_stores {s : JsonReaderUserdata} {cs : List UInt32} (hi : Inv s)
    (hc : ∀ c ∈ cs, c < 256) :
    ∃ s', runReader s (.stringClear :: cs.map .stringAddChar ++ [.setString]) =
      some (s', (List.range (cs.length + 1)).map fun i => ⟨i.toUInt64, 256⟩) := by
  obtain ⟨s₁, h₁, hi₁, hl⟩ := addChars_stores hi.clear hc
  refine ⟨⟨256, 256, 256, s₁.stringLen + 1⟩, ?_⟩
  rw [List.cons_append, runReader]
  simp only [ReaderCall.apply, Option.some_bind, runReader_append, runReader_addChars, h₁,
    runReader, jsonReaderSetString,
    jsonReaderStringAddChar_of_inv hi₁ (c := 0) (by decide), Option.map_some', List.nil_append,
    List.append_nil, hl, List.range_succ, List.map_append]
  simp [jsonReaderStringClear]

/-- **A string token of 256 bytes or more overruns the scratchpad.** Read from the state
`rewrite` sets up, the bytes of the token and the NUL that `json_reader_set_string` adds all go to
a block of 256 bytes, and one of them to index 256, past its end. -/
theorem string_token_overruns_scratchpad {cs : List UInt32} (hc : ∀ c ∈ cs, c < 256)
    (hn : 256 ≤ cs.length) :
    ∃ s ws, runReader rewriteInit (.stringClear :: cs.map .stringAddChar ++ [.setString]) =
        some (s, ws) ∧ (∀ w ∈ ws, w.size = 256) ∧ ∃ w ∈ ws, w.index = 256 ∧ ¬ w.inBounds := by
  obtain ⟨s, h⟩ := stringToken_stores inv_rewriteInit hc
  refine ⟨s, _, h, by simp, ⟨256, 256⟩, List.mem_map.mpr ⟨256, ?_, rfl⟩, rfl, by decide⟩
  exact List.mem_range.mpr (by omega)

theorem string_token_overruns_at_256 :
    (∀ c ∈ List.replicate 256 (0x61 : UInt32), c < 256) ∧
      256 ≤ (List.replicate 256 (0x61 : UInt32)).length ∧
      ∃ s ws, runReader rewriteInit
          (.stringClear :: (List.replicate 256 (0x61 : UInt32)).map .stringAddChar ++ [.setString]) =
          some (s, ws) ∧ (∀ w ∈ ws, w.size = 256) ∧ ∃ w ∈ ws, w.index = 256 ∧ ¬ w.inBounds :=
  have hc : ∀ c ∈ List.replicate 256 (0x61 : UInt32), c < 256 := fun c h =>
    (List.eq_of_mem_replicate h) ▸ by decide
  have hn : 256 ≤ (List.replicate 256 (0x61 : UInt32)).length :=
    le_of_eq (List.length_replicate 256 _).symm
  ⟨hc, hn, string_token_overruns_scratchpad hc hn⟩

end GrpcCore.Json.Rewrite
