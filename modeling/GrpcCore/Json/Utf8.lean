import GrpcCore.Json.Rewrite

/-! # The UTF-8 of `json_reader_string_add_utf32`

`json_reader_string_add_utf32` (lines 104-129) takes a code point from the reader and hands the
bytes of its UTF-8 encoding to `json_reader_string_add_char`. It computes those bytes with shifts
and masks on a `gpr_uint32`. This file states the encoding in arithmetic and proves that the
shifts and masks compute it. It then reads the bytes back with a decoder that accepts only
well-formed UTF-8. There, the lead byte fixes how many continuation bytes follow and the range
of the first one, which rules out overlong forms, surrogates and values past 0x10ffff.

A string of Unicode scalar values comes back whole. The code follows UTF-8 as first defined, up
to 21 bits. A surrogate, or a value from 0x110000 to 0x1fffff, gets bytes that the decoder
refuses. A value past 0x1fffff gets no byte at all. -/

namespace GrpcCore.Json.Rewrite

/-! ## The encoding in arithmetic -/

/-- UTF-8 up to 21 bits. A value below 0x80 is one byte. Otherwise a lead byte gives the length
in its high bits and holds the top bits of `n`, and each continuation byte holds `10` and six
more bits. -/
def utf8Encode (n : Nat) : List Nat :=
  if n ≤ 0x7f then [n]
  else if n ≤ 0x7ff then [0xc0 + n / 64, 0x80 + n % 64]
  else if n ≤ 0xffff then [0xe0 + n / 4096, 0x80 + n / 64 % 64, 0x80 + n % 64]
  else if n ≤ 0x1fffff then
    [0xf0 + n / 262144, 0x80 + n / 4096 % 64, 0x80 + n / 64 % 64, 0x80 + n % 64]
  else []

/-! ## The shifts and masks -/

theorem UInt32.le_iff_toNat_le {a b : UInt32} : a ≤ b ↔ a.toNat ≤ b.toNat := Iff.rfl

theorem UInt32.toNat_or (a b : UInt32) : (a ||| b).toNat = a.toNat ||| b.toNat :=
  BitVec.toNat_or _ _

theorem UInt32.toNat_and (a b : UInt32) : (a &&& b).toNat = a.toNat &&& b.toNat :=
  BitVec.toNat_and _ _

theorem UInt32.toNat_shiftRight (c k : UInt32) (hk : k.toNat < 32) :
    (c >>> k).toNat = c.toNat / 2 ^ k.toNat := by
  show (c.toBitVec >>> (k % 32).toNat).toNat = _
  rw [BitVec.toNat_ushiftRight, Nat.shiftRight_eq_div_pow]
  congr
  exact UInt32.toNat.inj (by rw [UInt32.toNat_mod]; exact Nat.mod_eq_of_lt hk)

/-- A byte of the code: a lead with no bit below `w`, or-ed with the low `w` bits of `x`, is the
sum of the two. -/
theorem orMask_toNat {lead mask : UInt32} (w : Nat) (hm : mask.toNat = 2 ^ w - 1)
    (hl : lead.toNat % 2 ^ w = 0) (x : UInt32) :
    (lead ||| (x &&& mask)).toNat = lead.toNat + x.toNat % 2 ^ w := by
  have hlead : lead.toNat = 2 ^ w * (lead.toNat / 2 ^ w) :=
    (Nat.mul_div_cancel' (Nat.dvd_of_mod_eq_zero hl)).symm
  rw [UInt32.toNat_or, UInt32.toNat_and, hm, Nat.and_pow_two_sub_one_eq_mod, hlead]
  exact (Nat.mul_add_lt_is_or (Nat.mod_lt _ (Nat.two_pow_pos w)) _).symm

/-- `json_reader_string_add_utf32` hands over the UTF-8 encoding of its code point: the shifts
and masks of each branch compute the encoding in arithmetic. A value past 0x1fffff gets no
byte. -/
theorem utf32Bytes_toNat (c : UInt32) :
    (utf32Bytes c).map UInt32.toNat = utf8Encode c.toNat := by
  have h6 : (c >>> 6).toNat = c.toNat / 64 := UInt32.toNat_shiftRight c 6 (by decide)
  have h12 : (c >>> 12).toNat = c.toNat / 4096 := UInt32.toNat_shiftRight c 12 (by decide)
  have h18 : (c >>> 18).toNat = c.toNat / 262144 := UInt32.toNat_shiftRight c 18 (by decide)
  have tail : ∀ x : UInt32, ((0x80 : UInt32) ||| (x &&& 0x3f)).toNat = 0x80 + x.toNat % 64 :=
    orMask_toNat 6 rfl rfl
  have lead2 : ∀ x : UInt32, ((0xc0 : UInt32) ||| (x &&& 0x1f)).toNat = 0xc0 + x.toNat % 32 :=
    orMask_toNat 5 rfl rfl
  have lead3 : ∀ x : UInt32, ((0xe0 : UInt32) ||| (x &&& 0x0f)).toNat = 0xe0 + x.toNat % 16 :=
    orMask_toNat 4 rfl rfl
  have lead4 : ∀ x : UInt32, ((0xf0 : UInt32) ||| (x &&& 0x07)).toNat = 0xf0 + x.toNat % 8 :=
    orMask_toNat 3 rfl rfl
  unfold utf32Bytes utf8Encode
  simp only [UInt32.le_iff_toNat_le, UInt32.reduceToNat]
  split_ifs <;> simp only [List.map, tail, lead2, lead3, lead4, h6, h12, h18, List.cons.injEq,
    and_true] <;> omega

-- The euro sign.
example : (utf32Bytes 0x20ac).map UInt32.toNat = [0xe2, 0x82, 0xac] := by decide

/-! ## Reading the bytes back -/

/-- What a lead byte says: how many continuation bytes follow, the bits of the value it holds,
and the range the first continuation byte must lie in. -/
structure Lead where
  tails : Nat
  bits : Nat
  lo : Nat
  hi : Nat
  deriving DecidableEq, Repr

/-- The table of well-formed UTF-8. No character starts with a continuation byte, with the
overlong leads 0xc0 and 0xc1, or with 0xf5 and above. After 0xe0 and 0xf0 the first continuation
byte rules out overlong forms. After 0xed it rules out surrogates, and after 0xf4 values past
0x10ffff. -/
def leadByte (b : Nat) : Option Lead :=
  if b ≤ 0x7f then some ⟨0, b, 0x80, 0xbf⟩
  else if b < 0xc2 then none
  else if b ≤ 0xdf then some ⟨1, b - 0xc0, 0x80, 0xbf⟩
  else if b = 0xe0 then some ⟨2, 0, 0xa0, 0xbf⟩
  else if b = 0xed then some ⟨2, 0xd, 0x80, 0x9f⟩
  else if b ≤ 0xef then some ⟨2, b - 0xe0, 0x80, 0xbf⟩
  else if b = 0xf0 then some ⟨3, 0, 0x90, 0xbf⟩
  else if b ≤ 0xf3 then some ⟨3, b - 0xf0, 0x80, 0xbf⟩
  else if b = 0xf4 then some ⟨3, 4, 0x80, 0x8f⟩
  else none

/-- `k` continuation bytes, the first between `lo` and `hi` and the others between 0x80 and
0xbf, each adding its six low bits to `v`. -/
def utf8Tails : Nat → Nat → Nat → Nat → List Nat → Option (Nat × List Nat)
  | 0, v, _, _, bs => some (v, bs)
  | _ + 1, _, _, _, [] => none
  | k + 1, v, lo, hi, b :: bs =>
    if lo ≤ b ∧ b ≤ hi then utf8Tails k (v * 64 + (b - 0x80)) 0x80 0xbf bs else none

/-- A UTF-8 decoder: the character a byte sequence starts with, and the bytes after it. -/
def utf8Decode : List Nat → Option (Nat × List Nat)
  | [] => none
  | b :: bs => (leadByte b).bind fun l => utf8Tails l.tails l.bits l.lo l.hi bs

/-- A Unicode scalar value: at most 0x10ffff, and not a surrogate. -/
def IsScalar (n : Nat) : Prop := n ≤ 0x10ffff ∧ ¬ (0xd800 ≤ n ∧ n ≤ 0xdfff)

instance : DecidablePred IsScalar := fun n =>
  inferInstanceAs (Decidable (n ≤ 0x10ffff ∧ ¬ (0xd800 ≤ n ∧ n ≤ 0xdfff)))

theorem utf8Decode_one {a : Nat} (ha : a < 0x80) (rest : List Nat) :
    utf8Decode (a :: rest) = some (a, rest) := by
  simp [utf8Decode, leadByte, utf8Tails, Nat.le_of_lt_succ ha]

theorem utf8Decode_two {a b : Nat} (ha : 2 ≤ a ∧ a < 32) (hb : b < 64) (rest : List Nat) :
    utf8Decode ((0xc0 + a) :: (0x80 + b) :: rest) = some (a * 64 + b, rest) := by
  simp (disch := omega) only [utf8Decode, leadByte, utf8Tails, if_pos, if_neg, Option.some_bind]
  simp

/-- The decoder on the shape of a three-byte encoding: it refuses an overlong form and a
surrogate. -/
theorem utf8Decode_three {a b c : Nat} (ha : a < 16) (hb : b < 64) (hc : c < 64)
    (rest : List Nat) :
    utf8Decode ((0xe0 + a) :: (0x80 + b) :: (0x80 + c) :: rest) =
      if a = 0 ∧ b < 32 ∨ a = 13 ∧ 32 ≤ b then none else some ((a * 64 + b) * 64 + c, rest) := by
  simp (disch := omega) only [utf8Decode, leadByte, if_pos, if_neg]
  split_ifs <;> simp (disch := omega) only [Option.some_bind, utf8Tails, if_pos, if_neg,
    Option.some.injEq, Prod.mk.injEq, and_true] <;> omega

/-- The decoder on the shape of a four-byte encoding: it refuses an overlong form and a value
past 0x10ffff. -/
theorem utf8Decode_four {a b c d : Nat} (ha : a < 8) (hb : b < 64) (hc : c < 64) (hd : d < 64)
    (rest : List Nat) :
    utf8Decode ((0xf0 + a) :: (0x80 + b) :: (0x80 + c) :: (0x80 + d) :: rest) =
      if a = 0 ∧ b < 16 ∨ a = 4 ∧ 16 ≤ b ∨ 4 < a then none
      else some (((a * 64 + b) * 64 + c) * 64 + d, rest) := by
  simp (disch := omega) only [utf8Decode, leadByte, if_pos, if_neg]
  split_ifs <;> simp (disch := omega) only [Option.some_bind, Option.none_bind, utf8Tails, if_pos,
    if_neg, Option.some.injEq, Prod.mk.injEq, and_true] <;> omega

theorem utf8Decode_encode {n : Nat} (h : IsScalar n) (rest : List Nat) :
    utf8Decode (utf8Encode n ++ rest) = some (n, rest) := by
  obtain ⟨hmax, hsur⟩ := h
  have h4 : n ≤ 0x1fffff := by omega
  simp only [utf8Encode, h4, if_true]
  split_ifs with h1 h2 h3 <;> simp only [List.cons_append, List.nil_append]
  · exact utf8Decode_one (by omega) rest
  · rw [utf8Decode_two (by omega) (by omega)]
    simp only [Option.some.injEq, Prod.mk.injEq, and_true]; omega
  · rw [utf8Decode_three (by omega) (by omega) (by omega), if_neg (by omega)]
    simp only [Option.some.injEq, Prod.mk.injEq, and_true]; omega
  · rw [utf8Decode_four (by omega) (by omega) (by omega) (by omega), if_neg (by omega)]
    simp only [Option.some.injEq, Prod.mk.injEq, and_true]; omega

/-- Decode characters until the bytes run out; `fuel` bounds the characters. -/
def utf8DecodeAll : Nat → List Nat → Option (List Nat)
  | _, [] => some []
  | 0, _ :: _ => none
  | fuel + 1, b :: bs =>
    (utf8Decode (b :: bs)).bind fun r => (utf8DecodeAll fuel r.2).map (r.1 :: ·)

def utf8DecodeString (bs : List Nat) : Option (List Nat) := utf8DecodeAll bs.length bs

theorem utf8Encode_ne_nil {n : Nat} (h : IsScalar n) : utf8Encode n ≠ [] := by
  unfold IsScalar at h
  unfold utf8Encode
  split_ifs <;> first | omega | exact List.cons_ne_nil _ _

theorem length_le_flatMap_utf8Encode {ns : List Nat} (h : ∀ n ∈ ns, IsScalar n) :
    ns.length ≤ (ns.flatMap utf8Encode).length := by
  induction ns with
  | nil => exact Nat.le_refl 0
  | cons n ns ih =>
    have hn := List.length_pos.mpr (utf8Encode_ne_nil (h n (List.mem_cons_self n ns)))
    have := ih fun m hm => h m (List.mem_cons_of_mem n hm)
    simp only [List.flatMap_cons, List.length_append, List.length_cons]
    omega

theorem utf8DecodeAll_flatMap {ns : List Nat} (h : ∀ n ∈ ns, IsScalar n) {fuel : Nat}
    (hf : ns.length ≤ fuel) : utf8DecodeAll fuel (ns.flatMap utf8Encode) = some ns := by
  induction ns generalizing fuel with
  | nil => cases fuel <;> rfl
  | cons n ns ih =>
    obtain ⟨fuel, rfl⟩ : ∃ f, fuel = f + 1 := ⟨fuel - 1, by simp at hf; omega⟩
    have hn := h n (List.mem_cons_self n ns)
    obtain ⟨b, bs, hb⟩ := List.exists_cons_of_ne_nil
      (List.append_ne_nil_of_left_ne_nil (utf8Encode_ne_nil hn) (ns.flatMap utf8Encode))
    rw [List.flatMap_cons, hb, utf8DecodeAll, ← hb, utf8Decode_encode hn, Option.some_bind,
      ih (fun m hm => h m (List.mem_cons_of_mem n hm)) (Nat.le_of_succ_le_succ hf)]
    rfl

/-- **A string of code points comes back from the bytes `json_reader_string_add_utf32` adds.**
When every code point the reader passes is a Unicode scalar value, the bytes handed to
`json_reader_string_add_char`, one call after another, are well-formed UTF-8. A decoder reads
those code points back from them. -/
theorem utf32_bytes_decode_all (cs : List UInt32) (h : ∀ c ∈ cs, IsScalar c.toNat) :
    utf8DecodeString (cs.flatMap fun c => (utf32Bytes c).map UInt32.toNat) =
      some (cs.map UInt32.toNat) := by
  have hs : ∀ n ∈ cs.map UInt32.toNat, IsScalar n := by simpa using h
  simp only [utf32Bytes_toNat, utf8DecodeString, ← List.flatMap_map]
  exact utf8DecodeAll_flatMap hs (length_le_flatMap_utf8Encode hs)

theorem utf32_bytes_decode_all_mixed :
    (∀ c ∈ [0x41, 0xe9, 0x20ac, 0x1f600], IsScalar (UInt32.toNat c)) ∧
      utf8DecodeString ([0x41, 0xe9, 0x20ac, 0x1f600].flatMap fun c =>
        (utf32Bytes c).map UInt32.toNat) = some [0x41, 0xe9, 0x20ac, 0x1f600] :=
  have h : ∀ c ∈ [0x41, 0xe9, 0x20ac, 0x1f600], IsScalar (UInt32.toNat c) := by decide
  ⟨h, utf32_bytes_decode_all _ h⟩

end GrpcCore.Json.Rewrite
