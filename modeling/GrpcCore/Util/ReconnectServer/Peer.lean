import GrpcCore.Util.ReconnectServer.Model

/-! # The peer check of `on_connect`

`on_connect` finds the last ':' of a later peer with `strrchr`, then compares the bytes before
it with the stored peer through `strncmp`. This module says what that computes. There is a
"peer does not contain a ':'" line when the peer has no ':'. There is a "mismatched peer!" line
when the part before the last ':' is not a prefix of the stored peer. Otherwise nothing is
logged. The check compares a prefix, not the whole host, so a stored peer whose host only begins
with the new peer's host passes. -/

namespace GrpcCore.Util.Reconnect

/-! ## The host part of a peer -/

/-- The bytes of `p` before its last ':', when it has one. -/
def hostPart : List UInt8 → Option (List UInt8)
  | [] => none
  | b :: p => match hostPart p with
    | some host => some (b :: host)
    | none => if b = colon then some [] else none

theorem hostPart_eq_none_iff {p : List UInt8} : hostPart p = none ↔ colon ∉ p := by
  induction p with
  | nil => simp [hostPart]
  | cons b p ih =>
    cases h : hostPart p with
    | some host => simp [hostPart, h, ← ih]
    | none => simp only [hostPart, h, ih.mp h, List.mem_cons, or_false]; split_ifs <;> simp_all [eq_comm]

theorem hostPart_split {host port : List UInt8} (hport : colon ∉ port) :
    hostPart (host ++ colon :: port) = some host := by
  induction host <;> simp_all [hostPart, hostPart_eq_none_iff.mpr hport]

theorem hostPart_eq_some {p host : List UInt8} (h : hostPart p = some host) :
    ∃ port, p = host ++ colon :: port ∧ colon ∉ port := by
  induction p generalizing host with
  | nil => cases h
  | cons b p ih =>
    cases hp : hostPart p with
    | some host' =>
      obtain ⟨port, rfl, hport⟩ := ih hp
      simp only [hostPart, hp, Option.some.injEq] at h
      exact ⟨port, by simp [← h], hport⟩
    | none =>
      simp only [hostPart, hp] at h
      split_ifs at h with hb
      cases h
      exact ⟨p, by simp [hb], hostPart_eq_none_iff.mp hp⟩

/-- `hostPart` splits a peer at its last ':'. -/
theorem hostPart_eq_some_iff {p host : List UInt8} :
    hostPart p = some host ↔ ∃ port, p = host ++ colon :: port ∧ colon ∉ port :=
  ⟨hostPart_eq_some, fun ⟨_, hp, hport⟩ => hp ▸ hostPart_split hport⟩

theorem strrchr_lt {p : List UInt8} {c : UInt8} {i : Nat} (h : strrchr p c = some i) :
    i < p.length := by
  induction p generalizing i with
  | nil => cases h
  | cons b p ih =>
    simp only [strrchr] at h
    split at h
    · cases h; simpa using ih ‹_›
    · split_ifs at h; cases h; simp

theorem hostPart_eq_strrchr (p : List UInt8) : hostPart p = (strrchr p colon).map p.take := by
  induction p with
  | nil => rfl
  | cons b p ih =>
    cases h : strrchr p colon with
    | some i => simp [hostPart, strrchr, ih, h]
    | none => simp only [hostPart, strrchr, ih, h, Option.map_none']; split_ifs <;> rfl

/-- Over a string with no NUL, `strncmp` of `n` bytes finds no difference exactly when the first
`n` bytes of the second string start the first. -/
theorem strncmp_eq_zero_iff {q p : List UInt8} {n : Nat} (hp : 0 ∉ p) (hn : n ≤ p.length) :
    strncmp q p n = 0 ↔ p.take n <+: q := by
  induction n generalizing q p with
  | zero => simp [strncmp]
  | succ n ih =>
    obtain _ | ⟨d, p⟩ := p
    · simp at hn
    have hd : d.toNat ≠ 0 := fun h => hp (List.mem_cons.mpr (.inl (UInt8.toNat.inj (b := 0) h).symm))
    cases q with
    | nil => simp [strncmp]; omega
    | cons c q =>
      simp only [strncmp, List.take_succ_cons, List.cons_prefix_cons]
      by_cases hc : c = d
      · simp [hc, ih (q := q) (fun h => hp (List.mem_cons_of_mem d h)) (by simpa using hn)]
      · have : c.toNat ≠ d.toNat := fun h => hc (UInt8.toNat.inj h)
        simp [hc, Ne.symm hc]; omega

/-! ## The check -/

/-- What the check computes: no ':' in the new peer, or a host part that does not start the
stored peer. -/
def checkPeerSpec (stored peer : CString) : List LogLine :=
  match hostPart peer.bytes with
  | none => [.noColon]
  | some host => if host <+: stored.bytes then [] else [.mismatchedPeer stored peer]

/-- **The peer check compares the new peer's host part as a prefix of the stored peer.** -/
theorem checkPeer_eq_spec (stored peer : CString) : checkPeer stored peer = checkPeerSpec stored peer := by
  unfold checkPeer checkPeerSpec
  rw [hostPart_eq_strrchr]
  cases h : strrchr peer.bytes colon with
  | none => rfl
  | some i => simp [strncmp_eq_zero_iff peer.no_nul (Nat.le_of_lt (strrchr_lt h))]

-- A client at 10.0.0.1 passes the check against one stored from 10.0.0.12.
example : checkPeer ⟨[49, 48, 46, 48, 46, 48, 46, 49, 50, 58, 56, 48], by decide⟩
    ⟨[49, 48, 46, 48, 46, 48, 46, 49, 58, 56, 49], by decide⟩ = [] := by decide

end GrpcCore.Util.Reconnect
