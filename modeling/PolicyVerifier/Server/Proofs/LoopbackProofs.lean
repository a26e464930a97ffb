import PolicyVerifier.Server.Boot

/-!
# Which addresses are loopback

The names the pattern of the source matches, written out: `localhost`, `[::1]`, and the dotted quads of
`127.0.0.0/8` in their one canonical spelling.
-/

namespace PolicyVerifier.Server

open Js

/-- The hostname is the local machine's by definition: a name, or a canonical quad of the loopback block. -/
inductive Loopback : Str → Prop where
  | localhost : Loopback (js "localhost")
  | ipv6 : Loopback (js "[::1]")
  | quad (b c d : Nat) (hb : b ≤ 255) (hc : c ≤ 255) (hd : d ≤ 255) :
      Loopback (js "127." ++ decimal b ++ js "." ++ decimal c ++ js "." ++ decimal d)

theorem exists_digit {c : UInt16} (h : isDecimalDigit c = true) : ∃ k < 10, c = UInt16.ofNat (0x30 + k) := by
  simp only [isDecimalDigit, Bool.and_eq_true, decide_eq_true_eq, UInt16.le_iff_toNat_le, UInt16.reduceToNat] at h
  refine ⟨c.toNat - 0x30, by omega, ?_⟩
  rw [show 0x30 + (c.toNat - 0x30) = c.toNat by omega, UInt16.ofNat_toNat]

theorem isOctet_decimal : ∀ n ≤ 255, isOctet (decimal n) = true ∧ (0x2E : UInt16) ∉ decimal n := by
  decide +kernel

theorem octet_two : ∀ j < 10, ∀ k < 10, isOctet [UInt16.ofNat (0x30 + j), UInt16.ofNat (0x30 + k)] = true →
    [UInt16.ofNat (0x30 + j), UInt16.ofNat (0x30 + k)] = decimal (10 * j + k) := by
  decide +kernel

theorem octet_three : ∀ i < 10, ∀ j < 10, ∀ k < 10,
    isOctet [UInt16.ofNat (0x30 + i), UInt16.ofNat (0x30 + j), UInt16.ofNat (0x30 + k)] = true →
      [UInt16.ofNat (0x30 + i), UInt16.ofNat (0x30 + j), UInt16.ofNat (0x30 + k)] = decimal (100 * i + 10 * j + k) ∧
        100 * i + 10 * j + k ≤ 255 := by
  decide +kernel

/-- An octet is a canonical decimal from 0 to 255. -/
theorem isOctet_iff {s : Str} : isOctet s = true ↔ ∃ n ≤ 255, s = decimal n := by
  constructor
  · intro h
    match s, h with
    | [c], h =>
      obtain ⟨k, hk, rfl⟩ := exists_digit h
      refine ⟨k, by omega, ?_⟩
      revert k
      decide +kernel
    | [c, d], h =>
      have hdigits : isDecimalDigit c = true ∧ isDecimalDigit d = true := by
        simp only [isOctet, isDecimalDigit, Bool.and_eq_true, decide_eq_true_eq, UInt16.le_iff_toNat_le,
          UInt16.reduceToNat] at h ⊢
        omega
      obtain ⟨j, hj, rfl⟩ := exists_digit hdigits.1
      obtain ⟨k, hk, rfl⟩ := exists_digit hdigits.2
      exact ⟨10 * j + k, by omega, octet_two j hj k hk h⟩
    | [c, d, e], h =>
      have hdigits : isDecimalDigit c = true ∧ isDecimalDigit d = true ∧ isDecimalDigit e = true := by
        simp only [isOctet, isDecimalDigit, Bool.and_eq_true, Bool.or_eq_true, beq_iff_eq, decide_eq_true_eq,
          UInt16.le_iff_toNat_le, UInt16.reduceToNat] at h ⊢
        rcases h with (⟨⟨rfl, hd⟩, he⟩ | ⟨⟨rfl, hd⟩, he⟩) | ⟨⟨rfl, rfl⟩, he⟩
        · simp only [UInt16.reduceToNat]
          omega
        · simp only [UInt16.reduceToNat]
          omega
        · simp only [UInt16.reduceToNat]
          omega
      obtain ⟨i, hi, rfl⟩ := exists_digit hdigits.1
      obtain ⟨j, hj, rfl⟩ := exists_digit hdigits.2.1
      obtain ⟨k, hk, rfl⟩ := exists_digit hdigits.2.2
      obtain ⟨heq, hle⟩ := octet_three i hi j hj k hk h
      exact ⟨100 * i + 10 * j + k, hle, heq⟩
    | [], h => exact absurd h (by simp [isOctet])
    | _ :: _ :: _ :: _ :: _, h => exact absurd h (by simp [isOctet])
  · rintro ⟨n, hn, rfl⟩
    exact (isOctet_decimal n hn).1

/-- `LOOPBACK_IPV4` matches the canonical quads of its block and nothing else. -/
theorem isLoopbackIpv4_iff {s : Str} : isLoopbackIpv4 s = true ↔ ∃ b c d, b ≤ 255 ∧ c ≤ 255 ∧ d ≤ 255 ∧
    s = js "127." ++ decimal b ++ js "." ++ decimal c ++ js "." ++ decimal d := by
  have hwritten : ∀ b c d : Str, [(0x2E : UInt16)].intercalate [js "127", b, c, d] =
      js "127." ++ b ++ js "." ++ c ++ js "." ++ d := by
    intro b c d
    rw [show js "127." = js "127" ++ [0x2E] from rfl, show js "." = [0x2E] from rfl]
    simp [List.intercalate]
  constructor
  · intro h
    unfold isLoopbackIpv4 at h
    split at h
    · rename_i a b c d hsplit
      simp only [Bool.and_eq_true, beq_iff_eq] at h
      obtain ⟨⟨⟨rfl, hb⟩, hc⟩, hd⟩ := h
      obtain ⟨b, hb', rfl⟩ := isOctet_iff.1 hb
      obtain ⟨c, hc', rfl⟩ := isOctet_iff.1 hc
      obtain ⟨d, hd', rfl⟩ := isOctet_iff.1 hd
      refine ⟨b, c, d, hb', hc', hd', ?_⟩
      rw [← hwritten, ← hsplit]
      exact (List.intercalate_splitOn 0x2E).symm
    · exact absurd h (by simp)
  · rintro ⟨b, c, d, hb, hc, hd, rfl⟩
    have hsplit : ([(0x2E : UInt16)].intercalate [js "127", decimal b, decimal c, decimal d]).splitOn 0x2E =
        [js "127", decimal b, decimal c, decimal d] := by
      refine List.splitOn_intercalate _ ?_ (by simp)
      intro part hpart
      simp only [List.mem_cons, List.not_mem_nil, or_false] at hpart
      rcases hpart with rfl | rfl | rfl | rfl
      · decide
      · exact (isOctet_decimal b hb).2
      · exact (isOctet_decimal c hc).2
      · exact (isOctet_decimal d hd).2
    rw [hwritten] at hsplit
    unfold isLoopbackIpv4
    rw [hsplit]
    simp [(isOctet_decimal b hb).1, (isOctet_decimal c hc).1, (isOctet_decimal d hd).1]

theorem isLoopbackHost_iff {s : Str} : isLoopbackHost s = true ↔ Loopback s := by
  unfold isLoopbackHost
  rw [Bool.or_eq_true, Bool.or_eq_true, beq_iff_eq, beq_iff_eq, isLoopbackIpv4_iff]
  constructor
  · rintro ((rfl | rfl) | ⟨b, c, d, hb, hc, hd, rfl⟩)
    · exact .localhost
    · exact .ipv6
    · exact .quad b c d hb hc hd
  · intro h
    cases h with
    | localhost => exact .inl (.inl rfl)
    | ipv6 => exact .inl (.inr rfl)
    | quad b c d hb hc hd => exact .inr ⟨b, c, d, hb, hc, hd, rfl⟩

/-- The address an operator wrote binds to the local machine only. -/
def LoopbackBind (hostname : Str) : Prop :=
  unbracketed (toLowerCase (trim hostname)) = js "::1" ∨
    unbracketed (toLowerCase (trim hostname)) = js "::ffff:127.0.0.1" ∨
      Loopback (unbracketed (toLowerCase (trim hostname)))

theorem isLoopbackBindAddress_iff {hostname : Str} : isLoopbackBindAddress hostname = true ↔ LoopbackBind hostname := by
  unfold isLoopbackBindAddress LoopbackBind
  dsimp only
  rw [Bool.or_eq_true, beq_iff_eq, isLoopbackHost_iff]
  split_ifs with hipv6
  · exact iff_of_true (.inr .ipv6) (.inl hipv6)
  · constructor
    · rintro (hmapped | hloopback)
      · exact .inr (.inl hmapped)
      · exact .inr (.inr hloopback)
    · rintro (h | hmapped | hloopback)
      · exact absurd h hipv6
      · exact .inl hmapped
      · exact .inr hloopback

end PolicyVerifier.Server
