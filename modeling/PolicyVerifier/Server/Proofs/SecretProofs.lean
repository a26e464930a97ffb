import PolicyVerifier.Server.Config.Hs256Rotation

/-!
# The measure of a secret against its decoder

What a secret is taken to carry is never more than the bytes it decodes to, under any of the readings it
decodes under. The two recognisers of each alphabet, the one that measures and the one that decodes, are
compared on the parts a decoded string is made of.
-/

namespace PolicyVerifier.Server

open Js

/-! ## Hexadecimal -/

theorem length_hexBytes (s : Str) : (hexBytes s).length = s.length / 2 := by
  fun_induction hexBytes s with
  | case1 c d s ih =>
    simp only [List.length_cons, ih]
    omega
  | case2 s hshort =>
    rcases s with _ | ⟨c, _ | ⟨d, s⟩⟩
    · rfl
    · simp
    · exact absurd rfl (hshort c d s)

theorem hexByteLength_eq {s : Str} (h : isHexPairs s = true) :
    hexByteLength s = some (hexBytes s).length := by
  unfold isHexPairs at h
  simp only [Bool.and_eq_true, beq_iff_eq, Bool.not_eq_true', List.isEmpty_eq_false_iff] at h
  obtain ⟨⟨heven, hnonempty⟩, hletters⟩ := h
  have hlength : s.length ≠ 0 := fun hzero => hnonempty (List.length_eq_zero_iff.1 hzero)
  rw [hexByteLength, if_neg (by omega), if_pos hletters, length_hexBytes]

/-! ## Base64 -/

theorem not_letter_pad {c : UInt16} (h : isBase64Letter c = true) : c ≠ 0x3D := by
  rintro rfl
  exact absurd h (by decide)

/-- A strict base64 text: letters, the padding that makes them whole groups, and the bytes they carry. -/
structure StrictParts (s body : Str) (padding : Nat) : Prop where
  text : s = body ++ List.replicate padding 0x3D
  letters : ∀ c ∈ body, isBase64Letter c = true
  nonempty : body ≠ []
  padded : padding ≤ 2
  whole : (body.length + padding) % 4 = 0
  bytes : (base64Bytes s).length = body.length * 3 / 4

/-- A group of four letters before a strict base64 text leaves it one. -/
theorem StrictParts.group {a b c d : UInt16} {s body : Str} {padding : Nat}
    (h : StrictParts s body padding) (hgroup : ∀ x ∈ [a, b, c, d], isBase64Letter x = true) :
    StrictParts (a :: b :: c :: d :: s) (a :: b :: c :: d :: body) padding where
  text := by
    rw [h.text]
    rfl
  letters := by
    intro x hx
    have hsplit : x ∈ [a, b, c, d] ∨ x ∈ body := by
      rw [← List.mem_append]
      exact hx
    exact hsplit.elim (hgroup x) (h.letters x)
  nonempty := by simp
  padded := h.padded
  whole := by
    have hwhole := h.whole
    simp only [List.length_cons]
    omega
  bytes := by
    have hc := not_letter_pad (hgroup c (by simp))
    have hd := not_letter_pad (hgroup d (by simp))
    rw [base64Bytes]
    simp only [if_neg hc, if_neg hd, List.length_cons, h.bytes]
    omega

/-- What the strict recogniser accepts is letters and the padding they call for. -/
theorem strictParts_of_isStrictBase64 {s : Str} (h : isStrictBase64 s = true) :
    ∃ body padding, StrictParts s body padding := by
  fun_induction isStrictBase64 s with
  | case1 a b c d =>
    simp only [Bool.and_eq_true, Bool.or_eq_true, beq_iff_eq] at h
    obtain ⟨⟨ha, hb⟩, ⟨hc, hd | rfl⟩ | ⟨rfl, rfl⟩⟩ := h
    · refine ⟨[a, b, c, d], 0, rfl, by simp [ha, hb, hc, hd], by simp, by omega, by simp, ?_⟩
      simp [base64Bytes, not_letter_pad hc, not_letter_pad hd]
    · refine ⟨[a, b, c], 1, rfl, by simp [ha, hb, hc], by simp, by omega, by simp, ?_⟩
      simp [base64Bytes, not_letter_pad hc]
    · exact ⟨[a, b], 2, rfl, by simp [ha, hb], by simp, by omega, by simp, by simp [base64Bytes]⟩
  | case2 a b c d s hmore ih =>
    obtain ⟨hgroup, hrest⟩ := Bool.and_eq_true_iff.1 h
    obtain ⟨body, padding, hparts⟩ := ih hrest
    exact ⟨_, padding, hparts.group (List.all_eq_true.1 hgroup)⟩
  | case3 s => exact absurd h (by simp)

/-- The padding counted from the end of a text of letters and padding is its padding. -/
theorem takeWhile_pad {body : Str} (padding : Nat) (h : ∀ c ∈ body, isBase64Letter c = true) :
    (((body ++ List.replicate padding 0x3D).reverse.takeWhile fun c => c = 0x3D).length) = padding := by
  have hletters : body.reverse.takeWhile (fun c => decide (c = 0x3D)) = [] := by
    cases hlast : body.reverse with
    | nil => rfl
    | cons c rest =>
      have hmem : c ∈ body := List.mem_reverse.1 (hlast ▸ List.mem_cons_self ..)
      exact List.takeWhile_cons_of_neg (by simpa using not_letter_pad (h c hmem))
  rw [List.reverse_append, List.reverse_replicate, List.takeWhile_append_of_pos, hletters]
  · simp
  · intro c hc
    exact decide_eq_true (List.eq_of_mem_replicate hc)

theorem base64ByteLength_eq {s : Str} (h : isStrictBase64 s = true) :
    base64ByteLength s = some (base64Bytes s).length := by
  obtain ⟨body, padding, hparts⟩ := strictParts_of_isStrictBase64 h
  have hcount := takeWhile_pad padding hparts.letters
  have hbody : (body ++ List.replicate padding 0x3D).take body.length = body := List.take_left' rfl
  have hlength : (body ++ List.replicate padding 0x3D).length - padding = body.length := by simp
  have hnonempty : body.length ≠ 0 := fun hzero => hparts.nonempty (List.length_eq_zero_iff.1 hzero)
  have hletters : body.all isBase64Letter = true := List.all_eq_true.2 hparts.letters
  have hpadded := hparts.padded
  have hwhole := hparts.whole
  rw [hparts.bytes, hparts.text, base64ByteLength]
  simp only [hcount, hlength, hbody]
  rw [if_neg (by omega), if_neg hnonempty, hletters, if_neg (by simp), if_neg (by omega), if_neg (by omega)]

/-! ## The measure -/

/-- The measure is at most each of its readings. -/
theorem measureSecretEntropyBytes_le {secret : Str} {n : Nat}
    (h : utf8Length secret = n ∨ hexByteLength secret = some n ∨ base64ByteLength secret = some n) :
    measureSecretEntropyBytes secret ≤ n := by
  have hmem : n ∈ utf8Length secret :: [hexByteLength secret, base64ByteLength secret].filterMap id := by
    rw [List.mem_cons, List.mem_filterMap]
    simpa [eq_comm] using h
  exact List.min_le_of_mem hmem

theorem decodeSecret_hex {secret : Str} {bytes : List UInt8} :
    decodeSecret secret .hex = some bytes ↔ isHexPairs secret = true ∧ hexBytes secret = bytes := by
  simp [decodeSecret]

theorem decodeSecret_base64 {secret : Str} {bytes : List UInt8} :
    decodeSecret secret .base64 = some bytes ↔ isStrictBase64 secret = true ∧ base64Bytes secret = bytes := by
  simp [decodeSecret]

/-- A secret carries at most the bytes it decodes to, under every reading it decodes under. -/
theorem measure_le_decoded {secret : Str} {encoding : SecretEncoding} {bytes : List UInt8}
    (h : decodeSecret secret encoding = some bytes) : measureSecretEntropyBytes secret ≤ bytes.length := by
  cases encoding with
  | utf8 =>
    obtain rfl := Option.some.inj h
    exact measureSecretEntropyBytes_le (.inl rfl)
  | hex =>
    obtain ⟨hpairs, rfl⟩ := decodeSecret_hex.1 h
    exact measureSecretEntropyBytes_le (.inr (.inl (hexByteLength_eq hpairs)))
  | base64 =>
    obtain ⟨hstrict, rfl⟩ := decodeSecret_base64.1 h
    exact measureSecretEntropyBytes_le (.inr (.inr (base64ByteLength_eq hstrict)))

/-- Whether a secret decodes under a reading and carries what the floor asks for: the measure when it is read
as text, and the bytes it decodes to otherwise. -/
def ClearsFloor (encoding : SecretEncoding) (secret : Str) : Prop :=
  ∃ bytes, decodeSecret secret encoding = some bytes ∧
    minSecretEntropyBytes ≤ if encoding = .utf8 then measureSecretEntropyBytes secret else bytes.length

theorem clearsEntropyFloor_nil {secret field : Str} {path : List PathPart} {encoding : SecretEncoding} :
    clearsEntropyFloor secret field path encoding = [] ↔ ClearsFloor encoding secret := by
  unfold clearsEntropyFloor ClearsFloor
  cases encoding with
  | utf8 => simp [decodeSecret]
  | hex => cases hdecode : decodeSecret secret .hex <;> simp
  | base64 => cases hdecode : decodeSecret secret .base64 <;> simp

/-- A secret that clears the floor decodes to at least the floor's number of bytes. -/
theorem ClearsFloor.bytes {encoding : SecretEncoding} {secret : Str} (h : ClearsFloor encoding secret) :
    ∃ bytes, decodeSecret secret encoding = some bytes ∧ minSecretEntropyBytes ≤ bytes.length := by
  obtain ⟨bytes, hbytes, hfloor⟩ := h
  refine ⟨bytes, hbytes, ?_⟩
  split at hfloor
  · exact hfloor.trans (measure_le_decoded hbytes)
  · exact hfloor

/-- How the measure of a secret stands to what it decodes to. -/
structure MeasuredByReading (secret : Str) : Prop where
  /-- The measure is at most the bytes of any reading. -/
  atMost : ∀ encoding bytes, decodeSecret secret encoding = some bytes →
    measureSecretEntropyBytes secret ≤ bytes.length
  /-- What strict base64 accepts is recognised with the same number of bytes. -/
  base64 : ∀ bytes, decodeSecret secret .base64 = some bytes → base64ByteLength secret = some bytes.length
  /-- What hexadecimal decoding accepts is recognised with the same number of bytes. -/
  hex : ∀ bytes, decodeSecret secret .hex = some bytes → hexByteLength secret = some bytes.length
  /-- A secret that clears the floor in the default reading clears it in every one it decodes under. -/
  clears : ∀ field path, clearsEntropyFloor secret field path defaultSecretEncoding = [] →
    ∀ encoding, (decodeSecret secret encoding).isSome → ∀ field path,
      clearsEntropyFloor secret field path encoding = []

/-- Every string is measured by the smallest of the readings it decodes under, or by less. -/
theorem measured_by_reading (secret : Str) : MeasuredByReading secret where
  atMost := fun _ _ => measure_le_decoded
  base64 := by
    intro bytes h
    obtain ⟨hstrict, rfl⟩ := decodeSecret_base64.1 h
    exact base64ByteLength_eq hstrict
  hex := by
    intro bytes h
    obtain ⟨hpairs, rfl⟩ := decodeSecret_hex.1 h
    exact hexByteLength_eq hpairs
  clears := by
    intro field path hclears encoding hdecodes field' path'
    obtain ⟨bytes, hbytes⟩ := Option.isSome_iff_exists.1 hdecodes
    obtain ⟨_, -, hfloor⟩ := clearsEntropyFloor_nil.1 hclears
    have hmeasure : minSecretEntropyBytes ≤ measureSecretEntropyBytes secret := hfloor
    refine clearsEntropyFloor_nil.2 ⟨bytes, hbytes, ?_⟩
    split
    · exact hmeasure
    · exact hmeasure.trans (measure_le_decoded hbytes)

end PolicyVerifier.Server
