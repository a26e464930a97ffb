import PolicyVerifier.Js.Proofs.JsonProofs
import PolicyVerifier.Js.TextDecoder

/-!
# UTF-8 read back

The decoder undoes the encoder, character by character: a well-formed string is what the decoder makes of its
UTF-8. So two well-formed strings of the same bytes are the same string.
-/

namespace Js

open Json

namespace TextDecoder

variable {d : TextDecoder}

theorem toNat_ofNat_of_lt {n : ℕ} (h : n < 256) : (UInt8.ofNat n).toNat = n := by
  rw [UInt8.toNat_ofNat', Nat.mod_eq_of_lt h]

theorem le_ofNat_iff {b : UInt8} {n : ℕ} (h : n < 256) : b ≤ UInt8.ofNat n ↔ b.toNat ≤ n := by
  rw [UInt8.le_iff_toNat_le, toNat_ofNat_of_lt h]

theorem ofNat_le_iff {b : UInt8} {n : ℕ} (h : n < 256) : UInt8.ofNat n ≤ b ↔ n ≤ b.toNat := by
  rw [UInt8.le_iff_toNat_le, toNat_ofNat_of_lt h]

/-- A decoder outside a character, with something decoded already. -/
def between : TextDecoder := { started := true }

/-- A byte in the bounds continues the character it comes in. -/
theorem byte_of_continuing {n : ℕ} (hneeded : d.needed ≠ 0) (hn : n < 256)
    (hlower : d.lower.toNat ≤ n) (hupper : n ≤ d.upper.toNat) :
    d.byte (UInt8.ofNat n) =
      if d.needed = 1 then d.emit (d.codePoint * 0x40 + n % 0x40)
      else ({ d with
        needed := d.needed - 1
        codePoint := d.codePoint * 0x40 + n % 0x40
        lower := 0x80
        upper := 0xBF }, []) := by
  rw [byte, if_neg hneeded, if_pos ⟨(le_ofNat_iff hn).2 hlower, (ofNat_le_iff hn).2 hupper⟩,
    toNat_ofNat_of_lt hn]

/-- The last byte of a character. -/
theorem decode_last {n : ℕ} (hneeded : d.needed = 1) (hn : n < 256)
    (hlower : d.lower.toNat ≤ n) (hupper : n ≤ d.upper.toNat) :
    d.decode [UInt8.ofNat n] = d.emit (d.codePoint * 0x40 + n % 0x40) := by
  rw [decode, decode, byte_of_continuing (by omega) hn hlower hupper, if_pos hneeded, List.append_nil]

/-- Any byte of a character between its first and its last. -/
theorem decode_middle {n : ℕ} {rest : List UInt8} (hneeded : 1 < d.needed) (hn : n < 256)
    (hlower : d.lower.toNat ≤ n) (hupper : n ≤ d.upper.toNat) :
    d.decode (UInt8.ofNat n :: rest) =
      decode { d with
        needed := d.needed - 1
        codePoint := d.codePoint * 0x40 + n % 0x40
        lower := 0x80
        upper := 0xBF } rest := by
  rw [decode, byte_of_continuing (by omega) hn hlower hupper, if_neg (by omega)]
  rfl

/-- A code point that is no surrogate, and that UTF-8 can write. -/
structure IsScalar (n : ℕ) : Prop where
  bound : n < 0x110000
  noSurrogate : n < 0xD800 ∨ 0xE000 ≤ n

theorem emit_of_started (h : d.started = true) (n : ℕ) : d.emit n = (between, fromCodePoint n) := by
  simp [emit, reset, between, h]

/-! ## The first byte of a character -/

/-- The decoder in a character of which so many bytes are to come, its first one read. -/
def inside (needed codePoint : ℕ) (lower upper : UInt8) : TextDecoder :=
  { needed, codePoint, lower, upper, started := true }

theorem byte_between (b : UInt8) : between.byte b = between.lead b := rfl

theorem decode_one {a : ℕ} (h : a < 0x80) : between.decode [UInt8.ofNat a] = (between, fromCodePoint a) := by
  have hbyte : between.byte (UInt8.ofNat a) = between.emit a := by
    rw [byte_between, lead, if_pos ((ofNat_le_iff (by omega)).2 (Nat.le_of_lt_succ h)),
      toNat_ofNat_of_lt (by omega)]
  rw [decode, decode, hbyte, emit_of_started rfl, List.append_nil]

theorem decode_lead_two {a : ℕ} {rest : List UInt8} (h : 0xC2 ≤ a) (h' : a ≤ 0xDF) :
    between.decode (UInt8.ofNat a :: rest) = (inside 1 (a % 0x20) 0x80 0xBF).decode rest := by
  have ha : (UInt8.ofNat a).toNat = a := toNat_ofNat_of_lt (by omega)
  have hbyte : between.byte (UInt8.ofNat a) = (inside 1 (a % 0x20) 0x80 0xBF, []) := by
    rw [byte_between, lead, if_neg, if_pos, ha]
    · rfl
    · simp only [UInt8.le_iff_toNat_le, ha, UInt8.reduceToNat]
      omega
    · simp only [UInt8.le_iff_toNat_le, ha, UInt8.reduceToNat]
      omega
  rw [decode, hbyte]
  rfl

theorem decode_lead_three {a : ℕ} {rest : List UInt8} (h : 0xE0 ≤ a) (h' : a ≤ 0xEF) :
    between.decode (UInt8.ofNat a :: rest) =
      (inside 2 (a % 0x10) (if a = 0xE0 then 0xA0 else 0x80) (if a = 0xED then 0x9F else 0xBF)).decode rest := by
  have ha : (UInt8.ofNat a).toNat = a := toNat_ofNat_of_lt (by omega)
  have heq : ∀ b : UInt8, UInt8.ofNat a = b ↔ a = b.toNat := fun b => by rw [← UInt8.toNat_inj, ha]
  have hbyte : between.byte (UInt8.ofNat a) =
      (inside 2 (a % 0x10) (if a = 0xE0 then 0xA0 else 0x80) (if a = 0xED then 0x9F else 0xBF), []) := by
    rw [byte_between, lead, if_neg, if_neg, if_pos, ha]
    · simp only [heq, UInt8.reduceToNat]
      rfl
    all_goals
      simp only [UInt8.le_iff_toNat_le, ha, UInt8.reduceToNat]
      omega
  rw [decode, hbyte]
  rfl

theorem decode_lead_four {a : ℕ} {rest : List UInt8} (h : 0xF0 ≤ a) (h' : a ≤ 0xF4) :
    between.decode (UInt8.ofNat a :: rest) =
      (inside 3 (a % 8) (if a = 0xF0 then 0x90 else 0x80) (if a = 0xF4 then 0x8F else 0xBF)).decode rest := by
  have ha : (UInt8.ofNat a).toNat = a := toNat_ofNat_of_lt (by omega)
  have heq : ∀ b : UInt8, UInt8.ofNat a = b ↔ a = b.toNat := fun b => by rw [← UInt8.toNat_inj, ha]
  have hbyte : between.byte (UInt8.ofNat a) =
      (inside 3 (a % 8) (if a = 0xF0 then 0x90 else 0x80) (if a = 0xF4 then 0x8F else 0xBF), []) := by
    rw [byte_between, lead, if_neg, if_neg, if_neg, if_pos, ha]
    · simp only [heq, UInt8.reduceToNat]
      rfl
    all_goals
      simp only [UInt8.le_iff_toNat_le, ha, UInt8.reduceToNat]
      omega
  rw [decode, hbyte]
  rfl

/-! ## A character -/

/-- A character is read back off its bytes. -/
theorem decode_utf8Point {n : ℕ} (h : IsScalar n) : between.decode (utf8Point n) = (between, fromCodePoint n) := by
  have hbound := h.bound
  have hnoSurrogate := h.noSurrogate
  unfold utf8Point
  split
  · exact decode_one ‹_›
  split
  · rw [decode_lead_two (by omega) (by omega), decode_last rfl (by omega)
      (show 0x80 ≤ _ by omega) (show _ ≤ 0xBF by omega), emit_of_started rfl]
    congr 2
    show (0xC0 + n / 0x40) % 0x20 * 0x40 + (0x80 + n % 0x40) % 0x40 = n
    omega
  split
  · have hlower : (if 0xE0 + n / 0x1000 = 0xE0 then 0xA0 else 0x80 : UInt8).toNat ≤ 0x80 + n / 0x40 % 0x40 := by
      split
      · show 0xA0 ≤ _
        omega
      · show 0x80 ≤ _
        omega
    have hupper : 0x80 + n / 0x40 % 0x40 ≤ (if 0xE0 + n / 0x1000 = 0xED then 0x9F else 0xBF : UInt8).toNat := by
      split
      · show _ ≤ 0x9F
        omega
      · show _ ≤ 0xBF
        omega
    rw [decode_lead_three (by omega) (by omega), decode_middle (show 1 < 2 by omega) (by omega) hlower hupper,
      decode_last rfl (by omega) (show 0x80 ≤ _ by omega) (show _ ≤ 0xBF by omega), emit_of_started rfl]
    congr 2
    show ((0xE0 + n / 0x1000) % 0x10 * 0x40 + (0x80 + n / 0x40 % 0x40) % 0x40) * 0x40 +
      (0x80 + n % 0x40) % 0x40 = n
    omega
  · have hlower : (if 0xF0 + n / 0x40000 = 0xF0 then 0x90 else 0x80 : UInt8).toNat ≤
        0x80 + n / 0x1000 % 0x40 := by
      split
      · show 0x90 ≤ _
        omega
      · show 0x80 ≤ _
        omega
    have hupper : 0x80 + n / 0x1000 % 0x40 ≤
        (if 0xF0 + n / 0x40000 = 0xF4 then 0x8F else 0xBF : UInt8).toNat := by
      split
      · show _ ≤ 0x8F
        omega
      · show _ ≤ 0xBF
        omega
    rw [decode_lead_four (by omega) (by omega), decode_middle (show 1 < 3 by omega) (by omega) hlower hupper,
      decode_middle (show 1 < 2 by omega) (by omega) (show 0x80 ≤ _ by omega) (show _ ≤ 0xBF by omega),
      decode_last rfl (by omega) (show 0x80 ≤ _ by omega) (show _ ≤ 0xBF by omega), emit_of_started rfl]
    congr 2
    show (((0xF0 + n / 0x40000) % 8 * 0x40 + (0x80 + n / 0x1000 % 0x40) % 0x40) * 0x40 +
      (0x80 + n / 0x40 % 0x40) % 0x40) * 0x40 + (0x80 + n % 0x40) % 0x40 = n
    omega

end TextDecoder

/-! ## A string -/

/-- The code unit of a character on its own is no surrogate. -/
theorem isScalar_alone {c : UInt16} (h : isHighSurrogate c = false ∧ isLowSurrogate c = false) :
    utf8Bytes.alone c = c.toNat ∧ TextDecoder.IsScalar c.toNat := by
  have hc := c.toNat_lt
  obtain ⟨hhigh, hlow⟩ := h
  refine ⟨by rw [utf8Bytes.alone, hhigh, hlow]; rfl, ⟨by omega, ?_⟩⟩
  simp only [isHighSurrogate, isLowSurrogate, Bool.and_eq_false_iff, decide_eq_false_iff_not,
    UInt16.le_iff_toNat_le, UInt16.reduceToNat] at hhigh hlow
  omega

/-- The character a surrogate pair stands for is written back as the pair. -/
theorem fromCodePoint_pair {c d : UInt16} (hc : isHighSurrogate c = true) (hd : isLowSurrogate d = true) :
    TextDecoder.IsScalar (0x10000 + (c.toNat - 0xD800) * 0x400 + (d.toNat - 0xDC00)) ∧
      fromCodePoint (0x10000 + (c.toNat - 0xD800) * 0x400 + (d.toNat - 0xDC00)) = [c, d] := by
  simp only [isHighSurrogate, isLowSurrogate, Bool.and_eq_true, decide_eq_true_eq,
    UInt16.le_iff_toNat_le, UInt16.reduceToNat] at hc hd
  refine ⟨⟨by omega, by omega⟩, ?_⟩
  rw [fromCodePoint, if_neg (by omega)]
  have hhigh : 0xD800 + (0x10000 + (c.toNat - 0xD800) * 0x400 + (d.toNat - 0xDC00) - 0x10000) / 0x400 =
      c.toNat := by omega
  have hlow : 0xDC00 + (0x10000 + (c.toNat - 0xD800) * 0x400 + (d.toNat - 0xDC00) - 0x10000) % 0x400 =
      d.toNat := by omega
  rw [hhigh, hlow, UInt16.ofNat_toNat, UInt16.ofNat_toNat]

theorem fromCodePoint_toNat (c : UInt16) : fromCodePoint c.toNat = [c] := by
  rw [fromCodePoint, if_pos c.toNat_lt, UInt16.ofNat_toNat]

theorem decode_alone {c : UInt16} (h : isHighSurrogate c = false ∧ isLowSurrogate c = false) :
    TextDecoder.between.decode (utf8Point (utf8Bytes.alone c)) = (TextDecoder.between, [c]) := by
  obtain ⟨halone, hscalar⟩ := isScalar_alone h
  rw [halone, TextDecoder.decode_utf8Point hscalar, fromCodePoint_toNat]

/-- A well-formed string is read back off its UTF-8. -/
theorem decode_utf8Bytes (s : Str) (h : isWellFormed s = true) :
    TextDecoder.between.decode (utf8Bytes s) = (TextDecoder.between, s) := by
  induction s using utf8Bytes.induct with
  | case1 => rfl
  | case2 c =>
    simp only [isWellFormed, Bool.not_eq_true', Bool.or_eq_false_iff] at h
    exact decode_alone h
  | case3 c d s hpair ih =>
    rw [isWellFormed, if_pos hpair] at h
    rw [Bool.and_eq_true] at hpair
    obtain ⟨hscalar, hback⟩ := fromCodePoint_pair hpair.1 hpair.2
    rw [utf8Bytes, if_pos (by rw [hpair.1, hpair.2]; rfl), TextDecoder.decode_append,
      TextDecoder.decode_utf8Point hscalar, hback, ih h]
    rfl
  | case4 c d s hpair ih =>
    rw [isWellFormed, if_neg hpair, Bool.and_eq_true] at h
    obtain ⟨hc, hrest⟩ := h
    simp only [Bool.not_eq_true', Bool.or_eq_false_iff] at hc
    rw [utf8Bytes, if_neg hpair, TextDecoder.decode_append, decode_alone hc, ih hrest]
    rfl

/-- Well-formed strings of the same bytes are the same string. -/
theorem utf8Bytes_inj {s t : Str} (hs : isWellFormed s = true) (ht : isWellFormed t = true) :
    utf8Bytes s = utf8Bytes t ↔ s = t := by
  refine ⟨fun h => ?_, congrArg _⟩
  have hdecoded : (TextDecoder.between, s) = (TextDecoder.between, t) := by
    rw [← decode_utf8Bytes s hs, h, decode_utf8Bytes t ht]
  exact (Prod.mk.inj hdecoded).2

/-! ## The bytes of a joined string -/

/-- Strings are written apart where no surrogate pair is cut between them. -/
theorem utf8Bytes_append {s t : Str}
    (h : ∀ c ∈ s.getLast?, ∀ d ∈ t.head?, ¬ (isHighSurrogate c && isLowSurrogate d) = true) :
    utf8Bytes (s ++ t) = utf8Bytes s ++ utf8Bytes t := by
  induction s using utf8Bytes.induct with
  | case1 => rfl
  | case2 c =>
    cases t with
    | nil => simp [utf8Bytes]
    | cons d t =>
      show utf8Bytes (c :: d :: t) = utf8Point (utf8Bytes.alone c) ++ utf8Bytes (d :: t)
      rw [utf8Bytes, if_neg (h c rfl d rfl)]
  | case3 c d s hpair ih =>
    have hrest := ih fun c' hc' => h c' (by
      rw [List.getLast?_cons, List.getLast?_cons]
      cases hlast : s.getLast? with
      | none => rw [hlast] at hc'; exact absurd hc' (by simp)
      | some last => rw [hlast] at hc'; simpa using hc')
    rw [List.cons_append, List.cons_append, utf8Bytes, if_pos hpair, hrest, utf8Bytes, if_pos hpair,
      List.append_assoc]
  | case4 c d s hpair ih =>
    have hrest := ih fun c' hc' => h c' (by rw [List.getLast?_cons_cons]; exact hc')
    rw [List.cons_append] at hrest
    rw [List.cons_append, List.cons_append, utf8Bytes, if_neg hpair, hrest, utf8Bytes, if_neg hpair,
      List.append_assoc]

/-- What follows a character that starts no surrogate pair is written apart. -/
theorem utf8Bytes_cut_after {s t : Str} {c : UInt16} (hc : isHighSurrogate c = false) :
    utf8Bytes (s ++ [c] ++ t) = utf8Bytes (s ++ [c]) ++ utf8Bytes t := by
  refine utf8Bytes_append fun c' hc' d _ => ?_
  obtain rfl : c = c' := by simpa using hc'
  rw [hc]
  simp

/-- And so is what stands before one that ends none. -/
theorem utf8Bytes_cut_before {s t : Str} {c : UInt16} (hc : isLowSurrogate c = false) :
    utf8Bytes (s ++ c :: t) = utf8Bytes s ++ utf8Bytes (c :: t) := by
  refine utf8Bytes_append fun c' _ d hd => ?_
  obtain rfl : c = d := by simpa using hd
  rw [hc]
  simp

/-! ## ASCII -/

theorem no_surrogate_of_ascii {c : UInt16} (h : c.toNat < 0x80) :
    isHighSurrogate c = false ∧ isLowSurrogate c = false := by
  simp only [isHighSurrogate, isLowSurrogate, Bool.and_eq_false_iff, decide_eq_false_iff_not,
    UInt16.le_iff_toNat_le, UInt16.reduceToNat]
  omega

/-- The bytes of ASCII characters are the characters. -/
theorem utf8Bytes_ascii {s : Str} (h : ∀ c ∈ s, c.toNat < 0x80) :
    utf8Bytes s = s.map fun c => UInt8.ofNat c.toNat := by
  induction s with
  | nil => rfl
  | cons c s ih =>
    have hc : c.toNat < 0x80 := h c List.mem_cons_self
    have hsurrogate := no_surrogate_of_ascii hc
    have hone : utf8Bytes [c] = [UInt8.ofNat c.toNat] := by
      rw [utf8Bytes, (isScalar_alone hsurrogate).1, utf8Point, if_pos hc]
    have hcut : utf8Bytes ([] ++ [c] ++ s) = utf8Bytes ([] ++ [c]) ++ utf8Bytes s :=
      utf8Bytes_cut_after hsurrogate.1
    rw [List.nil_append, List.singleton_append] at hcut
    rw [hcut, hone, ih fun d hd => h d (List.mem_cons_of_mem c hd)]
    rfl

theorem isWellFormed_ascii {s : Str} (h : ∀ c ∈ s, c.toNat < 0x80) : isWellFormed s = true := by
  induction s using isWellFormed.induct with
  | case1 => rfl
  | case2 c =>
    obtain ⟨hhigh, hlow⟩ := no_surrogate_of_ascii (h c List.mem_cons_self)
    rw [isWellFormed, hhigh, hlow]
    rfl
  | case3 c d s hpair ih =>
    rw [(no_surrogate_of_ascii (h c List.mem_cons_self)).1] at hpair
    exact absurd hpair (by simp)
  | case4 c d s hpair ih =>
    obtain ⟨hhigh, hlow⟩ := no_surrogate_of_ascii (h c List.mem_cons_self)
    have hrest := ih fun e he => h e (List.mem_cons_of_mem c he)
    rw [isWellFormed, if_neg hpair, hhigh, hlow, hrest]
    rfl

end Js
