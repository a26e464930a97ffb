import PolicyVerifier.Js.Json

/-!
# JSON text can be read back

Whatever follows a literal, the literal ends where it ends: two texts that begin with a string or an
integer and agree hold the same string or integer, and agree on the rest.
-/

namespace Js

namespace Json

/-! ## Strings -/

/-- The number a hexadecimal digit stands for. -/
def hexValue (c : UInt16) : Nat := if c < 0x3A then c.toNat - 0x30 else c.toNat - 0x57

/-- The code unit a letter after the backslash stands for. -/
def longForm (e : UInt16) : UInt16 :=
  if e = 0x62 then 0x08
  else if e = 0x74 then 0x09
  else if e = 0x6E then 0x0A
  else if e = 0x66 then 0x0C
  else if e = 0x72 then 0x0D
  else e

/-- Reads a string up to its closing quotation mark: the string, and the text after it. -/
def unquote : Str → Option (Str × Str)
  | [] => none
  | c :: text =>
    if c = quotationMark then some ([], text)
    else if c ≠ reverseSolidus then (unquote text).map (Prod.map (c :: ·) id)
    else
      match text with
      | 0x75 :: a :: b :: c :: d :: text =>
        (unquote text).map
          (Prod.map (UInt16.ofNat
            (hexValue a * 0x1000 + hexValue b * 0x100 + hexValue c * 0x10 + hexValue d) :: ·) id)
      | e :: text => (unquote text).map (Prod.map (longForm e :: ·) id)
      | [] => none

theorem hexValue_hexDigit : ∀ n < 16, hexValue (hexDigit n) = n := by decide

/-- A code unit that stands for itself is read as itself. -/
theorem unquote_plain {c : UInt16} (hq : c ≠ quotationMark) (hs : c ≠ reverseSolidus) (text : Str) :
    unquote (c :: text) = (unquote text).map (Prod.map (c :: ·) id) := by
  rw [unquote.eq_def]
  simp [hq, hs]

theorem unquote_unicodeEscape (c : UInt16) (text : Str) :
    unquote (unicodeEscape c ++ text) = (unquote text).map (Prod.map (c :: ·) id) := by
  have hc := c.toNat_lt
  have hback : UInt16.ofNat (c.toNat / 0x1000 * 0x1000 + c.toNat / 0x100 % 0x10 * 0x100 +
      c.toNat / 0x10 % 0x10 * 0x10 + c.toNat % 0x10) = c := by
    rw [show c.toNat / 0x1000 * 0x1000 + c.toNat / 0x100 % 0x10 * 0x100 +
      c.toNat / 0x10 % 0x10 * 0x10 + c.toNat % 0x10 = c.toNat by omega, UInt16.ofNat_toNat]
  rw [unicodeEscape, unquote.eq_def]
  simp only [List.cons_append, List.nil_append]
  rw [if_neg (by decide), if_neg (by decide)]
  simp only [hexValue_hexDigit (c.toNat / 0x1000) (by omega),
    hexValue_hexDigit (c.toNat / 0x100 % 0x10) (by omega),
    hexValue_hexDigit (c.toNat / 0x10 % 0x10) (by omega),
    hexValue_hexDigit (c.toNat % 0x10) (by omega), hback]

theorem shortEscape_back {c e : UInt16} (h : shortEscape c = some e) : longForm e = c ∧ e ≠ 0x75 := by
  unfold shortEscape at h
  repeat' split at h
  all_goals first
    | (obtain rfl := Option.some.inj h; subst c; exact ⟨by decide, by decide⟩)
    | exact absurd h (by simp)

theorem unquote_shortEscape {c e : UInt16} (h : shortEscape c = some e) (text : Str) :
    unquote (reverseSolidus :: e :: text) = (unquote text).map (Prod.map (c :: ·) id) := by
  obtain ⟨hback, hu⟩ := shortEscape_back h
  rw [unquote.eq_def]
  simp only
  rw [if_neg (by decide), if_neg (by decide)]
  split
  · rename_i heq
    exact absurd (List.cons.inj heq).1 hu
  · rename_i heq
    obtain ⟨rfl, rfl⟩ := List.cons.inj heq
    rw [hback]
  · rename_i heq
    exact absurd heq (by simp)

/-- Whatever a code unit is written as, it is read as itself. -/
theorem unquote_escapeUnit (c : UInt16) (text : Str) :
    unquote (escapeUnit c ++ text) = (unquote text).map (Prod.map (c :: ·) id) := by
  unfold escapeUnit
  split
  · rename_i e he
    exact unquote_shortEscape he text
  · rename_i hshort
    split
    · exact unquote_unicodeEscape c text
    · refine unquote_plain ?_ ?_ text
      · rintro rfl
        exact absurd hshort (by decide)
      · rintro rfl
        exact absurd hshort (by decide)

theorem surrogate_plain {c : UInt16} (h : isHighSurrogate c = true ∨ isLowSurrogate c = true) :
    c ≠ quotationMark ∧ c ≠ reverseSolidus := by
  refine ⟨?_, ?_⟩
  · rintro rfl
    exact absurd h (by decide)
  · rintro rfl
    exact absurd h (by decide)

theorem unquote_close (text : Str) : unquote (quotationMark :: text) = some ([], text) := by
  rw [unquote.eq_def]
  simp

/-- A string is read back off its literal, and the text after it is left. -/
theorem unquote_escape (s text : Str) :
    unquote (escape s ++ quotationMark :: text) = some (s, text) := by
  induction s using escape.induct with
  | case1 => exact unquote_close text
  | case2 c =>
    rw [escape, unquote_escapeUnit, unquote_close]
    rfl
  | case3 c d s hpair ih =>
    obtain ⟨hc, hd⟩ := Bool.and_eq_true_iff.1 hpair
    obtain ⟨hcq, hcs⟩ := surrogate_plain (Or.inl hc)
    obtain ⟨hdq, hds⟩ := surrogate_plain (Or.inr hd)
    rw [escape, if_pos hpair, List.cons_append, List.cons_append, unquote_plain hcq hcs,
      unquote_plain hdq hds, ih]
    rfl
  | case4 c d s hpair ih =>
    rw [escape, if_neg hpair, List.append_assoc, unquote_escapeUnit, ih]
    rfl

/-- Two texts that begin with string literals and agree hold one string and one rest. -/
theorem quote_append_inj {s t u v : Str} (h : quote s ++ u = quote t ++ v) : s = t ∧ u = v := by
  have hbody : escape s ++ quotationMark :: u = escape t ++ quotationMark :: v := by
    simpa [quote] using h
  have hread := congrArg unquote hbody
  rw [unquote_escape, unquote_escape] at hread
  exact Prod.mk.inj (Option.some.inj hread)

theorem quote_injective {s t : Str} (h : quote s = quote t) : s = t :=
  (quote_append_inj (u := []) (v := []) (by rw [h])).1

/-! ## Integers -/

/-- The code units of the decimal digits. -/
def isDigit (c : UInt16) : Bool := 0x30 ≤ c && c ≤ 0x39

theorem units_of_isDigit {c : Char} (h : c.isDigit = true) :
    units c = [UInt16.ofNat c.toNat] ∧ 0x30 ≤ c.toNat ∧ c.toNat ≤ 0x39 := by
  have hval : 0x30 ≤ c.toNat ∧ c.toNat ≤ 0x39 := by
    simpa [Char.isDigit, UInt32.le_iff_toNat_le] using h
  refine ⟨?_, hval⟩
  rw [units, if_pos (by omega)]

theorem decimal_eq_map (n : Nat) :
    decimal n = (Nat.toDigits 10 n).map fun c => UInt16.ofNat c.toNat := by
  have hdigits : ∀ ds : List Char, (∀ c ∈ ds, c.isDigit = true) →
      ds.flatMap units = ds.map fun c => UInt16.ofNat c.toNat := by
    intro ds hds
    induction ds with
    | nil => rfl
    | cons c ds ih =>
      rw [List.flatMap_cons, (units_of_isDigit (hds c (by simp))).1, List.map_cons,
        ih fun d hd => hds d (List.mem_cons_of_mem c hd), List.singleton_append]
  exact hdigits _ fun c hc => Nat.isDigit_of_mem_toDigits (by omega) (by omega) hc

theorem isDigit_decimal (n : Nat) : ∀ c ∈ decimal n, isDigit c = true := by
  intro c hc
  rw [decimal_eq_map] at hc
  obtain ⟨d, hd, rfl⟩ := List.mem_map.1 hc
  obtain ⟨-, hlo, hhi⟩ := units_of_isDigit (Nat.isDigit_of_mem_toDigits (by omega) (by omega) hd)
  simp only [isDigit, Bool.and_eq_true, decide_eq_true_eq, UInt16.le_iff_toNat_le, UInt16.toNat_ofNat']
  refine ⟨?_, ?_⟩
  · show 48 ≤ _
    omega
  · show _ ≤ 57
    omega

theorem decimal_ne_nil (n : Nat) : decimal n ≠ [] := by
  rw [decimal_eq_map]
  simp [Nat.toDigits_ne_nil]

theorem toDigits_of_decimal (n : Nat) :
    (decimal n).map (fun c => Char.ofNat c.toNat) = Nat.toDigits 10 n := by
  rw [decimal_eq_map, List.map_map]
  conv_rhs => rw [← List.map_id (Nat.toDigits 10 n)]
  refine List.map_congr_left fun c hc => ?_
  obtain ⟨-, -, hhi⟩ := units_of_isDigit (Nat.isDigit_of_mem_toDigits (by omega) (by omega) hc)
  have hfits : (UInt16.ofNat c.toNat).toNat = c.toNat := by
    rw [UInt16.toNat_ofNat', Nat.mod_eq_of_lt (by omega)]
  show Char.ofNat (UInt16.ofNat c.toNat).toNat = c
  rw [hfits, Char.ofNat_toNat]

theorem decimal_injective {m n : Nat} (h : decimal m = decimal n) : m = n := by
  rw [← Nat.ofDigitChars_ten_toDigits (n := m), ← toDigits_of_decimal, h, toDigits_of_decimal,
    Nat.ofDigitChars_ten_toDigits]

/-- Text that does not go on with a digit. -/
def EndsNumber (text : Str) : Prop := ∀ c ∈ text.head?, isDigit c = false

theorem takeWhile_decimal {n : Nat} {text : Str} (h : EndsNumber text) :
    (decimal n ++ text).takeWhile isDigit = decimal n := by
  rw [List.takeWhile_append_of_pos (isDigit_decimal n)]
  cases text with
  | nil => simp
  | cons c text => simp [h c rfl]

theorem decimal_append_inj {m n : Nat} {u v : Str} (hu : EndsNumber u) (hv : EndsNumber v)
    (h : decimal m ++ u = decimal n ++ v) : m = n ∧ u = v := by
  have hdigits : decimal m = decimal n := by
    rw [← takeWhile_decimal hu, h, takeWhile_decimal hv]
  refine ⟨decimal_injective hdigits, ?_⟩
  rw [hdigits] at h
  exact List.append_cancel_left h

theorem head_decimal (n : Nat) : ∃ c s, decimal n = c :: s ∧ isDigit c = true := by
  obtain ⟨c, s, hcs⟩ := List.exists_cons_of_ne_nil (decimal_ne_nil n)
  exact ⟨c, s, hcs, isDigit_decimal n c (by rw [hcs]; simp)⟩

/-- Two texts that begin with integers, and do not go on with a digit, hold one integer and one
rest when they agree. -/
theorem integer_append_inj {y z : Int} {u v : Str} (hu : EndsNumber u) (hv : EndsNumber v)
    (h : integer y ++ u = integer z ++ v) : y = z ∧ u = v := by
  cases y with
  | ofNat m =>
    cases z with
    | ofNat n =>
      obtain ⟨rfl, rfl⟩ := decimal_append_inj hu hv h
      exact ⟨rfl, rfl⟩
    | negSucc n =>
      obtain ⟨c, s, hcs, hc⟩ := head_decimal m
      rw [integer, integer, hcs] at h
      obtain ⟨rfl, -⟩ := List.cons.inj h
      exact absurd hc (by decide)
  | negSucc m =>
    cases z with
    | ofNat n =>
      obtain ⟨c, s, hcs, hc⟩ := head_decimal n
      rw [integer, integer, hcs] at h
      obtain ⟨rfl, -⟩ := List.cons.inj h
      exact absurd hc (by decide)
    | negSucc n =>
      obtain ⟨hmn, rfl⟩ := decimal_append_inj hu hv (List.cons.inj h).2
      obtain rfl : m = n := by omega
      exact ⟨rfl, rfl⟩

end Json

end Js
