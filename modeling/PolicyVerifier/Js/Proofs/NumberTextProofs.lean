import PolicyVerifier.Js.NumberText
import PolicyVerifier.Js.Proofs.JsonProofs
import PolicyVerifier.Js.Strings
import PolicyVerifier.Lib.Framing

/-!
# What the text of a number tells

The text of a number holds the decimal it was written from, and the decimal rounds back to the number. So two
numbers with one text are the same number, up to the sign of zero.
-/

namespace Js

open Json

/-! ## Digits and their value -/

/-- The number some digits stand for. -/
def ofDigits (digits : Str) : Nat := digits.foldl (fun n c => 10 * n + (c.toNat - 0x30)) 0

theorem ofDigits_append (s t : Str) : ofDigits (s ++ t) = ofDigits s * 10 ^ t.length + ofDigits t := by
  have hfold : ∀ (t : Str) (n : Nat), t.foldl (fun n c => 10 * n + (c.toNat - 0x30)) n =
      n * 10 ^ t.length + ofDigits t := by
    intro t
    induction t with
    | nil => simp [ofDigits]
    | cons c t ih =>
      intro n
      have hcons : ofDigits (c :: t) = (10 * 0 + (c.toNat - 0x30)) * 10 ^ t.length + ofDigits t := ih _
      rw [List.foldl_cons, ih, hcons, List.length_cons, pow_succ]
      ring
  rw [ofDigits, List.foldl_append, hfold]
  rfl

theorem ofDigits_zeros (count : Nat) : ofDigits (zeros count) = 0 := by
  induction count with
  | zero => rfl
  | succ count ih =>
    rw [zeros, List.replicate_succ', ← zeros, ofDigits_append, ih]
    rfl

theorem length_zeros (count : Nat) : (zeros count).length = count := List.length_replicate

theorem ofDigits_decimal (n : Nat) : ofDigits (decimal n) = n := by
  have hfold : ∀ (ds : List Char) (m : Nat), (∀ c ∈ ds, c.isDigit = true) →
      (ds.map fun c => UInt16.ofNat c.toNat).foldl (fun n c => 10 * n + (c.toNat - 0x30)) m =
        Nat.ofDigitChars 10 ds m := by
    intro ds
    induction ds with
    | nil => intro m _; rfl
    | cons c ds ih =>
      intro m hds
      obtain ⟨-, -, hhi⟩ := units_of_isDigit (hds c (by simp))
      have hunit : (UInt16.ofNat c.toNat).toNat = c.toNat := by
        rw [UInt16.toNat_ofNat', Nat.mod_eq_of_lt (by omega)]
      rw [List.map_cons, List.foldl_cons, ih _ fun d hd => hds d (by simp [hd]), hunit, Nat.ofDigitChars_cons]
      rfl
  rw [decimal_eq_map, ofDigits, hfold _ 0 fun c hc => Nat.isDigit_of_mem_toDigits (by omega) (by omega) hc,
    Nat.ofDigitChars_ten_toDigits]

theorem isDigit_zeros (count : Nat) : ∀ c ∈ zeros count, isDigit c = true := by
  intro c hc
  rw [List.eq_of_mem_replicate hc]
  decide

/-! ## The parts of a text -/

/-- The parts hold digits, and there is one before the point. -/
structure Numeral.Digits (numeral : Numeral) : Prop where
  whole : ∀ c ∈ numeral.whole, isDigit c = true
  whole_ne_nil : numeral.whole ≠ []
  fraction : ∀ c ∈ numeral.fraction, isDigit c = true

theorem digits_append_inj {s t u v : Str} (hs : ∀ c ∈ s, isDigit c = true) (ht : ∀ c ∈ t, isDigit c = true)
    (hu : EndsNumber u) (hv : EndsNumber v) (h : s ++ u = t ++ v) : s = t ∧ u = v := by
  have htake : ∀ {s u : Str}, (∀ c ∈ s, isDigit c = true) → EndsNumber u → (s ++ u).takeWhile isDigit = s := by
    intro s u hs hu
    rw [List.takeWhile_append_of_pos hs]
    cases u with
    | nil => simp
    | cons c u => simp [hu c rfl]
  obtain rfl : s = t := by rw [← htake hs hu, h, htake ht hv]
  exact ⟨rfl, List.append_cancel_left h⟩

theorem endsNumber_exponentText (exponent : Option ℤ) : EndsNumber (exponentText exponent) := by
  cases exponent with
  | none => intro c hc; exact absurd hc (by simp [exponentText])
  | some e =>
    intro c hc
    obtain rfl : 0x65 = c := by simpa [exponentText, js, units] using hc
    decide

theorem endsNumber_fractionText (fraction : Str) (exponent : Option ℤ) :
    EndsNumber (fractionText fraction ++ exponentText exponent) := by
  rw [fractionText]
  split
  · exact endsNumber_exponentText exponent
  · intro c hc
    obtain rfl : 0x2E = c := by simpa [js, units] using hc
    decide

theorem exponentText_injective {e e' : Option ℤ} (h : exponentText e = exponentText e') : e = e' := by
  cases e with
  | none =>
    cases e' with
    | none => rfl
    | some e' => exact absurd h (by simp [exponentText, js, units])
  | some e =>
    cases e' with
    | none => exact absurd h (by simp [exponentText, js, units])
    | some e' =>
      simp only [exponentText, List.append_assoc, List.append_cancel_left_eq] at h
      split at h
      · split at h
        · have habs := decimal_injective (List.append_cancel_left h)
          exact congrArg some (by omega)
        · exact absurd h (by simp [js, units])
      · split at h
        · exact absurd h (by simp [js, units])
        · have habs := decimal_injective (List.append_cancel_left h)
          exact congrArg some (by omega)

/-- A text tells its parts apart. -/
theorem numeral_text_injective {a b : Numeral} (ha : a.Digits) (hb : b.Digits) (h : a.text = b.text) :
    a = b := by
  obtain ⟨whole, fraction, exponent⟩ := a
  obtain ⟨whole', fraction', exponent'⟩ := b
  simp only [Numeral.text, List.append_assoc] at h
  obtain ⟨rfl, hrest⟩ := digits_append_inj ha.whole hb.whole (endsNumber_fractionText _ _)
    (endsNumber_fractionText _ _) h
  have hparts : fraction = fraction' ∧ exponentText exponent = exponentText exponent' := by
    have hpoint : ∀ {exponent : Option ℤ} {text : Str}, exponentText exponent ≠ js "." ++ text := by
      intro exponent text heq
      cases exponent <;> exact absurd heq (by simp [exponentText, js, units])
    simp only [fractionText] at hrest
    split at hrest
    · rename_i hnil
      split at hrest
      · rename_i hnil'
        exact ⟨hnil.trans hnil'.symm, hrest⟩
      · rw [List.append_assoc] at hrest
        exact absurd hrest hpoint
    · split at hrest
      · rw [List.append_assoc] at hrest
        exact absurd hrest.symm hpoint
      · rw [List.append_assoc, List.append_assoc] at hrest
        exact digits_append_inj ha.fraction hb.fraction (endsNumber_exponentText _)
          (endsNumber_exponentText _) (List.append_cancel_left hrest)
  obtain ⟨rfl, hexponent⟩ := hparts
  rw [exponentText_injective hexponent]

/-- The number the parts stand for. -/
def Numeral.value (numeral : Numeral) : ℚ :=
  ofDigits (numeral.whole ++ numeral.fraction) * 10 ^ (numeral.exponent.getD 0 - numeral.fraction.length)

/-! ## What a decimal is written as -/

theorem Decimal.k_pos (d : Decimal) : 0 < d.k := List.length_pos_iff.2 (decimal_ne_nil d.s)

theorem Decimal.numeral_digits (d : Decimal) : d.numeral.Digits := by
  have hdigits := isDigit_decimal d.s
  have htake : ∀ m, ∀ c ∈ (decimal d.s).take m, isDigit c = true := fun m c hc =>
    hdigits c (List.mem_of_mem_take hc)
  have hdrop : ∀ m, ∀ c ∈ (decimal d.s).drop m, isDigit c = true := fun m c hc =>
    hdigits c (List.mem_of_mem_drop hc)
  have hpos := d.k_pos
  unfold Decimal.numeral
  split
  · refine ⟨fun c hc => ?_, by simp [decimal_ne_nil], fun c hc => absurd hc (by simp)⟩
    rcases List.mem_append.1 hc with hc | hc
    · exact hdigits c hc
    · exact isDigit_zeros _ c hc
  · split
    · rename_i hn
      refine ⟨htake _, ?_, hdrop _⟩
      simp only [ne_eq, List.take_eq_nil_iff, not_or]
      exact ⟨by omega, decimal_ne_nil d.s⟩
    · split
      · have hzero : ∀ c ∈ js "0", isDigit c = true := fun c hc => by
          rw [show c = 0x30 by simpa [js, units] using hc]
          rfl
        refine ⟨hzero, by simp [js, units], fun c hc => ?_⟩
        rcases List.mem_append.1 hc with hc | hc
        · exact isDigit_zeros _ c hc
        · exact hdigits c hc
      · refine ⟨htake _, ?_, hdrop _⟩
        simp [decimal_ne_nil]

/-- The parts of a decimal's text stand for the decimal. -/
theorem Decimal.numeral_value (d : Decimal) : d.numeral.value = d.value := by
  have hpos := d.k_pos
  unfold Decimal.numeral
  split
  · rename_i hn
    simp only [Numeral.value, List.append_nil, ofDigits_append, ofDigits_decimal, ofDigits_zeros, length_zeros,
      Option.getD_none, List.length_nil, Nat.cast_zero, sub_zero, zpow_zero, mul_one, add_zero]
    have hpower : (10 : ℚ) ^ (d.n - d.k) = 10 ^ (d.n - d.k).toNat := by
      rw [← zpow_natCast, Int.toNat_of_nonneg (by omega)]
    rw [Decimal.value, hpower]
    push_cast
    rfl
  · split
    · rename_i hn hn'
      simp only [Numeral.value, List.take_append_drop, ofDigits_decimal, Option.getD_none, List.length_drop]
      rw [Decimal.value]
      congr 2
      have hk : (decimal d.s).length = d.k := rfl
      rw [hk]
      omega
    · split
      · rename_i hn
        have hzero : ofDigits (js "0") = 0 := by decide
        simp only [Numeral.value, ofDigits_append, ofDigits_decimal, ofDigits_zeros, hzero, zero_mul, zero_add,
          Option.getD_none, List.length_append, length_zeros]
        rw [Decimal.value]
        congr 2
        have hk : (decimal d.s).length = d.k := rfl
        rw [hk]
        omega
      · simp only [Numeral.value, List.take_append_drop, ofDigits_decimal, Option.getD_some, List.length_drop]
        rw [Decimal.value]
        congr 2
        have hk : (decimal d.s).length = d.k := rfl
        rw [hk]
        omega

/-! ## A number that is not negative -/

/-- The text of a number no decimal was found for. -/
def ratioText (q : ℚ) : Str := decimal q.num.natAbs ++ js "/" ++ decimal q.den

/-- A text is that of a decimal that rounds back to the number, or the number's own ratio. -/
theorem magnitudeText_cases (q : ℚ) :
    (∃ d : Decimal, magnitudeText q = d.numeral.text ∧ toDouble d.value = q) ∨ magnitudeText q = ratioText q := by
  rw [magnitudeText]
  split
  · rename_i hq
    refine Or.inl ⟨{ s := 0, n := 1 }, by decide, ?_⟩
    simp [Decimal.value, toDouble, roundHalfEven, hq]
  · split
    · rename_i d hfound
      obtain ⟨digits, -, hfind⟩ := List.exists_of_findSome?_eq_some hfound
      have hrounds := List.find?_some hfind
      exact Or.inl ⟨d, rfl, by simpa using hrounds⟩
    · exact Or.inr rfl

theorem slash_not_mem_numeral (d : Decimal) : (0x2F : UInt16) ∉ d.numeral.text := by
  have hdigits := d.numeral_digits
  have hdigit : ∀ {s : Str}, (∀ c ∈ s, isDigit c = true) → (0x2F : UInt16) ∉ s := fun hs hmem =>
    absurd (hs _ hmem) (by decide)
  have hfraction : (0x2F : UInt16) ∉ fractionText d.numeral.fraction := by
    rw [fractionText]
    split
    · simp
    · have hpoint : (0x2F : UInt16) ∉ js "." := by decide
      simp [hpoint, hdigit hdigits.fraction]
  have hexponent : (0x2F : UInt16) ∉ exponentText d.numeral.exponent := by
    cases d.numeral.exponent with
    | none => simp [exponentText]
    | some e =>
      have hletter : (0x2F : UInt16) ∉ js "e" := by decide
      have hsign : (0x2F : UInt16) ∉ (if e < 0 then js "-" else js "+") := by split <;> decide
      simp only [exponentText, List.mem_append, not_or]
      exact ⟨⟨hletter, hsign⟩, hdigit (isDigit_decimal _)⟩
  simp only [Numeral.text, List.mem_append, not_or]
  exact ⟨⟨hdigit hdigits.whole, hfraction⟩, hexponent⟩

theorem slash_mem_ratioText (q : ℚ) : (0x2F : UInt16) ∈ ratioText q := by
  simp [ratioText, js, units]

theorem ratioText_injective {q r : ℚ} (hq : 0 ≤ q) (hr : 0 ≤ r) (h : ratioText q = ratioText r) : q = r := by
  have hslash : ∀ n : Nat, (0x2F : UInt16) ∉ decimal n := fun n hmem =>
    absurd (isDigit_decimal n _ hmem) (by decide)
  simp only [ratioText, List.append_assoc] at h
  obtain ⟨hnum, hden⟩ := Framing.cut_at_first (hslash _) (hslash _) h
  have hnum' := decimal_injective hnum
  have hq' := Rat.num_nonneg.2 hq
  have hr' := Rat.num_nonneg.2 hr
  exact Rat.ext (by omega) (decimal_injective hden)

theorem magnitudeText_injective {q r : ℚ} (hq : 0 ≤ q) (hr : 0 ≤ r) (h : magnitudeText q = magnitudeText r) :
    q = r := by
  rcases magnitudeText_cases q with ⟨d, hd, hround⟩ | hratio
  · rcases magnitudeText_cases r with ⟨d', hd', hround'⟩ | hratio'
    · have hnumeral : d.numeral = d'.numeral :=
        numeral_text_injective d.numeral_digits d'.numeral_digits (by rw [← hd, h, hd'])
      rw [← hround, ← hround', ← d.numeral_value, ← d'.numeral_value, hnumeral]
    · have hmem := slash_mem_ratioText r
      rw [← hratio', ← h, hd] at hmem
      exact absurd hmem (slash_not_mem_numeral d)
  · rcases magnitudeText_cases r with ⟨d', hd', hround'⟩ | hratio'
    · have hmem := slash_mem_ratioText q
      rw [← hratio, h, hd'] at hmem
      exact absurd hmem (slash_not_mem_numeral d')
    · exact ratioText_injective hq hr (by rw [← hratio, h, hratio'])

/-- A text of a number that is not negative begins with a digit. -/
theorem head_magnitudeText (q : ℚ) : ∃ c s, magnitudeText q = c :: s ∧ isDigit c = true := by
  rcases magnitudeText_cases q with ⟨d, hd, -⟩ | hratio
  · have hdigits := d.numeral_digits
    obtain ⟨c, s, hcs⟩ := List.exists_cons_of_ne_nil hdigits.whole_ne_nil
    exact ⟨c, _, by rw [hd, Numeral.text, hcs]; rfl, hdigits.whole c (by rw [hcs]; simp)⟩
  · obtain ⟨c, s, hcs, hc⟩ := head_decimal q.num.natAbs
    exact ⟨c, _, by rw [hratio, ratioText, hcs]; rfl, hc⟩

/-! ## Every number -/

/-- The text of a finite number begins with a digit, after a minus where the number is negative. -/
theorem numberText_rat (q : ℚ) : ∃ c s, isDigit c = true ∧
    (numberText (.rat q) = c :: s ∧ 0 ≤ q ∨ numberText (.rat q) = 0x2D :: c :: s ∧ q < 0) := by
  simp only [numberText]
  split
  · rename_i hq
    obtain ⟨c, s, hcs, hc⟩ := head_magnitudeText (-q)
    exact ⟨c, s, hc, Or.inr ⟨by rw [hcs]; rfl, hq⟩⟩
  · rename_i hq
    obtain ⟨c, s, hcs, hc⟩ := head_magnitudeText q
    exact ⟨c, s, hc, Or.inl ⟨hcs, not_lt.1 hq⟩⟩

/-- The text of a number that is not finite begins with no digit, and with none after a minus. -/
theorem numberText_word {n : Number} (hn : n.isFinite = false) : ∃ c d s, numberText n = c :: d :: s ∧
    isDigit c = false ∧ (c = 0x2D → isDigit d = false) := by
  cases n with
  | negZero => exact absurd hn (by simp [Number.isFinite])
  | rat q => exact absurd hn (by simp [Number.isFinite])
  | nan => exact ⟨_, _, _, rfl, rfl, by decide⟩
  | infinity negative => cases negative <;> exact ⟨_, _, _, rfl, rfl, by decide⟩

/-- No finite number is written as a number that is not. -/
theorem numberText_rat_ne (q : ℚ) {n : Number} (hn : n.isFinite = false) :
    numberText (.rat q) ≠ numberText n := by
  obtain ⟨c, d, s, hword, hc, hd⟩ := numberText_word hn
  obtain ⟨e, t, he, ⟨htext, -⟩ | ⟨htext, -⟩⟩ := numberText_rat q
  · intro heq
    obtain ⟨rfl, -⟩ := List.cons.inj (htext.symm.trans (heq.trans hword))
    exact absurd (he.symm.trans hc) (by decide)
  · intro heq
    obtain ⟨hminus, hrest⟩ := List.cons.inj (htext.symm.trans (heq.trans hword))
    obtain ⟨rfl, -⟩ := List.cons.inj hrest
    exact absurd (he.symm.trans (hd hminus.symm)) (by decide)

theorem numberText_rat_injective {q r : ℚ} (h : numberText (.rat q) = numberText (.rat r)) : q = r := by
  have hminus : ∀ c s t, isDigit c = true → (c :: s : Str) ≠ 0x2D :: t := by
    rintro c s t hc heq
    obtain ⟨rfl, -⟩ := List.cons.inj heq
    exact absurd hc (by decide)
  obtain ⟨c, s, hc, hq⟩ := numberText_rat q
  obtain ⟨d, t, hd, hr⟩ := numberText_rat r
  rcases hq with ⟨hq, hqpos⟩ | ⟨hq, hqneg⟩
  · rcases hr with ⟨hr, hrpos⟩ | ⟨hr, hrneg⟩
    · simp only [numberText, if_neg (not_lt.2 hqpos), if_neg (not_lt.2 hrpos)] at h
      exact magnitudeText_injective hqpos hrpos h
    · exact absurd (hq.symm.trans (h.trans hr)) (hminus c s _ hc)
  · rcases hr with ⟨hr, hrpos⟩ | ⟨hr, hrneg⟩
    · exact absurd (hr.symm.trans (h.symm.trans hq)) (hminus d t _ hd)
    · simp only [numberText, if_pos hqneg, if_pos hrneg] at h
      have hneg : -q = -r :=
        magnitudeText_injective (by linarith) (by linarith) (List.append_cancel_left h)
      exact neg_injective hneg

/-- Two numbers have one text exactly when they are the same, up to the sign of zero. -/
theorem numberText_eq_iff {m n : Number} :
    numberText m = numberText n ↔ (Value.num m).mapKey = (Value.num n).mapKey := by
  have hzero : numberText .negZero = numberText (.rat 0) := by decide
  have hkeyed : ∀ n : Number, ∃ key, numberText n = numberText key ∧
      (Value.num n).mapKey = .num key ∧ key ≠ .negZero := by
    intro n
    cases n with
    | negZero => exact ⟨.rat 0, hzero, rfl, by simp⟩
    | nan => exact ⟨.nan, rfl, rfl, by simp⟩
    | infinity negative => exact ⟨.infinity negative, rfl, rfl, by simp⟩
    | rat q => exact ⟨.rat q, rfl, rfl, by simp⟩
  obtain ⟨m', hm, hmkey, hmzero⟩ := hkeyed m
  obtain ⟨n', hn, hnkey, hnzero⟩ := hkeyed n
  rw [hm, hn, hmkey, hnkey, Value.num.injEq]
  refine ⟨fun h => ?_, fun h => by rw [h]⟩
  cases m' with
  | negZero => exact absurd rfl hmzero
  | rat q =>
    cases n' with
    | negZero => exact absurd rfl hnzero
    | rat r => rw [numberText_rat_injective h]
    | nan => exact absurd h (numberText_rat_ne q rfl)
    | infinity negative => exact absurd h (numberText_rat_ne q rfl)
  | nan =>
    cases n' with
    | negZero => exact absurd rfl hnzero
    | rat r => exact absurd h.symm (numberText_rat_ne r rfl)
    | nan => rfl
    | infinity negative => cases negative <;> exact absurd h (by decide)
  | infinity negative =>
    cases n' with
    | negZero => exact absurd rfl hnzero
    | rat r => exact absurd h.symm (numberText_rat_ne r rfl)
    | nan => cases negative <;> exact absurd h (by decide)
    | infinity negative' => cases negative <;> cases negative' <;> first | rfl | exact absurd h (by decide)

end Js
