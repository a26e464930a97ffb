import Mathlib.Order.Interval.Set.OrdConnected
import Mathlib.Tactic.Linarith
import PolicyVerifier.Lib.ExceptFold
import PolicyVerifier.Server.TimeClaims

/-!
# The window a token's time claims leave

The times at which `assertTimeClaims` is silent are those between the token's issue and its end, each moved by
the tolerance. What is asked of the clock is its whole seconds.
-/

namespace PolicyVerifier.Server

open Js

variable {payload : List (Str × Value)} {bounds : JwtTimeClaimBounds} {dateNow : ℚ}

/-! ## The claims of a payload -/

/-- A payload as `decodeJwt` leaves it: no time claim is `undefined`, which is no JSON, and one that is a
number is an exact one. -/
structure ExactClaims (payload : List (Str × Value)) : Prop where
  defined : ∀ claim : TimeClaim, Value.findProp claim.key payload ≠ some .undefined
  exact : ∀ (claim : TimeClaim) n, Value.findProp claim.key payload = some (.num n) → n.isFinite = true

/-- The time a claim names, where it is a number. -/
def timeOf (payload : List (Str × Value)) (claim : TimeClaim) : Option ℚ :=
  match Value.findProp claim.key payload with
  | some (.num n) => n.toRat?
  | _ => none

theorem timeOf_eq_some {claim : TimeClaim} {q : ℚ} : timeOf payload claim = some q ↔
    ∃ n, Value.findProp claim.key payload = some (.num n) ∧ n.toRat? = some q := by
  unfold timeOf
  split
  · rename_i n hclaim
    simp [hclaim]
  · rename_i hclaim
    refine iff_of_false (by simp) ?_
    rintro ⟨n, hn, -⟩
    exact hclaim n hn

theorem ExactClaims.timeOf (h : ExactClaims payload) {claim : TimeClaim} {n : Number}
    (hclaim : Value.findProp claim.key payload = some (.num n)) : ∃ q, n.toRat? = some q := by
  have hfinite := h.exact claim n hclaim
  cases n with
  | nan => exact absurd hfinite (by simp [Number.isFinite])
  | infinity negative => exact absurd hfinite (by simp [Number.isFinite])
  | negZero => exact ⟨0, rfl⟩
  | rat q => exact ⟨q, rfl⟩

theorem readTimeClaim_num {claim : TimeClaim} {n : Number}
    (h : Value.findProp claim.key payload = some (.num n)) : readTimeClaim payload claim = .ok (some n) := by
  rw [readTimeClaim, claimValue, h]
  rfl

theorem readTimeClaim_absent {claim : TimeClaim} (h : Value.findProp claim.key payload = none) :
    readTimeClaim payload claim = .ok none := by
  rw [readTimeClaim, claimValue, h]
  rfl

/-- A claim that is read is a number, or is not there. -/
theorem readTimeClaim_ok (hclaims : ExactClaims payload) {claim : TimeClaim} {read : Option Number}
    (h : readTimeClaim payload claim = .ok read) :
    Value.findProp claim.key payload = read.map Value.num := by
  have hdefined := hclaims.defined claim
  unfold readTimeClaim claimValue at h
  cases hvalue : Value.findProp claim.key payload with
  | none =>
    rw [hvalue] at h
    obtain rfl := Except.ok.inj h
    rfl
  | some v =>
    rw [hvalue] at h hdefined
    cases v with
    | undefined => exact absurd rfl hdefined
    | num n =>
      obtain rfl := Except.ok.inj h
      rfl
    | null => exact absurd h (by simp)
    | bool b => exact absurd h (by simp)
    | str s => exact absurd h (by simp)
    | arr id items => exact absurd h (by simp)
    | obj id props => exact absurd h (by simp)
    | other d => exact absurd h (by simp)

/-! ## What the checks come to -/

/-- The checks of a payload whose required claims are numbers. -/
theorem assertTimeClaims_eq {iat exp : Number} {nbf : Option Number}
    (hiat : Value.findProp TimeClaim.iat.key payload = some (.num iat))
    (hexp : Value.findProp TimeClaim.exp.key payload = some (.num exp))
    (hnbf : readTimeClaim payload .nbf = .ok nbf) :
    assertTimeClaims payload bounds dateNow =
      if nbf.any fun nbf => ((Number.rat (clockSeconds dateNow)).add bounds.clockTolerance).less nbf then
        .error (checkFailed .jwtClaimValidationFailed (js "\"nbf\" claim timestamp check failed") payload .nbf)
      else if exp.lessOrEqual ((Number.rat (clockSeconds dateNow)).sub bounds.clockTolerance) then
        .error (checkFailed .jwtExpired (js "\"exp\" claim timestamp check failed") payload .exp)
      else if bounds.maxTokenAge.less
          (((Number.rat (clockSeconds dateNow)).sub iat).sub bounds.clockTolerance) then
        .error (checkFailed .jwtExpired
          (js "\"iat\" claim timestamp check failed (too far in the past)") payload .iat)
      else if ((Number.rat (clockSeconds dateNow)).sub iat).less ((Number.rat 0).sub bounds.clockTolerance) then
        .error (checkFailed .jwtClaimValidationFailed
          (js "\"iat\" claim timestamp check failed (it should be in the past)") payload .iat)
      else .ok () := by
  have hpresent : (js "iat" :: requiredClaims).find? (fun claim => !hasClaim payload claim) = none := by
    have hiat' : hasClaim payload (js "iat") = true := by
      rw [hasClaim, show js "iat" = TimeClaim.iat.key from rfl, hiat]
      rfl
    have hexp' : hasClaim payload (js "exp") = true := by
      rw [hasClaim, show js "exp" = TimeClaim.exp.key from rfl, hexp]
      rfl
    simp [requiredClaims, hiat', hexp']
  unfold assertTimeClaims
  dsimp only
  rw [hpresent, readTimeClaim_num hiat, readTimeClaim_num hexp, hnbf]
  rfl

/-- A payload that is accepted at some time has its required claims, and they are numbers. -/
theorem claims_of_accepted (hclaims : ExactClaims payload)
    (h : assertTimeClaims payload bounds dateNow = .ok ()) :
    (∃ iat, Value.findProp TimeClaim.iat.key payload = some (.num iat)) ∧
      (∃ exp, Value.findProp TimeClaim.exp.key payload = some (.num exp)) ∧
        ∃ nbf, readTimeClaim payload .nbf = .ok nbf := by
  unfold assertTimeClaims at h
  dsimp only at h
  split at h
  · exact absurd h (by simp)
  rename_i hpresent
  have hhas : hasClaim payload (js "iat") = true ∧ hasClaim payload (js "exp") = true := by
    simpa [requiredClaims] using hpresent
  have hnumber : ∀ {claim : TimeClaim} {read : Option Number}, hasClaim payload claim.key = true →
      readTimeClaim payload claim = .ok read →
        ∃ n, Value.findProp claim.key payload = some (.num n) := by
    intro claim read hhas hread
    have hvalue := readTimeClaim_ok hclaims hread
    cases read with
    | none =>
      rw [hasClaim, hvalue] at hhas
      exact absurd hhas (by simp)
    | some n => exact ⟨n, hvalue⟩
  obtain ⟨iat, hiat, h⟩ := ExceptFold.bind_eq_ok h
  obtain ⟨nbf, hnbf, h⟩ := ExceptFold.bind_eq_ok h
  split at h
  · exact absurd h (by simp)
  obtain ⟨exp, hexp, -⟩ := ExceptFold.bind_eq_ok h
  exact ⟨hnumber hhas.1 hiat, hnumber hhas.2 hexp, nbf, hnbf⟩

/-- A time at which none of the checks of a token's claims fails. -/
structure InWindow (iat exp : ℚ) (nbf : Option ℚ) (maxTokenAge clockTolerance : ℚ) (now : ℤ) : Prop where
  issued : iat - clockTolerance ≤ now
  notBefore : ∀ t, nbf = some t → t - clockTolerance ≤ now
  expires : now < exp + clockTolerance
  age : now ≤ iat + maxTokenAge + clockTolerance

section

variable {maxTokenAge clockTolerance : ℚ}

/-- How each check of exact claims under exact bounds compares. -/
structure Compared (bounds : JwtTimeClaimBounds) (iat exp : Number) (nbf : Option Number) (i e : ℚ)
    (b : Option ℚ) (maxTokenAge clockTolerance : ℚ) (now : ℤ) : Prop where
  nbf : (nbf.any fun nbf => ((Number.rat now).add bounds.clockTolerance).less nbf) = true ↔
    ∃ t, b = some t ∧ now + clockTolerance < t
  exp : exp.lessOrEqual ((Number.rat now).sub bounds.clockTolerance) = true ↔ e ≤ now - clockTolerance
  old : bounds.maxTokenAge.less (((Number.rat now).sub iat).sub bounds.clockTolerance) = true ↔
    maxTokenAge < now - i - clockTolerance
  future : ((Number.rat now).sub iat).less ((Number.rat 0).sub bounds.clockTolerance) = true ↔
    now - i < 0 - clockTolerance

theorem compared {iat exp : Number} {nbf : Option Number} {i e : ℚ}
    (hage : bounds.maxTokenAge.toRat? = some maxTokenAge)
    (htolerance : bounds.clockTolerance.toRat? = some clockTolerance) (hiat : iat.toRat? = some i)
    (hexp : exp.toRat? = some e) (hnbf : ∀ n, nbf = some n → ∃ q, n.toRat? = some q) (now : ℤ) :
    Compared bounds iat exp nbf i e (nbf.bind Number.toRat?) maxTokenAge clockTolerance now := by
  have hnow : (Number.rat now).toRat? = some (now : ℚ) := rfl
  have hzero : (Number.rat 0).toRat? = some 0 := rfl
  refine ⟨?_, ?_, ?_, ?_⟩
  · cases nbf with
    | none => simp
    | some n =>
      obtain ⟨q, hq⟩ := hnbf n rfl
      simp [Number.less_iff (Number.toRat?_add hnow htolerance) hq, hq]
  · exact Number.lessOrEqual_iff hexp (Number.toRat?_sub hnow htolerance)
  · exact Number.less_iff hage (Number.toRat?_sub (Number.toRat?_sub hnow hiat) htolerance)
  · exact Number.less_iff (Number.toRat?_sub hnow hiat) (Number.toRat?_sub hzero htolerance)

/-- The checks are silent in the window. -/
theorem accepted_iff_window {iat exp : Number} {nbf : Option Number} {i e : ℚ} {b : Option ℚ}
    (hiat : Value.findProp TimeClaim.iat.key payload = some (.num iat))
    (hexp : Value.findProp TimeClaim.exp.key payload = some (.num exp))
    (hnbf : readTimeClaim payload .nbf = .ok nbf)
    (hc : Compared bounds iat exp nbf i e b maxTokenAge clockTolerance (clockSeconds dateNow)) :
    assertTimeClaims payload bounds dateNow = .ok () ↔
      InWindow i e b maxTokenAge clockTolerance (clockSeconds dateNow) := by
  rw [assertTimeClaims_eq hiat hexp hnbf]
  constructor
  · intro h
    split at h
    · exact absurd h (by simp)
    rename_i hbefore
    split at h
    · exact absurd h (by simp)
    rename_i hexpired
    split at h
    · exact absurd h (by simp)
    rename_i hold
    split at h
    · exact absurd h (by simp)
    rename_i hfuture
    rw [hc.nbf] at hbefore
    rw [hc.exp] at hexpired
    rw [hc.old] at hold
    rw [hc.future] at hfuture
    refine ⟨by linarith, fun t ht => ?_, by linarith, by linarith⟩
    by_contra hlate
    exact hbefore ⟨t, ht, by linarith⟩
  · intro h
    have hissued := h.issued
    have hexpires := h.expires
    have hage := h.age
    rw [if_neg, if_neg, if_neg, if_neg]
    · rw [hc.future]
      linarith
    · rw [hc.old]
      linarith
    · rw [hc.exp]
      linarith
    · rw [hc.nbf]
      rintro ⟨t, ht, hlate⟩
      have hbefore := h.notBefore t ht
      linarith

/-- What is refused as expired is past its end, or too old. -/
theorem past_of_expired {iat exp : Number} {nbf : Option Number} {i e : ℚ} {b : Option ℚ} {error : ClaimError}
    (hiat : Value.findProp TimeClaim.iat.key payload = some (.num iat))
    (hexp : Value.findProp TimeClaim.exp.key payload = some (.num exp))
    (hnbf : readTimeClaim payload .nbf = .ok nbf)
    (hc : Compared bounds iat exp nbf i e b maxTokenAge clockTolerance (clockSeconds dateNow))
    (h : assertTimeClaims payload bounds dateNow = .error error) (hname : error.name = .jwtExpired) :
    e + clockTolerance ≤ clockSeconds dateNow ∨ i + maxTokenAge + clockTolerance < clockSeconds dateNow := by
  rw [assertTimeClaims_eq hiat hexp hnbf] at h
  split at h
  · obtain rfl := Except.error.inj h
    exact absurd hname (by simp [checkFailed])
  split at h
  · rename_i hexpired
    rw [hc.exp] at hexpired
    exact .inl (by linarith)
  split at h
  · rename_i hold
    rw [hc.old] at hold
    exact .inr (by linarith)
  split at h
  · obtain rfl := Except.error.inj h
    exact absurd hname (by simp [checkFailed])
  · exact absurd h (by simp)

/-- What is known of a payload whose required claims are numbers, and of the bounds. -/
structure ReadClaims (payload : List (Str × Value)) (bounds : JwtTimeClaimBounds) (iat exp : ℚ) (nbf : Option ℚ)
    (maxTokenAge clockTolerance : ℚ) : Prop where
  accepted_iff : ∀ dateNow, assertTimeClaims payload bounds dateNow = .ok () ↔
    InWindow iat exp nbf maxTokenAge clockTolerance (clockSeconds dateNow)
  expired : ∀ dateNow error, assertTimeClaims payload bounds dateNow = .error error →
    error.name = .jwtExpired → exp + clockTolerance ≤ clockSeconds dateNow ∨
      iat + maxTokenAge + clockTolerance < clockSeconds dateNow

theorem readClaims {iat exp : Number} {nbf : Option Number} {i e : ℚ} {b : Option ℚ}
    (hiat : Value.findProp TimeClaim.iat.key payload = some (.num iat))
    (hexp : Value.findProp TimeClaim.exp.key payload = some (.num exp))
    (hnbf : readTimeClaim payload .nbf = .ok nbf)
    (hcompared : ∀ now, Compared bounds iat exp nbf i e b maxTokenAge clockTolerance now) :
    ReadClaims payload bounds i e b maxTokenAge clockTolerance where
  accepted_iff := fun dateNow => accepted_iff_window hiat hexp hnbf (hcompared (clockSeconds dateNow))
  expired := fun dateNow _ h hname => past_of_expired hiat hexp hnbf (hcompared (clockSeconds dateNow)) h hname

/-- Exact claims that are accepted at some time are read at every time. -/
theorem readClaims_of_accepted (hclaims : ExactClaims payload)
    (hage : bounds.maxTokenAge.toRat? = some maxTokenAge)
    (htolerance : bounds.clockTolerance.toRat? = some clockTolerance)
    (h : assertTimeClaims payload bounds dateNow = .ok ()) :
    ∃ iat exp nbf, ReadClaims payload bounds iat exp nbf maxTokenAge clockTolerance := by
  obtain ⟨⟨iat, hiat⟩, ⟨exp, hexp⟩, nbf, hnbf⟩ := claims_of_accepted hclaims h
  obtain ⟨i, hi⟩ := hclaims.timeOf hiat
  obtain ⟨e, he⟩ := hclaims.timeOf hexp
  have hvalue := readTimeClaim_ok hclaims hnbf
  have hexact : ∀ n, nbf = some n → ∃ q, n.toRat? = some q := by
    rintro n rfl
    exact hclaims.timeOf hvalue
  exact ⟨i, e, _, readClaims hiat hexp hnbf (compared hage htolerance hi he hexact)⟩

theorem clockSeconds_mono {dateNow later : ℚ} (h : dateNow ≤ later) :
    (clockSeconds dateNow : ℚ) ≤ clockSeconds later := by
  have hdiv : dateNow / 1000 ≤ later / 1000 := by linarith
  exact_mod_cast Int.floor_le_floor hdiv

/-- A claim that is missing or no number is refused at every time. -/
theorem refused_of_no_number (hclaims : ExactClaims payload)
    (hrefused : Value.findProp TimeClaim.iat.key payload = none ∨
      Value.findProp TimeClaim.exp.key payload = none ∨
      ∃ (claim : TimeClaim) (v : Value), Value.findProp claim.key payload = some v ∧ ∀ n, v ≠ .num n) :
    assertTimeClaims payload bounds dateNow ≠ .ok () := by
  intro h
  obtain ⟨⟨iat, hiat⟩, ⟨exp, hexp⟩, nbf, hnbf⟩ := claims_of_accepted hclaims h
  have hvalue := readTimeClaim_ok hclaims hnbf
  rcases hrefused with hmissing | hmissing | ⟨claim, v, hv, hnumber⟩
  · rw [hiat] at hmissing
    exact absurd hmissing (by simp)
  · rw [hexp] at hmissing
    exact absurd hmissing (by simp)
  · cases claim with
    | iat => exact hnumber iat (Option.some.inj (hv.symm.trans hiat))
    | exp => exact hnumber exp (Option.some.inj (hv.symm.trans hexp))
    | nbf =>
      rw [hvalue] at hv
      obtain ⟨n, -, rfl⟩ := Option.map_eq_some_iff.1 hv
      exact hnumber n rfl

/-- Claims that are numbers are accepted in their window. -/
theorem accepted_iff_inWindow (hclaims : ExactClaims payload)
    (hage : bounds.maxTokenAge.toRat? = some maxTokenAge)
    (htolerance : bounds.clockTolerance.toRat? = some clockTolerance) {i e : ℚ}
    (hi : timeOf payload .iat = some i) (he : timeOf payload .exp = some e)
    (hnumber : ∀ v, Value.findProp TimeClaim.nbf.key payload = some v → ∃ n, v = .num n) :
    assertTimeClaims payload bounds dateNow = .ok () ↔
      InWindow i e (timeOf payload .nbf) maxTokenAge clockTolerance (clockSeconds dateNow) := by
  obtain ⟨iat, hiat, hi⟩ := timeOf_eq_some.1 hi
  obtain ⟨exp, hexp, he⟩ := timeOf_eq_some.1 he
  cases hvalue : Value.findProp TimeClaim.nbf.key payload with
  | none =>
    have hnbf : timeOf payload .nbf = none := by rw [timeOf, hvalue]
    have hread := readClaims hiat hexp (readTimeClaim_absent hvalue)
      (compared hage htolerance hi he (by simp))
    rw [hnbf]
    exact hread.accepted_iff dateNow
  | some v =>
    obtain ⟨n, rfl⟩ := hnumber v hvalue
    have hnbf : timeOf payload .nbf = n.toRat? := by rw [timeOf, hvalue]
    have hexact : ∀ m, some n = some m → ∃ q, m.toRat? = some q := by
      rintro m hm
      obtain rfl := Option.some.inj hm
      exact hclaims.timeOf hvalue
    have hread := readClaims hiat hexp (readTimeClaim_num hvalue) (compared hage htolerance hi he hexact)
    rw [hnbf]
    exact hread.accepted_iff dateNow

/-- A window that holds two times holds every time between them. -/
theorem InWindow.between {iat exp : ℚ} {nbf : Option ℚ} {t m t' : ℤ}
    (hfirst : InWindow iat exp nbf maxTokenAge clockTolerance t)
    (hlast : InWindow iat exp nbf maxTokenAge clockTolerance t') (hafter : (t : ℚ) ≤ m) (hbefore : (m : ℚ) ≤ t') :
    InWindow iat exp nbf maxTokenAge clockTolerance m where
  issued := hfirst.issued.trans hafter
  notBefore := fun b hb => (hfirst.notBefore b hb).trans hafter
  expires := hbefore.trans_lt hlast.expires
  age := hbefore.trans hlast.age

/-- The times at which the claims of a payload are accepted. -/
structure TimeWindow (payload : List (Str × Value)) (bounds : JwtTimeClaimBounds)
    (maxTokenAge clockTolerance : ℚ) : Prop where
  /-- There are none where a required claim is missing, or a claim that is there is no number. -/
  empty : (Value.findProp TimeClaim.iat.key payload = none ∨ Value.findProp TimeClaim.exp.key payload = none ∨
      ∃ (claim : TimeClaim) (v : Value), Value.findProp claim.key payload = some v ∧ ∀ n, v ≠ .num n) →
    ∀ dateNow, assertTimeClaims payload bounds dateNow ≠ .ok ()
  /-- Otherwise they are those of the window. -/
  exactly : ∀ iat exp, timeOf payload .iat = some iat → timeOf payload .exp = some exp →
    (∀ v, Value.findProp TimeClaim.nbf.key payload = some v → ∃ n, v = .num n) →
    ∀ dateNow, assertTimeClaims payload bounds dateNow = .ok () ↔
      InWindow iat exp (timeOf payload .nbf) maxTokenAge clockTolerance (clockSeconds dateNow)
  /-- They are an interval. -/
  interval : {dateNow | assertTimeClaims payload bounds dateNow = .ok ()}.OrdConnected
  /-- A token refused as expired is not accepted later. -/
  expired : ∀ dateNow later error, dateNow ≤ later → assertTimeClaims payload bounds dateNow = .error error →
    error.name = .jwtExpired → assertTimeClaims payload bounds later ≠ .ok ()
  /-- It is accepted over no longer than its greatest age and twice the tolerance, whatever `exp` says. -/
  span : ∀ dateNow later, assertTimeClaims payload bounds dateNow = .ok () →
    assertTimeClaims payload bounds later = .ok () →
    (clockSeconds later : ℚ) - clockSeconds dateNow ≤ maxTokenAge + 2 * clockTolerance

/-- For every payload of exact claims and all exact bounds, the times at which it is accepted are its window. -/
theorem assertTimeClaims_window (payload : List (Str × Value)) (bounds : JwtTimeClaimBounds)
    (maxTokenAge clockTolerance : ℚ) (hclaims : ExactClaims payload)
    (hage : bounds.maxTokenAge.toRat? = some maxTokenAge)
    (htolerance : bounds.clockTolerance.toRat? = some clockTolerance) :
    TimeWindow payload bounds maxTokenAge clockTolerance where
  empty := fun hrefused _ => refused_of_no_number hclaims hrefused
  exactly := fun _ _ hi he hnumber _ => accepted_iff_inWindow hclaims hage htolerance hi he hnumber
  interval := by
    refine ⟨fun t ht t' ht' m hm => ?_⟩
    obtain ⟨iat, exp, nbf, hread⟩ := readClaims_of_accepted hclaims hage htolerance ht
    have hfirst := (hread.accepted_iff t).1 ht
    have hlast := (hread.accepted_iff t').1 ht'
    exact (hread.accepted_iff m).2 (hfirst.between hlast (clockSeconds_mono hm.1) (clockSeconds_mono hm.2))
  expired := by
    intro t t' error htt' herror hname haccepted
    obtain ⟨iat, exp, nbf, hread⟩ := readClaims_of_accepted hclaims hage htolerance haccepted
    have hwindow := (hread.accepted_iff t').1 haccepted
    have hexpires := hwindow.expires
    have holdest := hwindow.age
    have hmono := clockSeconds_mono htt'
    rcases hread.expired t error herror hname with hgone | hold
    · linarith
    · linarith
  span := by
    intro t t' ht ht'
    obtain ⟨iat, exp, nbf, hread⟩ := readClaims_of_accepted hclaims hage htolerance ht
    have hissued := ((hread.accepted_iff t).1 ht).issued
    have holdest := ((hread.accepted_iff t').1 ht').age
    linarith

/-- A token of an hour, under a tolerance of thirty seconds. -/
theorem assertTimeClaims_window_hour :
    let payload : List (Str × Value) := [(js "iat", .num (.rat 1000)), (js "exp", .num (.rat 4600))]
    TimeWindow payload { maxTokenAge := .rat 86400, clockTolerance := .rat 30 } 86400 30 := by
  intro payload
  have hiat : Value.findProp TimeClaim.iat.key payload = some (.num (.rat 1000)) := by decide
  have hnbf : Value.findProp TimeClaim.nbf.key payload = none := by decide
  have hexp : Value.findProp TimeClaim.exp.key payload = some (.num (.rat 4600)) := by decide
  refine assertTimeClaims_window _ _ _ _ ⟨fun claim => ?_, fun claim n h => ?_⟩ rfl rfl
  · cases claim with
    | iat => simp [hiat]
    | nbf => simp [hnbf]
    | exp => simp [hexp]
  · cases claim with
    | iat =>
      obtain rfl := Value.num.inj (Option.some.inj (hiat.symm.trans h))
      rfl
    | nbf => exact absurd (hnbf.symm.trans h) (by simp)
    | exp =>
      obtain rfl := Value.num.inj (Option.some.inj (hexp.symm.trans h))
      rfl

/-- An `iat` that is `undefined`, as no JSON holds it, is `NaN` where it is compared, and no age is checked. -/
example : assertTimeClaims [(js "iat", .undefined), (js "exp", .num (.rat 4600))]
    { maxTokenAge := .rat 86400, clockTolerance := .rat 30 } 2000000 = .ok () := by decide +kernel

end

end PolicyVerifier.Server
