import PolicyVerifier.Js.Proofs.TextProofs
import PolicyVerifier.Lib.ExceptFold
import PolicyVerifier.Server.TokenAuthenticator

/-!
# Whom a bearer token is accepted for

Each step of a verification is a computation that may fail; what the authenticator answers and what it logs
follow from which of them did.
-/

namespace PolicyVerifier.Server

open Js PolicyVerifier.Core

/-! ## The header -/

/-- The header is a bearer token's: a scheme, a space and a token that is not empty. -/
structure Bearer (header : Option Str) (scheme token : Str) : Prop where
  sent : ∃ raw rest, header = some raw ∧ trim raw = scheme ++ js " " ++ rest ∧ token = trim rest
  space : (0x20 : UInt16) ∉ scheme
  scheme : toLowerCase scheme = js "bearer"
  token : token ≠ []

/-- A text with a space is its first word and the rest. -/
theorem indexOf_space {s front back : Str} (h : s = front ++ js " " ++ back) (hfront : (0x20 : UInt16) ∉ front) :
    indexOf (js " ") s = some front.length := by
  refine indexOf_eq_some_iff.2 ⟨⟨front, back, h, rfl⟩, ?_⟩
  intro front' back' h'
  by_contra hlt
  rw [not_le] at hlt
  refine hfront ?_
  have hread : s[front'.length]? = some 0x20 := by
    rw [h', List.append_assoc, List.getElem?_append_right le_rfl, Nat.sub_self]
    rfl
  rw [h, List.append_assoc, List.getElem?_append_left hlt] at hread
  exact List.mem_of_getElem? hread

theorem space_of_indexOf {s : Str} {i : Nat} (h : indexOf (js " ") s = some i) :
    s = s.take i ++ js " " ++ s.drop (i + 1) ∧ (0x20 : UInt16) ∉ s.take i := by
  obtain ⟨⟨front, back, hs, rfl⟩, hleast⟩ := indexOf_eq_some_iff.1 h
  have htake : s.take front.length = front := by
    rw [hs, List.append_assoc, List.take_left]
  have hdrop : s.drop (front.length + 1) = back := by
    rw [hs, show front.length + 1 = (front ++ js " ").length by rw [List.length_append]; rfl, List.drop_left]
  refine ⟨by rw [htake, hdrop]; exact hs, ?_⟩
  rw [htake]
  intro hmem
  obtain ⟨first, rest, hfront⟩ := List.append_of_mem hmem
  have hearlier := hleast first (rest ++ js " " ++ back) (by
    rw [hs, hfront, List.append_assoc first, List.append_assoc first, List.append_assoc first]
    rfl)
  rw [hfront, List.length_append, List.length_cons] at hearlier
  omega

/-- The header of a bearer token is read as its scheme and its token. -/
theorem bearer_iff {raw scheme token : Str} : Bearer (some raw) scheme token ↔
    splitAuthorization raw = (scheme, some token) ∧ toLowerCase scheme = js "bearer" ∧ token ≠ [] := by
  constructor
  · rintro ⟨⟨raw', rest, hraw, htrim, rfl⟩, hspace, hscheme, htoken⟩
    obtain rfl := Option.some.inj hraw
    refine ⟨?_, hscheme, htoken⟩
    have hne : scheme ≠ [] := by
      rintro rfl
      exact absurd hscheme (by decide)
    obtain ⟨c, scheme, rfl⟩ := List.exists_cons_of_ne_nil hne
    unfold splitAuthorization
    dsimp only
    rw [indexOf_space htrim hspace, List.length_cons]
    dsimp only
    rw [htrim, List.append_assoc, show scheme.length + 1 = (c :: scheme).length from rfl, List.take_left,
      ← List.append_assoc, show scheme.length + 2 = (c :: scheme ++ js " ").length by rw [List.length_append]; rfl,
      List.drop_left]
  · rintro ⟨hsplit, hscheme, htoken⟩
    unfold splitAuthorization at hsplit
    dsimp only at hsplit
    split at hsplit
    · rename_i i hindex
      obtain ⟨hs, hspace⟩ := space_of_indexOf hindex
      obtain ⟨rfl, htok⟩ := Prod.mk.inj hsplit
      exact ⟨⟨raw, _, rfl, hs, (Option.some.inj htok).symm⟩, hspace, hscheme, htoken⟩
    · exact absurd (Prod.mk.inj hsplit).2 (by simp)

theorem Bearer.unique {header : Option Str} {scheme scheme' token token' : Str} (h : Bearer header scheme token)
    (h' : Bearer header scheme' token') : scheme = scheme' ∧ token = token' := by
  obtain ⟨raw, -, rfl, -⟩ := h.sent
  have hsplit := (bearer_iff.1 h).1
  rw [(bearer_iff.1 h').1] at hsplit
  obtain ⟨hscheme, htoken⟩ := Prod.mk.inj hsplit
  exact ⟨hscheme.symm, (Option.some.inj htoken).symm⟩

/-! ## The path the config selects -/

section Verification

variable {κ : Type} (jose : Jose κ) (authenticator : JwtAuthenticator κ) (token : Str) (now : ℚ)

/-- The claims came out of the path the config selects, every check of it passed. -/
def Verified (claims : Claims) : Prop :=
  match authenticator with
  | .verifying config => jose.jwtVerify token config.resolver.key config.options now = .ok claims ∧
      (config.audienceClaim ≠ defaultAudienceClaim →
        hasClaim claims config.audienceClaim = true ∧
          audienceMatches (claimValue claims config.audienceClaim) config.audience = true)
  | .decoding bounds => jose.decodeJwt token = .ok claims ∧ assertTimeClaims claims bounds now = .ok ()

/-- jose refused the token, or could not verify it. -/
def JoseFails (failure : VerifyFailure) : Prop :=
  match authenticator with
  | .verifying config => jose.jwtVerify token config.resolver.key config.options now = .error failure
  | .decoding _ => jose.decodeJwt token = .error failure

end Verification

/-- What is logged of an error of a claim: its class, its message and the claim it names. -/
def claimRecord (name : ClaimErrorName) (message claim : Str) : RejectionRecord :=
  { name := name.word, message := some message, code := some name.code, claim := some claim }

def missingRecord (claim : Str) : RejectionRecord :=
  claimRecord .jwtClaimValidationFailed (js "missing required \"" ++ claim ++ js "\" claim") claim

/-- What is logged where a time claim is refused. -/
def timeRejections : List RejectionRecord :=
  [missingRecord (js "iat"), missingRecord (js "exp"),
    claimRecord .jwtClaimValidationFailed (js "\"iat\" claim must be a number") (js "iat"),
    claimRecord .jwtClaimValidationFailed (js "\"nbf\" claim must be a number") (js "nbf"),
    claimRecord .jwtClaimValidationFailed (js "\"exp\" claim must be a number") (js "exp"),
    claimRecord .jwtClaimValidationFailed (js "\"nbf\" claim timestamp check failed") (js "nbf"),
    claimRecord .jwtExpired (js "\"exp\" claim timestamp check failed") (js "exp"),
    claimRecord .jwtExpired (js "\"iat\" claim timestamp check failed (too far in the past)") (js "iat"),
    claimRecord .jwtClaimValidationFailed
      (js "\"iat\" claim timestamp check failed (it should be in the past)") (js "iat")]

/-- What is logged of the refusals that are not jose's. It is a list of the config: no token is in it. -/
def ownRejections {κ : Type} (authenticator : JwtAuthenticator κ) : List RejectionRecord :=
  claimRecord .jwtClaimValidationFailed
      (js "Sender-constrained tokens are not supported on the Bearer authentication path") (js "cnf") ::
    match authenticator with
    | .verifying config =>
      [missingRecord config.audienceClaim,
        claimRecord .jwtClaimValidationFailed (js "unexpected \"" ++ config.audienceClaim ++ js "\" claim value")
          config.audienceClaim]
    | .decoding _ => timeRejections

@[simp] theorem describeRejection_thrown (e : ClaimError) :
    describeRejection e.thrown = claimRecord e.name e.message e.claim := rfl

/-- An error of a claim is the token's. -/
@[simp] theorem thrown_available (e : ClaimError) : isVerificationUnavailable e.thrown = false := by
  have hcode : some e.name.code ≠ some (js "ERR_JOSE_GENERIC") := by
    cases e.name with
    | jwtClaimValidationFailed => decide
    | jwtExpired => decide
  simp only [ClaimError.thrown, isVerificationUnavailable, beq_eq_false_iff_ne.2 hcode]
  rfl

theorem readTimeClaim_error {claims : Claims} {claim : TimeClaim} {e : ClaimError}
    (h : readTimeClaim claims claim = .error e) : claimRecord e.name e.message e.claim ∈ timeRejections := by
  unfold readTimeClaim at h
  split at h
  · exact absurd h (by simp)
  · exact absurd h (by simp)
  · obtain rfl := Except.error.inj h
    dsimp only
    cases claim with
    | iat => decide
    | nbf => decide
    | exp => decide

theorem assertTimeClaims_error {claims : Claims} {bounds : JwtTimeClaimBounds} {now : ℚ} {e : ClaimError}
    (h : assertTimeClaims claims bounds now = .error e) : claimRecord e.name e.message e.claim ∈ timeRejections := by
  unfold assertTimeClaims at h
  dsimp only at h
  split at h
  · rename_i claim hfind
    obtain rfl := Except.error.inj h
    have hclaim := List.mem_of_find?_eq_some hfind
    simp only [requiredClaims, List.mem_cons, List.not_mem_nil, or_false] at hclaim
    dsimp only
    rcases hclaim with rfl | rfl
    · decide
    · decide
  rcases ExceptFold.bind_eq_error h with hread | ⟨iat, -, h⟩
  · exact readTimeClaim_error hread
  rcases ExceptFold.bind_eq_error h with hread | ⟨nbf, -, h⟩
  · exact readTimeClaim_error hread
  split at h
  · obtain rfl := Except.error.inj h
    dsimp only [checkFailed]
    decide
  rcases ExceptFold.bind_eq_error h with hread | ⟨exp, -, h⟩
  · exact readTimeClaim_error hread
  split at h
  · obtain rfl := Except.error.inj h
    dsimp only [checkFailed]
    decide
  split at h
  · obtain rfl := Except.error.inj h
    dsimp only [checkFailed]
    decide
  split at h
  · obtain rfl := Except.error.inj h
    dsimp only [checkFailed]
    decide
  · exact absurd h (by simp)

theorem assertAudienceClaim_iff {claims : Claims} {claim : Str} {accepted : StringOrList} :
    assertAudienceClaim claims claim accepted = .ok () ↔
      hasClaim claims claim = true ∧ audienceMatches (claimValue claims claim) accepted = true := by
  unfold assertAudienceClaim
  split_ifs with hhas hmatches
  · simp_all
  · simp_all
  · simp_all

theorem assertAudienceClaim_error {κ : Type} {config : VerifyingJwtConfig κ} {claims : Claims} {e : ClaimError}
    (h : assertAudienceClaim claims config.audienceClaim config.audience = .error e) :
    claimRecord e.name e.message e.claim ∈ ownRejections (.verifying config) := by
  unfold assertAudienceClaim at h
  split at h
  · obtain rfl := Except.error.inj h
    simp [ownRejections, missingRecord]
  split at h
  · obtain rfl := Except.error.inj h
    simp [ownRejections]
  · exact absurd h (by simp)

theorem assertUnbound_iff {claims : Claims} : assertUnbound claims = .ok () ↔ hasClaim claims (js "cnf") = false := by
  unfold assertUnbound
  split_ifs with h
  · simp [h]
  · simpa using h

theorem assertUnbound_error {κ : Type} {authenticator : JwtAuthenticator κ} {claims : Claims} {e : ClaimError}
    (h : assertUnbound claims = .error e) :
    claimRecord e.name e.message e.claim ∈ ownRejections authenticator := by
  unfold assertUnbound at h
  split at h
  · obtain rfl := Except.error.inj h
    exact List.mem_cons_self
  · exact absurd h (by simp)

section Steps

variable {κ : Type} {jose : Jose κ} {authenticator : JwtAuthenticator κ} {token : Str} {now : ℚ}

theorem mapError_ok_iff {x : Except ClaimError Unit} :
    x.mapError ClaimError.thrown = .ok () ↔ x = .ok () := by
  cases x with
  | error e => simp [Except.mapError]
  | ok u => simp [Except.mapError]

theorem mapError_error {x : Except ClaimError Unit} {failure : VerifyFailure}
    (h : x.mapError ClaimError.thrown = .error failure) : ∃ e, x = .error e ∧ failure = e.thrown := by
  cases x with
  | error e => exact ⟨e, rfl, (Except.error.inj h).symm⟩
  | ok u => exact absurd h (by simp [Except.mapError])

/-- The claims that come of a token are those whose every check passed. -/
theorem decodeToken_iff {claims : Claims} :
    decodeToken jose authenticator token now = .ok claims ↔ Verified jose authenticator token now claims := by
  cases authenticator with
  | verifying config =>
    constructor
    · intro h
      obtain ⟨read, hread, h⟩ := ExceptFold.bind_eq_ok h
      split at h
      · rename_i hdefault
        obtain rfl := Except.ok.inj h
        exact ⟨hread, fun hne => absurd hdefault hne⟩
      · obtain ⟨u, hmapped, h⟩ := ExceptFold.bind_eq_ok h
        obtain rfl := Except.ok.inj h
        exact ⟨hread, fun _ => assertAudienceClaim_iff.1 (mapError_ok_iff.1 hmapped)⟩
    · rintro ⟨hread, haudience⟩
      unfold decodeToken
      dsimp only
      rw [hread]
      show (if config.audienceClaim = defaultAudienceClaim then _ else _) = _
      split_ifs with hdefault
      · rfl
      · rw [assertAudienceClaim_iff.2 (haudience hdefault)]
        rfl
  | decoding bounds =>
    constructor
    · intro h
      obtain ⟨read, hread, h⟩ := ExceptFold.bind_eq_ok h
      obtain ⟨u, hmapped, h⟩ := ExceptFold.bind_eq_ok h
      obtain rfl := Except.ok.inj h
      exact ⟨hread, mapError_ok_iff.1 hmapped⟩
    · rintro ⟨hread, htime⟩
      unfold decodeToken
      dsimp only
      rw [hread]
      show ((assertTimeClaims claims bounds now).mapError ClaimError.thrown >>= fun _ => _) = _
      rw [htime]
      rfl

/-- Where no claims come of a token, jose refused it, or a check of the authenticator's own did. -/
theorem decodeToken_error {failure : VerifyFailure} (h : decodeToken jose authenticator token now = .error failure) :
    JoseFails jose authenticator token now failure ∨
      ∃ e : ClaimError, failure = e.thrown ∧ claimRecord e.name e.message e.claim ∈ ownRejections authenticator := by
  cases authenticator with
  | verifying config =>
    rcases ExceptFold.bind_eq_error h with hfails | ⟨claims, -, h⟩
    · exact .inl hfails
    split at h
    · exact absurd h (by simp)
    rcases ExceptFold.bind_eq_error h with hmapped | ⟨u, -, h⟩
    · obtain ⟨e, he, rfl⟩ := mapError_error hmapped
      exact .inr ⟨e, rfl, assertAudienceClaim_error he⟩
    · exact absurd h (by simp)
  | decoding bounds =>
    rcases ExceptFold.bind_eq_error h with hfails | ⟨claims, -, h⟩
    · exact .inl hfails
    rcases ExceptFold.bind_eq_error h with hmapped | ⟨u, -, h⟩
    · obtain ⟨e, he, rfl⟩ := mapError_error hmapped
      exact .inr ⟨e, rfl, List.mem_cons_of_mem _ (assertTimeClaims_error he)⟩
    · exact absurd h (by simp)

theorem bearerClaims_iff {claims : Claims} : bearerClaims jose authenticator token now = .ok claims ↔
    Verified jose authenticator token now claims ∧ hasClaim claims (js "cnf") = false := by
  constructor
  · intro h
    obtain ⟨read, hread, h⟩ := ExceptFold.bind_eq_ok h
    obtain ⟨u, hmapped, h⟩ := ExceptFold.bind_eq_ok h
    obtain rfl := Except.ok.inj h
    exact ⟨decodeToken_iff.1 hread, assertUnbound_iff.1 (mapError_ok_iff.1 hmapped)⟩
  · rintro ⟨hverified, hunbound⟩
    unfold bearerClaims
    rw [decodeToken_iff.2 hverified]
    show ((assertUnbound claims).mapError ClaimError.thrown >>= fun _ => _) = _
    rw [assertUnbound_iff.2 hunbound]
    rfl

theorem bearerClaims_error {failure : VerifyFailure} (h : bearerClaims jose authenticator token now = .error failure) :
    JoseFails jose authenticator token now failure ∨
      ∃ e : ClaimError, failure = e.thrown ∧ claimRecord e.name e.message e.claim ∈ ownRejections authenticator := by
  rcases ExceptFold.bind_eq_error h with hdecode | ⟨claims, -, h⟩
  · exact decodeToken_error hdecode
  rcases ExceptFold.bind_eq_error h with hmapped | ⟨u, -, h⟩
  · obtain ⟨e, he, rfl⟩ := mapError_error hmapped
    exact .inr ⟨e, rfl, assertUnbound_error he⟩
  · exact absurd h (by simp)

/-- What jose fails with is what the token is refused for. -/
theorem JoseFails.bearerClaims {failure : VerifyFailure} (h : JoseFails jose authenticator token now failure) :
    bearerClaims jose authenticator token now = .error failure := by
  unfold Server.bearerClaims decodeToken
  cases authenticator with
  | verifying config =>
    dsimp only [JoseFails] at h ⊢
    rw [h]
    rfl
  | decoding bounds =>
    dsimp only [JoseFails] at h ⊢
    rw [h]
    rfl

/-! ## The answer, and the line -/

/-- What a token that was reached is answered with. -/
theorem authenticate_of_bearer {header : Option Str} {scheme : Str} (h : Bearer header scheme token) :
    authenticator.authenticate jose header now =
      match bearerClaims jose authenticator token now with
      | .ok claims => (.ok { subject := subjectOf claims scheme, credential := token }, [])
      | .error cause =>
        if isVerificationUnavailable cause then
          (.error { code := .verificationUnavailable, message := js "Token verification is unavailable" },
            [.verificationUnavailable cause])
        else
          (.error { code := .invalidToken, message := js "Invalid token" },
            [.tokenRejected (describeRejection cause)]) := by
  obtain ⟨raw, rest, rfl, htrim, -⟩ := h.sent
  obtain ⟨hsplit, hscheme, htoken⟩ := bearer_iff.1 h
  have hraw : raw ≠ [] := by
    rintro rfl
    have hempty := congrArg List.length htrim
    rw [List.length_append, List.length_append, show (trim []).length = 0 from rfl,
      show (js " ").length = 1 from rfl] at hempty
    omega
  obtain ⟨c, raw, rfl⟩ := List.exists_cons_of_ne_nil hraw
  obtain ⟨d, token, rfl⟩ := List.exists_cons_of_ne_nil htoken
  unfold JwtAuthenticator.authenticate
  dsimp only
  rw [hsplit]
  dsimp only
  rewrite [if_neg (not_not.2 hscheme)]
  cases bearerClaims jose authenticator (d :: token) now with
  | ok claims => rfl
  | error cause => rfl

/-- A header without a bearer token is refused before any token is looked at, and nothing is logged. -/
theorem authenticate_of_not_bearer {header : Option Str} (h : ∀ scheme token, ¬Bearer header scheme token) :
    ∃ refusal, authenticator.authenticate jose header now = (.error refusal, []) ∧
      (refusal.code = .missingToken ∨ refusal.code = .unsupportedScheme) := by
  unfold JwtAuthenticator.authenticate
  split
  · exact ⟨_, rfl, .inl rfl⟩
  · exact ⟨_, rfl, .inl rfl⟩
  rename_i raw hraw
  split
  rename_i scheme token hsplit
  split
  · exact ⟨_, rfl, .inr rfl⟩
  rename_i hscheme
  split
  · exact ⟨_, rfl, .inl rfl⟩
  · exact ⟨_, rfl, .inl rfl⟩
  · rename_i token htoken
    exact absurd (bearer_iff.2 ⟨hsplit, not_not.1 hscheme, htoken⟩) (h scheme token)

/-- The code of a refusal over the token itself. -/
def IsVerdict (code : AuthenticationCode) : Prop := code = .invalidToken ∨ code = .verificationUnavailable

/-- What a verifying config has checked of the claims it accepts. -/
structure CheckedClaims {κ : Type} (jose : Jose κ) (config : VerifyingJwtConfig κ) (token : Str) (claims : Claims) :
    Prop where
  signed : jose.Signed token config.resolver.key config.resolver.algorithms claims
  issuer : ∃ s, claimValue claims (js "iss") = .str s ∧ s ∈ config.issuer.values
  audience : Holds claims config.audienceClaim config.audience
  typ : config.tokenType ≠ unpinnedTokenType → jose.Typed token config.tokenType
  issued : hasClaim claims (js "iat") = true
  expires : hasClaim claims (js "exp") = true

theorem holds_of_audienceMatches {claims : Claims} {claim : Str} {accepted : StringOrList}
    (h : audienceMatches (claimValue claims claim) accepted = true) : Holds claims claim accepted := by
  unfold audienceMatches at h
  split at h
  · rename_i s hvalue
    exact .inl ⟨s, hvalue, List.contains_iff_mem.1 h⟩
  · rename_i ref items hvalue
    obtain ⟨-, hany⟩ := Bool.and_eq_true_iff.1 h
    obtain ⟨entry, hentry, hin⟩ := List.any_eq_true.1 hany
    cases entry with
    | str s => exact .inr ⟨ref, items, s, hvalue, hentry, List.contains_iff_mem.1 hin⟩
    | _ => exact absurd hin (by simp [Value.str?])
  · exact absurd h (by simp)

theorem Verified.checked {config : VerifyingJwtConfig κ} {claims : Claims}
    (h : Verified jose (.verifying config) token now claims) : CheckedClaims jose config token claims := by
  obtain ⟨hverify, haudience⟩ := h
  have hpromised := jose.verified _ _ _ _ _ hverify
  refine ⟨hpromised.signed, hpromised.issuer, ?_, ?_, hpromised.required _ (by simp),
    hpromised.required _ (by simp [VerifyingJwtConfig.options, requiredClaims])⟩
  · by_cases hdefault : config.audienceClaim = defaultAudienceClaim
    · rw [hdefault]
      exact hpromised.audience _ (if_pos hdefault)
    · exact holds_of_audienceMatches (haudience hdefault).2
  · intro hpinned
    exact hpromised.typ _ (if_neg hpinned)

end Steps

/-- Whom a header is accepted for, what was checked of them, and what the caller and the log learn of a
refusal. -/
structure BearerLaw {κ : Type} (jose : Jose κ) (authenticator : JwtAuthenticator κ) (header : Option Str) (now : ℚ)
    (answer : Except AuthenticationRefusal Authenticated) (lines : List AuthenticatorLine) : Prop where
  accepted : ∀ who, answer = .ok who ↔ ∃ scheme token claims, Bearer header scheme token ∧
    Verified jose authenticator token now claims ∧ hasClaim claims (js "cnf") = false ∧
      who = { subject := subjectOf claims scheme, credential := token }
  checked : ∀ config, authenticator = .verifying config → ∀ who, answer = .ok who → ∃ scheme claims,
    who.subject = subjectOf claims scheme ∧ CheckedClaims jose config who.credential claims
  unavailable : (∃ message, answer = .error { code := .verificationUnavailable, message }) ↔
    ∃ scheme token failure, Bearer header scheme token ∧ JoseFails jose authenticator token now failure ∧
      isVerificationUnavailable failure = true
  /-- A caller cannot tell one bad token from another. -/
  alike : ∀ refusal, answer = .error refusal → refusal.code = .invalidToken → refusal.message = js "Invalid token"
  logged : lines.length = 1 ∧ (∃ refusal, answer = .error refusal ∧ IsVerdict refusal.code) ∨
    lines = [] ∧ ∀ refusal, answer = .error refusal → ¬IsVerdict refusal.code
  /-- No claim's value is in a line of the authenticator's own. -/
  rejected : ∀ record, .tokenRejected record ∈ lines → record ∈ ownRejections authenticator ∨
    ∃ scheme token failure, Bearer header scheme token ∧ JoseFails jose authenticator token now failure ∧
      record = describeRejection failure

section Cases

variable {κ : Type} {jose : Jose κ} {authenticator : JwtAuthenticator κ} {header : Option Str} {now : ℚ}

/-- A token that passed every check. -/
theorem bearerLaw_accepted {scheme token : Str} {claims : Claims} (hbearer : Bearer header scheme token)
    (hclaims : bearerClaims jose authenticator token now = .ok claims) :
    BearerLaw jose authenticator header now
      (.ok { subject := subjectOf claims scheme, credential := token }) [] := by
  obtain ⟨hverified, hunbound⟩ := bearerClaims_iff.1 hclaims
  refine
    { accepted := ?_, checked := ?_, unavailable := ?_, alike := fun _ h => absurd h (by simp)
      logged := .inr ⟨rfl, fun _ h => absurd h (by simp)⟩, rejected := fun _ h => absurd h (by simp) }
  · intro who
    constructor
    · intro h
      exact ⟨scheme, token, claims, hbearer, hverified, hunbound, (Except.ok.inj h).symm⟩
    · rintro ⟨scheme', token', claims', hbearer', hverified', hunbound', rfl⟩
      obtain ⟨rfl, rfl⟩ := hbearer.unique hbearer'
      have hsame := bearerClaims_iff.2 ⟨hverified', hunbound'⟩
      rw [hclaims] at hsame
      obtain rfl := Except.ok.inj hsame
      rfl
  · rintro config rfl who h
    obtain rfl := Except.ok.inj h
    exact ⟨scheme, claims, rfl, hverified.checked⟩
  · refine iff_of_false (by rintro ⟨_, h⟩; exact absurd h (by simp)) ?_
    rintro ⟨scheme', token', failure, hbearer', hfails, -⟩
    obtain ⟨rfl, rfl⟩ := hbearer.unique hbearer'
    rw [hfails.bearerClaims] at hclaims
    exact absurd hclaims (by simp)

/-- A token that failed a check is accepted for nobody. -/
theorem not_accepted {scheme token : Str} {cause : VerifyFailure} (hbearer : Bearer header scheme token)
    (hclaims : bearerClaims jose authenticator token now = .error cause) (who : Authenticated) :
    ¬∃ scheme token claims, Bearer header scheme token ∧ Verified jose authenticator token now claims ∧
      hasClaim claims (js "cnf") = false ∧ who = { subject := subjectOf claims scheme, credential := token } := by
  rintro ⟨scheme', token', claims', hbearer', hverified', hunbound', -⟩
  obtain ⟨rfl, rfl⟩ := hbearer.unique hbearer'
  rw [bearerClaims_iff.2 ⟨hverified', hunbound'⟩] at hclaims
  exact absurd hclaims (by simp)

/-- A token that could not be checked. -/
theorem bearerLaw_unavailable {scheme token : Str} {cause : VerifyFailure} {message : Str}
    (hbearer : Bearer header scheme token) (hclaims : bearerClaims jose authenticator token now = .error cause)
    (hunavailable : isVerificationUnavailable cause = true) :
    BearerLaw jose authenticator header now (.error { code := .verificationUnavailable, message })
      [.verificationUnavailable cause] := by
  refine
    { accepted := fun who => iff_of_false (by simp) (not_accepted hbearer hclaims who)
      checked := fun _ _ _ h => absurd h (by simp), unavailable := iff_of_true ⟨_, rfl⟩ ?_, alike := ?_
      logged := .inl ⟨rfl, _, rfl, .inr rfl⟩, rejected := fun _ h => absurd h (by simp) }
  · rcases bearerClaims_error hclaims with hfails | ⟨e, rfl, -⟩
    · exact ⟨scheme, token, cause, hbearer, hfails, hunavailable⟩
    · exact absurd hunavailable (by simp)
  · intro refusal h hcode
    obtain rfl := Except.error.inj h
    exact absurd hcode (by simp)

/-- A token that failed a check, whichever. -/
theorem bearerLaw_invalid {scheme token : Str} {cause : VerifyFailure} (hbearer : Bearer header scheme token)
    (hclaims : bearerClaims jose authenticator token now = .error cause)
    (havailable : ¬isVerificationUnavailable cause = true) :
    BearerLaw jose authenticator header now (.error { code := .invalidToken, message := js "Invalid token" })
      [.tokenRejected (describeRejection cause)] := by
  refine
    { accepted := fun who => iff_of_false (by simp) (not_accepted hbearer hclaims who)
      checked := fun _ _ _ h => absurd h (by simp), unavailable := iff_of_false (by simp) ?_, alike := ?_
      logged := .inl ⟨rfl, _, rfl, .inl rfl⟩, rejected := ?_ }
  · rintro ⟨scheme', token', failure, hbearer', hfails, hunavailable⟩
    obtain ⟨rfl, rfl⟩ := hbearer.unique hbearer'
    rw [hfails.bearerClaims] at hclaims
    obtain rfl := Except.error.inj hclaims
    exact havailable hunavailable
  · intro refusal h _
    obtain rfl := Except.error.inj h
    rfl
  · intro record h
    obtain rfl := AuthenticatorLine.tokenRejected.inj (List.mem_singleton.1 h)
    rcases bearerClaims_error hclaims with hfails | ⟨e, rfl, hown⟩
    · exact .inr ⟨scheme, token, cause, hbearer, hfails, rfl⟩
    · exact .inl hown

/-- A header with no bearer token. -/
theorem bearerLaw_missing {refusal : AuthenticationRefusal} (hno : ∀ scheme token, ¬Bearer header scheme token)
    (hcode : refusal.code = .missingToken ∨ refusal.code = .unsupportedScheme) :
    BearerLaw jose authenticator header now (.error refusal) [] := by
  have hnoverdict : ¬IsVerdict refusal.code := by
    rintro (hinvalid | hunavailable)
    · rcases hcode with hcode | hcode
      · exact absurd (hcode.symm.trans hinvalid) (by decide)
      · exact absurd (hcode.symm.trans hinvalid) (by decide)
    · rcases hcode with hcode | hcode
      · exact absurd (hcode.symm.trans hunavailable) (by decide)
      · exact absurd (hcode.symm.trans hunavailable) (by decide)
  refine
    { accepted := fun who => iff_of_false (by simp) ?_, checked := fun _ _ _ h => absurd h (by simp)
      unavailable := iff_of_false ?_ ?_, alike := ?_, logged := .inr ⟨rfl, ?_⟩
      rejected := fun _ h => absurd h (by simp) }
  · rintro ⟨scheme, token, claims, h, -⟩
    exact hno scheme token h
  · rintro ⟨message, h⟩
    obtain rfl := Except.error.inj h
    exact hnoverdict (.inr rfl)
  · rintro ⟨scheme, token, failure, h, -⟩
    exact hno scheme token h
  · intro other h hinvalid
    obtain rfl := Except.error.inj h
    exact absurd (.inl hinvalid) hnoverdict
  · intro other h
    obtain rfl := Except.error.inj h
    exact hnoverdict

end Cases

/-- The authenticator accepts exactly the bearer tokens that passed every check of the path its config selects. -/
theorem authenticates_what_it_checked {κ : Type} (jose : Jose κ) (authenticator : JwtAuthenticator κ)
    (header : Option Str) (now : ℚ) :
    BearerLaw jose authenticator header now (authenticator.authenticate jose header now).1
      (authenticator.authenticate jose header now).2 := by
  by_cases hbearer : ∃ scheme token, Bearer header scheme token
  · obtain ⟨scheme, token, hbearer⟩ := hbearer
    rw [authenticate_of_bearer hbearer]
    cases hclaims : bearerClaims jose authenticator token now with
    | ok claims => exact bearerLaw_accepted hbearer hclaims
    | error cause =>
      dsimp only
      split
      · rename_i hunavailable
        exact bearerLaw_unavailable hbearer hclaims hunavailable
      · rename_i havailable
        exact bearerLaw_invalid hbearer hclaims havailable
  · have hno : ∀ scheme token, ¬Bearer header scheme token := fun scheme token h => hbearer ⟨scheme, token, h⟩
    obtain ⟨refusal, hanswer, hcode⟩ :=
      authenticate_of_not_bearer (κ := κ) hno
    rw [hanswer]
    exact bearerLaw_missing hno hcode

/-! ## A jose over the tokens that were issued -/

/-- A token as it was issued: its text, whether a key opens its signature, and what was signed. -/
structure IssuedToken (κ : Type) where
  text : Str
  opens : KeySource κ → Bool
  algorithm : Str
  typ : Str
  claims : Claims

/-- An error of a claim, as jose raises it. -/
def claimFailure (claims : Claims) (claim message : Str) : VerifyFailure :=
  .jose .other
    { name := ClaimErrorName.jwtClaimValidationFailed.word, message
      code := some ClaimErrorName.jwtClaimValidationFailed.code, claim := some claim, payload := some claims }

/-- The checks `jwtVerify` makes of an issued token, in jose's order: the algorithm, the signature, the type, the
required claims, the issuer, the audience, and the times. -/
def IssuedToken.verify {κ : Type} (issued : IssuedToken κ) (key : KeySource κ) (options : JwtVerifyOptions) (now : ℚ) :
    Except VerifyFailure Claims :=
  if issued.algorithm ∉ options.algorithms then
    .error (.jose .other
      { name := js "JOSEAlgNotAllowed", message := js "\"alg\" (Algorithm) Header Parameter value not allowed"
        code := some (js "ERR_JOSE_ALG_NOT_ALLOWED") })
  else if issued.opens key = false then
    .error (.jose .other
      { name := js "JWSSignatureVerificationFailed", message := js "signature verification failed"
        code := some (js "ERR_JWS_SIGNATURE_VERIFICATION_FAILED") })
  else if options.typ.any fun typ => decide (issued.typ ≠ typ) then
    .error (claimFailure issued.claims (js "typ") (js "unexpected \"typ\" JWT header value"))
  else
    match (js "iat" :: options.requiredClaims).find? fun claim => !hasClaim issued.claims claim with
    | some claim =>
      .error (claimFailure issued.claims claim (js "missing required \"" ++ claim ++ js "\" claim"))
    | none =>
      if !(claimValue issued.claims (js "iss")).str?.any fun s => options.issuer.values.contains s then
        .error (claimFailure issued.claims (js "iss") (js "unexpected \"iss\" claim value"))
      else if options.audience.any fun accepted => !audienceMatches (claimValue issued.claims (js "aud")) accepted then
        .error (claimFailure issued.claims (js "aud") (js "unexpected \"aud\" claim value"))
      else
        let bounds : JwtTimeClaimBounds := { maxTokenAge := options.maxTokenAge, clockTolerance := options.clockTolerance }
        match assertTimeClaims issued.claims bounds now with
        | .error e => .error e.thrown
        | .ok _ => .ok issued.claims

/-- What of an issued token is checked holds of the claims that come of it. -/
theorem IssuedToken.verify_ok {κ : Type} {issued : IssuedToken κ} {key : KeySource κ} {options : JwtVerifyOptions}
    {now : ℚ} {claims : Claims} (h : issued.verify key options now = .ok claims) :
    claims = issued.claims ∧ issued.opens key = true ∧ issued.algorithm ∈ options.algorithms ∧
      (∃ s, claimValue claims (js "iss") = .str s ∧ s ∈ options.issuer.values) ∧
      (∀ accepted, options.audience = some accepted → Holds claims (js "aud") accepted) ∧
      (∀ typ, options.typ = some typ → issued.typ = typ) ∧
      ∀ claim ∈ js "iat" :: options.requiredClaims, hasClaim claims claim = true := by
  unfold IssuedToken.verify at h
  split at h
  · exact absurd h (by simp)
  rename_i halgorithm
  split at h
  · exact absurd h (by simp)
  rename_i hopens
  split at h
  · exact absurd h (by simp)
  rename_i htyp
  split at h
  · exact absurd h (by simp)
  rename_i hrequired
  split at h
  · exact absurd h (by simp)
  rename_i hissuer
  split at h
  · exact absurd h (by simp)
  rename_i haudience
  dsimp only at h
  split at h
  · exact absurd h (by simp)
  obtain rfl := Except.ok.inj h
  refine ⟨rfl, by simpa using hopens, not_not.1 halgorithm, ?_, ?_, ?_, ?_⟩
  · obtain ⟨s, hs, hin⟩ := (Option.any_eq_true _ _).1 (by simpa using hissuer)
    exact ⟨s, Value.str?_eq_some.1 hs, of_decide_eq_true hin⟩
  · intro accepted haccepted
    rw [haccepted] at haudience
    exact holds_of_audienceMatches (by simpa using haudience)
  · intro typ hpinned
    rw [hpinned] at htyp
    simpa using htyp
  · intro claim hclaim
    simpa using List.find?_eq_none.1 hrequired claim hclaim

/-- jose, where these are the tokens there are. -/
def issuedJose {κ : Type} (tokens : List (IssuedToken κ)) : Jose κ where
  jwtVerify token key options now :=
    match tokens.find? fun issued => issued.text = token with
    | some issued => issued.verify key options now
    | none =>
      .error (.jose .other
        { name := js "JWSInvalid", message := js "Invalid Compact JWS", code := some (js "ERR_JWS_INVALID") })
  decodeJwt token :=
    match tokens.find? fun issued => issued.text = token with
    | some issued => .ok issued.claims
    | none =>
      .error (.jose .other { name := js "JWTInvalid", message := js "Invalid JWT", code := some (js "ERR_JWT_INVALID") })
  Signed token key algorithms claims := ∃ issued ∈ tokens, issued.text = token ∧ issued.claims = claims ∧
    issued.opens key = true ∧ issued.algorithm ∈ algorithms
  Typed token typ := ∃ issued ∈ tokens, issued.text = token ∧ issued.typ = typ
  verified := by
    intro token key options now claims h
    split at h
    · rename_i issued hfind
      have hmem := List.mem_of_find?_eq_some hfind
      have htext : issued.text = token := by simpa using List.find?_some hfind
      obtain ⟨rfl, hopens, halgorithm, hissuer, haudience, htyp, hrequired⟩ := IssuedToken.verify_ok h
      exact
        { signed := ⟨issued, hmem, htext, rfl, hopens, halgorithm⟩, issuer := hissuer, audience := haudience
          typ := fun typ hpinned => ⟨issued, hmem, htext, htyp typ hpinned⟩, required := hrequired }
    · exact absurd h (by simp)

/-- An access token of Alice's client, signed by the key there is. -/
def accessToken : IssuedToken Unit where
  text := js "eyJhbGciOiJFUzI1NiJ9.eyJzdWIiOiJhbGljZSJ9.c2ln"
  opens key := match key with
    | .publicKey () => true
    | _ => false
  algorithm := js "ES256"
  typ := js "at+jwt"
  claims :=
    [ (js "iss", .str (js "https://issuer.example")), (js "sub", .str (js "alice")), (js "client_id", .str (js "orders"))
      , (js "iat", .num (.rat 1000)), (js "exp", .num (.rat 4600)) ]

/-- A config that reads the audience off the client, and pins the type. -/
def clientConfig : VerifyingJwtConfig Unit where
  resolver := { key := .publicKey (), algorithms := [js "ES256"] }
  issuer := .one (js "https://issuer.example")
  audience := .many [js "billing", js "orders"]
  audienceClaim := js "client_id"
  tokenType := js "at+jwt"
  bounds := { maxTokenAge := .rat 86400, clockTolerance := .rat 30 }

/-- Alice's token is accepted in its hour, with every check of the config held; a second after the tolerance it is
refused as any bad token is. -/
theorem authenticates_what_it_checked_access :
    let authenticator : JwtAuthenticator Unit := .verifying clientConfig
    let header := some (js "Bearer " ++ accessToken.text)
    (∃ who, (authenticator.authenticate (issuedJose [accessToken]) header 2000000).1 = .ok who ∧
      ∃ scheme claims, who.subject = subjectOf claims scheme ∧
        CheckedClaims (issuedJose [accessToken]) clientConfig who.credential claims) ∧
    ∃ refusal, (authenticator.authenticate (issuedJose [accessToken]) header 4630000).1 = .error refusal ∧
      refusal.message = js "Invalid token" := by
  intro authenticator header
  constructor
  · have hok : (authenticator.authenticate (issuedJose [accessToken]) header 2000000).1.isOk = true := by
      decide +kernel
    cases hanswer : (authenticator.authenticate (issuedJose [accessToken]) header 2000000).1 with
    | error refusal => exact absurd (hanswer ▸ hok) (by simp [Except.isOk, Except.toBool])
    | ok who =>
      exact ⟨who, rfl,
        (authenticates_what_it_checked (issuedJose [accessToken]) authenticator header 2000000).checked clientConfig
          rfl who hanswer⟩
  · have hcode : ((authenticator.authenticate (issuedJose [accessToken]) header 4630000).1.mapError
        AuthenticationRefusal.code).map (fun _ => ()) = .error .invalidToken := by decide +kernel
    cases hanswer : (authenticator.authenticate (issuedJose [accessToken]) header 4630000).1 with
    | ok who => exact absurd (hanswer ▸ hcode) (by simp [Except.mapError, Except.map])
    | error refusal =>
      rw [hanswer] at hcode
      exact ⟨refusal, rfl,
        (authenticates_what_it_checked (issuedJose [accessToken]) authenticator header 4630000).alike refusal hanswer
          (Except.error.inj hcode)⟩

end PolicyVerifier.Server
