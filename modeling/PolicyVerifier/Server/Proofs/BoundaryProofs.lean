import PolicyVerifier.Server.JwtAuthenticator
import PolicyVerifier.Server.Proofs.RotationProofs

/-!
# The two boundaries of a JWT block

The schema and the factory check one block in different code. What both check is one predicate, what
only the schema checks another, and the two agree exactly where the first fails or the second holds.
-/

namespace PolicyVerifier.Server

open Js

section

variable {builtins : Builtins}

/-! ## The parts of a block -/

/-- A knob is absent, or a whole number in its range. -/
def Reads (builtins : Builtins) (value : Value) (spec : BoundSpec) : Prop :=
  ∃ n, resolveBound builtins value spec (js "oauth.jwt") = .ok n

/-- The bounds of the JWKS fetch can be read. -/
def ReadsJwks (builtins : Builtins) (block : JwtBlock) : Prop :=
  Reads builtins block.jwksTimeoutMs jwksTimeoutMs ∧
  Reads builtins block.jwksCooldownMs jwksCooldownMs ∧
  Reads builtins block.jwksCacheMaxAgeMs jwksCacheMaxAgeMs

/-- A value that names something, and nothing empty. -/
def Names (value : Option StringOrList) : Prop :=
  ∃ given, value = some given ∧ given.values ≠ [] ∧ ∀ s ∈ given.values, s ≠ []

/-- The keys of the block are fetched from a JWKS. -/
def UsesJwks (algorithm : Str) (block : JwtBlock) : Prop :=
  algorithm ∈ asymmetricAlgorithms ∧ isTruthy block.jwksUri = true

/-- What both boundaries check. -/
structure SharedChecks (builtins : Builtins) (algorithm : Str) (block : JwtBlock) : Prop where
  current : ∀ key ∈ jwtModeRemovedKeys, key ∉ block.otherKeys
  age : Reads builtins block.maxTokenAgeSeconds maxTokenAgeSeconds
  tolerance : Reads builtins block.clockToleranceSeconds clockToleranceSeconds
  audienceClaim : ∃ claim, checkAudienceClaim block.audienceClaim = .ok claim
  secretEncoding : ∃ encoding, checkSecretEncoding block.secretEncoding = .ok encoding
  issuer : Names block.issuer
  audience : Names block.audience
  tokenType : isTruthy block.tokenType = true
  secret : algorithm = js "HS256" → isTruthy block.secret = true ∧
    ∃ rotation, checkHs256Rotation builtins.dateParse block.rotationConfig = .ok rotation
  source : algorithm ∈ asymmetricAlgorithms → isTruthy block.jwksUri = true ∨
    isTruthy block.publicKey = true ∨ isTruthy block.publicKeyPath = true
  jwks : UsesJwks algorithm block →
    (∃ url, checkJwksUri builtins (block.jwksUri.getD []) = .ok url) ∧ ReadsJwks builtins block

/-- What the schema checks alone: the JWKS keys of a block that fetches no JWKS, and previous secrets
under an asymmetric algorithm. -/
structure SchemaChecks (builtins : Builtins) (algorithm : Str) (block : JwtBlock) : Prop where
  jwks : ¬ UsesJwks algorithm block → ReadsJwks builtins block ∧
    ∀ uri, block.jwksUri = some uri → ∃ url, checkJwksUri builtins uri = .ok url
  previous : algorithm ∈ asymmetricAlgorithms → block.previousSecrets = none

theorem isTruthy_iff {s : Option Str} : isTruthy s = true ↔ ∃ t, s = some t ∧ t ≠ [] := by
  cases s with
  | none => simp [isTruthy]
  | some t => simp [isTruthy]

/-! ## The schema -/

theorem boundedNumber_nil {value : Value} {spec : BoundSpec} :
    boundedNumber builtins value spec = [] ↔ Reads builtins value spec := by
  unfold boundedNumber Reads
  cases resolveBound builtins value spec (js "oauth.jwt") <;> simp

theorem knobIssues_nil {block : JwtBlock} : knobIssues builtins block = [] ↔
    ReadsJwks builtins block ∧ Reads builtins block.maxTokenAgeSeconds maxTokenAgeSeconds ∧
      Reads builtins block.clockToleranceSeconds clockToleranceSeconds := by
  unfold knobIssues ReadsJwks
  simp only [List.append_eq_nil_iff, boundedNumber_nil]
  tauto

theorem sharedIssue_nil {α : Type} {key : Str} {checked : Except Str α} :
    sharedIssue key checked = [] ↔ ∃ a, checked = .ok a := by
  unfold sharedIssue
  cases checked <;> simp

theorem staleIssues_nil {block : JwtBlock} :
    staleIssues block = [] ↔ ∀ key ∈ jwtModeRemovedKeys, key ∉ block.otherKeys := by
  unfold staleIssues
  rw [List.map_eq_nil_iff, List.filter_eq_nil_iff]
  simp

theorem presenceIssue_nil {key : Str} {value : Option StringOrList} :
    presenceIssue key value = [] ↔ Names value := by
  unfold presenceIssue Names
  cases value with
  | none => simp [isTruthy]
  | some given =>
    dsimp only
    have hempty : (∀ s ∈ given.values, s ≠ []) ↔
        ¬ (given.values.map some).any (fun v => !isTruthy v) = true := by
      simp only [isTruthy, List.any_map, List.any_eq_true, not_exists, not_and, Function.comp_apply]
      exact forall₂_congr fun s _ => by simp
    split
    · rename_i h
      refine iff_of_false (by simp) ?_
      rintro ⟨g, hg, hne, hall⟩
      obtain rfl := Option.some.inj hg
      rcases h with h | h
      · exact hne (List.map_eq_nil_iff.1 h)
      · exact hempty.1 hall h
    · rename_i h
      rw [not_or] at h
      exact iff_of_true rfl ⟨given, rfl, fun hnil => h.1 (by rw [hnil]; rfl), hempty.2 h.2⟩

theorem hs256Issues_nil {block : JwtBlock} : hs256Issues builtins block = [] ↔
    isTruthy block.secret = true ∧
      ∃ rotation, checkHs256Rotation builtins.dateParse block.rotationConfig = .ok rotation := by
  unfold hs256Issues
  rw [List.append_eq_nil_iff]
  refine and_congr (by split <;> simp_all) ?_
  cases hcheck : checkHs256Rotation builtins.dateParse block.rotationConfig with
  | ok rotation => simp
  | error issues => simpa using checkHs256Rotation_error hcheck

theorem asymmetricIssues_nil {algorithm : Str} {block : JwtBlock} :
    asymmetricIssues algorithm block = [] ↔
      (isTruthy block.jwksUri = true ∨ isTruthy block.publicKey = true ∨
        isTruthy block.publicKeyPath = true) ∧ block.previousSecrets = none := by
  unfold asymmetricIssues
  rw [List.append_eq_nil_iff]
  refine and_congr ?_ ?_
  · split
    · rename_i h
      exact iff_of_true rfl (by simpa [or_assoc] using h)
    · rename_i h
      exact iff_of_false (by simp) (by simpa [or_assoc] using h)
  · cases block.previousSecrets <;> simp

theorem jwksUriIssues_nil {block : JwtBlock} : jwksUriIssues builtins block = [] ↔
    ∀ uri, block.jwksUri = some uri → ∃ url, checkJwksUri builtins uri = .ok url := by
  unfold jwksUriIssues
  cases block.jwksUri with
  | none => simp
  | some uri => simp [sharedIssue_nil]

/-- What the schema's own checks come to on the key material of a built-in algorithm. -/
theorem verifyIssues_nil {algorithm tokenType : Str} {block : JwtBlock} :
    verifyIssues builtins algorithm tokenType block = [] ↔
      Names block.issuer ∧ Names block.audience ∧ tokenType ≠ [] ∧
      (algorithm = js "HS256" → isTruthy block.secret = true ∧
        ∃ rotation, checkHs256Rotation builtins.dateParse block.rotationConfig = .ok rotation) ∧
      (algorithm ∈ asymmetricAlgorithms → (isTruthy block.jwksUri = true ∨
        isTruthy block.publicKey = true ∨ isTruthy block.publicKeyPath = true) ∧
          block.previousSecrets = none) ∧
      ∀ uri, block.jwksUri = some uri → ∃ url, checkJwksUri builtins uri = .ok url := by
  have htype : (if tokenType = [] then
      [issueAt (js "tokenType") (js "tokenType must not be empty when mode is \"verify\" (RFC 9068 §4)")]
      else []) = [] ↔ tokenType ≠ [] := by
    split <;> simp_all
  have hhs256 : (if algorithm = js "HS256" then hs256Issues builtins block else []) = [] ↔
      (algorithm = js "HS256" → hs256Issues builtins block = []) := by
    split <;> simp_all
  have hasymmetric : (if algorithm ∈ asymmetricAlgorithms then asymmetricIssues algorithm block
      else []) = [] ↔ (algorithm ∈ asymmetricAlgorithms → asymmetricIssues algorithm block = []) := by
    split <;> simp_all
  unfold verifyIssues
  rw [List.append_eq_nil_iff, List.append_eq_nil_iff, List.append_eq_nil_iff, List.append_eq_nil_iff,
    List.append_eq_nil_iff, presenceIssue_nil, presenceIssue_nil, htype, hhs256, hasymmetric,
    hs256Issues_nil, asymmetricIssues_nil, jwksUriIssues_nil]
  tauto

/-- An accepted rotation block was read by a reading. -/
theorem checkHs256Rotation_encoding {block : JwtBlock} {rotation : Hs256Rotation}
    (h : checkHs256Rotation builtins.dateParse block.rotationConfig = .ok rotation) :
    ∃ encoding, checkSecretEncoding block.secretEncoding = .ok encoding :=
  ⟨_, (checkHs256Rotation_accepts h).encoding⟩

/-- The schema accepts a block exactly when it passes the checks both boundaries make, and those the
schema makes alone. -/
theorem oauthJwtSchema_accepts_iff {block : JwtBlock} {algorithm tokenType : Str}
    (halgorithm : block.algorithm = some algorithm) (htype : block.tokenType = some tokenType)
    (hmode : block.mode ≠ some .insecureDecode) :
    (∃ parsed, oauthJwtSchema builtins block = .ok parsed) ↔
      SharedChecks builtins algorithm block ∧ SchemaChecks builtins algorithm block := by
  have hverify : block.mode.getD .verify = .verify := by
    cases hm : block.mode with
    | none => rfl
    | some m =>
      cases m with
      | verify => rfl
      | insecureDecode => exact absurd hm hmode
  have hok : (∃ parsed, oauthJwtSchema builtins block = .ok parsed) ↔
      knobIssues builtins block = [] ∧ superRefine builtins algorithm tokenType .verify block = [] := by
    unfold oauthJwtSchema
    dsimp only
    rw [halgorithm, htype, hverify, Option.getD_some, Option.getD_some]
    by_cases hknobs : knobIssues builtins block = []
    · by_cases hrefine : superRefine builtins algorithm tokenType .verify block = []
      · rw [if_neg (not_not.2 hknobs), if_neg (not_not.2 hrefine)]
        exact iff_of_true ⟨_, rfl⟩ ⟨hknobs, hrefine⟩
      · rw [if_neg (not_not.2 hknobs), if_pos hrefine]
        exact iff_of_false (by simp) fun h => hrefine h.2
    · rw [if_pos hknobs]
      exact iff_of_false (by simp) fun h => hknobs h.1
  have hrefine : superRefine builtins algorithm tokenType .verify block = [] ↔
      staleIssues block = [] ∧ (∃ claim, checkAudienceClaim block.audienceClaim = .ok claim) ∧
      (algorithm ≠ js "HS256" → ∃ encoding, checkSecretEncoding block.secretEncoding = .ok encoding) ∧
      verifyIssues builtins algorithm tokenType block = [] := by
    unfold superRefine
    by_cases hstale : staleIssues block = []
    · rw [if_neg (not_not.2 hstale), List.append_eq_nil_iff, List.append_eq_nil_iff, sharedIssue_nil]
      by_cases hhs256 : algorithm = js "HS256"
      · simp [hstale, hhs256]
      · simp [hstale, hhs256, sharedIssue_nil, and_assoc]
    · rw [if_pos hstale]
      exact iff_of_false hstale fun h => hstale h.1
  rw [hok, hrefine, knobIssues_nil, staleIssues_nil, verifyIssues_nil]
  have htokenType : isTruthy block.tokenType = true ↔ tokenType ≠ [] := by
    rw [isTruthy_iff, htype]
    simp
  constructor
  · rintro ⟨⟨hjwks, hage, htolerance⟩, hcurrent, hclaim, hencoding, hissuer, haudience, hnonempty,
      hsecret, hkeys, huri⟩
    refine ⟨⟨hcurrent, hage, htolerance, hclaim, ?_, hissuer, haudience, htokenType.2 hnonempty,
      hsecret, fun h => (hkeys h).1, ?_⟩, ⟨fun _ => ⟨hjwks, huri⟩, fun h => (hkeys h).2⟩⟩
    · by_cases hhs256 : algorithm = js "HS256"
      · obtain ⟨-, rotation, hrotation⟩ := hsecret hhs256
        exact checkHs256Rotation_encoding hrotation
      · exact hencoding hhs256
    · rintro ⟨-, htruthy⟩
      obtain ⟨uri, hsome, -⟩ := isTruthy_iff.1 htruthy
      rw [hsome]
      exact ⟨huri uri hsome, hjwks⟩
  · rintro ⟨shared, schema⟩
    have hjwks : ReadsJwks builtins block := by
      by_cases huses : UsesJwks algorithm block
      · exact (shared.jwks huses).2
      · exact (schema.jwks huses).1
    refine ⟨⟨hjwks, shared.age, shared.tolerance⟩, shared.current, shared.audienceClaim,
      fun _ => shared.secretEncoding, shared.issuer, shared.audience, htokenType.1 shared.tokenType,
      shared.secret, fun h => ⟨shared.source h, schema.previous h⟩, fun uri huri => ?_⟩
    by_cases huses : UsesJwks algorithm block
    · have hshared := (shared.jwks huses).1
      rw [huri] at hshared
      exact hshared
    · exact (schema.jwks huses).2 uri huri

/-! ## The factory -/

/-- A spec whose default is in its own range. -/
theorem fallbacks_inRange : ∀ spec ∈ [jwksTimeoutMs, jwksCooldownMs, jwksCacheMaxAgeMs,
    maxTokenAgeSeconds, clockToleranceSeconds], inRange spec (.rat spec.fallback) = true := by
  decide

/-- A claim that was resolved is resolved again as it is. -/
theorem checkAudienceClaim_again {value : Value} {claim : Str} (h : checkAudienceClaim value = .ok claim) :
    ∃ again, checkAudienceClaim (.str claim) = .ok again := by
  have hne : claim ≠ [] := by
    unfold checkAudienceClaim at h
    split at h
    · obtain rfl := Except.ok.inj h
      decide
    · split at h
      · exact absurd h (by simp)
      · rename_i hne
        obtain rfl := Except.ok.inj h
        exact hne
    · exact absurd h (by simp)
  exact ⟨claim, by simp [checkAudienceClaim, hne]⟩

/-- A knob that was read is read again as it is. -/
theorem resolveBound_again {value : Value} {spec : BoundSpec} {path path' : Str} {n : Number}
    (hfallback : inRange spec (.rat spec.fallback) = true)
    (h : resolveBound builtins value spec path = .ok n) :
    resolveBound builtins (.num n) spec path' = .ok n := by
  have hrange : inRange spec n = true := by
    unfold resolveBound at h
    split at h
    · obtain rfl := Except.ok.inj h
      exact hfallback
    · dsimp only at h
      split at h
      · rename_i hn
        obtain rfl := Except.ok.inj h
        exact hn
      · exact absurd h (by simp)
  rw [resolveBound, if_neg (by simp)]
  simp [writtenNumber, hrange]

theorem isPresent_iff {value : Option StringOrList} : isPresent value = true ↔ Names value := by
  unfold Names
  cases value with
  | none => simp [isPresent]
  | some given =>
    cases given with
    | one s => simp [isPresent, StringOrList.values]
    | many ss => simp [isPresent, StringOrList.values]

theorem resolveJwtTimeClaimBounds_ok_iff {age tolerance : Value} :
    (∃ bounds, resolveJwtTimeClaimBounds builtins age tolerance (js "oauth.jwt") = .ok bounds) ↔
      Reads builtins age maxTokenAgeSeconds ∧ Reads builtins tolerance clockToleranceSeconds := by
  unfold resolveJwtTimeClaimBounds Reads
  rw [ExceptFold.exists_bind_eq_ok]
  constructor
  · rintro ⟨n, hn, h⟩
    obtain ⟨m, hm, -⟩ := ExceptFold.exists_bind_eq_ok.1 h
    exact ⟨⟨n, hn⟩, ⟨m, hm⟩⟩
  · rintro ⟨⟨n, hn⟩, ⟨m, hm⟩⟩
    exact ⟨n, hn, ExceptFold.exists_bind_eq_ok.2 ⟨m, hm, _, rfl⟩⟩

/-- What a guard lets through is what it was given. -/
theorem assertVerifyRouterJwtConfig_ok {issuer audience : Option StringOrList} {tokenType : Option Str}
    {audienceClaim : Value} {caller path condition : Str} {checked : StringOrList × StringOrList × Str} :
    assertVerifyRouterJwtConfig issuer audience tokenType audienceClaim caller path condition =
      .ok checked ↔
    Names issuer ∧ Names audience ∧ isTruthy tokenType = true ∧
      (∃ claim, checkAudienceClaim audienceClaim = .ok claim) ∧
      issuer = some checked.1 ∧ audience = some checked.2.1 ∧ tokenType = some checked.2.2 := by
  unfold assertVerifyRouterJwtConfig
  dsimp only
  rw [← isPresent_iff, ← isPresent_iff]
  cases hissuer : isPresent issuer with
  | false => simp
  | true =>
    cases haudience : isPresent audience with
    | false => simp
    | true =>
      cases htype : isTruthy tokenType with
      | false => simp
      | true =>
        obtain ⟨i, rfl, -⟩ := isPresent_iff.1 hissuer
        obtain ⟨a, rfl, -⟩ := isPresent_iff.1 haudience
        obtain ⟨t, rfl, -⟩ := isTruthy_iff.1 htype
        cases checkAudienceClaim audienceClaim with
        | error message => simp
        | ok claim => simp [pure, Except.pure, Prod.ext_iff]

/-- The second look finds what the first one did. -/
theorem createTokenAuthenticator_ok {κ : Type} {config : VerifyingJwtConfig κ} {age tolerance : Value}
    (hissuer : Names (some config.issuer)) (haudience : Names (some config.audience))
    (htype : isTruthy (some config.tokenType) = true)
    (hclaim : ∃ claim, checkAudienceClaim (.str config.audienceClaim) = .ok claim)
    (hbounds : resolveJwtTimeClaimBounds builtins age tolerance (js "oauth.jwt") = .ok config.bounds) :
    createTokenAuthenticator builtins (.verifying config) = .ok (.verifying config) := by
  have hasserted : assertVerifyRouterJwtConfig (some config.issuer) (some config.audience)
      (some config.tokenType) (.str config.audienceClaim) (js "createTokenAuthenticator") (js "jwt")
      (js "jwt.validate is true") = .ok (config.issuer, config.audience, config.tokenType) :=
    assertVerifyRouterJwtConfig_ok.2 ⟨hissuer, haudience, htype, hclaim, rfl, rfl, rfl⟩
  have hagain : resolveJwtTimeClaimBounds builtins (.num config.bounds.maxTokenAge)
      (.num config.bounds.clockTolerance) (js "jwt") = .ok config.bounds := by
    obtain ⟨n, hn, h⟩ := ExceptFold.bind_eq_ok hbounds
    obtain ⟨m, hm, h⟩ := ExceptFold.bind_eq_ok h
    have hresolved : config.bounds = { maxTokenAge := n, clockTolerance := m } := (Except.ok.inj h).symm
    rw [hresolved]
    unfold resolveJwtTimeClaimBounds
    rw [resolveBound_again (fallbacks_inRange _ (by simp)) hn,
      resolveBound_again (fallbacks_inRange _ (by simp)) hm]
    rfl
  unfold createTokenAuthenticator
  dsimp only
  rw [hasserted, hagain]
  rfl

theorem resolveJwksFetchBounds_ok_iff {block : JwtBlock} :
    (∃ bounds, resolveJwksFetchBounds builtins block = .ok bounds) ↔ ReadsJwks builtins block := by
  unfold resolveJwksFetchBounds ReadsJwks Reads
  constructor
  · rintro ⟨bounds, h⟩
    obtain ⟨n, hn, h⟩ := ExceptFold.bind_eq_ok h
    obtain ⟨m, hm, h⟩ := ExceptFold.bind_eq_ok h
    obtain ⟨k, hk, -⟩ := ExceptFold.bind_eq_ok h
    exact ⟨⟨n, hn⟩, ⟨m, hm⟩, ⟨k, hk⟩⟩
  · rintro ⟨⟨n, hn⟩, ⟨m, hm⟩, ⟨k, hk⟩⟩
    have hpath : jwtPath = js "oauth.jwt" := rfl
    rw [hpath, hn, hm, hk]
    exact ⟨_, rfl⟩

/-- The keys a block points at can be read. -/
structure Readable {κ : Type} (keys : KeyImport κ) (algorithm : Str) (block : JwtBlock) : Prop where
  publicKey : ∀ pem, block.publicKey = some pem → pem ≠ [] →
    ∃ key, keys.importSPKI pem algorithm = .ok key
  publicKeyPath : ∀ path, block.publicKeyPath = some path → path ≠ [] →
    ∃ pem key, keys.readFile path = .ok pem ∧ keys.importSPKI pem algorithm = .ok key

variable {κ : Type} {keys : KeyImport κ}

theorem resolveAsymmetric_ok_iff {algorithm : Str} {block : JwtBlock}
    (hreadable : Readable keys algorithm block) :
    (∃ resolver, resolveAsymmetric builtins keys algorithm block = .ok resolver) ↔
      (isTruthy block.jwksUri = true ∨ isTruthy block.publicKey = true ∨
        isTruthy block.publicKeyPath = true) ∧
      (isTruthy block.jwksUri = true →
        (∃ url, checkJwksUri builtins (block.jwksUri.getD []) = .ok url) ∧ ReadsJwks builtins block) := by
  unfold resolveAsymmetric
  by_cases huri : isTruthy block.jwksUri = true
  · rw [if_pos huri, ExceptFold.exists_bind_eq_ok]
    constructor
    · rintro ⟨url, hurl, h⟩
      obtain ⟨bounds, hbounds, -⟩ := ExceptFold.exists_bind_eq_ok.1 h
      exact ⟨Or.inl huri, fun _ => ⟨⟨url, hurl⟩, resolveJwksFetchBounds_ok_iff.1 ⟨bounds, hbounds⟩⟩⟩
    · rintro ⟨-, h⟩
      obtain ⟨⟨url, hurl⟩, hbounds⟩ := h huri
      obtain ⟨bounds, hbounds⟩ := resolveJwksFetchBounds_ok_iff.2 hbounds
      exact ⟨url, hurl, ExceptFold.exists_bind_eq_ok.2 ⟨bounds, hbounds, _, rfl⟩⟩
  rw [if_neg huri]
  by_cases hpem : isTruthy block.publicKey = true
  · rw [if_pos hpem]
    refine iff_of_true ?_ ⟨Or.inr (Or.inl hpem), fun h => absurd h huri⟩
    obtain ⟨pem, hsome, hne⟩ := isTruthy_iff.1 hpem
    obtain ⟨key, hkey⟩ := hreadable.publicKey pem hsome hne
    rw [hsome]
    exact ExceptFold.exists_bind_eq_ok.2 ⟨key, hkey, _, rfl⟩
  rw [if_neg hpem]
  by_cases hpath : isTruthy block.publicKeyPath = true
  · rw [if_pos hpath]
    refine iff_of_true ?_ ⟨Or.inr (Or.inr hpath), fun h => absurd h huri⟩
    obtain ⟨path, hsome, hne⟩ := isTruthy_iff.1 hpath
    obtain ⟨pem, key, hfile, hkey⟩ := hreadable.publicKeyPath path hsome hne
    rw [hsome]
    exact ExceptFold.exists_bind_eq_ok.2
      ⟨pem, hfile, ExceptFold.exists_bind_eq_ok.2 ⟨key, hkey, _, rfl⟩⟩
  · rw [if_neg hpath]
    refine iff_of_false (by simp) ?_
    rintro ⟨h | h | h, -⟩
    · exact huri h
    · exact hpem h
    · exact hpath h

theorem optionalValue_truthy {s : Option Str} :
    isFalsy (optionalValue s) = false ↔ isTruthy s = true := by
  cases s <;> simp [optionalValue, isFalsy, isTruthy]

/-- An HS256 block resolves exactly when it holds a secret and passes the rotation check. -/
theorem hs256KeyResolverFactory_ok_iff {block : JwtBlock} :
    (∃ resolver, hs256KeyResolverFactory builtins.dateParse block.rotationConfig = .ok resolver) ↔
      isTruthy block.secret = true ∧
        ∃ rotation, checkHs256Rotation builtins.dateParse block.rotationConfig = .ok rotation := by
  constructor
  · rintro ⟨resolver, h⟩
    unfold hs256KeyResolverFactory at h
    split at h
    · exact absurd h (by simp)
    rename_i hfalsy
    obtain ⟨rotation, hparse, -⟩ := ExceptFold.bind_eq_ok h
    have hread : isFalsy block.rotationConfig.secret = false := by simpa using hfalsy
    refine ⟨optionalValue_truthy.1 hread, rotation, ?_⟩
    unfold parseHs256Rotation at hparse
    split at hparse
    · rename_i hcheck
      rw [hcheck, Except.ok.inj hparse]
    · exact absurd hparse (by simp)
  · rintro ⟨hsecret, rotation, hcheck⟩
    obtain ⟨secret, hsome, hne⟩ := isTruthy_iff.1 hsecret
    have hheld : nonEmptyString? block.rotationConfig.secret = some secret := by
      refine nonEmptyString?_eq_some.2 ⟨?_, hne⟩
      simp [JwtBlock.rotationConfig, optionalValue, hsome]
    obtain ⟨bytes, -, hfactory⟩ := hs256KeyResolverFactory_eq hcheck hheld
    exact ⟨_, hfactory⟩

/-- The key material of a built-in algorithm resolves exactly where it passes the shared checks. -/
theorem resolveKey_ok_iff {algorithm : Str} {block : JwtBlock} (hbuiltin : algorithm ∈ builtinAlgorithms)
    (hreadable : Readable keys algorithm block) :
    (∃ resolver, resolveKey builtins keys algorithm block = .ok resolver) ↔
      (algorithm = js "HS256" → isTruthy block.secret = true ∧
        ∃ rotation, checkHs256Rotation builtins.dateParse block.rotationConfig = .ok rotation) ∧
      (algorithm ∈ asymmetricAlgorithms → isTruthy block.jwksUri = true ∨
        isTruthy block.publicKey = true ∨ isTruthy block.publicKeyPath = true) ∧
      (UsesJwks algorithm block →
        (∃ url, checkJwksUri builtins (block.jwksUri.getD []) = .ok url) ∧ ReadsJwks builtins block) := by
  unfold resolveKey UsesJwks
  rcases List.mem_cons.1 hbuiltin with rfl | hasymmetric
  · have hnot : js "HS256" ∉ asymmetricAlgorithms := by decide
    rw [if_pos rfl, ExceptFold.exists_bind_eq_ok]
    constructor
    · rintro ⟨resolver, hresolver, -⟩
      exact ⟨fun _ => hs256KeyResolverFactory_ok_iff.1 ⟨resolver, hresolver⟩, fun h => absurd h hnot,
        fun h => absurd h.1 hnot⟩
    · rintro ⟨h, -⟩
      obtain ⟨resolver, hresolver⟩ := hs256KeyResolverFactory_ok_iff.2 (h rfl)
      exact ⟨resolver, hresolver, _, rfl⟩
  · have hnot : algorithm ≠ js "HS256" := by
      rintro rfl
      exact absurd hasymmetric (by decide)
    rw [if_neg hnot, if_pos hasymmetric, resolveAsymmetric_ok_iff hreadable]
    constructor
    · rintro ⟨hsource, hjwks⟩
      exact ⟨fun h => absurd h hnot, fun _ => hsource, fun h => hjwks h.2⟩
    · rintro ⟨-, hsource, hjwks⟩
      exact ⟨hsource hasymmetric, fun h => hjwks ⟨hasymmetric, h⟩⟩

theorem refusedAt_ok {α : Type} {checked : Except Str α} {a : α} :
    refusedAt checked = .ok a ↔ checked = .ok a := by
  cases checked <;> simp [refusedAt]

/-- The factory builds an authenticator exactly when a block passes the checks both boundaries make. -/
theorem jwtTokenAuthenticatorFactory_builds_iff {block : JwtBlock} {algorithm : Str}
    (halgorithm : block.algorithm = some algorithm) (hbuiltin : algorithm ∈ builtinAlgorithms)
    (hmode : block.mode ≠ some .insecureDecode) (hreadable : Readable keys algorithm block) :
    (∃ authenticator, jwtTokenAuthenticatorFactory builtins keys block = .ok authenticator) ↔
      SharedChecks builtins algorithm block := by
  have hverify : block.mode.getD .verify = .verify := by
    cases hm : block.mode with
    | none => rfl
    | some m =>
      cases m with
      | verify => rfl
      | insecureDecode => exact absurd hm hmode
  have hnonempty : isTruthy block.algorithm = true := by
    refine isTruthy_iff.2 ⟨algorithm, halgorithm, ?_⟩
    rintro rfl
    exact absurd hbuiltin (by decide)
  have hstale : (jwtModeRemovedKeys.any fun key => key ∈ block.otherKeys) = true ↔
      ¬ ∀ key ∈ jwtModeRemovedKeys, key ∉ block.otherKeys := by
    simp
  unfold jwtTokenAuthenticatorFactory
  rw [hverify, halgorithm, Option.getD_some]
  rw [halgorithm] at hnonempty
  constructor
  · rintro ⟨authenticator, h⟩
    split at h
    · exact absurd h (by simp)
    rename_i hcurrent
    rw [hstale, not_not] at hcurrent
    obtain ⟨bounds, hbounds, h⟩ := ExceptFold.bind_eq_ok h
    obtain ⟨claim, hclaim, h⟩ := ExceptFold.bind_eq_ok h
    obtain ⟨encoding, hencoding, h⟩ := ExceptFold.bind_eq_ok h
    dsimp only at h
    obtain ⟨checked, hchecked, h⟩ := ExceptFold.bind_eq_ok h
    rw [hnonempty] at h
    simp only [Bool.not_true, Bool.false_eq_true, if_false] at h
    obtain ⟨resolver, hresolver, -⟩ := ExceptFold.bind_eq_ok h
    obtain ⟨hage, htolerance⟩ := resolveJwtTimeClaimBounds_ok_iff.1 ⟨bounds, hbounds⟩
    obtain ⟨hissuer, haudience, htype, haudienceClaim, -⟩ := assertVerifyRouterJwtConfig_ok.1 hchecked
    obtain ⟨hsecret, hsource, hjwks⟩ := (resolveKey_ok_iff hbuiltin hreadable).1 ⟨resolver, hresolver⟩
    exact ⟨hcurrent, hage, htolerance, haudienceClaim, ⟨encoding, refusedAt_ok.1 hencoding⟩, hissuer,
      haudience, htype, hsecret, hsource, hjwks⟩
  · intro shared
    rw [if_neg (by rw [hstale, not_not]; exact shared.current)]
    obtain ⟨bounds, hbounds⟩ := resolveJwtTimeClaimBounds_ok_iff.2 ⟨shared.age, shared.tolerance⟩
    obtain ⟨claim, hclaim⟩ := shared.audienceClaim
    obtain ⟨encoding, hencoding⟩ := shared.secretEncoding
    obtain ⟨issuer, hissuer, -⟩ := shared.issuer
    obtain ⟨audience, haudience, -⟩ := shared.audience
    obtain ⟨tokenType, htype, -⟩ := isTruthy_iff.1 shared.tokenType
    obtain ⟨resolver, hresolver⟩ :=
      (resolveKey_ok_iff hbuiltin hreadable).2 ⟨shared.secret, shared.source, shared.jwks⟩
    have hchecked : assertVerifyRouterJwtConfig block.issuer block.audience block.tokenType
        block.audienceClaim (js "createApp") jwtPath (js "oauth.jwt.mode is \"verify\"") =
          .ok (issuer, audience, tokenType) :=
      assertVerifyRouterJwtConfig_ok.2 ⟨shared.issuer, shared.audience, shared.tokenType, ⟨claim, hclaim⟩,
        hissuer, haudience, htype⟩
    refine ExceptFold.exists_bind_eq_ok.2 ⟨bounds, hbounds, ExceptFold.exists_bind_eq_ok.2
      ⟨claim, refusedAt_ok.2 hclaim, ExceptFold.exists_bind_eq_ok.2
        ⟨encoding, refusedAt_ok.2 hencoding, ExceptFold.exists_bind_eq_ok.2 ⟨_, hchecked, ?_⟩⟩⟩⟩
    dsimp only
    rw [hnonempty]
    simp only [Bool.not_true, Bool.false_eq_true, if_false]
    refine ExceptFold.exists_bind_eq_ok.2 ⟨resolver, hresolver, _, createTokenAuthenticator_ok
      (hissuer ▸ shared.issuer) (haudience ▸ shared.audience) (htype ▸ shared.tokenType) ?_ hbounds⟩
    exact checkAudienceClaim_again hclaim

/-- For every block under `verify` with its `tokenType` stated and a built-in algorithm, whose keys can
be read: the schema and the factory agree exactly where a check both make refuses the block, or the
checks the schema makes alone pass. -/
theorem boundaries_agree_iff (builtins : Builtins) (keys : KeyImport κ) (block : JwtBlock)
    (algorithm tokenType : Str) (halgorithm : block.algorithm = some algorithm)
    (hbuiltin : algorithm ∈ builtinAlgorithms) (htype : block.tokenType = some tokenType)
    (hmode : block.mode ≠ some .insecureDecode) (hreadable : Readable keys algorithm block) :
    ((∃ parsed, oauthJwtSchema builtins block = .ok parsed) ↔
      ∃ authenticator, jwtTokenAuthenticatorFactory builtins keys block = .ok authenticator) ↔
    ¬ SharedChecks builtins algorithm block ∨ SchemaChecks builtins algorithm block := by
  rw [oauthJwtSchema_accepts_iff halgorithm htype hmode,
    jwtTokenAuthenticatorFactory_builds_iff halgorithm hbuiltin hmode hreadable]
  tauto

end

/-! ## A block the boundaries disagree on -/

/-- The built-ins, on texts that none of them reads. -/
def noBuiltins : Builtins :=
  { dateParse := fun _ => none, number := fun _ => .nan, string := fun _ => [], url := fun _ => none }

/-- A PEM text that is its own key, and no file. -/
def textKeys : KeyImport Str :=
  { importSPKI := fun pem _ => .ok pem, readFile := fun _ => .error (js "ENOENT") }

/-- An RS256 block with its key inline. -/
def inlineKeyBlock : JwtBlock :=
  { algorithm := some (js "RS256")
    publicKey := some (js "-----BEGIN PUBLIC KEY-----")
    issuer := some (.one (js "https://idp.example"))
    audience := some (.one (js "api"))
    tokenType := some (js "at+jwt") }

/-- The block, with a previous secret left over from HS256. -/
def leftoverSecretsBlock : JwtBlock :=
  { inlineKeyBlock with
    previousSecrets := some
      [{ kid := js "2025", secret := js "c2VjcmV0", expiresAt := js "2026-01-01T00:00:00Z" }] }

theorem textKeys_readable {algorithm : Str} {block : JwtBlock} (h : block.publicKeyPath = none) :
    Readable textKeys algorithm block :=
  ⟨fun pem _ _ => ⟨pem, rfl⟩, fun path hpath _ => absurd hpath (by rw [h]; simp)⟩

theorem boundaries_agree_iff_inlineKey :
    (∃ parsed, oauthJwtSchema noBuiltins inlineKeyBlock = .ok parsed) ↔
      ∃ authenticator, jwtTokenAuthenticatorFactory noBuiltins textKeys inlineKeyBlock =
        .ok authenticator := by
  refine (boundaries_agree_iff noBuiltins textKeys inlineKeyBlock (js "RS256") (js "at+jwt") rfl
    (by decide) rfl (by decide) (textKeys_readable rfl)).2 (Or.inr ⟨fun _ => ⟨?_, ?_⟩, fun _ => rfl⟩)
  · exact ⟨⟨_, rfl⟩, ⟨_, rfl⟩, ⟨_, rfl⟩⟩
  · intro uri huri
    have habsent : inlineKeyBlock.jwksUri = none := rfl
    rw [habsent] at huri
    exact absurd huri (by simp)

theorem boundaries_disagree_leftoverSecrets :
    leftoverSecretsBlock.mode ≠ some .insecureDecode ∧
    Readable textKeys (js "RS256") leftoverSecretsBlock ∧
    (¬ ∃ parsed, oauthJwtSchema noBuiltins leftoverSecretsBlock = .ok parsed) ∧
    ∃ authenticator, jwtTokenAuthenticatorFactory noBuiltins textKeys leftoverSecretsBlock =
      .ok authenticator := by
  refine ⟨by decide, textKeys_readable rfl, ?_, _, rfl⟩
  rintro ⟨parsed, h⟩
  have hissues : superRefine noBuiltins (js "RS256") (js "at+jwt") .verify leftoverSecretsBlock ≠ [] := by
    decide
  have hrefused : oauthJwtSchema noBuiltins leftoverSecretsBlock =
      .error (superRefine noBuiltins (js "RS256") (js "at+jwt") .verify leftoverSecretsBlock) := by
    unfold oauthJwtSchema
    rw [if_neg (by decide)]
    exact if_pos hissues
  rw [hrefused] at h
  exact absurd h (by simp)

end PolicyVerifier.Server
