import PolicyVerifier.Lib.ExceptFold
import PolicyVerifier.Server.KeyResolvers
import PolicyVerifier.Server.Proofs.RotationCheckProofs

/-!
# What an HS256 rotation accepts

A rotation block that passes its check gives every entry its own `kid`, so the two lookup paths
accept exactly the tokens signed with the key of an entry that is live.
-/

namespace PolicyVerifier.Server

open Js

/-! ## What the check leaves -/

section

variable {dateParse : Str → Option ℚ}

/-- An entry of the list holds what it was narrowed to, and that can be used. -/
structure Checked (dateParse : Str → Option ℚ) (encoding : SecretEncoding) (entry : Value)
    (previous : Hs256PreviousSecret) : Prop where
  kid : entry.field (js "kid") = .str previous.kid
  secret : entry.field (js "secret") = .str previous.secret
  expiresAt : entry.field (js "expiresAt") = .str previous.expiresAt
  decodes : (decodeSecret previous.secret encoding).isSome = true
  parses : (dateParse previous.expiresAt).isSome = true

theorem UsableEntry.checked {encoding : SecretEncoding} {entry : Value}
    (h : UsableEntry dateParse encoding entry) : Checked dateParse encoding entry (narrowed entry) where
  kid := h.narrowedTo.kid
  secret := h.narrowedTo.secret
  expiresAt := h.narrowedTo.expiresAt
  decodes := by
    obtain ⟨bytes, hbytes, -⟩ := h.clears
    rw [hbytes]
    rfl
  parses := h.parses

/-- The items of a list that may be absent. -/
def itemsOf (v : Value) : List Value := v.items?.getD []

/-- What an accepted block holds. -/
structure Accepts (dateParse : Str → Option ℚ) (config : Hs256RotationConfig)
    (rotation : Hs256Rotation) : Prop where
  encoding : checkSecretEncoding config.secretEncoding = .ok rotation.secretEncoding
  kid : config.kid.str? = rotation.kid
  secret : ∀ secret, nonEmptyString? config.secret = some secret →
    (decodeSecret secret rotation.secretEncoding).isSome = true
  previous : List.Forall₂ (Checked dateParse rotation.secretEncoding) (itemsOf config.previousSecrets)
    rotation.previousSecrets
  nodup : (rotation.kid.toList ++ rotation.previousSecrets.map Hs256PreviousSecret.kid).Nodup

theorem checkHs256Rotation_accepts {config : Hs256RotationConfig} {rotation : Hs256Rotation}
    (h : checkHs256Rotation dateParse config = .ok rotation) : Accepts dateParse config rotation := by
  obtain ⟨encoding, husable, rfl⟩ := checkHs256Rotation_ok_iff.1 h
  have hcurrent : nonEmptyString? config.kid = config.kid.str? := by
    rcases husable.kid with habsent | ⟨kid, hpresent, hnonempty⟩
    · rw [habsent]
      rfl
    · rw [nonEmptyString?_eq_some.2 ⟨hpresent, hnonempty⟩, hpresent]
      rfl
  have hentries : (∀ entry ∈ itemsOf config.previousSecrets, UsableEntry dateParse encoding entry) ∧
      (config.kid.str?.toList ++ (itemsOf config.previousSecrets).map fun entry => (narrowed entry).kid).Nodup := by
    rw [← hcurrent]
    rcases husable.previous with habsent | ⟨items, hitems, hentries⟩
    · rw [itemsOf, habsent]
      exact ⟨by simp [Value.items?], by cases nonEmptyString? config.kid <;> simp [Value.items?]⟩
    · rw [itemsOf, hitems]
      exact ⟨hentries.usable, (distinct_kids hentries.usable husable.kid).2 ⟨hentries.distinct, hentries.different⟩⟩
  refine ⟨checkSecretEncoding_ok_iff.2 husable.reading, rfl, fun secret hsecret => ?_, ?_, ?_⟩
  · obtain ⟨hstring, hnonempty⟩ := nonEmptyString?_eq_some.1 hsecret
    obtain ⟨bytes, hbytes, -⟩ := husable.secret secret hstring hnonempty
    exact Option.isSome_iff_exists.2 ⟨bytes, hbytes⟩
  · show List.Forall₂ _ (itemsOf config.previousSecrets) ((itemsOf config.previousSecrets).map narrowed)
    rw [List.forall₂_map_right_iff, List.forall₂_same]
    exact fun entry hentry => (hentries.1 entry hentry).checked
  · show (config.kid.str?.toList ++ ((itemsOf config.previousSecrets).map narrowed).map
      Hs256PreviousSecret.kid).Nodup
    rw [List.map_map]
    exact hentries.2

/-! ## The keys an accepted block gives -/

/-- An entry a config names: the current secret, or a previous one with its expiry. -/
inductive Configured (dateParse : Str → Option ℚ) (config : Hs256RotationConfig) : Hs256Key → Prop
  | current {encoding : SecretEncoding} {kid secret : Str} {key : KeyBytes}
      (read : checkSecretEncoding config.secretEncoding = .ok encoding)
      (named : config.kid = .str kid) (held : config.secret = .str secret)
      (decodes : decodeSecret secret encoding = some key) :
      Configured dateParse config { kid, key }
  | previous {encoding : SecretEncoding} {item : Value} {kid secret expiresAt : Str} {key : KeyBytes}
      {expiresAtMs : ℚ} (read : checkSecretEncoding config.secretEncoding = .ok encoding)
      (listed : item ∈ itemsOf config.previousSecrets)
      (named : item.field (js "kid") = .str kid) (held : item.field (js "secret") = .str secret)
      (until_ : item.field (js "expiresAt") = .str expiresAt)
      (decodes : decodeSecret secret encoding = some key)
      (parses : dateParse expiresAt = some expiresAtMs) :
      Configured dateParse config { kid, key, expiresAtMs := some expiresAtMs }

/-- The keys of the resolver: those of the entries the config names, each under its own `kid`. -/
structure KeysOf (dateParse : Str → Option ℚ) (config : Hs256RotationConfig) (keys : List Hs256Key)
    (current : KeyBytes) : Prop where
  configured : ∀ entry, entry ∈ keys ↔ Configured dateParse config entry
  kids : (keys.map Hs256Key.kid).Nodup
  current : ∃ entry ∈ keys, entry.key = current ∧ entry.expiresAtMs = none

/-- The key of a previous secret of an accepted block. -/
def keyOf (dateParse : Str → Option ℚ) (encoding : SecretEncoding) (previous : Hs256PreviousSecret) :
    Hs256Key :=
  { kid := previous.kid
    key := (decodeSecret previous.secret encoding).getD []
    expiresAtMs := dateParse previous.expiresAt }

theorem toSecretKey_ok {secret : Str} {encoding : SecretEncoding}
    (h : (decodeSecret secret encoding).isSome = true) :
    toSecretKey secret encoding = .ok ((decodeSecret secret encoding).getD []) := by
  obtain ⟨bytes, hbytes⟩ := Option.isSome_iff_exists.1 h
  simp [toSecretKey, hbytes]

/-- Of two lists that correspond, what is in the second belongs to something in the first. -/
theorem exists_of_forall₂ {α β : Type} {R : α → β → Prop} {xs : List α} {ys : List β}
    (h : List.Forall₂ R xs ys) : (∀ y ∈ ys, ∃ x ∈ xs, R x y) ∧ ∀ x ∈ xs, ∃ y ∈ ys, R x y := by
  induction h with
  | nil => simp
  | cons hab _ ih =>
    refine ⟨fun y hy => ?_, fun x hx => ?_⟩
    · rcases List.mem_cons.1 hy with rfl | hy
      · exact ⟨_, by simp, hab⟩
      · obtain ⟨x, hx, hxy⟩ := ih.1 y hy
        exact ⟨x, by simp [hx], hxy⟩
    · rcases List.mem_cons.1 hx with rfl | hx
      · exact ⟨_, by simp, hab⟩
      · obtain ⟨y, hy, hxy⟩ := ih.2 x hx
        exact ⟨y, by simp [hy], hxy⟩

/-- What an accepted block that holds a secret resolves to. -/
theorem hs256KeyResolverFactory_eq {config : Hs256RotationConfig} {rotation : Hs256Rotation}
    {secret : Str} (hcheck : checkHs256Rotation dateParse config = .ok rotation)
    (hsecret : nonEmptyString? config.secret = some secret) :
    ∃ bytes, decodeSecret secret rotation.secretEncoding = some bytes ∧
      hs256KeyResolverFactory dateParse config =
        .ok (if rotation.kid = none ∧ rotation.previousSecrets = [] then .secret bytes
          else .rotating ({ kid := rotation.kid.getD [], key := bytes } ::
            rotation.previousSecrets.map (keyOf dateParse rotation.secretEncoding)) bytes) := by
  have accepted := checkHs256Rotation_accepts hcheck
  obtain ⟨hstring, hnonempty⟩ := nonEmptyString?_eq_some.1 hsecret
  have hprevious : rotation.previousSecrets.mapM (previousKey dateParse rotation.secretEncoding) =
      .ok (rotation.previousSecrets.map (keyOf dateParse rotation.secretEncoding)) := by
    refine ExceptFold.mapM_ok fun previous hmem => ?_
    obtain ⟨item, -, hchecked⟩ := (exists_of_forall₂ accepted.previous).1 previous hmem
    rw [previousKey, toSecretKey_ok hchecked.decodes]
    rfl
  have hcurrent := toSecretKey_ok (accepted.secret secret hsecret)
  obtain ⟨bytes, hbytes⟩ := Option.isSome_iff_exists.1 (accepted.secret secret hsecret)
  refine ⟨bytes, hbytes, ?_⟩
  have hparse : parseHs256Rotation dateParse config (js "oauth.jwt") = .ok rotation := by
    rw [parseHs256Rotation, hcheck]
  have htruthy : isFalsy config.secret = false := by
    rw [hstring]
    simpa [isFalsy] using hnonempty
  rw [hs256KeyResolverFactory, htruthy, hparse, hstring]
  simp only [Bool.false_eq_true, if_false, bind, Except.bind]
  rw [hcurrent, hbytes]
  dsimp only
  split
  · rfl
  · rw [hprevious]
    rfl

/-- An accepted block that names a current `kid` and holds a secret gives the rotating resolver. -/
theorem hs256KeyResolverFactory_rotating {config : Hs256RotationConfig} {rotation : Hs256Rotation}
    {kid secret : Str} (hcheck : checkHs256Rotation dateParse config = .ok rotation)
    (hkid : rotation.kid = some kid) (hsecret : nonEmptyString? config.secret = some secret) :
    ∃ keys current, hs256KeyResolverFactory dateParse config = .ok (.rotating keys current) ∧
      KeysOf dateParse config keys current := by
  have accepted := checkHs256Rotation_accepts hcheck
  obtain ⟨hstring, -⟩ := nonEmptyString?_eq_some.1 hsecret
  obtain ⟨bytes, hbytes, hfactory⟩ := hs256KeyResolverFactory_eq hcheck hsecret
  have hnamed : config.kid = .str kid := Value.str?_eq_some.1 (accepted.kid.trans hkid)
  rw [hkid, if_neg (by simp)] at hfactory
  refine ⟨_, _, hfactory, ?_, ?_, ?_⟩
  · intro entry
    rw [List.mem_cons, List.mem_map]
    constructor
    · rintro (rfl | ⟨previous, hmem, rfl⟩)
      · exact .current accepted.encoding hnamed hstring hbytes
      · obtain ⟨item, hitem, hchecked⟩ := (exists_of_forall₂ accepted.previous).1 previous hmem
        obtain ⟨key, hkey⟩ := Option.isSome_iff_exists.1 hchecked.decodes
        obtain ⟨expiresAtMs, hms⟩ := Option.isSome_iff_exists.1 hchecked.parses
        rw [keyOf, hkey, hms]
        exact .previous accepted.encoding hitem hchecked.kid hchecked.secret hchecked.expiresAt hkey hms
    · intro hconfigured
      cases hconfigured with
      | current read named held decodes =>
        obtain rfl := Value.str.inj (hnamed.symm.trans named)
        obtain rfl := Value.str.inj (hstring.symm.trans held)
        obtain rfl := Except.ok.inj (accepted.encoding.symm.trans read)
        obtain rfl := Option.some.inj (hbytes.symm.trans decodes)
        exact Or.inl rfl
      | previous read listed named held until_ decodes parses =>
        obtain ⟨previous, hmem, hchecked⟩ := (exists_of_forall₂ accepted.previous).2 _ listed
        obtain rfl := Except.ok.inj (accepted.encoding.symm.trans read)
        refine Or.inr ⟨previous, hmem, ?_⟩
        obtain rfl := Value.str.inj (named.symm.trans hchecked.kid)
        obtain rfl := Value.str.inj (held.symm.trans hchecked.secret)
        obtain rfl := Value.str.inj (until_.symm.trans hchecked.expiresAt)
        rw [keyOf, decodes, parses]
        rfl
  · have hnodup := accepted.nodup
    rw [hkid] at hnodup
    simpa [keyOf, Function.comp_def] using hnodup
  · exact ⟨{ kid, key := bytes }, List.mem_cons_self .., rfl, rfl⟩

/-! ## The two lookup paths -/

/-- What trying every secret in turn comes to: only live ones are tried, and the one found signed. -/
theorem tryEach_spec (nowMs : ℚ) (token : JwsToken) (keys : List Hs256Key) :
    (∀ entry ∈ (tryEach nowMs token keys).1, isLive entry nowMs = true) ∧
    (∀ entry, (tryEach nowMs token keys).2 = some entry →
      entry ∈ keys ∧ isLive entry nowMs = true ∧ token.signedWith entry.key = true) ∧
    ((tryEach nowMs token keys).2 = none →
      ∀ entry ∈ keys, isLive entry nowMs = true → token.signedWith entry.key = false) := by
  induction keys with
  | nil => simp [tryEach]
  | cons entry keys ih =>
    obtain ⟨htried, hfound, hnone⟩ := ih
    rw [tryEach]
    by_cases hlive : isLive entry nowMs = true
    · rw [if_pos hlive]
      by_cases hsigned : token.signedWith entry.key = true
      · rw [if_pos hsigned]
        refine ⟨by simpa using hlive, fun found h => ?_, fun h => absurd h (by simp)⟩
        obtain rfl := Option.some.inj h
        exact ⟨List.mem_cons_self .., hlive, hsigned⟩
      · rw [if_neg hsigned]
        refine ⟨?_, fun found h => ?_, fun h other hmem hother => ?_⟩
        · simpa [hlive] using htried
        · obtain ⟨hmem, hrest⟩ := hfound found h
          exact ⟨List.mem_cons_of_mem _ hmem, hrest⟩
        · rcases List.mem_cons.1 hmem with rfl | hmem
          · simpa using hsigned
          · exact hnone h other hmem hother
    · rw [if_neg hlive]
      refine ⟨htried, fun found h => ?_, fun h other hmem hother => ?_⟩
      · obtain ⟨hmem, hrest⟩ := hfound found h
        exact ⟨List.mem_cons_of_mem _ hmem, hrest⟩
      · rcases List.mem_cons.1 hmem with rfl | hmem
        · exact absurd hother hlive
        · exact hnone h other hmem hother

/-- With a `kid` for each, the lookup finds exactly the entry of a `kid`. -/
theorem byKid_iff {keys : List Hs256Key} (h : (keys.map Hs256Key.kid).Nodup) (kid : Str)
    (entry : Hs256Key) :
    (OrderedMap.ofList (keys.map fun e => (e.kid, e))).get? kid = some entry ↔
      entry ∈ keys ∧ entry.kid = kid := by
  rw [OrderedMap.get?_ofList]
  · constructor
    · intro hmem
      obtain ⟨e, he, heq⟩ := List.mem_map.1 hmem
      obtain ⟨rfl, rfl⟩ := Prod.mk.inj heq
      exact ⟨he, rfl⟩
    · rintro ⟨hmem, rfl⟩
      exact List.mem_map.2 ⟨entry, hmem, rfl⟩
  · intro e he e' he' hkid
    obtain ⟨k, hk, rfl⟩ := List.mem_map.1 he
    obtain ⟨k', hk', rfl⟩ := List.mem_map.1 he'
    exact List.inj_on_of_nodup_map h hk hk' hkid

/-- What one verification may do, at its time. -/
structure RotationLaw (dateParse : Str → Option ℚ) (config : Hs256RotationConfig)
    (request : ℚ × JwsToken) (verification : Verification) : Prop where
  /-- The signature is accepted exactly under a live entry: the one the header names, or any where it
  names none. -/
  accepted : verification.verdict = .accepted ↔
    ∃ entry, Configured dateParse config entry ∧ isLive entry request.1 = true ∧
      request.2.signedWith entry.key = true ∧
      (request.2.kid = .str entry.kid ∨ request.2.kid = .undefined)
  /-- A `kid` that is not configured, or not live, is refused without any trial. -/
  refused : request.2.kid ≠ .undefined →
    (¬ ∃ entry, Configured dateParse config entry ∧ isLive entry request.1 = true ∧
      request.2.kid = .str entry.kid) →
    verification.tried = [] ∧ verification.handed = none ∧
      ∃ message, verification.verdict = .noMatchingKey message
  /-- No key is tried or handed out on an entry's account but while that is live. -/
  spent : ∀ entry, entry ∈ verification.tried ∨ verification.handed = some entry →
    isLive entry request.1 = true

/-- No kid: every live secret in turn. -/
theorem verifySignature_unnamed {config : Hs256RotationConfig} {keys : List Hs256Key} {current : KeyBytes}
    (hkeys : KeysOf dateParse config keys current) (nowMs : ℚ) {token : JwsToken}
    (hnames : token.kid = .undefined) :
    RotationLaw dateParse config (nowMs, token) (verifySignature keys current (nowMs, token)) := by
  obtain ⟨htried, hfound, hnone⟩ := tryEach_spec nowMs token keys
  rcases htry : tryEach nowMs token keys with ⟨tried, found⟩
  rw [htry] at htried hfound hnone
  cases found with
  | some entry =>
    obtain ⟨hmem, hlive, hsigned⟩ := hfound entry rfl
    have hverification : verifySignature keys current (nowMs, token) =
        { tried, handed := some entry, verdict := .accepted } := by
      simp [verifySignature, createRotatingKeyResolver, hnames, htry, hsigned]
    rw [hverification]
    refine ⟨iff_of_true rfl ⟨entry, (hkeys.configured _).1 hmem, hlive, hsigned, Or.inr hnames⟩,
      fun h => absurd hnames h, ?_⟩
    rintro other (hother | hother)
    · exact htried other hother
    · obtain rfl := Option.some.inj hother
      exact hlive
  | none =>
    obtain ⟨entry, hmem, rfl, hunlimited⟩ := hkeys.current
    have hlive : isLive entry nowMs = true := by
      rw [isLive, hunlimited]
    have hunsigned : token.signedWith entry.key = false := hnone rfl entry hmem hlive
    have hverification : verifySignature keys entry.key (nowMs, token) =
        { tried, handed := none, verdict := .signatureVerificationFailed } := by
      simp [verifySignature, createRotatingKeyResolver, hnames, htry, hunsigned]
    rw [hverification]
    refine ⟨iff_of_false (by simp) ?_, fun h => absurd hnames h, ?_⟩
    · rintro ⟨other, hconfigured, hother, hsigned, -⟩
      have hno := hnone rfl other ((hkeys.configured _).2 hconfigured) hother
      exact absurd (hsigned.symm.trans hno) (by simp)
    · rintro other (hother | hother)
      · exact htried other hother
      · exact absurd hother (by simp)

/-- The entry that a header's kid finds is the configured one it names. -/
theorem lookup_kid_iff {config : Hs256RotationConfig} {keys : List Hs256Key} {current : KeyBytes}
    (hkeys : KeysOf dateParse config keys current) (kid : Value) (entry : Hs256Key) :
    kid.str?.bind (OrderedMap.ofList (keys.map fun e => (e.kid, e))).get? = some entry ↔
      Configured dateParse config entry ∧ kid = .str entry.kid := by
  rw [← hkeys.configured]
  cases kid with
  | str kid =>
    rw [Value.str?, Option.bind_some, byKid_iff hkeys.kids]
    simp [eq_comm]
  | _ => simp [Value.str?]

/-- A kid: its entry or none. -/
theorem verifySignature_named {config : Hs256RotationConfig} {keys : List Hs256Key} {current : KeyBytes}
    (hkeys : KeysOf dateParse config keys current) (nowMs : ℚ) {token : JwsToken}
    (hnames : token.kid ≠ .undefined) :
    RotationLaw dateParse config (nowMs, token) (verifySignature keys current (nowMs, token)) := by
  have hlookup := lookup_kid_iff hkeys token.kid
  cases hentry : token.kid.str?.bind (OrderedMap.ofList (keys.map fun e => (e.kid, e))).get? with
  | none =>
    have hnot : ∀ entry, ¬ (Configured dateParse config entry ∧ token.kid = .str entry.kid) := by
      intro entry h
      rw [(hlookup entry).2 h] at hentry
      exact absurd hentry (by simp)
    have hverification : verifySignature keys current (nowMs, token) =
        { tried := [], handed := none
          verdict := .noMatchingKey (js "no configured HS256 secret matches the token \"kid\"") } := by
      simp [verifySignature, createRotatingKeyResolver, hnames, hentry]
    rw [hverification]
    refine ⟨iff_of_false (by simp) ?_, fun _ _ => ⟨rfl, rfl, _, rfl⟩, by simp⟩
    rintro ⟨entry, hconfigured, -, -, hkid | hkid⟩
    · exact hnot entry ⟨hconfigured, hkid⟩
    · exact hnames hkid
  | some entry =>
    obtain ⟨hconfigured, hkid⟩ := (hlookup entry).1 hentry
    -- no other entry has that kid
    have honly : ∀ other, Configured dateParse config other → token.kid = .str other.kid →
        other = entry := by
      intro other hother hsame
      exact Option.some.inj (((hlookup other).2 ⟨hother, hsame⟩).symm.trans hentry)
    by_cases hlive : isLive entry nowMs = true
    · have hverification : verifySignature keys current (nowMs, token) =
          { tried := [], handed := some entry
            verdict := if token.signedWith entry.key then .accepted
              else .signatureVerificationFailed } := by
        simp [verifySignature, createRotatingKeyResolver, hnames, hentry, hlive]
      rw [hverification]
      refine ⟨?_, fun _ hno => absurd ⟨entry, hconfigured, hlive, hkid⟩ hno, ?_⟩
      · constructor
        · intro haccepted
          refine ⟨entry, hconfigured, hlive, ?_, Or.inl hkid⟩
          by_contra hunsigned
          dsimp only at haccepted hunsigned
          rw [if_neg hunsigned] at haccepted
          exact absurd haccepted (by simp)
        · rintro ⟨other, hother, -, hsigned, hsame | hnone⟩
          · rw [honly other hother hsame] at hsigned
            dsimp only at hsigned ⊢
            rw [if_pos hsigned]
          · exact absurd hnone hnames
      · rintro other (hother | hother)
        · exact absurd hother (by simp)
        · obtain rfl := Option.some.inj hother
          exact hlive
    · have hverification : verifySignature keys current (nowMs, token) =
          { tried := [], handed := none
            verdict := .noMatchingKey
              (js "the HS256 secret for the token \"kid\" is past its configured expiresAt") } := by
        simp [verifySignature, createRotatingKeyResolver, hnames, hentry, hlive]
      rw [hverification]
      refine ⟨iff_of_false (by simp) ?_, fun _ _ => ⟨rfl, rfl, _, rfl⟩, by simp⟩
      rintro ⟨other, hother, hotherLive, -, hsame | hnone⟩
      · rw [honly other hother hsame] at hotherLive
        exact hlive hotherLive
      · exact hnames hnone

theorem verifySignature_law {config : Hs256RotationConfig} {keys : List Hs256Key} {current : KeyBytes}
    (hkeys : KeysOf dateParse config keys current) (request : ℚ × JwsToken) :
    RotationLaw dateParse config request (verifySignature keys current request) := by
  by_cases hnames : request.2.kid = .undefined
  · exact verifySignature_unnamed hkeys request.1 hnames
  · exact verifySignature_named hkeys request.1 hnames

/-- For every accepted block that names a current `kid` and holds a secret, every sequence of tokens
and times is verified by the entries that are live. -/
theorem rotation_law (dateParse : Str → Option ℚ) (config : Hs256RotationConfig)
    (rotation : Hs256Rotation) (kid secret : Str)
    (hcheck : checkHs256Rotation dateParse config = .ok rotation) (hkid : rotation.kid = some kid)
    (hsecret : nonEmptyString? config.secret = some secret) :
    ∃ keys current, hs256KeyResolverFactory dateParse config = .ok (.rotating keys current) ∧
      ∀ requests : List (ℚ × JwsToken), List.Forall₂ (RotationLaw dateParse config) requests
        (requests.map (verifySignature keys current)) := by
  obtain ⟨keys, current, hfactory, hkeys⟩ := hs256KeyResolverFactory_rotating hcheck hkid hsecret
  refine ⟨keys, current, hfactory, fun requests => ?_⟩
  rw [List.forall₂_map_right_iff, List.forall₂_same]
  exact fun request _ => verifySignature_law hkeys request

end

/-- A block in the middle of a rotation: the previous secret stays until the end of 2025. -/
def rotatingConfig : Hs256RotationConfig :=
  { secret := .str (js "the current secret, of forty-one characters")
    kid := .str (js "2026")
    previousSecrets := .list
      [.obj 0
        [(js "kid", .str (js "2025")),
          (js "secret", .str (js "the previous secret, of forty-two characters")),
          (js "expiresAt", .str (js "2026-01-01T00:00:00Z"))]] }

/-- `Date.parse` on the one timestamp the block holds. -/
def dateParseOne (s : Str) : Option ℚ :=
  if s = js "2026-01-01T00:00:00Z" then some 1767225600000 else none

/-- A token that names no `kid`, signed with the previous secret. -/
def oldToken : JwsToken :=
  { kid := .undefined
    signedWith := fun key => key = utf8Bytes (js "the previous secret, of forty-two characters") }

/-- The same token is accepted up to the expiry, and no key of the previous entry is tried from then
on. -/
theorem rotation_law_overlap : ∃ keys current,
    hs256KeyResolverFactory dateParseOne rotatingConfig = .ok (.rotating keys current) ∧
    List.Forall₂ (RotationLaw dateParseOne rotatingConfig)
      [(1767225599999, oldToken), (1767225600000, oldToken)]
      ([(1767225599999, oldToken), (1767225600000, oldToken)].map (verifySignature keys current)) ∧
    ([(1767225599999, oldToken), (1767225600000, oldToken)].map
      fun request => (verifySignature keys current request).verdict) =
        [.accepted, .signatureVerificationFailed] := by
  obtain ⟨rotation, hcheck, hkid⟩ : ∃ rotation,
      checkHs256Rotation dateParseOne rotatingConfig = .ok rotation ∧
      rotation.kid = some (js "2026") := ⟨_, rfl, rfl⟩
  obtain ⟨keys, current, hfactory, hlaw⟩ :=
    rotation_law dateParseOne rotatingConfig rotation (js "2026")
      (js "the current secret, of forty-one characters") hcheck hkid rfl
  refine ⟨keys, current, hfactory, hlaw _, ?_⟩
  obtain ⟨rfl, rfl⟩ := Hs256Resolver.rotating.inj (Except.ok.inj hfactory)
  rfl

end PolicyVerifier.Server
