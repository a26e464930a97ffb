import PolicyVerifier.Server.Proofs.SecretProofs

/-!
# The check of a rotation block

What `checkHs256Rotation` accepts, and what it leaves of what it accepts. Its checks are collected, so each is
shown to be silent exactly where what it is about is usable, and the block is the conjunction.
-/

namespace PolicyVerifier.Server

open Js

/-! ## What each check is silent about -/

theorem nonEmptyString?_eq_some {v : Value} {s : Str} :
    nonEmptyString? v = some s ↔ v = .str s ∧ s ≠ [] := by
  rw [nonEmptyString?, Option.filter_eq_some_iff, decide_eq_true_iff, Value.str?_eq_some]

theorem isNonEmptyString_iff {v : Value} : isNonEmptyString v = true ↔ ∃ s, v = .str s ∧ s ≠ [] := by
  rw [isNonEmptyString, Option.isSome_iff_exists]
  exact exists_congr fun _ => nonEmptyString?_eq_some

/-- The reading a value names: the default where it is absent. -/
def NamesReading (value : Value) (encoding : SecretEncoding) : Prop :=
  value = .undefined ∧ encoding = .utf8 ∨ value = .str encoding.name

theorem SecretEncoding.name_inj {e e' : SecretEncoding} : e.name = e'.name ↔ e = e' := by
  cases e <;> cases e' <;> decide

theorem checkSecretEncoding_ok_iff {value : Value} {encoding : SecretEncoding} :
    checkSecretEncoding value = .ok encoding ↔ NamesReading value encoding := by
  unfold checkSecretEncoding NamesReading
  split
  · simp [defaultSecretEncoding, eq_comm]
  · rename_i hpresent
    have hfind : ∀ e, (secretEncodings.find? fun e => value = .str e.name) = some e ↔ value = .str e.name := by
      intro e
      constructor
      · intro h
        simpa using List.find?_some h
      · rintro rfl
        cases e <;> decide
    split
    · rename_i found hfound
      have hvalue := (hfind found).1 hfound
      simp [hvalue, SecretEncoding.name_inj]
    · rename_i hnone
      have hunnamed : value ≠ .str encoding.name := fun h => by
        rw [(hfind encoding).2 h] at hnone
        exact absurd hnone (by simp)
      have habsent : value ≠ .undefined := hpresent
      simp [hunnamed, habsent]

theorem missingField_nil {entry : Value} {index : Nat} {field : Str} :
    missingField entry index field = [] ↔ ∃ s, entry.field field = .str s ∧ s ≠ [] := by
  rw [← isNonEmptyString_iff]
  unfold missingField
  split <;> simp [*]

section

variable {dateParse : Str → Option ℚ} {encoding : SecretEncoding} {entry : Value} {index : Nat}

theorem weakSecret_nil {secret : Str} (h : entry.field (js "secret") = .str secret ∧ secret ≠ []) :
    weakSecret entry index (some encoding) = [] ↔ ClearsFloor encoding secret := by
  unfold weakSecret
  rw [nonEmptyString?_eq_some.2 h]
  exact clearsEntropyFloor_nil

theorem badExpiry_nil : badExpiry dateParse entry index = [] ↔
    ∃ t, entry.field (js "expiresAt") = .str t ∧ t ≠ [] ∧ (dateParse t).isSome = true := by
  have hsplit : (∃ t, entry.field (js "expiresAt") = .str t ∧ t ≠ [] ∧ (dateParse t).isSome = true) ↔
      ∃ t, nonEmptyString? (entry.field (js "expiresAt")) = some t ∧ (dateParse t).isSome = true := by
    simp only [nonEmptyString?_eq_some, and_assoc]
  rw [hsplit]
  unfold badExpiry
  cases hexpires : nonEmptyString? (entry.field (js "expiresAt")) with
  | none => simp
  | some t => cases hparses : dateParse t <;> simp [hparses]

/-! ## One entry -/

/-- An entry that can be used: an object of a `kid`, a secret that clears the floor and an expiry that is a
date. -/
structure UsableEntry (dateParse : Str → Option ℚ) (encoding : SecretEncoding) (entry : Value) : Prop where
  object : entry.isObject = true ∧ entry.isArray = false
  kid : ∃ s, entry.field (js "kid") = .str s ∧ s ≠ []
  secret : ∃ s, entry.field (js "secret") = .str s ∧ s ≠ [] ∧ ClearsFloor encoding s
  expiresAt : ∃ t, entry.field (js "expiresAt") = .str t ∧ t ≠ [] ∧ (dateParse t).isSome = true

/-- What an entry is narrowed to. -/
def narrowed (entry : Value) : Hs256PreviousSecret where
  kid := (entry.field (js "kid")).str?.getD []
  secret := (entry.field (js "secret")).str?.getD []
  expiresAt := (entry.field (js "expiresAt")).str?.getD []

/-- The fields of an entry are those of what it is narrowed to. -/
structure NarrowedTo (entry : Value) (previous : Hs256PreviousSecret) : Prop where
  kid : entry.field (js "kid") = .str previous.kid
  secret : entry.field (js "secret") = .str previous.secret
  expiresAt : entry.field (js "expiresAt") = .str previous.expiresAt

theorem UsableEntry.narrowedTo (h : UsableEntry dateParse encoding entry) :
    NarrowedTo entry (narrowed entry) := by
  obtain ⟨-, ⟨kid, hkid, -⟩, ⟨secret, hsecret, -⟩, ⟨expiresAt, hexpires, -⟩⟩ := h
  refine ⟨?_, ?_, ?_⟩
  · rw [narrowed, hkid]
    rfl
  · rw [narrowed, hsecret]
    rfl
  · rw [narrowed, hexpires]
    rfl

theorem UsableEntry.clears (h : UsableEntry dateParse encoding entry) :
    ClearsFloor encoding (narrowed entry).secret := by
  obtain ⟨secret, hsecret, -, hclears⟩ := h.secret
  rw [narrowed, hsecret]
  exact hclears

theorem UsableEntry.parses (h : UsableEntry dateParse encoding entry) :
    (dateParse (narrowed entry).expiresAt).isSome = true := by
  obtain ⟨expiresAt, hexpires, -, hparses⟩ := h.expiresAt
  rw [narrowed, hexpires]
  exact hparses

/-- An entry is silent exactly where it can be used. -/
theorem checkEntry_nil : (checkEntry dateParse entry index (some encoding)).1 = [] ↔
    UsableEntry dateParse encoding entry := by
  unfold checkEntry
  by_cases hshape : (!entry.isObject || entry.isArray) = true
  · rw [if_pos hshape]
    refine iff_of_false (by simp) fun husable => ?_
    simp [husable.object.1, husable.object.2] at hshape
  · rw [if_neg hshape]
    have hobject : entry.isObject = true ∧ entry.isArray = false := by simpa using hshape
    dsimp only
    rw [List.append_eq_nil_iff, List.append_eq_nil_iff, List.append_eq_nil_iff, missingField_nil,
      missingField_nil, badExpiry_nil]
    constructor
    · rintro ⟨⟨⟨hkid, secret, hsecret⟩, hweak⟩, hexpires⟩
      exact ⟨hobject, hkid, ⟨secret, hsecret.1, hsecret.2, (weakSecret_nil hsecret).1 hweak⟩, hexpires⟩
    · rintro ⟨-, hkid, ⟨secret, hsecret, hnonempty, hclears⟩, hexpires⟩
      exact ⟨⟨⟨hkid, secret, hsecret, hnonempty⟩, (weakSecret_nil ⟨hsecret, hnonempty⟩).2 hclears⟩, hexpires⟩

/-- An entry is narrowed where it is silent, and dropped where it is not. -/
theorem checkEntry_narrowed : (checkEntry dateParse entry index (some encoding)).2 =
    if (checkEntry dateParse entry index (some encoding)).1 = [] then some (narrowed entry) else none := by
  unfold checkEntry
  by_cases hshape : (!entry.isObject || entry.isArray) = true
  · rw [if_pos hshape]
    simp
  · rw [if_neg hshape]
    rfl

/-! ## The loop over the entries -/

/-- A turn over an entry that can be used, under a `kid` not seen before, keeps it. -/
theorem checkNext_kept {s : EntriesState} (h : UsableEntry dateParse encoding entry)
    (hnew : (narrowed entry).kid ∉ s.seen) : checkNext dateParse (some encoding) s (entry, index) =
      { issues := s.issues
        seen := s.seen ++ [(narrowed entry).kid]
        previousSecrets := s.previousSecrets ++ [narrowed entry] } := by
  have hissues : (checkEntry dateParse entry index (some encoding)).1 = [] := checkEntry_nil.2 h
  unfold checkNext
  simp only [checkEntry_narrowed, hissues, if_pos, if_neg hnew, List.append_nil]

/-- A turn over any other leaves an issue. -/
theorem checkNext_nil {s : EntriesState}
    (h : (checkNext dateParse (some encoding) s (entry, index)).issues = []) :
    UsableEntry dateParse encoding entry ∧ (narrowed entry).kid ∉ s.seen := by
  unfold checkNext at h
  rw [← @checkEntry_nil dateParse encoding entry index]
  by_cases hissues : (checkEntry dateParse entry index (some encoding)).1 = []
  · simp only [checkEntry_narrowed, hissues, if_pos] at h
    by_cases hseen : (narrowed entry).kid ∈ s.seen
    · rw [if_pos hseen] at h
      exact absurd h (by simp)
    · exact ⟨hissues, hseen⟩
  · simp only [checkEntry_narrowed, if_neg hissues] at h
    exact absurd (List.append_eq_nil_iff.1 h).2 hissues

/-- Entries that can all be used, each under a `kid` of its own, are all kept, in order. -/
theorem checkEntries_kept {items : List (Value × Nat)} {s : EntriesState}
    (h : ∀ item ∈ items, UsableEntry dateParse encoding item.1)
    (hkids : (s.seen ++ items.map fun item => (narrowed item.1).kid).Nodup) :
    items.foldl (checkNext dateParse (some encoding)) s =
      { issues := s.issues
        seen := s.seen ++ items.map fun item => (narrowed item.1).kid
        previousSecrets := s.previousSecrets ++ items.map fun item => narrowed item.1 } := by
  induction items generalizing s with
  | nil => simp
  | cons item items ih =>
    have hnew : (narrowed item.1).kid ∉ s.seen := fun hmem =>
      (List.nodup_append.1 hkids).2.2 _ hmem _ (by simp) rfl
    rw [List.foldl_cons, checkNext_kept (h item (by simp)) hnew,
      ih (fun i hi => h i (List.mem_cons_of_mem item hi)) (by simpa using hkids)]
    simp

/-- The issues collected so far stay. -/
theorem checkEntries_issues {encoding : Option SecretEncoding} {items : List (Value × Nat)} {s : EntriesState}
    (h : (items.foldl (checkNext dateParse encoding) s).issues = []) : s.issues = [] := by
  induction items generalizing s with
  | nil => exact h
  | cons item items ih =>
    have hnext := ih h
    unfold checkNext at hnext
    dsimp only at hnext
    split at hnext
    · exact (List.append_eq_nil_iff.1 hnext).1
    · split at hnext
      · exact (List.append_eq_nil_iff.1 (List.append_eq_nil_iff.1 hnext).1).1
      · exact (List.append_eq_nil_iff.1 hnext).1

/-- Entries that leave no issue can all be used, each under a `kid` of its own. -/
theorem checkEntries_nil {items : List (Value × Nat)} {s : EntriesState} (hseen : s.seen.Nodup)
    (h : (items.foldl (checkNext dateParse (some encoding)) s).issues = []) :
    s.issues = [] ∧ (∀ item ∈ items, UsableEntry dateParse encoding item.1) ∧
      (s.seen ++ items.map fun item => (narrowed item.1).kid).Nodup := by
  induction items generalizing s with
  | nil => exact ⟨h, by simp, by simpa using hseen⟩
  | cons item items ih =>
    rw [List.foldl_cons] at h
    obtain ⟨husable, hnew⟩ := checkNext_nil (checkEntries_issues h)
    rw [checkNext_kept husable hnew] at h
    have hgrown : (s.seen ++ [(narrowed item.1).kid]).Nodup := by
      rw [← List.concat_eq_append]
      exact List.Nodup.concat hnew hseen
    obtain ⟨hissues, hall, hnodup⟩ := ih hgrown h
    exact ⟨hissues, List.forall_mem_cons.2 ⟨husable, hall⟩, by simpa using hnodup⟩

/-! ## The block -/

/-- A list of previous secrets that can be used beside the current `kid`. -/
structure UsableEntries (dateParse : Str → Option ℚ) (encoding : SecretEncoding) (kid : Value)
    (items : List Value) : Prop where
  /-- They are no more than the cap. -/
  atMost : items.length ≤ maxPreviousSecrets
  usable : ∀ entry ∈ items, UsableEntry dateParse encoding entry
  /-- Their kids are pairwise distinct, and different from the current one. -/
  distinct : (items.map fun entry => entry.field (js "kid")).Nodup
  different : ∀ entry ∈ items, entry.field (js "kid") ≠ kid
  /-- There is a current `kid` where there is one of them. -/
  present : items ≠ [] → kid ≠ .undefined

/-- A rotation block that can be used, under a reading. -/
structure UsableRotation (dateParse : Str → Option ℚ) (config : Hs256RotationConfig)
    (encoding : SecretEncoding) : Prop where
  reading : NamesReading config.secretEncoding encoding
  kid : config.kid = .undefined ∨ ∃ kid, config.kid = .str kid ∧ kid ≠ []
  secret : ∀ secret, config.secret = .str secret → secret ≠ [] → ClearsFloor encoding secret
  previous : config.previousSecrets = .undefined ∨ ∃ items, config.previousSecrets.items? = some items ∧
    UsableEntries dateParse encoding config.kid items

variable {config : Hs256RotationConfig}

theorem encodingIssues_nil : encodingIssues config = [] ↔
    ∃ encoding, NamesReading config.secretEncoding encoding := by
  simp only [← checkSecretEncoding_ok_iff]
  unfold encodingIssues
  cases checkSecretEncoding config.secretEncoding <;> simp

theorem kidIssues_nil : kidIssues config = [] ↔
    config.kid = .undefined ∨ ∃ kid, config.kid = .str kid ∧ kid ≠ [] := by
  rw [← isNonEmptyString_iff]
  unfold kidIssues
  cases isNonEmptyString config.kid <;> simp

theorem secretIssues_nil (hreading : rotationEncoding config = some encoding) : secretIssues config = [] ↔
    ∀ secret, config.secret = .str secret → secret ≠ [] → ClearsFloor encoding secret := by
  have hsplit : (∀ secret, config.secret = .str secret → secret ≠ [] → ClearsFloor encoding secret) ↔
      ∀ secret, nonEmptyString? config.secret = some secret → ClearsFloor encoding secret := by
    simp only [nonEmptyString?_eq_some, and_imp]
  rw [hsplit]
  unfold secretIssues
  rw [hreading]
  cases nonEmptyString? config.secret with
  | none => simp
  | some secret => simpa using clearsEntropyFloor_nil

/-- The `kid`s of entries that can be used, as the loop collects them. -/
theorem distinct_kids {items : List Value} (h : ∀ entry ∈ items, UsableEntry dateParse encoding entry)
    (hkid : config.kid = .undefined ∨ ∃ kid, config.kid = .str kid ∧ kid ≠ []) :
    ((nonEmptyString? config.kid).toList ++ items.map fun entry => (narrowed entry).kid).Nodup ↔
      (items.map fun entry => entry.field (js "kid")).Nodup ∧
        ∀ entry ∈ items, entry.field (js "kid") ≠ config.kid := by
  have hfields : (items.map fun entry => entry.field (js "kid")) =
      (items.map fun entry => (narrowed entry).kid).map Value.str := by
    rw [List.map_map]
    exact List.map_congr_left fun entry hentry => (h entry hentry).narrowedTo.kid
  have hdistinct : (items.map fun entry => entry.field (js "kid")).Nodup ↔
      (items.map fun entry => (narrowed entry).kid).Nodup := by
    rw [hfields]
    exact List.nodup_map_iff fun _ _ h => Value.str.inj h
  rw [hdistinct]
  rcases hkid with habsent | ⟨kid, hpresent, hnonempty⟩
  · have hnone : nonEmptyString? config.kid = none := by rw [habsent]; rfl
    rw [hnone]
    refine ⟨fun hnodup => ⟨hnodup, fun entry hentry => ?_⟩, fun hnodup => hnodup.1⟩
    rw [(h entry hentry).narrowedTo.kid, habsent]
    simp
  · rw [nonEmptyString?_eq_some.2 ⟨hpresent, hnonempty⟩, hpresent, Option.toList_some, List.singleton_append,
      List.nodup_cons, and_comm]
    refine and_congr_right fun _ => ?_
    rw [List.mem_map]
    constructor
    · rintro hnotin entry hentry hsame
      rw [(h entry hentry).narrowedTo.kid] at hsame
      exact hnotin ⟨entry, hentry, Value.str.inj hsame⟩
    · rintro hdifferent ⟨entry, hentry, rfl⟩
      exact hdifferent entry hentry (h entry hentry).narrowedTo.kid

theorem currentIssues_nil {previousSecrets : List Hs256PreviousSecret}
    (hkid : config.kid = .undefined ∨ ∃ kid, config.kid = .str kid ∧ kid ≠ []) :
    currentIssues config previousSecrets = [] ↔ (previousSecrets ≠ [] → config.kid ≠ .undefined) := by
  have hstring : isNonEmptyString config.kid = true ↔ config.kid ≠ .undefined := by
    rw [isNonEmptyString_iff]
    rcases hkid with habsent | ⟨kid, hpresent, hnonempty⟩
    · simp [habsent]
    · simp [hpresent, hnonempty]
  rw [← hstring]
  unfold currentIssues
  by_cases hnil : previousSecrets = []
  · simp [hnil]
  · simp [hnil]

theorem checkPreviousSecrets_notList {encoding : Option SecretEncoding}
    (hpresent : config.previousSecrets ≠ .undefined) (hitems : config.previousSecrets.items? = none) :
    (checkPreviousSecrets dateParse config encoding).issues ≠ [] := by
  unfold checkPreviousSecrets
  dsimp only
  split
  · exact absurd (by assumption) hpresent
  · rw [hitems]
    simp

theorem checkPreviousSecrets_items {items : List Value} {encoding : Option SecretEncoding}
    (hitems : config.previousSecrets.items? = some items) (hlength : items.length ≤ maxPreviousSecrets) :
    checkPreviousSecrets dateParse config encoding =
      items.zipIdx.foldl (checkNext dateParse encoding) { seen := (nonEmptyString? config.kid).toList } := by
  obtain ⟨n, hlist⟩ := Value.items?_eq_some.1 hitems
  unfold checkPreviousSecrets
  rw [hlist]
  exact if_neg (Nat.not_lt.2 hlength)

/-- What is said of the entries of a list, said of the entries with their places. -/
theorem forall_zipIdx {p : Value → Prop} {items : List Value} :
    (∀ item ∈ items.zipIdx, p item.1) ↔ ∀ entry ∈ items, p entry := by
  conv_rhs => rw [← List.zipIdx_map_fst 0 items, List.forall_mem_map]

theorem map_zipIdx {α : Type} (f : Value → α) (items : List Value) :
    (items.zipIdx.map fun item => f item.1) = items.map f := by
  conv_rhs => rw [← List.zipIdx_map_fst 0 items, List.map_map]
  rfl

/-- A list that can be used is kept whole. -/
theorem checkPreviousSecrets_kept {items : List Value} (hitems : config.previousSecrets.items? = some items)
    (hkid : config.kid = .undefined ∨ ∃ kid, config.kid = .str kid ∧ kid ≠ [])
    (h : UsableEntries dateParse encoding config.kid items) :
    (checkPreviousSecrets dateParse config (some encoding)).issues = [] ∧
      (checkPreviousSecrets dateParse config (some encoding)).previousSecrets = items.map narrowed := by
  have hnodup := (distinct_kids h.usable hkid).2 ⟨h.distinct, h.different⟩
  rw [← map_zipIdx fun entry => (narrowed entry).kid] at hnodup
  rw [checkPreviousSecrets_items hitems h.atMost, checkEntries_kept (forall_zipIdx.2 h.usable) hnodup, map_zipIdx]
  exact ⟨rfl, rfl⟩

/-- A list that leaves no issue, beside a `kid` that leaves none, can be used. -/
theorem usable_of_checkPreviousSecrets {items : List Value} (hitems : config.previousSecrets.items? = some items)
    (hkid : config.kid = .undefined ∨ ∃ kid, config.kid = .str kid ∧ kid ≠ [])
    (h : (checkPreviousSecrets dateParse config (some encoding)).issues = [])
    (hcurrent : currentIssues config
      (checkPreviousSecrets dateParse config (some encoding)).previousSecrets = []) :
    UsableEntries dateParse encoding config.kid items := by
  have hseen : (nonEmptyString? config.kid).toList.Nodup := by
    cases nonEmptyString? config.kid <;> simp
  have hlength : items.length ≤ maxPreviousSecrets := by
    by_contra hmany
    obtain ⟨n, hlist⟩ := Value.items?_eq_some.1 hitems
    unfold checkPreviousSecrets at h
    rw [hlist] at h
    simp [Value.items?, Nat.not_le.1 hmany] at h
  rw [checkPreviousSecrets_items hitems hlength] at h
  obtain ⟨-, husable, hnodup⟩ := checkEntries_nil hseen h
  rw [checkPreviousSecrets_items hitems hlength, checkEntries_kept husable hnodup, currentIssues_nil hkid,
    map_zipIdx] at hcurrent
  rw [map_zipIdx fun entry => (narrowed entry).kid] at hnodup
  have hentries := forall_zipIdx.1 husable
  obtain ⟨hdistinct, hdifferent⟩ := (distinct_kids hentries hkid).1 hnodup
  refine ⟨hlength, hentries, hdistinct, hdifferent, fun hne => hcurrent ?_⟩
  simpa using hne

/-- What a block that can be used is accepted as. -/
def rotationOf (config : Hs256RotationConfig) (encoding : SecretEncoding) : Hs256Rotation where
  secretEncoding := encoding
  kid := config.kid.str?
  previousSecrets := (config.previousSecrets.items?.getD []).map narrowed

/-- A block is accepted exactly where it can be used, and as what it holds. -/
theorem checkHs256Rotation_ok_iff {rotation : Hs256Rotation} :
    checkHs256Rotation dateParse config = .ok rotation ↔
      ∃ encoding, UsableRotation dateParse config encoding ∧ rotation = rotationOf config encoding := by
  unfold checkHs256Rotation
  dsimp only
  constructor
  · intro h
    split at h
    · rename_i hissues
      obtain rfl := Except.ok.inj h
      rw [List.append_eq_nil_iff, List.append_eq_nil_iff, List.append_eq_nil_iff, List.append_eq_nil_iff,
        encodingIssues_nil, kidIssues_nil] at hissues
      obtain ⟨⟨⟨⟨⟨encoding, hreading⟩, hkid⟩, hsecret⟩, hentries⟩, hcurrent⟩ := hissues
      have hread : rotationEncoding config = some encoding := by
        rw [rotationEncoding, checkSecretEncoding_ok_iff.2 hreading]
        rfl
      rw [secretIssues_nil hread] at hsecret
      rw [hread] at hentries hcurrent ⊢
      by_cases habsent : config.previousSecrets = .undefined
      · refine ⟨encoding, ⟨hreading, hkid, hsecret, .inl habsent⟩, ?_⟩
        unfold rotationOf checkPreviousSecrets
        rw [habsent]
        rfl
      · cases hitems : config.previousSecrets.items? with
        | none =>
          exact absurd hentries (checkPreviousSecrets_notList habsent hitems)
        | some items =>
          have husable := usable_of_checkPreviousSecrets hitems hkid hentries hcurrent
          refine ⟨encoding, ⟨hreading, hkid, hsecret, .inr ⟨items, hitems, husable⟩⟩, ?_⟩
          rw [(checkPreviousSecrets_kept hitems hkid husable).2, rotationOf, hitems]
          rfl
    · exact absurd h (by simp)
  · rintro ⟨encoding, husable, rfl⟩
    have hread : rotationEncoding config = some encoding := by
      rw [rotationEncoding, checkSecretEncoding_ok_iff.2 husable.reading]
      rfl
    have hentries : (checkPreviousSecrets dateParse config (some encoding)).issues = [] ∧
        (checkPreviousSecrets dateParse config (some encoding)).previousSecrets =
          (config.previousSecrets.items?.getD []).map narrowed ∧
        currentIssues config (checkPreviousSecrets dateParse config (some encoding)).previousSecrets = [] := by
      rcases husable.previous with habsent | ⟨items, hitems, hentries⟩
      · unfold checkPreviousSecrets
        rw [habsent]
        exact ⟨rfl, rfl, by simp [currentIssues]⟩
      · obtain ⟨hissues, hprevious⟩ := checkPreviousSecrets_kept hitems husable.kid hentries
        refine ⟨hissues, by rw [hprevious, hitems]; rfl, ?_⟩
        rw [currentIssues_nil husable.kid, hprevious]
        exact fun hne => hentries.present (by simpa using hne)
    obtain ⟨hissues, hprevious, hcurrent⟩ := hentries
    rw [hread, hissues, hcurrent, encodingIssues_nil.2 ⟨encoding, husable.reading⟩, kidIssues_nil.2 husable.kid,
      (secretIssues_nil hread).2 husable.secret, hprevious]
    rfl

theorem checkHs256Rotation_error {issues : List Hs256RotationIssue}
    (h : checkHs256Rotation dateParse config = .error issues) : issues ≠ [] := by
  unfold checkHs256Rotation at h
  dsimp only at h
  split at h
  · exact absurd h (by simp)
  · rename_i hissues
    exact Except.error.inj h ▸ hissues

/-! ## What is accepted, and what is kept of it -/

/-- A secret that decodes under a reading to at least the floor's number of bytes. -/
def Decodes (encoding : SecretEncoding) (secret : Str) : Prop :=
  ∃ bytes, decodeSecret secret encoding = some bytes ∧ minSecretEntropyBytes ≤ bytes.length

/-- What is accepted of a block is all of it. -/
structure KeptWhole (config : Hs256RotationConfig) (rotation : Hs256Rotation) : Prop where
  reading : NamesReading config.secretEncoding rotation.secretEncoding
  kid : config.kid = (rotation.kid.map Value.str).getD .undefined
  /-- Every entry, in order, and nothing else. -/
  previous : List.Forall₂ NarrowedTo (config.previousSecrets.items?.getD []) rotation.previousSecrets
  secret : ∀ secret, config.secret = .str secret → secret ≠ [] → Decodes rotation.secretEncoding secret
  secrets : ∀ previous ∈ rotation.previousSecrets, Decodes rotation.secretEncoding previous.secret

/-- What the check of a rotation block comes to. -/
structure RotationChecked (dateParse : Str → Option ℚ) (config : Hs256RotationConfig) : Prop where
  accepted : (∃ rotation, checkHs256Rotation dateParse config = .ok rotation) ↔
    ∃ encoding, UsableRotation dateParse config encoding
  kept : ∀ rotation, checkHs256Rotation dateParse config = .ok rotation → KeptWhole config rotation
  refused : ∀ issues, checkHs256Rotation dateParse config = .error issues → issues ≠ []

theorem keptWhole_of_usable (h : UsableRotation dateParse config encoding) :
    KeptWhole config (rotationOf config encoding) where
  reading := h.reading
  kid := by
    rcases h.kid with habsent | ⟨kid, hpresent, -⟩
    · rw [rotationOf, habsent]
      rfl
    · rw [rotationOf, hpresent]
      rfl
  previous := by
    rcases h.previous with habsent | ⟨items, hitems, hentries⟩
    · rw [rotationOf, habsent]
      exact .nil
    · rw [rotationOf, hitems, List.forall₂_map_right_iff, List.forall₂_same]
      exact fun entry hentry => (hentries.usable entry hentry).narrowedTo
  secret := fun secret hsecret hnonempty => (h.secret secret hsecret hnonempty).bytes
  secrets := by
    intro previous hprevious
    obtain ⟨entry, hentry, rfl⟩ := List.mem_map.1 hprevious
    rcases h.previous with habsent | ⟨items, hitems, hentries⟩
    · rw [habsent] at hentry
      exact absurd hentry (by simp [Value.items?])
    · rw [hitems] at hentry
      exact (hentries.usable entry hentry).clears.bytes

/-- For every config and every reading of dates: the check accepts what can be used, keeps all of what it
accepts, and says why it refuses the rest. -/
theorem checkHs256Rotation_checked (dateParse : Str → Option ℚ) (config : Hs256RotationConfig) :
    RotationChecked dateParse config where
  accepted := by
    constructor
    · rintro ⟨rotation, hrotation⟩
      obtain ⟨encoding, husable, -⟩ := checkHs256Rotation_ok_iff.1 hrotation
      exact ⟨encoding, husable⟩
    · rintro ⟨encoding, husable⟩
      exact ⟨_, checkHs256Rotation_ok_iff.2 ⟨encoding, husable, rfl⟩⟩
  kept := by
    intro rotation hrotation
    obtain ⟨encoding, husable, rfl⟩ := checkHs256Rotation_ok_iff.1 hrotation
    exact keptWhole_of_usable husable
  refused := fun _ => checkHs256Rotation_error

end

end PolicyVerifier.Server
