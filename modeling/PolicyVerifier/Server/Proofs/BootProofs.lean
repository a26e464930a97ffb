import PolicyVerifier.Lib.Machine
import PolicyVerifier.Server.Proofs.CallerAuthProofs
import PolicyVerifier.Server.Proofs.LoopbackProofs

/-!
# A boot calls what the config names, and stops at the first failure

Between two calls the boot runs on by itself: each function it goes on through leads to one of the places
below, from the progress made before it.
-/

namespace PolicyVerifier.Server

open Js PolicyVerifier.Core

/-! ## Bounds -/

section Bounds

variable {builtins : Builtins} {value : Value} {spec : BoundSpec} {path : Str}

/-- A number is a whole one within the range of a spec. -/
def InRange (spec : BoundSpec) (n : Number) : Prop :=
  ∃ k : Nat, n.toInt? = some (k : Int) ∧ spec.minimum ≤ k ∧ ∀ maximum ∈ spec.maximum, k ≤ maximum

theorem inRange_iff {n : Number} : inRange spec n = true ↔ InRange spec n := by
  unfold inRange InRange
  cases n.toInt? with
  | none => exact iff_of_false (by simp) (by simp)
  | some z =>
    dsimp only
    rw [Bool.and_eq_true, decide_eq_true_eq]
    cases spec.maximum with
    | none =>
      constructor
      · rintro ⟨hmin, -⟩
        exact ⟨z.toNat, by rw [Int.toNat_of_nonneg (by omega)], by omega, by simp⟩
      · rintro ⟨k, hk, hmin, -⟩
        obtain rfl := Option.some.inj hk
        exact ⟨by omega, rfl⟩
    | some maximum =>
      show (spec.minimum : Int) ≤ z ∧ decide (z ≤ (maximum : Int)) = true ↔ _
      rw [decide_eq_true_eq]
      constructor
      · rintro ⟨hmin, hmax⟩
        refine ⟨z.toNat, by rw [Int.toNat_of_nonneg (by omega)], by omega, ?_⟩
        intro m hm
        obtain rfl := Option.some.inj hm
        omega
      · rintro ⟨k, hk, hmin, hmax⟩
        obtain rfl := Option.some.inj hk
        have hle := hmax maximum rfl
        exact ⟨by omega, by omega⟩

/-- What a knob resolves to is within its range, its default included. -/
theorem resolveBound_range (hfallback : InRange spec (.rat spec.fallback)) {n : Number}
    (h : resolveBound builtins value spec path = .ok n) : InRange spec n := by
  unfold resolveBound at h
  split at h
  · obtain rfl := Except.ok.inj h
    exact hfallback
  · dsimp only at h
    split at h
    · rename_i hrange
      obtain rfl := Except.ok.inj h
      exact inRange_iff.1 hrange
    · exact absurd h (by simp)

theorem fallback_range (spec : BoundSpec) (hmin : spec.minimum ≤ spec.fallback)
    (hmax : ∀ maximum ∈ spec.maximum, spec.fallback ≤ maximum) : InRange spec (.rat spec.fallback) :=
  ⟨spec.fallback, by simp [Number.toInt?], hmin, hmax⟩

theorem timer_range {field : Str} {fallback : Nat} (hmin : 1 ≤ fallback) (hmax : fallback ≤ maxTimerMs) :
    InRange (NumericBounds.timer field fallback) (.rat fallback) := by
  refine fallback_range (NumericBounds.timer field fallback) hmin ?_
  intro maximum hm
  obtain rfl := Option.some.inj hm
  exact hmax

theorem counted_range {field unit : Str} {fallback : Nat} (hmin : 1 ≤ fallback) :
    InRange (NumericBounds.counted field fallback unit) (.rat fallback) := by
  refine fallback_range (NumericBounds.counted field fallback unit) hmin ?_
  intro maximum hm
  exact absurd hm (by simp [NumericBounds.counted])

/-- A number in range is one the engine takes as it is. -/
theorem positive_whole {n : Number} {k : Nat} (hk : n.toInt? = some (k : Int)) (hmin : 1 ≤ k) (fallback : Nat)
    (field : Str) : positive (some n) fallback field = .ok k := by
  have hnot : ¬(k : Int) < 1 := by omega
  unfold positive
  dsimp only
  rw [hk]
  dsimp only
  rw [if_neg hnot, Int.toNat_natCast]

theorem timer_whole {n : Number} {k : Nat} (hk : n.toInt? = some (k : Int)) (hmin : 1 ≤ k) (hmax : k ≤ maxTimerMs)
    (fallback : Nat) (field : Str) : timer (some n) fallback field = .ok k := by
  unfold timer
  rw [positive_whole hk hmin]
  exact if_neg (not_lt.2 hmax)

/-- A limit a pipeline runs under. -/
structure Runnable (limits : ResolvedCollectorLimits) : Prop where
  collectorTimeoutMs : 1 ≤ limits.collectorTimeoutMs ∧ limits.collectorTimeoutMs ≤ maxTimerMs
  deadlineMs : 1 ≤ limits.deadlineMs ∧ limits.deadlineMs ≤ maxTimerMs
  concurrency : 1 ≤ limits.concurrency

/-- The limits the boot resolved are limits a pipeline takes: the second check never refuses what the first
let through. -/
theorem collectorLimits_runnable {cfg : BootConfig} {limits : CollectorLimits}
    (h : Boot.collectorLimits builtins cfg = .ok limits) :
    ∃ resolved, resolveCollectorLimits limits = .ok resolved ∧ Runnable resolved := by
  obtain ⟨a, ha, h⟩ := ExceptFold.bind_eq_ok h
  obtain ⟨b, hb, h⟩ := ExceptFold.bind_eq_ok h
  obtain ⟨c, hc, h⟩ := ExceptFold.bind_eq_ok h
  obtain rfl := Except.ok.inj h
  obtain ⟨j, hj, hjmin, hjmax⟩ := resolveBound_range (timer_range (by decide) (by decide)) ha
  obtain ⟨k, hk, hkmin, hkmax⟩ := resolveBound_range (timer_range (by decide) (by decide)) hb
  obtain ⟨l, hl, hlmin, -⟩ := resolveBound_range (counted_range (by decide)) hc
  have hjle : j ≤ maxTimerMs := hjmax _ rfl
  have hkle : k ≤ maxTimerMs := hkmax _ rfl
  refine ⟨{ collectorTimeoutMs := j, deadlineMs := k, concurrency := l }, ?_, ⟨hjmin, hjle⟩, ⟨hkmin, hkle⟩, hlmin⟩
  unfold resolveCollectorLimits
  dsimp only
  rw [timer_whole hj hjmin hjle, timer_whole hk hkmin hkle, positive_whole hl hlmin]
  rfl

/-- Every bound of the router is a whole number in its range. -/
structure RouterBounds.Whole (bounds : RouterBounds) : Prop where
  maxBatchSize : InRange NumericBounds.maxBatchSize bounds.maxBatchSize
  batchConcurrency : InRange NumericBounds.batchConcurrency bounds.batchConcurrency
  maxBodyBytes : InRange NumericBounds.maxBodyBytes bounds.maxBodyBytes
  ruleTimeoutMs : InRange NumericBounds.ruleTimeoutMs bounds.ruleTimeoutMs
  evaluateDeadlineMs : InRange NumericBounds.evaluateDeadlineMs bounds.evaluateDeadlineMs
  maxResourceLength : InRange NumericBounds.maxResourceLength bounds.maxResourceLength
  maxActionLength : InRange NumericBounds.maxActionLength bounds.maxActionLength
  maxContextEntries : InRange NumericBounds.maxContextEntries bounds.maxContextEntries
  maxContextValueLength : InRange NumericBounds.maxContextValueLength bounds.maxContextValueLength

theorem routerBounds_whole {cfg : BootConfig} {bounds : RouterBounds}
    (h : Boot.routerBounds builtins cfg = .ok bounds) : bounds.Whole := by
  obtain ⟨n₁, h₁, h⟩ := ExceptFold.bind_eq_ok h
  obtain ⟨n₂, h₂, h⟩ := ExceptFold.bind_eq_ok h
  obtain ⟨n₃, h₃, h⟩ := ExceptFold.bind_eq_ok h
  obtain ⟨n₄, h₄, h⟩ := ExceptFold.bind_eq_ok h
  obtain ⟨n₅, h₅, h⟩ := ExceptFold.bind_eq_ok h
  obtain ⟨n₆, h₆, h⟩ := ExceptFold.bind_eq_ok h
  obtain ⟨n₇, h₇, h⟩ := ExceptFold.bind_eq_ok h
  obtain ⟨n₈, h₈, h⟩ := ExceptFold.bind_eq_ok h
  obtain ⟨n₉, h₉, h⟩ := ExceptFold.bind_eq_ok h
  obtain rfl := Except.ok.inj h
  exact
    { maxBatchSize := resolveBound_range (counted_range (by decide)) h₁
      batchConcurrency := resolveBound_range (counted_range (by decide)) h₂
      maxBodyBytes := resolveBound_range (counted_range (by decide)) h₃
      ruleTimeoutMs := resolveBound_range (timer_range (by decide) (by decide)) h₄
      evaluateDeadlineMs := resolveBound_range (timer_range (by decide) (by decide)) h₅
      maxResourceLength := resolveBound_range (counted_range (by decide)) h₆
      maxActionLength := resolveBound_range (counted_range (by decide)) h₇
      maxContextEntries := resolveBound_range (counted_range (by decide)) h₈
      maxContextValueLength := resolveBound_range (counted_range (by decide)) h₉ }

end Bounds

/-! ## The gate -/

/-- Where the boot reads the gate from. -/
def bootCallerAuth (http : Value) : Except Str (Option CallerAuthConfig) :=
  resolveCallerAuth http { caller := js "createApp", path := js "http.callerAuth" }

/-- A gate that was configured is built as it is configured. -/
theorem createCallerAuthMiddleware_resolved {http : Value} {config : CallerAuthConfig}
    (h : bootCallerAuth http = .ok (some config)) :
    createCallerAuthMiddleware config = .ok { header := config.header, token := config.token } := by
  obtain ⟨ref, props, -, hheader, htoken⟩ := (resolveCallerAuth_some_iff documentedParser).1 h
  have htoken' := (checkCallerAuthToken_ok_iff documentedParser).2 ⟨rfl, htoken.2⟩
  unfold createCallerAuthMiddleware
  dsimp only
  rw [checkedField_ok_iff.2 hheader.checks, checkedField_ok_iff.2 htoken']
  rfl

/-- What the boot makes of the `http` block: the gate it configures, or none and a warning unless the address is
loopback. -/
theorem resolveGate_ok {cfg : BootConfig} {gate : Option CallerGate} {warns : Bool}
    (h : Boot.resolveGate cfg = .ok (gate, warns)) :
    bootCallerAuth cfg.http = .ok (gate.map fun gate => { header := gate.header, token := gate.token }) ∧
      (warns = true ↔ gate = none ∧ ∃ hostname, cfg.http.field (js "hostname") = .str hostname ∧ ¬LoopbackBind hostname) := by
  obtain ⟨u, -, h⟩ := ExceptFold.bind_eq_ok h
  obtain ⟨resolved, hresolved, h⟩ := ExceptFold.bind_eq_ok h
  cases resolved with
  | none =>
    obtain ⟨warned, hwarns, h⟩ := ExceptFold.bind_eq_ok h
    obtain ⟨rfl, rfl⟩ := Prod.mk.inj (Except.ok.inj h)
    refine ⟨hresolved, ?_⟩
    unfold warnsOfBind at hwarns
    split at hwarns
    · rename_i hostname hhostname
      obtain rfl := Except.ok.inj hwarns
      rw [Bool.not_eq_true', ← Bool.not_eq_true, isLoopbackBindAddress_iff, hhostname]
      constructor
      · intro hout
        exact ⟨rfl, hostname, rfl, hout⟩
      · rintro ⟨-, other, hsame, hout⟩
        obtain rfl := Value.str.inj hsame
        exact hout
    · exact absurd hwarns (by simp)
  | some config =>
    obtain ⟨built, hbuilt, h⟩ := ExceptFold.bind_eq_ok h
    obtain ⟨rfl, rfl⟩ := Prod.mk.inj (Except.ok.inj h)
    rw [createCallerAuthMiddleware_resolved hresolved] at hbuilt
    obtain rfl := Except.ok.inj hbuilt
    exact ⟨hresolved, iff_of_false (by simp) (by simp)⟩

/-! ## What a boot calls -/

/-- The attribute collectors' entries, as they are called. -/
def BootConfig.attributeEntries (cfg : BootConfig) : List (RegistryKind × Str) :=
  cfg.attributeCollectors.map fun name => (.attributeCollector, name)

/-- The rule collectors' entries. -/
def BootConfig.ruleEntries (cfg : BootConfig) : List (RegistryKind × Str) :=
  cfg.ruleCollectors.map fun name => (.ruleCollector, name)

/-- The factories of a boot, up to the authenticator's, in the order they are called. -/
def BootConfig.entries (cfg : BootConfig) : List (RegistryKind × Str) :=
  cfg.attributeEntries ++ cfg.ruleEntries ++ [(.resourceParser, cfg.resourceParser)]

/-- All of them. -/
def BootConfig.plan (cfg : BootConfig) : List (RegistryKind × Str) :=
  cfg.entries ++
    match checkTokenAuthenticatorSelection cfg.oauth with
    | .ok name => [(.tokenAuthenticator, name)]
    | .error _ => []

namespace Boot

section

variable {F I : Type} (builtins : Builtins) (isAuthenticator : I → Bool) (cfg : BootConfig)

/-- The entries whose factories have been called. -/
def names (s : Boot F I) : List (RegistryKind × Str) := s.calls.map fun call => (call.kind, call.name)

/-- How far a boot has got: what it called, and what came back. -/
structure Progress (called : List (RegistryKind × Str)) (attributes rules : Nat) (parsed : Bool) (s : Boot F I) :
    Prop where
  names : s.names = called
  attributes : s.attributeCollectors.length = attributes
  rules : s.ruleCollectors.length = rules
  parsed : s.resourceParser.isSome = parsed
  quiet : s.warnings = 0

/-- Why a boot rejected, by what it had called: a rule collector's entry is named by its place in the config. -/
inductive Failed (called : List (RegistryKind × Str)) : BootCause → Prop where
  | module (cause : Caught) (hc : called = []) : Failed called (.thrown cause)
  | limits (message : Str) (hc : called = []) (hl : collectorLimits builtins cfg = .error message) :
      Failed called (.error message)
  | attributeCollector (index : Nat) (name : Str) (hname : cfg.attributeCollectors[index]? = some name)
      (hc : called = cfg.attributeEntries.take index) :
      Failed called (.error (js "Registry: \"" ++ name ++ js "\" is not registered"))
  | attributeCollectorThrew (index : Nat) (name : Str) (cause : Caught)
      (hname : cfg.attributeCollectors[index]? = some name) (hc : called = cfg.attributeEntries.take (index + 1)) :
      Failed called (.thrown cause)
  | noRules (hr : cfg.ruleCollectors = []) (hc : called = cfg.attributeEntries) :
      Failed called (.error (js "createApp: at least one rule collector must be configured (rule.collectors)"))
  | ruleCollector (index : Nat) (name : Str) (hname : cfg.ruleCollectors[index]? = some name)
      (hc : called = cfg.attributeEntries ++ cfg.ruleEntries.take index) :
      Failed called (.error (ruleFailed index name (js "Registry: \"" ++ name ++ js "\" is not registered")))
  | ruleCollectorThrew (index : Nat) (name : Str) (cause : Caught) (hname : cfg.ruleCollectors[index]? = some name)
      (hc : called = cfg.attributeEntries ++ cfg.ruleEntries.take (index + 1)) :
      Failed called (.error (ruleFailed index name (reason builtins cause)))
  | resourceParser (hc : called = cfg.attributeEntries ++ cfg.ruleEntries) :
      Failed called (.error (js "Registry: \"" ++ cfg.resourceParser ++ js "\" is not registered"))
  | resourceParserThrew (cause : Caught) (hc : called = cfg.entries) : Failed called (.thrown cause)
  | selection (message : Str) (hc : called = cfg.entries) : Failed called (.error message)
  | authenticatorThrew (cause : Caught) (hc : called = cfg.plan) : Failed called (.thrown cause)
  | mount (message : Str) (hc : called = cfg.plan) : Failed called (.error message)

/-- What a boot resolves with. -/
structure Booted (s : Boot F I) (app : BootedApp I) : Prop where
  /-- Every factory the config names was called. -/
  called : s.names = cfg.plan
  instances : app.attributeCollectors = s.attributeCollectors ∧ app.ruleCollectors = s.ruleCollectors ∧
    s.resourceParser = some app.resourceParser
  selected : ∃ name, checkTokenAuthenticatorSelection cfg.oauth = .ok name
  /-- Each entry has its collector, and there is a rule collector. -/
  attributes : app.attributeCollectors.length = cfg.attributeCollectors.length
  rules : app.ruleCollectors.length = cfg.ruleCollectors.length
  ruled : cfg.ruleCollectors ≠ []
  authenticates : isAuthenticator app.authenticator = true
  /-- The gate is the one that is configured. -/
  gated : bootCallerAuth cfg.http = .ok (app.callerAuth.map fun gate => { header := gate.header, token := gate.token })
  /-- It is warned of no gate in front of an address that is not loopback, and of nothing else. -/
  warned : s.warnings = 1 ∧ (app.callerAuth = none ∧
      ∃ hostname, cfg.http.field (js "hostname") = .str hostname ∧ ¬LoopbackBind hostname) ∨
    s.warnings = 0 ∧ ¬(app.callerAuth = none ∧
      ∃ hostname, cfg.http.field (js "hostname") = .str hostname ∧ ¬LoopbackBind hostname)
  bounds : app.bounds.Whole
  attributeLimits : Runnable app.attributeLimits
  ruleLimits : Runnable app.ruleLimits

/-- Where a boot is. -/
inductive Place (s : Boot F I) : Prop where
  | initializing (index : Nat) (hp : s.phase = .initializing index) (h : Progress [] 0 0 false s)
  | attributeCollector (index : Nat) (name : Str) (hp : s.phase = .attributeCollector index)
      (hname : cfg.attributeCollectors[index]? = some name) (hl : collectorLimits builtins cfg = .ok s.limits)
      (h : Progress (cfg.attributeEntries.take (index + 1)) index 0 false s)
  | ruleCollector (index : Nat) (name : Str) (hp : s.phase = .ruleCollector index)
      (hname : cfg.ruleCollectors[index]? = some name) (hl : collectorLimits builtins cfg = .ok s.limits)
      (h : Progress (cfg.attributeEntries ++ cfg.ruleEntries.take (index + 1)) cfg.attributeCollectors.length index
        false s)
  | resourceParser (hp : s.phase = .resourceParser) (hr : cfg.ruleCollectors ≠ [])
      (hl : collectorLimits builtins cfg = .ok s.limits)
      (h : Progress cfg.entries cfg.attributeCollectors.length cfg.ruleCollectors.length false s)
  | tokenAuthenticator (name : Str) (hp : s.phase = .tokenAuthenticator) (hr : cfg.ruleCollectors ≠ [])
      (hl : collectorLimits builtins cfg = .ok s.limits)
      (hselected : checkTokenAuthenticatorSelection cfg.oauth = .ok name)
      (h : Progress cfg.plan cfg.attributeCollectors.length cfg.ruleCollectors.length true s)
  | booted (app : BootedApp I) (hp : s.phase = .booted app) (h : Booted isAuthenticator cfg s app)
  | failed (cause : BootCause) (hp : s.phase = .failed cause) (hw : s.warnings ≤ 1)
      (h : Failed builtins cfg s.names cause)

/-- What the boot called is registered as it was when it was called, and the built-in authenticator is the
host's. -/
structure Registered (builtin : F) (s : Boot F I) : Prop where
  builtin : (s.registries .tokenAuthenticator).get jwtTokenAuthenticator = .ok builtin
  calls : ∀ call ∈ s.calls, (s.registries call.kind).get call.name = .ok call.factory

/-- The invariant of a boot. -/
structure Inv (builtin : F) (s : Boot F I) : Prop where
  registered : Registered builtin s
  place : Place builtins isAuthenticator cfg s

variable {builtins isAuthenticator cfg} {builtin : F} {s : Boot F I}

theorem failed_inv (hr : Registered builtin s) (hw : s.warnings ≤ 1) {cause : BootCause}
    (h : Failed builtins cfg s.names cause) : Inv builtins isAuthenticator cfg builtin (s.fail cause) :=
  ⟨⟨hr.builtin, hr.calls⟩, .failed cause rfl hw h⟩

/-- A lookup ends in the place of the call, or in the failure of its name. -/
theorem call_inv (hr : Registered builtin s) (hw : s.warnings ≤ 1) {kind : RegistryKind} {name : Str}
    {phase : BootPhase I} {refused : Str → Str}
    (hplace : ∀ s' : Boot F I, s'.phase = phase → s'.names = s.names ++ [(kind, name)] → s'.limits = s.limits →
      s'.attributeCollectors = s.attributeCollectors → s'.ruleCollectors = s.ruleCollectors →
        s'.resourceParser = s.resourceParser → s'.warnings = s.warnings → Place builtins isAuthenticator cfg s')
    (hfailed : Failed builtins cfg s.names
      (.error (refused (js "Registry: \"" ++ name ++ js "\" is not registered")))) :
    Inv builtins isAuthenticator cfg builtin (s.call kind name phase refused) := by
  unfold Boot.call
  split
  · rename_i factory hget
    refine ⟨⟨hr.builtin, ?_⟩, hplace _ rfl ?_ rfl rfl rfl rfl rfl⟩
    · intro c hc
      rcases List.mem_append.1 hc with hc | hc
      · exact hr.calls c hc
      · rw [List.mem_singleton.1 hc]
        exact hget
    · rw [names, names, List.map_append]
      rfl
  · rename_i message hget
    rw [Registry.get_error hget]
    exact failed_inv hr hw hfailed

/-! ## The boot going on -/

theorem take_concat {kind : RegistryKind} {collectors : List Str} {index : Nat} {name : Str}
    (hname : collectors[index]? = some name) : (collectors.map fun name => (kind, name)).take (index + 1) =
      (collectors.map fun name => (kind, name)).take index ++ [(kind, name)] := by
  rw [List.take_add_one, List.getElem?_map, hname]
  rfl

theorem take_whole {kind : RegistryKind} {collectors : List Str} {index : Nat} (hend : collectors[index]? = none) :
    (collectors.map fun name => (kind, name)).take index = collectors.map fun name => (kind, name) :=
  List.take_of_length_le (by rw [List.length_map]; exact List.getElem?_eq_none_iff.1 hend)

theorem Progress.moved {called called' : List (RegistryKind × Str)} {attributes rules : Nat} {parsed : Bool}
    {entry : RegistryKind × Str} (h : Progress called attributes rules parsed s)
    (hcalled : called' = called ++ [entry]) {s' : Boot F I} (hn : s'.names = s.names ++ [entry])
    (ha : s'.attributeCollectors = s.attributeCollectors) (hr : s'.ruleCollectors = s.ruleCollectors)
    (hp : s'.resourceParser = s.resourceParser) (hw : s'.warnings = s.warnings) :
    Progress called' attributes rules parsed s' := by
  refine ⟨?_, ha ▸ h.attributes, hr ▸ h.rules, hp ▸ h.parsed, hw ▸ h.quiet⟩
  rw [hn, h.names, hcalled]

theorem enterAuthenticator_inv (hr : Registered builtin s) (hrules : cfg.ruleCollectors ≠ [])
    (hl : collectorLimits builtins cfg = .ok s.limits)
    (h : Progress cfg.entries cfg.attributeCollectors.length cfg.ruleCollectors.length true s) :
    Inv builtins isAuthenticator cfg builtin (s.enterAuthenticator cfg) := by
  have hw : s.warnings ≤ 1 := by
    rw [h.quiet]
    exact Nat.zero_le 1
  unfold enterAuthenticator
  split
  · exact failed_inv hr hw (.selection _ h.names)
  split
  · exact failed_inv hr hw (.selection _ h.names)
  · rename_i name hselected
    have hplan : cfg.plan = cfg.entries ++ [(.tokenAuthenticator, name)] := by
      rw [BootConfig.plan, hselected]
    split
    · refine call_inv hr hw ?_ (.selection _ h.names)
      intro s' hp hn hlimits ha hrs hparser hwarn
      exact .tokenAuthenticator name hp hrules (hlimits ▸ hl) hselected (h.moved hplan hn ha hrs hparser hwarn)
    · exact failed_inv hr hw (.selection _ h.names)

theorem enterParser_inv (hr : Registered builtin s) (hrules : cfg.ruleCollectors ≠ [])
    (hl : collectorLimits builtins cfg = .ok s.limits)
    (h : Progress (cfg.attributeEntries ++ cfg.ruleEntries) cfg.attributeCollectors.length cfg.ruleCollectors.length
      false s) : Inv builtins isAuthenticator cfg builtin (s.enterParser cfg) := by
  have hw : s.warnings ≤ 1 := by
    rw [h.quiet]
    exact Nat.zero_le 1
  refine call_inv hr hw ?_ (.resourceParser h.names)
  intro s' hp hn hlimits ha hrs hparser hwarn
  exact .resourceParser hp hrules (hlimits ▸ hl) (h.moved rfl hn ha hrs hparser hwarn)

theorem enterRule_inv (hr : Registered builtin s) (hrules : cfg.ruleCollectors ≠ [])
    (hl : collectorLimits builtins cfg = .ok s.limits) {index : Nat} (hindex : index ≤ cfg.ruleCollectors.length)
    (h : Progress (cfg.attributeEntries ++ cfg.ruleEntries.take index) cfg.attributeCollectors.length index false s) :
    Inv builtins isAuthenticator cfg builtin (s.enterRule cfg index) := by
  have hw : s.warnings ≤ 1 := by
    rw [h.quiet]
    exact Nat.zero_le 1
  unfold enterRule
  split
  · rename_i name hname
    refine call_inv hr hw ?_ (.ruleCollector index name hname h.names)
    intro s' hp hn hlimits ha hrs hparser hwarn
    refine .ruleCollector index name hp hname (hlimits ▸ hl) (h.moved ?_ hn ha hrs hparser hwarn)
    rw [BootConfig.ruleEntries, take_concat hname, ← List.append_assoc]
  · rename_i hend
    have hlength : index = cfg.ruleCollectors.length := by
      have hle := List.getElem?_eq_none_iff.1 hend
      omega
    refine enterParser_inv hr hrules hl ?_
    rw [BootConfig.ruleEntries, take_whole hend, hlength] at h
    exact h

theorem enterAttribute_inv (hr : Registered builtin s) (hl : collectorLimits builtins cfg = .ok s.limits) {index : Nat}
    (hindex : index ≤ cfg.attributeCollectors.length) (h : Progress (cfg.attributeEntries.take index) index 0 false s) :
    Inv builtins isAuthenticator cfg builtin (s.enterAttribute cfg index) := by
  have hw : s.warnings ≤ 1 := by
    rw [h.quiet]
    exact Nat.zero_le 1
  unfold enterAttribute
  split
  · rename_i name hname
    refine call_inv hr hw ?_ (.attributeCollector index name hname h.names)
    intro s' hp hn hlimits ha hrs hparser hwarn
    refine .attributeCollector index name hp hname (hlimits ▸ hl) (h.moved ?_ hn ha hrs hparser hwarn)
    rw [BootConfig.attributeEntries, take_concat hname]
  · rename_i hend
    have hlength : index = cfg.attributeCollectors.length := by
      have hle := List.getElem?_eq_none_iff.1 hend
      omega
    rw [BootConfig.attributeEntries, take_whole hend, hlength] at h
    unfold enterRules
    split
    · rename_i hempty
      exact failed_inv hr hw (.noRules (List.length_eq_zero_iff.1 hempty) h.names)
    · rename_i hrules
      refine enterRule_inv hr (fun hnil => hrules (by rw [hnil]; rfl)) hl (Nat.zero_le _) ?_
      rw [List.take_zero, List.append_nil]
      exact h

theorem enterModule_inv (hr : Registered builtin s) (h : Progress [] 0 0 false s) (index : Nat) :
    Inv builtins isAuthenticator cfg builtin (s.enterModule builtins cfg index) := by
  unfold enterModule
  split
  · exact ⟨⟨hr.builtin, hr.calls⟩, .initializing index rfl ⟨h.names, h.attributes, h.rules, h.parsed, h.quiet⟩⟩
  · unfold enterCollectors
    split
    · rename_i message hlimits
      exact failed_inv hr (by rw [h.quiet]; exact Nat.zero_le 1) (.limits message h.names hlimits)
    · rename_i limits hlimits
      exact enterAttribute_inv (s := { s with limits }) ⟨hr.builtin, hr.calls⟩ hlimits (Nat.zero_le _)
        ⟨h.names, h.attributes, h.rules, h.parsed, h.quiet⟩

theorem createRegistries_builtin : (createRegistries builtin .tokenAuthenticator).get jwtTokenAuthenticator = .ok builtin := by
  refine Registry.get_ok_iff.2 ?_
  show OrderedMap.get? (OrderedMap.set ∅ jwtTokenAuthenticator builtin) jwtTokenAuthenticator = _
  rw [OrderedMap.get?_set, if_pos rfl]

theorem start_inv : Inv builtins isAuthenticator cfg builtin (start builtins cfg builtin : Boot F I) :=
  enterModule_inv ⟨createRegistries_builtin, fun _ h => absurd h (by simp)⟩ ⟨rfl, rfl, rfl, rfl, rfl⟩ 0

/-- The router that is mounted has its bounds, and asks something that authenticates. -/
theorem createVerifyRouter_ok {authenticator : I} {bounds : RouterBounds} {includeEvaluation : Bool}
    (h : (createVerifyRouter builtins isAuthenticator cfg authenticator).mapError BootCause.error =
      .ok (bounds, includeEvaluation)) : bounds.Whole ∧ isAuthenticator authenticator = true := by
  cases hcreate : createVerifyRouter builtins isAuthenticator cfg authenticator with
  | error message =>
    rw [hcreate] at h
    exact absurd h (by simp [Except.mapError])
  | ok made =>
    rw [hcreate] at h
    obtain rfl := Except.ok.inj h
    obtain ⟨found, hbounds, hcreate⟩ := ExceptFold.bind_eq_ok hcreate
    obtain ⟨u, hassert, hcreate⟩ := ExceptFold.bind_eq_ok hcreate
    obtain ⟨answers, -, hcreate⟩ := ExceptFold.bind_eq_ok hcreate
    obtain ⟨rfl, -⟩ := Prod.mk.inj (Except.ok.inj hcreate)
    refine ⟨routerBounds_whole hbounds, ?_⟩
    unfold assertAuthenticator at hassert
    split at hassert
    · assumption
    · exact absurd hassert (by simp)

/-- Mounting ends in the app, or in a failure that no limit of a pipeline is. -/
theorem mount_inv (hr : Registered builtin s) {parser authenticator : I} (hparser : s.resourceParser = some parser)
    (hrules : cfg.ruleCollectors ≠ [])
    (hl : collectorLimits builtins cfg = .ok s.limits) {name : Str}
    (hselected : checkTokenAuthenticatorSelection cfg.oauth = .ok name)
    (h : Progress cfg.plan cfg.attributeCollectors.length cfg.ruleCollectors.length true s) :
    Inv builtins isAuthenticator cfg builtin (s.mount builtins isAuthenticator cfg parser authenticator) := by
  unfold mount
  split
  · exact failed_inv hr (by rw [h.quiet]; exact Nat.zero_le 1) (.mount _ h.names)
  rename_i gate warns hgate
  obtain ⟨hgated, hwarns⟩ := resolveGate_ok hgate
  have hwarnings : s.warnings + warns.toNat ≤ 1 := by
    rw [h.quiet]
    cases warns with
    | false => exact Nat.zero_le 1
    | true => exact le_rfl
  obtain ⟨resolved, hresolved, hrunnable⟩ := collectorLimits_runnable hl
  dsimp only
  split
  · rename_i cause hmounted
    refine failed_inv (s := { s with warnings := s.warnings + warns.toNat }) ⟨hr.builtin, hr.calls⟩ hwarnings ?_
    unfold mounted at hmounted
    dsimp only at hmounted
    rw [hresolved] at hmounted
    rcases ExceptFold.bind_eq_error hmounted with hrouter | ⟨_, -, hmounted⟩
    · exact absurd hrouter (by simp [Except.mapError])
    rcases ExceptFold.bind_eq_error hmounted with hrouter | ⟨_, -, hmounted⟩
    · exact absurd hrouter (by simp [Except.mapError])
    rcases ExceptFold.bind_eq_error hmounted with hrouter | ⟨_, -, hmounted⟩
    · cases hcreate : createVerifyRouter builtins isAuthenticator cfg authenticator with
      | ok made =>
        rw [hcreate] at hrouter
        exact absurd hrouter (by simp [Except.mapError])
      | error message =>
        rw [hcreate] at hrouter
        obtain rfl := Except.error.inj hrouter
        exact .mount message h.names
    · exact absurd hmounted (by simp)
  · rename_i app hmounted
    refine ⟨⟨hr.builtin, hr.calls⟩, .booted app rfl ?_⟩
    unfold mounted at hmounted
    dsimp only at hmounted
    rw [hresolved] at hmounted
    obtain ⟨attributeLimits, hattributes, hmounted⟩ := ExceptFold.bind_eq_ok hmounted
    obtain ⟨ruleLimits, hruleLimits, hmounted⟩ := ExceptFold.bind_eq_ok hmounted
    obtain ⟨⟨bounds, includeEvaluation⟩, hrouter, hmounted⟩ := ExceptFold.bind_eq_ok hmounted
    obtain rfl := Except.ok.inj hmounted
    obtain rfl := Except.ok.inj hattributes
    obtain rfl := Except.ok.inj hruleLimits
    obtain ⟨hbounds, hauthenticates⟩ := createVerifyRouter_ok hrouter
    refine
      { called := h.names
        instances := ⟨rfl, rfl, hparser⟩
        selected := ⟨name, hselected⟩
        attributes := h.attributes
        rules := h.rules
        ruled := hrules
        authenticates := hauthenticates
        gated := hgated
        warned := ?_
        bounds := hbounds
        attributeLimits := hrunnable
        ruleLimits := hrunnable }
    show s.warnings + warns.toNat = 1 ∧ _ ∨ s.warnings + warns.toNat = 0 ∧ _
    rw [h.quiet]
    cases warns with
    | true => exact .inl ⟨rfl, hwarns.1 rfl⟩
    | false => exact .inr ⟨rfl, fun hopen => absurd (hwarns.2 hopen) (by simp)⟩

/-! ## A step -/

/-- Somebody registering a factory unseats none. -/
theorem Registered.register (hr : Registered builtin s) (kind : RegistryKind) (name : Str) (factory : F) :
    Registered builtin (s.register kind name factory) := by
  have hkept : ∀ (kind' : RegistryKind) (name' : Str) (found : F),
      (s.registries kind').get name' = .ok found →
        ((s.register kind name factory).registries kind').get name' = .ok found := by
    intro kind' name' found hfound
    unfold Boot.register
    split
    · rename_i registry hregistry
      show (Function.update s.registries kind registry kind').get name' = .ok found
      by_cases hkind : kind' = kind
      · subst hkind
        rw [Function.update_self]
        exact Registry.get_register hregistry hfound
      · rw [Function.update_of_ne hkind]
        exact hfound
    · exact hfound
  refine ⟨hkept _ _ _ hr.builtin, ?_⟩
  intro call hc
  refine hkept _ _ _ (hr.calls call ?_)
  unfold Boot.register at hc
  split at hc
  · exact hc
  · exact hc

/-- A registration is all that changes with it. -/
theorem register_eq (s : Boot F I) (kind : RegistryKind) (name : Str) (factory : F) :
    ∃ registries, s.register kind name factory = { s with registries } := by
  unfold Boot.register
  split
  · exact ⟨_, rfl⟩
  · exact ⟨s.registries, rfl⟩

/-- The place of a boot is not where its registries are looked at. -/
theorem Place.registered (h : Place builtins isAuthenticator cfg s) (registries : RegistryKind → Registry F) :
    Place builtins isAuthenticator cfg { s with registries } := by
  cases h with
  | initializing index hp h => exact .initializing index hp ⟨h.names, h.attributes, h.rules, h.parsed, h.quiet⟩
  | attributeCollector index name hp hname hl h =>
    exact .attributeCollector index name hp hname hl ⟨h.names, h.attributes, h.rules, h.parsed, h.quiet⟩
  | ruleCollector index name hp hname hl h =>
    exact .ruleCollector index name hp hname hl ⟨h.names, h.attributes, h.rules, h.parsed, h.quiet⟩
  | resourceParser hp hr hl h => exact .resourceParser hp hr hl ⟨h.names, h.attributes, h.rules, h.parsed, h.quiet⟩
  | tokenAuthenticator name hp hr hl hselected h =>
    exact .tokenAuthenticator name hp hr hl hselected ⟨h.names, h.attributes, h.rules, h.parsed, h.quiet⟩
  | booted app hp h =>
    exact .booted app hp
      { called := h.called
        instances := h.instances
        selected := h.selected
        attributes := h.attributes
        rules := h.rules
        ruled := h.ruled
        authenticates := h.authenticates
        gated := h.gated
        warned := h.warned
        bounds := h.bounds
        attributeLimits := h.attributeLimits
        ruleLimits := h.ruleLimits }
  | failed cause hp hw h => exact .failed cause hp hw h

theorem register_inv (h : Inv builtins isAuthenticator cfg builtin s) (kind : RegistryKind) (name : Str)
    (factory : F) : Inv builtins isAuthenticator cfg builtin (s.register kind name factory) := by
  refine ⟨h.registered.register kind name factory, ?_⟩
  obtain ⟨registries, heq⟩ := register_eq s kind name factory
  rw [heq]
  exact h.place.registered registries

/-- A factory that threw. -/
theorem returned_error_inv (h : Inv builtins isAuthenticator cfg builtin s) {cause : Caught} {s' : Boot F I}
    (hs : s.returned builtins isAuthenticator cfg (.error cause) = some s') :
    Inv builtins isAuthenticator cfg builtin s' := by
  have hw : ∀ {called attributes rules parsed}, Progress called attributes rules parsed s → s.warnings ≤ 1 := by
    intro called attributes rules parsed hprogress
    rw [hprogress.quiet]
    exact Nat.zero_le 1
  unfold returned at hs
  dsimp only at hs
  cases h.place with
  | initializing index hp _ => rw [hp] at hs; exact absurd hs (by simp)
  | attributeCollector index name hp hname hl hprogress =>
    rw [hp] at hs
    obtain rfl := Option.some.inj hs
    exact failed_inv h.registered (hw hprogress) (.attributeCollectorThrew index name cause hname hprogress.names)
  | ruleCollector index name hp hname hl hprogress =>
    rw [hp] at hs
    obtain rfl := Option.some.inj hs
    rw [hname]
    exact failed_inv h.registered (hw hprogress) (.ruleCollectorThrew index name cause hname hprogress.names)
  | resourceParser hp hr hl hprogress =>
    rw [hp] at hs
    obtain rfl := Option.some.inj hs
    exact failed_inv h.registered (hw hprogress) (.resourceParserThrew cause hprogress.names)
  | tokenAuthenticator name hp hr hl hselected hprogress =>
    rw [hp] at hs
    obtain rfl := Option.some.inj hs
    exact failed_inv h.registered (hw hprogress) (.authenticatorThrew cause hprogress.names)
  | booted app hp _ => rw [hp] at hs; exact absurd hs (by simp)
  | failed cause' hp _ _ => rw [hp] at hs; exact absurd hs (by simp)

/-- A factory that returned: its instance is kept, and the boot goes on to the next entry. -/
theorem returned_ok_inv (h : Inv builtins isAuthenticator cfg builtin s) {made : I} {s' : Boot F I}
    (hs : s.returned builtins isAuthenticator cfg (.ok made) = some s') :
    Inv builtins isAuthenticator cfg builtin s' := by
  unfold returned at hs
  dsimp only at hs
  cases h.place with
  | initializing index hp _ => rw [hp] at hs; exact absurd hs (by simp)
  | attributeCollector index name hp hname hl hprogress =>
    rw [hp] at hs
    obtain rfl := Option.some.inj hs
    have hindex := (List.getElem?_eq_some_iff.1 hname).1
    refine enterAttribute_inv (s := { s with attributeCollectors := s.attributeCollectors ++ [made] })
      ⟨h.registered.builtin, h.registered.calls⟩ hl hindex
      ⟨hprogress.names, ?_, hprogress.rules, hprogress.parsed, hprogress.quiet⟩
    show (s.attributeCollectors ++ [made]).length = index + 1
    rw [List.length_append, hprogress.attributes, List.length_singleton]
  | ruleCollector index name hp hname hl hprogress =>
    rw [hp] at hs
    obtain rfl := Option.some.inj hs
    have hindex := (List.getElem?_eq_some_iff.1 hname).1
    have hrules : cfg.ruleCollectors ≠ [] := by
      intro hnil
      rw [hnil] at hindex
      exact absurd hindex (Nat.not_lt_zero _)
    refine enterRule_inv (s := { s with ruleCollectors := s.ruleCollectors ++ [made] })
      ⟨h.registered.builtin, h.registered.calls⟩ hrules hl hindex
      ⟨hprogress.names, hprogress.attributes, ?_, hprogress.parsed, hprogress.quiet⟩
    show (s.ruleCollectors ++ [made]).length = index + 1
    rw [List.length_append, hprogress.rules, List.length_singleton]
  | resourceParser hp hr hl hprogress =>
    rw [hp] at hs
    obtain rfl := Option.some.inj hs
    exact enterAuthenticator_inv (s := { s with resourceParser := some made })
      ⟨h.registered.builtin, h.registered.calls⟩ hr hl
      ⟨hprogress.names, hprogress.attributes, hprogress.rules, rfl, hprogress.quiet⟩
  | tokenAuthenticator name hp hr hl hselected hprogress =>
    obtain ⟨parser, hparser⟩ := Option.isSome_iff_exists.1 hprogress.parsed
    rw [hp, hparser] at hs
    obtain rfl := Option.some.inj hs
    exact mount_inv h.registered hparser hr hl hselected hprogress
  | booted app hp _ => rw [hp] at hs; exact absurd hs (by simp)
  | failed cause' hp _ _ => rw [hp] at hs; exact absurd hs (by simp)

theorem step_inv (h : Inv builtins isAuthenticator cfg builtin s) {e : BootEvent F I} {s' : Boot F I}
    (hs : step builtins isAuthenticator cfg s e = some s') : Inv builtins isAuthenticator cfg builtin s' := by
  cases e with
  | register kind name factory =>
    obtain rfl := Option.some.inj hs
    exact register_inv h kind name factory
  | returned o =>
    cases o with
    | error cause => exact returned_error_inv h hs
    | ok made => exact returned_ok_inv h hs
  | initialized o =>
    unfold step at hs
    dsimp only at hs
    cases h.place with
    | initializing index hp hprogress =>
      rw [hp] at hs
      cases o with
      | ok u =>
        obtain rfl := Option.some.inj hs
        exact enterModule_inv h.registered hprogress (index + 1)
      | error cause =>
        obtain rfl := Option.some.inj hs
        exact failed_inv h.registered (by rw [hprogress.quiet]; exact Nat.zero_le 1) (.module cause hprogress.names)
    | attributeCollector index name hp _ _ _ => rw [hp] at hs; exact absurd hs (by simp)
    | ruleCollector index name hp _ _ _ => rw [hp] at hs; exact absurd hs (by simp)
    | resourceParser hp _ _ _ => rw [hp] at hs; exact absurd hs (by simp)
    | tokenAuthenticator name hp _ _ _ _ => rw [hp] at hs; exact absurd hs (by simp)
    | booted app hp _ => rw [hp] at hs; exact absurd hs (by simp)
    | failed cause hp _ _ => rw [hp] at hs; exact absurd hs (by simp)

theorem run_inv {events : List (BootEvent F I)}
    (h : Machine.run (step builtins isAuthenticator cfg) (start builtins cfg builtin) events = some s) :
    Inv builtins isAuthenticator cfg builtin s :=
  Machine.run_invariant (fun _ _ _ hinv hs => step_inv hinv hs) start_inv h

/-! ## What came back -/

/-- What a factory returned, when one did. -/
def made : BootEvent F I → Option I
  | .returned (.ok made) => some made
  | _ => none

/-- What the boot has of it. -/
def instances (s : Boot F I) : List I := s.attributeCollectors ++ s.ruleCollectors ++ s.resourceParser.toList

/-- The boot goes on with what it has, and not to its end. -/
structure GoesOn (s s' : Boot F I) : Prop where
  instances : s'.instances = s.instances
  boots : ∀ app, s'.phase ≠ .booted app

theorem fail_goesOn (s : Boot F I) (cause : BootCause) : GoesOn s (s.fail cause) :=
  ⟨rfl, fun _ h => absurd h (by simp [fail])⟩

theorem call_goesOn (s : Boot F I) (kind : RegistryKind) (name : Str) {phase : BootPhase I} (refused : Str → Str)
    (hphase : ∀ app, phase ≠ .booted app) : GoesOn s (s.call kind name phase refused) := by
  unfold Boot.call
  split
  · exact ⟨rfl, hphase⟩
  · exact fail_goesOn s _

theorem enterAuthenticator_goesOn (s : Boot F I) : GoesOn s (s.enterAuthenticator cfg) := by
  unfold enterAuthenticator
  split
  · exact fail_goesOn s _
  split
  · exact fail_goesOn s _
  split
  · exact call_goesOn s _ _ _ (by simp)
  · exact fail_goesOn s _

theorem enterRule_goesOn (s : Boot F I) (index : Nat) : GoesOn s (s.enterRule cfg index) := by
  unfold enterRule
  split
  · exact call_goesOn s _ _ _ (by simp)
  · exact call_goesOn s _ _ _ (by simp)

theorem enterAttribute_goesOn (s : Boot F I) (index : Nat) : GoesOn s (s.enterAttribute cfg index) := by
  unfold enterAttribute
  split
  · exact call_goesOn s _ _ _ (by simp)
  · unfold enterRules
    split
    · exact fail_goesOn s _
    · exact enterRule_goesOn s 0

theorem enterModule_goesOn (s : Boot F I) (index : Nat) : GoesOn s (s.enterModule builtins cfg index) := by
  unfold enterModule
  split
  · exact ⟨rfl, by simp⟩
  · unfold enterCollectors
    split
    · exact fail_goesOn s _
    · rename_i limits _
      have hgoes : GoesOn { s with limits } ({ s with limits }.enterAttribute cfg 0) := enterAttribute_goesOn _ 0
      exact ⟨hgoes.instances, hgoes.boots⟩

/-- What came back so far is what the boot has; over, it has it all, or nothing counts any more. -/
inductive Kept (events : List (BootEvent F I)) (s : Boot F I) : Prop where
  | going (hp : ∀ app, s.phase ≠ .booted app) (h : events.filterMap made = s.instances)
  | booted (app : BootedApp I) (hp : s.phase = .booted app)
      (h : events.filterMap made = s.instances ++ [app.authenticator])
  | failed (cause : BootCause) (hp : s.phase = .failed cause)

theorem GoesOn.kept {events : List (BootEvent F I)} {s s' : Boot F I} (hgoes : GoesOn s s')
    (h : events.filterMap made = s.instances) : Kept events s' :=
  .going hgoes.boots (h.trans hgoes.instances.symm)

theorem mount_kept {events : List (BootEvent F I)} {parser authenticator : I}
    (h : events.filterMap made = s.instances ++ [authenticator]) :
    Kept events (s.mount builtins isAuthenticator cfg parser authenticator) := by
  unfold mount
  split
  · exact .failed _ rfl
  dsimp only
  split
  · exact .failed _ rfl
  · rename_i app hmounted
    refine .booted app rfl ?_
    obtain ⟨attributeLimits, -, hmounted⟩ := ExceptFold.bind_eq_ok hmounted
    obtain ⟨ruleLimits, -, hmounted⟩ := ExceptFold.bind_eq_ok hmounted
    obtain ⟨routed, -, hmounted⟩ := ExceptFold.bind_eq_ok hmounted
    obtain rfl := Except.ok.inj hmounted
    exact h

/-- One more instance came back. -/
theorem made_concat {events : List (BootEvent F I)} {e : BootEvent F I} {made' : I} (he : made e = some made')
    (h : events.filterMap made = s.instances) : (events ++ [e]).filterMap made = s.instances ++ [made'] := by
  rw [List.filterMap_append, h, List.filterMap_cons, he]
  rfl

theorem made_concat_none {events : List (BootEvent F I)} {e : BootEvent F I} (he : made e = none) :
    (events ++ [e]).filterMap made = events.filterMap made := by
  rw [List.filterMap_append, List.filterMap_cons, he]
  exact List.append_nil _

/-- A boot that waits has what came back. -/
theorem Kept.waiting {events : List (BootEvent F I)} (h : Kept events s) (hb : ∀ app, s.phase ≠ .booted app)
    (hf : ∀ cause, s.phase ≠ .failed cause) : events.filterMap made = s.instances := by
  cases h with
  | going hp h => exact h
  | booted app hp h => exact absurd hp (hb app)
  | failed cause hp => exact absurd hp (hf cause)

theorem returned_kept {events : List (BootEvent F I)} (hinv : Inv builtins isAuthenticator cfg builtin s)
    (h : Kept events s) {o : Except Caught I} {s' : Boot F I}
    (hs : s.returned builtins isAuthenticator cfg o = some s') : Kept (events ++ [.returned o]) s' := by
  cases o with
  | error cause =>
    unfold returned at hs
    dsimp only at hs
    split at hs
    · obtain rfl := Option.some.inj hs
      exact .failed _ rfl
    · obtain rfl := Option.some.inj hs
      exact .failed _ rfl
    · obtain rfl := Option.some.inj hs
      exact .failed _ rfl
    · obtain rfl := Option.some.inj hs
      exact .failed _ rfl
    · exact absurd hs (by simp)
  | ok instance' =>
    unfold returned at hs
    dsimp only at hs
    cases hinv.place with
    | initializing index hp _ => rw [hp] at hs; exact absurd hs (by simp)
    | attributeCollector index name hp hname hl hprogress =>
      have hevents := made_concat (e := .returned (.ok instance')) rfl (h.waiting (by simp [hp]) (by simp [hp]))
      rw [hp] at hs
      obtain rfl := Option.some.inj hs
      refine (enterAttribute_goesOn { s with attributeCollectors := s.attributeCollectors ++ [instance'] } _).kept ?_
      -- nothing of a rule collector or of the parser has come back
      have hrules := List.length_eq_zero_iff.1 hprogress.rules
      have hparser := Option.isSome_eq_false_iff.1 hprogress.parsed
      rw [hevents]
      simp [instances, hrules, Option.isNone_iff_eq_none.1 hparser]
    | ruleCollector index name hp hname hl hprogress =>
      have hevents := made_concat (e := .returned (.ok instance')) rfl (h.waiting (by simp [hp]) (by simp [hp]))
      rw [hp] at hs
      obtain rfl := Option.some.inj hs
      refine (enterRule_goesOn { s with ruleCollectors := s.ruleCollectors ++ [instance'] } _).kept ?_
      have hparser := Option.isSome_eq_false_iff.1 hprogress.parsed
      rw [hevents]
      simp [instances, Option.isNone_iff_eq_none.1 hparser]
    | resourceParser hp hr hl hprogress =>
      have hevents := made_concat (e := .returned (.ok instance')) rfl (h.waiting (by simp [hp]) (by simp [hp]))
      rw [hp] at hs
      obtain rfl := Option.some.inj hs
      refine (enterAuthenticator_goesOn { s with resourceParser := some instance' }).kept ?_
      have hparser := Option.isSome_eq_false_iff.1 hprogress.parsed
      rw [hevents]
      simp [instances, Option.isNone_iff_eq_none.1 hparser]
    | tokenAuthenticator name hp hr hl hselected hprogress =>
      have hevents := made_concat (e := .returned (.ok instance')) rfl (h.waiting (by simp [hp]) (by simp [hp]))
      obtain ⟨parser, hparser⟩ := Option.isSome_iff_exists.1 hprogress.parsed
      rw [hp, hparser] at hs
      obtain rfl := Option.some.inj hs
      exact mount_kept hevents
    | booted app hp _ => rw [hp] at hs; exact absurd hs (by simp)
    | failed cause' hp _ _ => rw [hp] at hs; exact absurd hs (by simp)

theorem step_kept {events : List (BootEvent F I)} (hinv : Inv builtins isAuthenticator cfg builtin s)
    (h : Kept events s) {e : BootEvent F I} {s' : Boot F I}
    (hs : step builtins isAuthenticator cfg s e = some s') : Kept (events ++ [e]) s' := by
  cases e with
  | register kind name factory =>
    obtain rfl := Option.some.inj hs
    obtain ⟨registries, heq⟩ := register_eq s kind name factory
    rw [heq]
    cases h with
    | going hp h => exact .going hp ((made_concat_none rfl).trans h)
    | booted app hp h => exact .booted app hp ((made_concat_none rfl).trans h)
    | failed cause hp => exact .failed cause hp
  | returned o => exact returned_kept hinv h hs
  | initialized o =>
    unfold step at hs
    dsimp only at hs
    split at hs
    · rename_i index u hp
      obtain rfl := Option.some.inj hs
      refine (enterModule_goesOn s _).kept ?_
      exact (made_concat_none rfl).trans (h.waiting (by simp [hp]) (by simp [hp]))
    · obtain rfl := Option.some.inj hs
      exact .failed _ rfl
    · exact absurd hs (by simp)

theorem run_kept {events : List (BootEvent F I)}
    (h : Machine.run (step builtins isAuthenticator cfg) (start builtins cfg builtin) events = some s) :
    Kept events s := by
  refine (Machine.run_history
    (I := fun es s => Inv builtins isAuthenticator cfg builtin s ∧ Kept es s) ⟨start_inv, ?_⟩ ?_ h).2
  · exact (enterModule_goesOn _ 0).kept rfl
  · rintro es a e b ⟨hinv, hkept⟩ hs
    exact ⟨step_inv hinv hs, step_kept hinv hkept hs⟩

/-! ## Every boot -/

theorem entries_prefix : cfg.attributeEntries ++ cfg.ruleEntries <+: cfg.plan := by
  have hentries : cfg.attributeEntries ++ cfg.ruleEntries <+: cfg.entries := List.prefix_append _ _
  exact hentries.trans (List.prefix_append _ _)

/-- What was called when a boot rejected is the plan up to the entry it stopped at. -/
theorem Failed.prefix {called : List (RegistryKind × Str)} {cause : BootCause} (h : Failed builtins cfg called cause) :
    called <+: cfg.plan := by
  have hattributes : cfg.attributeEntries <+: cfg.plan := (List.prefix_append _ _).trans entries_prefix
  have hrules : ∀ index, cfg.attributeEntries ++ cfg.ruleEntries.take index <+: cfg.plan := by
    intro index
    exact ((List.prefix_append_right_inj _).2 (List.take_prefix _ _)).trans entries_prefix
  have hentries : cfg.entries <+: cfg.plan := List.prefix_append _ _
  cases h with
  | module cause hc => exact hc ▸ List.nil_prefix
  | limits message hc _ => exact hc ▸ List.nil_prefix
  | attributeCollector index name _ hc => exact hc ▸ (List.take_prefix _ _).trans hattributes
  | attributeCollectorThrew index name cause _ hc => exact hc ▸ (List.take_prefix _ _).trans hattributes
  | noRules _ hc => exact hc ▸ hattributes
  | ruleCollector index name _ hc => exact hc ▸ hrules index
  | ruleCollectorThrew index name cause _ hc => exact hc ▸ hrules (index + 1)
  | resourceParser hc => exact hc ▸ entries_prefix
  | resourceParserThrew cause hc => exact hc ▸ hentries
  | selection message hc => exact hc ▸ hentries
  | authenticatorThrew cause hc => exact hc ▸ List.prefix_rfl
  | mount message hc => exact hc ▸ List.prefix_rfl

theorem Place.ordered (h : Place builtins isAuthenticator cfg s) : s.names <+: cfg.plan := by
  cases h with
  | initializing index _ h => exact h.names ▸ List.nil_prefix
  | attributeCollector index name _ _ _ h =>
    exact h.names ▸ (List.take_prefix _ _).trans ((List.prefix_append _ _).trans entries_prefix)
  | ruleCollector index name _ _ _ h =>
    exact h.names ▸ ((List.prefix_append_right_inj _).2 (List.take_prefix _ _)).trans entries_prefix
  | resourceParser _ _ _ h => exact h.names ▸ List.prefix_append _ _
  | tokenAuthenticator name _ _ _ _ h => exact h.names ▸ List.prefix_rfl
  | booted app _ h => exact h.called ▸ List.prefix_rfl
  | failed cause _ _ h => exact h.prefix

/-- What holds of every boot, whatever its modules and factories do and whenever they settle. -/
structure Law (builtins : Builtins) (isAuthenticator : I → Bool) (cfg : BootConfig) (builtin : F)
    (events : List (BootEvent F I)) (s : Boot F I) : Prop where
  /-- No module replaces the built-in authenticator. -/
  builtin : ∀ call ∈ s.calls, call.kind = .tokenAuthenticator → call.name = jwtTokenAuthenticator →
    call.factory = builtin
  /-- Factories are called in the order of the config, and nothing else is called. -/
  ordered : s.names <+: cfg.plan
  /-- A factory that was called is still the one under its name. -/
  registered : ∀ call ∈ s.calls, (s.registries call.kind).get call.name = .ok call.factory
  booted : ∀ app, s.phase = .booted app → Booted isAuthenticator cfg s app ∧
    events.filterMap made = app.attributeCollectors ++ app.ruleCollectors ++ [app.resourceParser, app.authenticator]
  failed : ∀ cause, s.phase = .failed cause → Failed builtins cfg s.names cause

/-- The app that comes up is the one the config describes: every entry's own registered factory called once and in
order, what each returned in its place, each bound a whole number in its range, the gate as it is configured. A
boot that fails has called the entries before the one it stopped at, and no other. -/
theorem boots_what_is_configured (builtins : Builtins) (isAuthenticator : I → Bool) (cfg : BootConfig) (builtin : F)
    (events : List (BootEvent F I)) (s : Boot F I)
    (h : Machine.run (step builtins isAuthenticator cfg) (start builtins cfg builtin) events = some s) :
    Law builtins isAuthenticator cfg builtin events s := by
  have hinv := run_inv h
  refine
    { builtin := ?_
      ordered := hinv.place.ordered
      registered := hinv.registered.calls
      booted := ?_
      failed := ?_ }
  · intro call hc hkind hname
    have hget := hinv.registered.calls call hc
    rw [hkind, hname, hinv.registered.builtin] at hget
    exact (Except.ok.inj hget).symm
  · intro app happ
    have hbooted : Booted isAuthenticator cfg s app := by
      cases hinv.place with
      | booted app' hp h =>
        obtain rfl := BootPhase.booted.inj (hp.symm.trans happ)
        exact h
      | initializing _ hp _ | attributeCollector _ _ hp _ _ _ | ruleCollector _ _ hp _ _ _ | resourceParser hp _ _ _
      | tokenAuthenticator _ hp _ _ _ _ | failed _ hp _ _ => exact absurd (hp.symm.trans happ) (by simp)
    refine ⟨hbooted, ?_⟩
    cases run_kept h with
    | going hp _ => exact absurd happ (hp app)
    | failed cause hp => exact absurd (hp.symm.trans happ) (by simp)
    | booted app' hp hmade =>
      obtain rfl := BootPhase.booted.inj (hp.symm.trans happ)
      obtain ⟨hattributes, hrules, hparser⟩ := hbooted.instances
      rw [hmade, instances, hparser, ← hattributes, ← hrules]
      simp
  · intro cause hcause
    cases hinv.place with
    | failed cause' hp _ h =>
      obtain rfl := BootPhase.failed.inj (hp.symm.trans hcause)
      exact h
    | initializing _ hp _ | attributeCollector _ _ hp _ _ _ | ruleCollector _ _ hp _ _ _ | resourceParser hp _ _ _
    | tokenAuthenticator _ hp _ _ _ _ | booted _ hp _ => exact absurd (hp.symm.trans hcause) (by simp)

end

/-- A boot of one module that registers a collector of each kind, and a parser. -/
theorem boots_what_is_configured_one :
    let builtins : Builtins :=
      { dateParse := fun _ => none, number := fun _ => .nan, string := fun _ => [], url := fun _ => none }
    let cfg : BootConfig :=
      { modules := 1, attributeCollectors := [js "roles"], ruleCollectors := [js "scopes"]
        resourceParser := js "dots", verify := fun _ => .undefined
        oauth := .obj 0 [(js "jwt", .obj 1 [])], http := .obj 2 [(js "hostname", .str (js "127.0.0.1"))] }
    let events : List (BootEvent Nat Nat) :=
      [ .register .attributeCollector (js "roles") 1
        , .register .ruleCollector (js "scopes") 2
        , .register .tokenAuthenticator (js "jwt") 9
        , .register .resourceParser (js "dots") 3
        , .initialized (.ok ())
        , .returned (.ok 11)
        , .returned (.ok 12)
        , .returned (.ok 13)
        , .returned (.ok 14) ]
    ∃ s app, Machine.run (step builtins (fun _ => true) cfg) (start builtins cfg 0) events = some s ∧
      s.phase = .booted app ∧ Law builtins (fun _ => true) cfg 0 events s ∧ app.ruleCollectors = [12] := by
  intro builtins cfg events
  have hboots : ((Machine.run (step builtins (fun _ => true) cfg) (start builtins cfg 0) events).bind fun s =>
      match s.phase with
      | .booted app => some app.ruleCollectors
      | _ => none) = some [12] := by decide +kernel
  obtain ⟨s, hrun, hphase⟩ := Option.bind_eq_some_iff.1 hboots
  have hlaw := boots_what_is_configured builtins (fun _ => true) cfg 0 events s hrun
  split at hphase
  · rename_i app happ
    exact ⟨s, app, hrun, happ, hlaw, Option.some.inj hphase⟩
  · exact absurd hphase (by simp)

end Boot

end PolicyVerifier.Server
