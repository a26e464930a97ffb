import PolicyVerifier.Core.CollectorLimits
import PolicyVerifier.Core.Registry
import PolicyVerifier.Server.Config.JwtBlock
import PolicyVerifier.Server.Http.CallerAuth

/-!
# Booting the app

`createApp` up to the app it resolves with. What a module or a factory does is an event: it may register
anything at any time, and a call of it settles in its own time. Between two such calls the boot runs on by
itself. What Express makes of the result is the app's own machine.
-/

namespace PolicyVerifier.Server

open Js PolicyVerifier.Core

/-! ## The bounds of the `verify` block -/

namespace NumericBounds

/-- `MAX_TIMER_MS` and a floor of one. -/
def timer (field : Str) (fallback : Nat) : BoundSpec :=
  { field, fallback, minimum := 1, maximum := some maxTimerMs, unit := js "milliseconds" }

/-- A floor of one, and no ceiling. -/
def counted (field : Str) (fallback : Nat) (unit : Str) : BoundSpec := { field, fallback, minimum := 1, unit }

def collectorTimeoutMs : BoundSpec := timer (js "collectorTimeoutMs") defaultCollectorTimeoutMs
def collectorDeadlineMs : BoundSpec := timer (js "collectorDeadlineMs") defaultCollectDeadlineMs
def collectorConcurrency : BoundSpec := counted (js "collectorConcurrency") defaultCollectorConcurrency (js "collectors")
def ruleTimeoutMs : BoundSpec := timer (js "ruleTimeoutMs") defaultRuleTimeoutMs
def evaluateDeadlineMs : BoundSpec := timer (js "evaluateDeadlineMs") defaultEvaluateDeadlineMs
def maxBatchSize : BoundSpec := counted (js "maxBatchSize") 50 (js "entries")
def batchConcurrency : BoundSpec := counted (js "batchConcurrency") 8 (js "decisions")
def maxBodyBytes : BoundSpec := counted (js "maxBodyBytes") 65536 (js "bytes")
def maxResourceLength : BoundSpec := counted (js "maxResourceLength") 512 (js "characters")
def maxActionLength : BoundSpec := counted (js "maxActionLength") 64 (js "characters")
def maxContextEntries : BoundSpec := counted (js "maxContextEntries") 64 (js "entries")
def maxContextValueLength : BoundSpec := counted (js "maxContextValueLength") 1024 (js "characters")

end NumericBounds

/-! ## What the boot reads -/

/-- The config, as far as the boot reads it; a block that is `unknown` to it is a value. -/
structure BootConfig where
  modules : Nat
  attributeCollectors : List Str
  ruleCollectors : List Str
  resourceParser : Str
  verify : Str → Value
  oauth : Value
  http : Value

/-- The registries a module registers into. -/
inductive RegistryKind where
  | attributeCollector
  | ruleCollector
  | resourceParser
  | keyResolver
  | tokenAuthenticator
deriving DecidableEq

/-- What a module or a factory threw: an error, by its message, or something that is not one. -/
inductive Caught where
  | error (message : Str)
  | nonError (value : Value)
deriving DecidableEq

/-- What a boot rejects with: an error of its own, what was thrown at it, or the limit a pipeline refuses. -/
inductive BootCause where
  | error (message : Str)
  | thrown (cause : Caught)
  | limit (error : Thrown)
deriving DecidableEq

/-- `assertConfigObject`. -/
def assertConfigObject (value : Value) (path : Str) : Except Str Unit :=
  match value with
  | .obj _ _ => .ok ()
  | value => .error (js "createApp: " ++ path ++ js " must be a config object, got " ++ describeKind value)

/-- `JWT_TOKEN_AUTHENTICATOR`. -/
def jwtTokenAuthenticator : Str := js "jwt"

/-- `checkTokenAuthenticatorSelection`: the name, or why the block is refused. -/
def checkTokenAuthenticatorSelection (oauth : Value) : Except Str Str :=
  let selected : Option Str :=
    match oauth.field (js "authenticator") with
    | .undefined => some jwtTokenAuthenticator
    | .str [] => none
    | .str name => some name
    | _ => none
  match selected with
  | none => .error (js "oauth.authenticator must be a non-empty string")
  | some name =>
    if name = jwtTokenAuthenticator ∧ oauth.field (js "jwt") = .undefined then
      .error (js "oauth.jwt is required when oauth.authenticator is \"" ++ jwtTokenAuthenticator ++ js "\"")
    else if name ≠ jwtTokenAuthenticator ∧ oauth.field (js "jwt") ≠ .undefined then
      .error (js "oauth.jwt is not read when oauth.authenticator is \"" ++ name ++
        js "\"; move its keys under oauth." ++ name)
    else .ok name

/-- `EVALUATION_IN_RESPONSE_VALUES`, and whether the value says to include it. -/
def checkEvaluationInResponse (builtins : Builtins) (value : Value) : Except Str Bool :=
  match value with
  | .undefined => .ok false
  | .str s =>
    if s = js "omit" then .ok false
    else if s = js "include" then .ok true
    else .error (js "verify.evaluationInResponse must be one of omit, include, got " ++ Json.quote s)
  | value => .error (js "verify.evaluationInResponse must be one of omit, include, got " ++ builtins.string value)

/-! ## The bind address -/

/-- `replace(/^\[/, "").replace(/\]$/, "")`. -/
def unbracketed (hostname : Str) : Str :=
  let opened := if hostname.head? = some 0x5B then hostname.tail else hostname
  if opened.getLast? = some 0x5D then opened.dropLast else opened

/-- `isLoopbackBindAddress`. -/
def isLoopbackBindAddress (hostname : Str) : Bool :=
  let normalized := unbracketed (toLowerCase (trim hostname))
  normalized == js "::ffff:127.0.0.1" ||
    isLoopbackHost (if normalized = js "::1" then js "[::1]" else normalized)

/-- What calling `trim` on a value that is no string throws. -/
def trimError : Value → Str
  | .undefined => js "Cannot read properties of undefined (reading \x27trim\x27)"
  | .null => js "Cannot read properties of null (reading \x27trim\x27)"
  | _ => js "hostname.trim is not a function"

/-- Whether an app without a gate is warned of. -/
def warnsOfBind (http : Value) : Except Str Bool :=
  match http.field (js "hostname") with
  | .str hostname => .ok (!isLoopbackBindAddress hostname)
  | value => .error (trimError value)

/-! ## What the boot builds -/

/-- What the router resolved its bounds to. -/
structure RouterBounds where
  maxBatchSize : Number
  batchConcurrency : Number
  maxBodyBytes : Number
  ruleTimeoutMs : Number
  evaluateDeadlineMs : Number
  maxResourceLength : Number
  maxActionLength : Number
  maxContextEntries : Number
  maxContextValueLength : Number

/-- What the app runs: the instances the factories returned, the gate, and every bound resolved. -/
structure BootedApp (I : Type) where
  attributeCollectors : List I
  ruleCollectors : List I
  resourceParser : I
  authenticator : I
  callerAuth : Option CallerGate
  attributeLimits : ResolvedCollectorLimits
  ruleLimits : ResolvedCollectorLimits
  bounds : RouterBounds
  includeEvaluation : Bool

/-- A factory that was called, for an entry of the config. -/
structure FactoryCall (F : Type) where
  kind : RegistryKind
  name : Str
  factory : F

/-- Where the boot is: waiting for a module's `init`, for a factory, or over. -/
inductive BootPhase (I : Type) where
  | initializing (index : Nat)
  | attributeCollector (index : Nat)
  | ruleCollector (index : Nat)
  | resourceParser
  | tokenAuthenticator
  | booted (app : BootedApp I)
  | failed (cause : BootCause)

/-- The state of a boot. -/
structure Boot (F I : Type) where
  registries : RegistryKind → Registry F
  phase : BootPhase I
  limits : CollectorLimits := {}
  attributeCollectors : List I := []
  ruleCollectors : List I := []
  resourceParser : Option I := none
  calls : List (FactoryCall F) := []
  warnings : Nat := 0

/-- What can happen next: somebody registers a factory, or what the boot waits for settles. -/
inductive BootEvent (F I : Type) where
  | register (kind : RegistryKind) (name : Str) (factory : F)
  | initialized (o : Except Caught Unit)
  | returned (o : Except Caught I)

/-! ## The machine -/

namespace Boot

section

variable {F I : Type} (builtins : Builtins) (isAuthenticator : I → Bool) (cfg : BootConfig)

/-- The boot rejects. -/
def fail (s : Boot F I) (cause : BootCause) : Boot F I := { s with phase := .failed cause }

/-- A factory is looked up and called; a name that is not registered is refused as the caller says. -/
def call (s : Boot F I) (kind : RegistryKind) (name : Str) (phase : BootPhase I) (refused : Str → Str) : Boot F I :=
  match (s.registries kind).get name with
  | .ok factory => { s with phase, calls := s.calls ++ [{ kind, name, factory }] }
  | .error message => s.fail (.error (refused message))

/-- How a rule collector's entry that does not start is reported. -/
def ruleFailed (index : Nat) (name reason : Str) : Str :=
  js "createApp: rule.collectors[" ++ decimal index ++ js "] (" ++ name ++ js ") failed to start: " ++ reason

/-- `cause instanceof Error ? cause.message : String(cause)`. -/
def reason : Caught → Str
  | .error message => message
  | .nonError value => builtins.string value

/-- The bounds of the router, in the order they are read. -/
def routerBounds : Except Str RouterBounds := do
  let bound (spec : BoundSpec) : Except Str Number := resolveBound builtins (cfg.verify spec.field) spec (js "verify")
  let maxBatchSize ← bound NumericBounds.maxBatchSize
  let batchConcurrency ← bound NumericBounds.batchConcurrency
  let maxBodyBytes ← bound NumericBounds.maxBodyBytes
  let ruleTimeoutMs ← bound NumericBounds.ruleTimeoutMs
  let evaluateDeadlineMs ← bound NumericBounds.evaluateDeadlineMs
  let maxResourceLength ← bound NumericBounds.maxResourceLength
  let maxActionLength ← bound NumericBounds.maxActionLength
  let maxContextEntries ← bound NumericBounds.maxContextEntries
  let maxContextValueLength ← bound NumericBounds.maxContextValueLength
  .ok
    { maxBatchSize, batchConcurrency, maxBodyBytes, ruleTimeoutMs, evaluateDeadlineMs, maxResourceLength
      maxActionLength, maxContextEntries, maxContextValueLength }

/-- The bounds of the two fan-outs. -/
def collectorLimits : Except Str CollectorLimits := do
  let bound (spec : BoundSpec) : Except Str Number := resolveBound builtins (cfg.verify spec.field) spec (js "verify")
  let collectorTimeoutMs ← bound NumericBounds.collectorTimeoutMs
  let deadlineMs ← bound NumericBounds.collectorDeadlineMs
  let concurrency ← bound NumericBounds.collectorConcurrency
  .ok { collectorTimeoutMs := some collectorTimeoutMs, deadlineMs := some deadlineMs, concurrency := some concurrency }

/-- `createVerifyRouter` refuses what does not authenticate. -/
def assertAuthenticator (authenticator : I) : Except Str Unit :=
  if isAuthenticator authenticator then .ok ()
  else
    .error (js "createVerifyRouter: authenticator is required — a TokenAuthenticator; createTokenAuthenticator builds the bearer-JWT one")

/-- The gate, and whether its absence is warned of. -/
def resolveGate : Except Str (Option CallerGate × Bool) := do
  assertConfigObject cfg.http (js "http")
  match ← resolveCallerAuth cfg.http { caller := js "createApp", path := js "http.callerAuth" } with
  | none => do
    let warns ← warnsOfBind cfg.http
    .ok (none, warns)
  | some config => do
    let gate ← createCallerAuthMiddleware config
    .ok (some gate, false)

/-- `createVerifyRouter`: its bounds, its authenticator and its answers. -/
def createVerifyRouter (authenticator : I) : Except Str (RouterBounds × Bool) := do
  let bounds ← routerBounds builtins cfg
  assertAuthenticator isAuthenticator authenticator
  let includeEvaluation ← (checkEvaluationInResponse builtins (cfg.verify (js "evaluationInResponse"))).mapError
    fun message => js "createVerifyRouter: " ++ message
  .ok (bounds, includeEvaluation)

/-- What is mounted: the two pipelines first, which resolve their limits again, then the router. -/
def mounted (s : Boot F I) (parser authenticator : I) (gate : Option CallerGate) : Except BootCause (BootedApp I) := do
  let attributeLimits ← (resolveCollectorLimits s.limits).mapError BootCause.limit
  let ruleLimits ← (resolveCollectorLimits s.limits).mapError BootCause.limit
  let (bounds, includeEvaluation) ←
    (createVerifyRouter builtins isAuthenticator cfg authenticator).mapError BootCause.error
  .ok
    { attributeCollectors := s.attributeCollectors
      ruleCollectors := s.ruleCollectors
      resourceParser := parser
      authenticator
      callerAuth := gate
      attributeLimits
      ruleLimits
      bounds
      includeEvaluation }

/-- The authenticator is there: the gate, the warning and the app. -/
def mount (s : Boot F I) (parser authenticator : I) : Boot F I :=
  match resolveGate cfg with
  | .error message => s.fail (.error message)
  | .ok (gate, warns) =>
    let s := { s with warnings := s.warnings + warns.toNat }
    match mounted builtins isAuthenticator cfg s parser authenticator gate with
    | .error cause => s.fail cause
    | .ok app => { s with phase := .booted app }

/-- The token authenticator is selected. -/
def enterAuthenticator (s : Boot F I) : Boot F I :=
  match assertConfigObject cfg.oauth (js "oauth") with
  | .error message => s.fail (.error message)
  | .ok () =>
    match checkTokenAuthenticatorSelection cfg.oauth with
    | .error message => s.fail (.error (js "createApp: " ++ message))
    | .ok name =>
      if (s.registries .tokenAuthenticator).has name then s.call .tokenAuthenticator name .tokenAuthenticator id
      else
        s.fail (.error (js "createApp: oauth.authenticator names " ++ Json.quote name ++
          js ", but no module registered a token authenticator under that name"))

/-- The resource parser. -/
def enterParser (s : Boot F I) : Boot F I := s.call .resourceParser cfg.resourceParser .resourceParser id

/-- The rule collectors, from an entry on. -/
def enterRule (s : Boot F I) (index : Nat) : Boot F I :=
  match cfg.ruleCollectors[index]? with
  | some name => s.call .ruleCollector name (.ruleCollector index) (ruleFailed index name)
  | none => s.enterParser cfg

/-- There is at least one rule collector. -/
def enterRules (s : Boot F I) : Boot F I :=
  if cfg.ruleCollectors.length = 0 then
    s.fail (.error (js "createApp: at least one rule collector must be configured (rule.collectors)"))
  else s.enterRule cfg 0

/-- The attribute collectors, from an entry on. -/
def enterAttribute (s : Boot F I) (index : Nat) : Boot F I :=
  match cfg.attributeCollectors[index]? with
  | some name => s.call .attributeCollector name (.attributeCollector index) id
  | none => s.enterRules cfg

/-- The modules have been initialized. -/
def enterCollectors (s : Boot F I) : Boot F I :=
  match collectorLimits builtins cfg with
  | .error message => s.fail (.error message)
  | .ok limits => { s with limits }.enterAttribute cfg 0

/-- The modules, from one on. -/
def enterModule (s : Boot F I) (index : Nat) : Boot F I :=
  if index < cfg.modules then { s with phase := .initializing index } else s.enterCollectors builtins cfg

/-- The registries, with the built-in authenticator in its own. -/
def createRegistries (builtin : F) : RegistryKind → Registry F
  | .tokenAuthenticator => { map := OrderedMap.set ∅ jwtTokenAuthenticator builtin }
  | _ => {}

/-- `createApp` up to the first call it waits for. -/
def start (builtin : F) : Boot F I :=
  enterModule builtins cfg { registries := createRegistries builtin, phase := .initializing 0 } 0

/-- Whoever registers a name that is taken is thrown at; the registry stays as it is. -/
def register (s : Boot F I) (kind : RegistryKind) (name : Str) (factory : F) : Boot F I :=
  match (s.registries kind).register name factory with
  | .ok registry => { s with registries := Function.update s.registries kind registry }
  | .error _ => s

/-- A factory has returned. -/
def returned (s : Boot F I) : Except Caught I → Option (Boot F I)
  | .error cause =>
    match s.phase with
    | .attributeCollector _ | .resourceParser | .tokenAuthenticator => some (s.fail (.thrown cause))
    | .ruleCollector index =>
      some (s.fail (.error (ruleFailed index (cfg.ruleCollectors[index]?.getD []) (reason builtins cause))))
    | _ => none
  | .ok made =>
    match s.phase, s.resourceParser with
    | .attributeCollector index, _ =>
      some ({ s with attributeCollectors := s.attributeCollectors ++ [made] }.enterAttribute cfg (index + 1))
    | .ruleCollector index, _ =>
      some ({ s with ruleCollectors := s.ruleCollectors ++ [made] }.enterRule cfg (index + 1))
    | .resourceParser, _ => some ({ s with resourceParser := some made }.enterAuthenticator cfg)
    | .tokenAuthenticator, some parser => some (s.mount builtins isAuthenticator cfg parser made)
    | _, _ => none

/-- One event. -/
def step (s : Boot F I) : BootEvent F I → Option (Boot F I)
  | .register kind name factory => some (s.register kind name factory)
  | .initialized o =>
    match s.phase, o with
    | .initializing index, .ok () => some (s.enterModule builtins cfg (index + 1))
    | .initializing _, .error cause => some (s.fail (.thrown cause))
    | _, _ => none
  | .returned o => s.returned builtins isAuthenticator cfg o

end

end Boot

end PolicyVerifier.Server
