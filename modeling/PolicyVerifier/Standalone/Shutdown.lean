import PolicyVerifier.Js.Value
import PolicyVerifier.Lib.Machine

/-!
# The graceful shutdown of the standalone server

`installGracefulShutdown` as a machine: each callback runs to its end, and then any other that is due may run.
Calling the handler sets up a drain (a deadline and the server's `close` callback); whichever of the two comes
first calls `finish`, which starts the cleanup and waits for it. What each call sets up is kept by itself, so
that the guards `shuttingDown` and `finished` are what keeps a second from doing anything.

The logger and the server are taken not to throw. A signal is a call of the handler, also once it is no longer
listening.
-/

namespace PolicyVerifier.Standalone

open Js

inductive Signal where
  | sigterm
  | sigint
deriving DecidableEq

/-- `SIGNALS`. -/
def signals : List Signal := [.sigterm, .sigint]

/-- What a call of `cleanup` comes to at once. -/
inductive CleanupCall where
  | returns
  | throws (err : Value)
  /-- A promise, which may settle later, or never. -/
  | promise
deriving DecidableEq

/-- `DEFAULT_DRAIN_TIMEOUT_MS`. -/
def defaultDrainTimeoutMs : Number := .rat 10000

structure GracefulShutdownOptions where
  cleanup : Option CleanupCall := none
  drainTimeoutMs : Number := defaultDrainTimeoutMs
  cleanupTimeoutMs : Option Number := none

/-- How long `cleanup` gets: as long as the drain where nothing else is said. -/
def GracefulShutdownOptions.cleanupBudgetMs (options : GracefulShutdownOptions) : Number :=
  options.cleanupTimeoutMs.getD options.drainTimeoutMs

inductive LogLevel where
  | info
  | error
deriving DecidableEq

/-- A line handed to the logger. -/
structure LogLine where
  level : LogLevel
  fields : List (Str × Value)
  message : Str
deriving DecidableEq

/-- What is asked of the server. -/
inductive ServerCall where
  | close
  | closeIdleConnections
  | closeAllConnections
deriving DecidableEq

/-- A timer fires once, unless it is cleared before. -/
inductive Timer where
  | armed
  | cleared
  | fired
deriving DecidableEq

/-- `clearTimeout`. -/
def Timer.clear : Timer → Timer
  | armed => cleared
  | timer => timer

/-- What a call of the handler sets up: the deadline, and the callback of `close` while it is to come. -/
structure Drain where
  deadline : Timer := .armed
  closing : Bool := true
deriving DecidableEq

/-- What `runCleanup` has come to. -/
inductive CleanupOutcome where
  | pending
  | completed
  | timedOut
  | failed (err : Value)
deriving DecidableEq

/-- `Promise.race`: the first to settle decides. -/
def CleanupOutcome.settle : CleanupOutcome → CleanupOutcome → CleanupOutcome
  | pending, outcome => outcome
  | decided, _ => decided

/-- A call of `finish` past its guard, which awaits `runCleanup`. -/
structure Finish where
  code : Nat
  reason : Str
  outcome : CleanupOutcome
  /-- Whether the cleanup's promise is still to settle. -/
  settling : Bool
  /-- The budget of the cleanup, where there is one. -/
  budget : Option Timer
  /-- Whether it has gone on to the exit. -/
  resumed : Bool := false
deriving DecidableEq

structure ShutdownState where
  listening : List Signal := signals
  shuttingDown : Bool := false
  finished : Bool := false
  drains : List Drain := []
  finishes : List Finish := []
  /-- How often `cleanup` was called. -/
  cleanups : Nat := 0
  /-- The codes `exit` was called with. -/
  exits : List Nat := []
  server : List ServerCall := []
  log : List LogLine := []
deriving DecidableEq

namespace ShutdownState

variable (options : GracefulShutdownOptions)

/-- A line added to the log. -/
def logged (s : ShutdownState) (level : LogLevel) (fields : List (Str × Value)) (message : String) :
    ShutdownState :=
  { s with log := s.log ++ [{ level, fields, message := js message }] }

/-- What a call of `finish` awaits. Without a cleanup there is nothing to wait for, and one that returned or
threw has settled before any timer can fire. -/
def awaited (code : Nat) (reason : Str) : Option CleanupCall → Finish
  | none => { code, reason, outcome := .completed, settling := false, budget := none }
  | some .returns => { code, reason, outcome := .completed, settling := false, budget := some .armed }
  | some (.throws err) => { code, reason, outcome := .failed err, settling := false, budget := some .armed }
  | some .promise => { code, reason, outcome := .pending, settling := true, budget := some .armed }

/-- `finish`, up to its await. -/
def finish (s : ShutdownState) (code : Nat) (reason : String) : ShutdownState :=
  if s.finished then s
  else
    { s with
      finished := true
      cleanups := if options.cleanup.isSome then s.cleanups + 1 else s.cleanups
      finishes := s.finishes ++ [awaited code (js reason) options.cleanup] }

/-- `handler`. -/
def handler (s : ShutdownState) : ShutdownState :=
  if s.shuttingDown then s
  else
    let s := { s with shuttingDown := true, listening := s.listening.filter (· ∉ signals) }
    let s := s.logged .info [(js "drainTimeoutMs", .num options.drainTimeoutMs)] "graceful shutdown: draining"
    { s with drains := s.drains ++ [{}], server := s.server ++ [.close, .closeIdleConnections] }

/-- The deadline of a drain. -/
def deadlinePassed (s : ShutdownState) (id : Nat) (drain : Drain) : ShutdownState :=
  let s := { s with drains := s.drains.set id { drain with deadline := .fired } }
  let s := s.logged .error [(js "drainTimeoutMs", .num options.drainTimeoutMs)]
    "graceful shutdown: drain deadline exceeded, closing remaining connections"
  finish options { s with server := s.server ++ [.closeAllConnections] } 1 "drain-timeout"

/-- The callback of `server.close`. -/
def closed (s : ShutdownState) (id : Nat) (drain : Drain) (err : Option Value) : ShutdownState :=
  let s := { s with drains := s.drains.set id { drain with deadline := drain.deadline.clear, closing := false } }
  match err with
  | some err =>
    finish options (s.logged .error [(js "err", err)] "graceful shutdown: server close failed") 1 "close-failed"
  | none => finish options s 0 "drained"

/-- The cleanup's promise settled. -/
def cleanupSettled (s : ShutdownState) (id : Nat) (call : Finish) (err : Option Value) : ShutdownState :=
  let outcome := match err with
    | none => .completed
    | some err => .failed err
  let call := { call with settling := false, outcome := call.outcome.settle outcome }
  { s with finishes := s.finishes.set id call }

/-- The cleanup's budget ran out. -/
def budgetPassed (s : ShutdownState) (id : Nat) (call : Finish) : ShutdownState :=
  let call := { call with budget := some .fired, outcome := call.outcome.settle .timedOut }
  { s with finishes := s.finishes.set id call }

/-- `finish`, after its await: `none` while there is nothing to go on with. -/
def resumed (s : ShutdownState) (id : Nat) (call : Finish) : Option ShutdownState :=
  let done := { call with budget := call.budget.map Timer.clear, resumed := true }
  let s := { s with finishes := s.finishes.set id done }
  let complete (s : ShutdownState) (exitCode : Nat) (outcome : Str) : ShutdownState :=
    let s := s.logged .info [(js "reason", .str outcome), (js "drain", .str call.reason),
      (js "exitCode", .num (.rat exitCode))] "graceful shutdown: complete"
    { s with exits := s.exits ++ [exitCode] }
  match call.outcome with
  | .pending => none
  | .completed => some (complete s call.code call.reason)
  | .timedOut =>
    let s := s.logged .error [(js "cleanupTimeoutMs", .num options.cleanupBudgetMs)]
      "graceful shutdown: cleanup timed out"
    some (complete s 1 (js "cleanup-timeout"))
  | .failed err =>
    let s := s.logged .error [(js "err", err)] "graceful shutdown: cleanup failed"
    some (complete s 1 (js "cleanup-failed"))

end ShutdownState

/-- What may happen next. A drain and a call of `finish` are named by their place. -/
inductive ShutdownEvent where
  | signal (name : Signal)
  /-- The callback of `server.close`, with the error it is handed. -/
  | closed (drain : Nat) (err : Option Value)
  | deadline (drain : Nat)
  /-- The cleanup's promise is fulfilled, or rejected with an error. -/
  | cleanupSettles (finish : Nat) (err : Option Value)
  | budget (finish : Nat)
  | resume (finish : Nat)
deriving DecidableEq

open ShutdownState in
/-- A callback run to its end; `none` where it is not due. -/
def step (options : GracefulShutdownOptions) (s : ShutdownState) : ShutdownEvent → Option ShutdownState
  | .signal _ => some (s.handler options)
  | .closed id err => do
    let drain ← s.drains[id]?
    if drain.closing then some (s.closed options id drain err) else none
  | .deadline id => do
    let drain ← s.drains[id]?
    if drain.deadline = .armed then some (s.deadlinePassed options id drain) else none
  | .cleanupSettles id err => do
    let call ← s.finishes[id]?
    if call.settling then some (s.cleanupSettled id call err) else none
  | .budget id => do
    let call ← s.finishes[id]?
    if call.budget = some .armed then some (s.budgetPassed id call) else none
  | .resume id => do
    let call ← s.finishes[id]?
    if call.resumed then none else s.resumed options id call

end PolicyVerifier.Standalone
