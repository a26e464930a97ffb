import Mathlib.Logic.Function.Iterate
import PolicyVerifier.Lib.Machine
import PolicyVerifier.Server.Routes.DecisionRequests

/-!
# `POST /verify/batch`

The route as a machine. The body is validated at once; what comes from outside is the authenticator's
answer, what each `decide` settles with, and the caller leaving. The promise jobs (a lane going on, a
lane's end reaching `Promise.all`, the handler going on from it) may come in any order.
-/

namespace PolicyVerifier.Server

open Js PolicyVerifier.Core

/-! ## Answers -/

/-- Why a caller is not authenticated. -/
inductive AuthenticationCode where
  | missingToken
  | unsupportedScheme
  | invalidToken
  | verificationUnavailable
deriving DecidableEq

/-- The word an answer spells a code with. -/
def AuthenticationCode.name : AuthenticationCode → Str
  | missingToken => js "missing_token"
  | unsupportedScheme => js "unsupported_scheme"
  | invalidToken => js "invalid_token"
  | verificationUnavailable => js "verification_unavailable"

/-- `AuthenticationResult`, without the credential. -/
inductive AuthenticationResult where
  | accepted (subject : SubjectAttributes)
  | refused (code : AuthenticationCode) (message : Str)

/-- `authFailureStatus`. -/
def authFailureStatus (code : AuthenticationCode) : Nat :=
  if code = .verificationUnavailable then 503 else 401

/-- The body of a response: the deny envelope, or the slots of a batch, a hole where none was
written. -/
inductive ResponseBody where
  | error (code message : Str)
  | decisions (slots : List (Option DecisionResponse))
deriving DecidableEq

/-- What `res.status(…).json(…)` is called with. -/
structure Answer where
  status : Nat
  body : ResponseBody
deriving DecidableEq

namespace Answer

def invalidRequest (message : Str) : Answer :=
  { status := 400, body := .error (js "invalid_request") message }

def unauthenticated (code : AuthenticationCode) (message : Str) : Answer :=
  { status := authFailureStatus code, body := .error code.name message }

def internalError : Answer :=
  { status := 500, body := .error (js "internal_error") (js "Internal server error") }

def decided (slots : List (Option DecisionResponse)) : Answer :=
  { status := 200, body := .decisions slots }

end Answer

/-- A line the route writes itself. -/
inductive RouteLine where
  | callerGone
  | internalError (err : LoggableError) (failure : ClassifiedFailure)
deriving DecidableEq

/-! ## The machine -/

/-- What the router holds a batch to. -/
structure BatchConfig where
  resourceParser : Str → ParseOutcome
  limits : RequestLimits
  maxBatchSize : Nat
  batchConcurrency : Nat
  metrics : Option DecisionMetrics := none
  requestId : Option Str := none

/-- One call of `decide`, and what it settled with. -/
structure DecideCall where
  index : Nat
  entry : ValidatedDecisionRequest
  input : DecisionInput
  outcome : Option (Except DecisionFault DecisionResponse) := none

/-- Where a lane is: waiting for the `decide` it called, or out of its loop, by a return or by a
throw, and then whether `Promise.all` has seen it. -/
inductive BatchLane where
  | deciding (index : Nat)
  | returned
  | counted
  | threw (fault : DecisionFault)
  | failed (fault : DecisionFault)

/-- Where the handler is. -/
inductive BatchPhase where
  | authenticating
  | deciding
  | returned
deriving DecidableEq

/-- The state of one request. `aborted` is the reason of the caller's signal, `all` what `Promise.all`
settled with. -/
structure Batch where
  phase : BatchPhase := .returned
  entries : List ValidatedDecisionRequest := []
  aborted : Option Thrown := none
  authentications : Nat := 0
  next : Nat := 0
  abandoned : Bool := false
  lanes : List BatchLane := []
  calls : List DecideCall := []
  decisions : List (Option DecisionResponse) := []
  all : Option (Except DecisionFault Unit) := none
  answers : List Answer := []
  lines : List RouteLine := []
  observations : List Observation := []

/-- What can happen next. -/
inductive BatchEvent where
  | authenticated (o : Except Thrown AuthenticationResult)
  | settle (i : Nat) (o : Except DecisionFault DecisionResponse)
  | resume (l : Nat)
  | laneEnded (l : Nat)
  | proceed
  | close (reason : Thrown)

namespace Batch

/-- The handler answers and returns. -/
def answer (s : Batch) (a : Answer) : Batch :=
  { s with phase := .returned, answers := s.answers ++ [a] }

/-- The catch block: the caller's own abort is answered to nobody, anything else is a 500. -/
def caught (cfg : BatchConfig) (s : Batch) (cause : Thrown) (failure : ClassifiedFailure) : Batch :=
  if s.aborted = some cause then { s with phase := .returned, lines := s.lines ++ [.callerGone] }
  else
    Batch.answer
      { s with
        lines := s.lines ++ [.internalError (loggableError cause failure) failure]
        observations := s.observations ++ countCollectorFailure cfg.metrics failure }
      .internalError

/-- The handler up to its first `await`. -/
def start (cfg : BatchConfig) (body : Value) : Batch :=
  match parseBatch cfg.resourceParser cfg.limits cfg.maxBatchSize body with
  | .refused error => ({} : Batch).answer (.invalidRequest error)
  | .threw cause => ({} : Batch).caught cfg cause .internal
  | .ok entries => { phase := .authenticating, entries, authentications := 1 }

/-- A lane at the head of its loop: it takes the next entry and decides it, or returns. -/
def pull (input : DecisionInput) (s : Batch) : Batch × BatchLane :=
  match s.abandoned, s.entries[s.next]? with
  | false, some entry =>
    ({ s with next := s.next + 1, calls := s.calls ++ [{ index := s.next, entry, input }] },
      .deciding s.next)
  | _, _ => (s, .returned)

/-- One more lane is started. -/
def startLane (input : DecisionInput) (s : Batch) : Batch :=
  let (s, lane) := s.pull input
  { s with lanes := s.lanes ++ [lane] }

/-- A lane goes on. -/
def pullAt (input : DecisionInput) (s : Batch) (l : Nat) : Batch :=
  let (s, lane) := s.pull input
  { s with lanes := s.lanes.set l lane }

/-- The lanes are started. `Promise.all` of none has settled already. -/
def decideAll (cfg : BatchConfig) (input : DecisionInput) (s : Batch) : Batch :=
  let width := min cfg.batchConcurrency s.entries.length
  (startLane input)^[width]
    { s with
      phase := .deciding
      decisions := List.replicate s.entries.length none
      all := if width = 0 then some (.ok ()) else none }

/-- The input every decision of the request shares. -/
def decisionInput (cfg : BatchConfig) (subject : SubjectAttributes) : DecisionInput :=
  { subject, requestId := cfg.requestId }

/-- The handler goes on from the authenticator's answer. -/
def authenticated (cfg : BatchConfig) (s : Batch) : Except Thrown AuthenticationResult → Batch
  | .error cause => s.caught cfg cause .internal
  | .ok (.refused code message) => s.answer (.unauthenticated code message)
  | .ok (.accepted subject) => s.decideAll cfg (decisionInput cfg subject)

/-- A lane goes on from what its `decide` settled with. -/
def resume (s : Batch) (l i : Nat) (input : DecisionInput) :
    Except DecisionFault DecisionResponse → Batch
  | .ok response => { s with decisions := s.decisions.set i (some response) }.pullAt input l
  | .error fault => { s with lanes := s.lanes.set l (.threw fault) }

/-- Every lane was seen to return. -/
def allCounted (s : Batch) : Bool := s.lanes.all fun lane => lane matches .counted

/-- `Promise.all` settles once. -/
def settleAll (s : Batch) (o : Except DecisionFault Unit) : Batch := { s with all := s.all.or (some o) }

/-- One event. -/
def step (cfg : BatchConfig) (s : Batch) : BatchEvent → Option Batch
  | .authenticated o => if s.phase = .authenticating then some (s.authenticated cfg o) else none
  | .settle i o =>
    match s.calls[i]? with
    | none => none
    | some call =>
      if call.outcome.isSome then none
      else some { s with calls := s.calls.set i { call with outcome := some o } }
  | .resume l =>
    match s.lanes[l]? with
    | some (.deciding i) =>
      match s.calls[i]? with
      | none => none
      | some call => call.outcome.map (s.resume l i call.input)
    | _ => none
  | .laneEnded l =>
    match s.lanes[l]? with
    | some .returned =>
      let s := { s with lanes := s.lanes.set l .counted }
      some (if s.allCounted then s.settleAll (.ok ()) else s)
    | some (.threw fault) =>
      some ({ s with lanes := s.lanes.set l (.failed fault) }.settleAll (.error fault))
    | _ => none
  | .proceed =>
    match s.phase, s.all with
    | .deciding, some (.ok ()) => some (s.answer (.decided s.decisions))
    | .deciding, some (.error fault) =>
      some ({ s with abandoned := true }.caught cfg fault.original fault.failure)
    | _, _ => none
  | .close reason => some { s with aborted := s.aborted.or (some reason) }

/-- The decisions in flight: called, and not settled. -/
def inFlight (s : Batch) : List DecideCall := s.calls.filter fun call => call.outcome.isNone

/-- No promise job is left. -/
def AtRest (cfg : BatchConfig) (s : Batch) : Prop :=
  (∀ l, s.step cfg (.resume l) = none) ∧ (∀ l, s.step cfg (.laneEnded l) = none) ∧
    s.step cfg .proceed = none

end Batch

end PolicyVerifier.Server
