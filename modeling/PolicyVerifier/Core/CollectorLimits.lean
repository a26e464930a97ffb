import Mathlib.Logic.Function.Basic
import PolicyVerifier.Core.Evaluate

/-!
# The collector fan-out

`runCollectors` as a machine. Its state is what the promises, the controllers and the lanes of one
call hold; its events are the wave that starts the lanes, the promise jobs, which run in the order
they were queued, and what comes from outside: a collector settles, a timer fires, the caller aborts.
A promise job is queued when the reaction it runs becomes due, so a result takes as many jobs to
reach its lane as there are promises between them.
-/

namespace PolicyVerifier.Core

open Js

/-- The bounds on a fan-out, every default filled in. -/
structure ResolvedCollectorLimits where
  collectorTimeoutMs : Nat
  deadlineMs : Nat
  concurrency : Nat

/-- The limits as a caller gives them. -/
structure CollectorLimits where
  collectorTimeoutMs : Option Number := none
  deadlineMs : Option Number := none
  concurrency : Option Number := none

/-- Fills in the defaults and refuses a limit that is not a positive whole number, or a budget above
what a timer can hold. -/
def resolveCollectorLimits (limits : CollectorLimits) : Except Thrown ResolvedCollectorLimits := do
  let collectorTimeoutMs ← timer limits.collectorTimeoutMs defaultCollectorTimeoutMs
    (js "collectorTimeoutMs")
  let deadlineMs ← timer limits.deadlineMs defaultCollectDeadlineMs (js "deadlineMs")
  let concurrency ← positive limits.concurrency defaultCollectorConcurrency (js "concurrency")
  .ok { collectorTimeoutMs, deadlineMs, concurrency }

/-- One fan-out: how many collectors there are, the class each is named by, what a collector does
that does not return a promise (it throws, or answers a plain value), and the limits. -/
structure FanOutConfig (α : Type) where
  pipeline : CollectorPipeline
  count : Nat
  className : Nat → Value
  atOnce : Nat → Option (Except Thrown α)
  limits : ResolvedCollectorLimits

namespace FanOutConfig

variable {α : Type}

/-- One lane per permit, never more than there is work for. -/
def lanes (cfg : FanOutConfig α) : Nat := min cfg.limits.concurrency cfg.count

def name (cfg : FanOutConfig α) (i : Nat) : Str := describeCollector (cfg.className i) i cfg.pipeline

def source (cfg : FanOutConfig α) (i : Nat) : FailureSource := .collector cfg.pipeline (cfg.name i)

/-- The error a collector's own timer makes. -/
def expired (cfg : FanOutConfig α) (i : Nat) : Thrown :=
  .collectorTimeout (.collectorTimer cfg.pipeline i)
    (.collector cfg.pipeline cfg.limits.collectorTimeoutMs (cfg.name i))

/-- The error the fan-out's deadline makes. -/
def deadlineExpired (cfg : FanOutConfig α) : Thrown :=
  .collectorTimeout (.deadlineTimer cfg.pipeline) (.deadline cfg.pipeline cfg.limits.deadlineMs)

end FanOutConfig

/-- One invoked collector: its lane; what the promise it returned settled with; whether that promise
is subscribed to; the reason its own signal aborted with; whether the race of the two is over;
whether `runOne` has cleaned up. `overran` says that its own timer fired. -/
structure Call (α : Type) where
  lane : Nat
  promise : Option (Except Thrown α)
  subscribed : Bool := false
  own : Option Thrown := none
  raced : Bool := false
  finished : Bool := false
  overran : Bool := false

/-- Where a lane is: waiting for the collector it pulled, or out of its loop, by a throw or by a
return; `counted` once `Promise.all` has seen it return. -/
inductive LaneState where
  | idle
  | waiting (i : Nat)
  | threw (i : Nat)
  | returned
  | counted
deriving DecidableEq

/-- A promise job. The first four carry the result of collector `i` towards the race its signal is
in, `ran` and `resume` carry the race's result to the lane, the rest carry a lane's end to the
call. -/
inductive Job (α : Type) where
  | subscribe (i : Nat)
  | adopt (i : Nat) (o : Except Thrown α)
  | caught (i : Nat) (o : Except Thrown α)
  | raced (i : Nat) (o : Except Thrown α)
  | ran (l i : Nat) (o : Except Thrown α)
  | resume (l i : Nat) (o : Except Thrown α)
  | laneReturned (l : Nat)
  | laneThrew (l : Nat) (e : Thrown)
  | finish (o : Except Thrown Unit)

/-- What can happen next. -/
inductive FanOutEvent (α : Type) where
  | startLane
  | job
  | settle (i : Nat) (o : Except Thrown α)
  | timeout (i : Nat)
  | deadline
  | callerAbort (reason : Thrown)

/-- The state of one `runCollectors` call. `calls` lists the collectors it invoked, in order. -/
structure FanOut (α : Type) where
  next : Nat := 0
  started : Nat := 0
  lane : Nat → LaneState := fun _ => .idle
  call : Nat → Option (Call α) := fun _ => none
  results : Nat → Option α := fun _ => none
  aborted : Option Thrown := none
  allSettled : Bool := false
  jobs : List (Job α) := []
  outcome : Option (Except Thrown (List (Option α))) := none
  calls : List Nat := []

namespace FanOut

variable {α : Type}

/-- The state the call starts in: no collectors is an empty answer, and a caller that had already
aborted aborts the fan-out. -/
def start (cfg : FanOutConfig α) (callerAborted : Option Thrown) : FanOut α :=
  if cfg.count = 0 then { allSettled := true, outcome := some (.ok []) }
  else { aborted := callerAborted }

def push (s : FanOut α) (js : List (Job α)) : FanOut α := { s with jobs := s.jobs ++ js }

def setLane (s : FanOut α) (l : Nat) (st : LaneState) : FanOut α :=
  { s with lane := Function.update s.lane l st }

def setCall (s : FanOut α) (i : Nat) (c : Call α) : FanOut α :=
  { s with call := Function.update s.call i (some c) }

/-- Whether the fan-out's abort reaches the collector: it runs, and its signal has not aborted. -/
def listens (s : FanOut α) (i : Nat) : Bool :=
  match s.call i with
  | some c => !c.finished && c.own.isNone
  | none => false

/-- Aborts the fan-out, and with it the signal of every collector still running: the first reason
stands. -/
def abort (s : FanOut α) (reason : Thrown) : FanOut α :=
  if s.aborted.isSome then s
  else
    { s with
      aborted := some reason
      call := fun i => if s.listens i then (s.call i).map ({ · with own := some reason })
        else s.call i
      jobs := s.jobs ++ ((List.range s.next).filter s.listens).map (.raced · (.error reason)) }

/-- A lane takes its next turn: it pulls a collector and runs it, or returns when there is none. A
fan-out that has aborted refuses the collector, and the refusal is the fan-out's reason. -/
def pull (cfg : FanOutConfig α) (s : FanOut α) (l : Nat) : FanOut α :=
  if s.next < cfg.count then
    let i := s.next
    let s := { s with next := i + 1 }.setLane l (.waiting i)
    match s.aborted with
    | some reason => s.push [.resume l i (.error reason)]
    | none =>
      let s := { s with calls := s.calls ++ [i] }.setCall i { lane := l, promise := cfg.atOnce i }
      match cfg.atOnce i with
      | none => s.push [.subscribe i]
      | some o => s.push [.caught i o]
  else (s.setLane l .returned).push [.laneReturned l]

/-- Every lane was seen to return. -/
def allCounted (cfg : FanOutConfig α) (s : FanOut α) : Bool :=
  (List.range cfg.lanes).all fun l => decide (s.lane l = .counted)

/-- Runs one promise job. -/
def runJob (cfg : FanOutConfig α) (s : FanOut α) : Job α → FanOut α
  | .subscribe i =>
    match s.call i with
    | none => s
    | some c =>
      let s := s.setCall i { c with subscribed := true }
      match c.promise with
      | none => s
      | some o => s.push [.adopt i o]
  | .adopt i o => s.push [.caught i o]
  | .caught i o => s.push [.raced i o]
  | .raced i o =>
    match s.call i with
    | none => s
    | some c =>
      if c.raced then s
      else (s.setCall i { c with raced := true }).push [.ran c.lane i o]
  | .ran l i o =>
    match s.call i with
    | none => s
    | some c => (s.setCall i { c with finished := true }).push [.resume l i o]
  | .resume l i (.ok v) => pull cfg { s with results := Function.update s.results i (some v) } l
  | .resume l i (.error e) => (s.setLane l (.threw i)).push [.laneThrew l e]
  | .laneReturned l =>
    let s := s.setLane l .counted
    if allCounted cfg s && !s.allSettled then { s with allSettled := true }.push [.finish (.ok ())]
    else s
  | .laneThrew _ e =>
    if s.allSettled then s else { s with allSettled := true }.push [.finish (.error e)]
  | .finish (.ok ()) => { s with outcome := some (.ok ((List.range cfg.count).map s.results)) }
  | .finish (.error e) => { s.abort e with outcome := some (.error e) }

/-- One event. A job runs once the wave that starts the lanes is over, and a timer fires when no job
is queued. -/
def step (cfg : FanOutConfig α) (s : FanOut α) : FanOutEvent α → Option (FanOut α)
  | .startLane =>
    if s.started < cfg.lanes then some (pull cfg { s with started := s.started + 1 } s.started)
    else none
  | .job =>
    if s.started = cfg.lanes then
      match s.jobs with
      | [] => none
      | j :: js => some (runJob cfg { s with jobs := js } j)
    else none
  | .settle i o =>
    match s.call i with
    | none => none
    | some c =>
      if c.promise.isSome then none
      else
        let s := s.setCall i { c with promise := some o }
        some (if c.subscribed then s.push [.adopt i o] else s)
  | .timeout i =>
    match s.call i with
    | none => none
    | some c =>
      if s.started = cfg.lanes ∧ s.jobs.isEmpty ∧ c.finished = false ∧ c.own = none then
        some ((s.setCall i { c with own := some (cfg.expired i), overran := true }).push
          [.raced i (.error (cfg.expired i))])
      else none
  | .deadline =>
    if s.started = cfg.lanes ∧ s.jobs.isEmpty ∧ s.outcome.isNone then
      some (s.abort cfg.deadlineExpired)
    else none
  | .callerAbort reason => some (if s.outcome.isNone then s.abort reason else s)

/-- What an event records, and where from: a timer names what it timed, and a collector answers for
a failure of its own, not for one that came after its signal aborted. -/
def records (cfg : FanOutConfig α) (s : FanOut α) : FanOutEvent α → Option (Thrown × FailureSource)
  | .timeout i => some (cfg.expired i, cfg.source i)
  | .deadline => some (cfg.deadlineExpired, .deadline cfg.pipeline)
  | .job =>
    match s.jobs with
    | .caught i (.error e) :: _ =>
      match s.call i with
      | some c => if c.own.isNone then some (e, cfg.source i) else none
      | none => none
    | _ => none
  | _ => none

/-- The collectors in flight: invoked, and not settled. -/
def inFlight (s : FanOut α) : List Nat :=
  s.calls.filter fun i => (s.call i).any fun c => c.promise.isNone

/-- The call has nothing left to do until something comes from outside. -/
def AtRest (cfg : FanOutConfig α) (s : FanOut α) : Prop := s.started = cfg.lanes ∧ s.jobs = []

end FanOut

end PolicyVerifier.Core
