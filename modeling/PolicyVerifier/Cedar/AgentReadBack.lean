import Mathlib.Data.Rat.Cast.Order
import Mathlib.Logic.Function.Basic
import PolicyVerifier.Js.Rounding
import PolicyVerifier.Js.Value
import PolicyVerifier.Lib.Machine
import PolicyVerifier.Lib.OrderedMap

/-!
# The read-back of the agent's policy set

The agent's set is read back behind answers and compared with its own copy of what was pushed. A
check runs in the background, from one await to the next, while authorization calls come and go; a
refusal it begins is over every answer until a check lifts it. The lines it logs are left out, but
not that a log may throw. Times are doubles, and what is computed of them is rounded.
-/

namespace PolicyVerifier.Cedar

open Js

/-- An agent's policy set, by id. -/
abbrev AgentPolicySet := OrderedMap Str Str

/-- Whether two copies of a set are the same: the same ids, each the same text. -/
def sameAgentSet (a b : AgentPolicySet) : Bool :=
  decide (a.entries.length = b.entries.length) &&
    a.entries.all fun entry => decide (b.get? entry.1 = some entry.2)

/-- What reading the agent's set came to. -/
inductive AgentSetRead where
  | held (set : AgentPolicySet)
  | unverifiable (reason : Str)

/-- Why answers are refused. -/
inductive ReadBackRefusal where
  | alteredPolicySet
  | unverifiablePolicySet
deriving DecidableEq

/-- How soon the set is read again once answers begin to be refused. -/
def recheckWhileRefusingMs : ℚ := 1000

/-- The options the read-back goes by. -/
structure AgentReadBackOptions where
  pushed : AgentPolicySet
  intervalMs : ℚ

/-- From half the interval to all of it; a draw that throws or is no number is all of it. -/
def drawWait (options : AgentReadBackOptions) (draw : Option ℚ) : ℚ :=
  let share := nearestDouble (1 / 2 + nearestDouble (1 / 2 * min (max (draw.getD 1) 0) 1))
  nearestDouble (options.intervalMs * share)

/-- The read-back's own variables. `running` is the check poll has out. -/
structure AgentReadBack where
  wait : ℚ
  baseline : AgentPolicySet
  refusal : Option ReadBackRefusal := none
  generation : Nat := 0
  begun : Option ReadBackRefusal := none
  answeredCalls : Nat := 0
  countedCalls : Nat := 0
  unreachableStreak : Bool := false
  pushFailing : Bool := false
  recheckMs : ℚ := recheckWhileRefusingMs
  lastCheck : ℚ
  running : Option Nat := none

namespace AgentReadBack

/-- Refuses as `why` from now on; a new refusal is a new generation. -/
def refuse (s : AgentReadBack) (why : ReadBackRefusal) : AgentReadBack :=
  if s.refusal = some why then s
  else
    { s with
      refusal := some why, begun := some why, generation := s.generation + 1, pushFailing := false }

/-- Answers go out again, and the calls answered until now are accounted for. -/
def lift (s : AgentReadBack) : AgentReadBack :=
  { s with refusal := none, pushFailing := false, countedCalls := s.answeredCalls }

/-- Why the answer to a call made at `since` is refused: the refusal now, or one that began while the
call was out. -/
def refusedSince (s : AgentReadBack) (since : Nat) : Option ReadBackRefusal :=
  s.refusal.or (if s.generation ≠ since then s.begun else none)

/-- The agent answered an authorization call. -/
def answered (s : AgentReadBack) : AgentReadBack := { s with answeredCalls := s.answeredCalls + 1 }

/-- Whether a check is due. -/
def due (options : AgentReadBackOptions) (s : AgentReadBack) (now : ℚ) : Bool :=
  let due := if s.refusal = none then s.wait else min options.intervalMs s.recheckMs
  decide (due ≤ nearestDouble (now - s.lastCheck))

/-- The read failed outright: the calls answered since what was accounted for begin a refusal, where
none is in effect. -/
def readRejected (s : AgentReadBack) : AgentReadBack :=
  let answered := decide (s.countedCalls < s.answeredCalls)
  let s := { s with countedCalls := s.answeredCalls }
  if s.refusal.isSome then s
  else if answered then s.refuse .unverifiablePolicySet
  else { s with unreachableStreak := true }

/-- What the read showed, up to the push: whether this load's set is to be pushed again. `logFails`
is whether the line of a refusal that begins throws. -/
def readAnswered (s : AgentReadBack) (answeredBefore : Nat) (answer : AgentSetRead)
    (logFails : Bool) : AgentReadBack × Bool :=
  let s := { s with countedCalls := answeredBefore, unreachableStreak := false }
  match answer with
  | .unverifiable _ => (s.refuse .unverifiablePolicySet, false)
  | .held held =>
    if sameAgentSet held s.baseline then (if s.refusal.isSome then s.lift else s, false)
    else
      let restorable := decide (held.entries.length = 0)
      let begins := decide (s.refusal ≠ some .alteredPolicySet)
      (s.refuse .alteredPolicySet, restorable && !(begins && logFails))

/-- The push came to an end: what the agent answered is the baseline. -/
def pushed (s : AgentReadBack) : Option AgentPolicySet → AgentReadBack
  | some set => lift { s with baseline := set }
  | none => { s with pushFailing := true }

/-- The `finally` of a check. -/
def settled (options : AgentReadBackOptions) (s : AgentReadBack) (refusing : Bool)
    (draw : Option ℚ) : AgentReadBack :=
  { s with
    running := none
    recheckMs := if refusing && s.refusal.isSome then min (nearestDouble (s.recheckMs * 2)) options.intervalMs
      else recheckWhileRefusingMs
    wait := drawWait options draw }

end AgentReadBack

/-! ## The calls and the checks around it -/

/-- Where a check is: its read is out, with the calls answered before it; its push is out; or it has
returned. -/
inductive CheckPhase where
  | reading (answeredBefore : Nat)
  | pushing
  | returned

/-- Whether a read showed an empty set that differs from the baseline. -/
def AgentSetRead.showsEmpty (baseline : AgentPolicySet) : AgentSetRead → Bool
  | held set => decide (set.entries.length = 0) && !sameAgentSet set baseline
  | unverifiable _ => false

/-- One check that was started. `refusing` is what it found when it started; `startedAt` and
`readEmpty` are for the record: when that was, and whether its read showed an empty set that differs
from the baseline. -/
structure Check where
  id : Nat
  refusing : Bool
  phase : CheckPhase
  startedAt : Nat
  readEmpty : Bool := false

/-- What a call does that can be seen from outside. -/
inductive Deed where
  | sent (call : Nat)
  | used (call : Nat)
  | refused (call : Nat) (why : ReadBackRefusal)
  | readSent (check : Nat)
  | pushSent (check : Nat)
deriving DecidableEq

/-- When what is accounted for happened, in events of the run, and when the calls were answered. -/
structure Ledger where
  time : Nat := 0
  answers : List Nat := []
  lastReadStart : Nat := 0
  lastRejection : Nat := 0
  lastLift : Nat := 0

/-- The latest point already accounted for: the start of the last read that got an answer, the end of
the last rejected read, or the last lift. -/
def Ledger.accounted (l : Ledger) : Nat := max l.lastReadStart (max l.lastRejection l.lastLift)

/-- The engine after boot. `calls` holds the generation each call that is out was sent at. -/
structure ReadBackSystem where
  readBack : AgentReadBack
  checks : List Check := []
  nextCheck : Nat := 0
  calls : Nat → Option Nat := fun _ => none
  nextCall : Nat := 0
  deeds : List Deed := []
  ledger : Ledger := {}

/-- The clock as one poll reads it: for whether a check is due, and, where one is, for when it starts. -/
structure ClockReadings where
  now : ℚ
  start : ℚ

/-- What can happen: a poll; a call of `isAuthorized`, which polls first; the answer of a call, read
as a decision, or its failure; a read that ended, or failed outright; a push that ended; and the end
of a check. -/
inductive ReadBackEvent where
  | poll (clock : ClockReadings)
  | call (clock : ClockReadings)
  | answer (call : Nat)
  | fail (call : Nat)
  | readAnswered (check : Nat) (answer : AgentSetRead) (logFails : Bool)
  | readRejected (check : Nat)
  | pushEnded (check : Nat) (copy : Option AgentPolicySet)
  | settle (check : Nat) (draw : Option ℚ)

namespace ReadBackSystem

/-- The read-back as boot makes it. -/
def createAgentReadBack (options : AgentReadBackOptions) (now : ℚ) (draw : Option ℚ) :
    ReadBackSystem :=
  { readBack := { wait := drawWait options draw, baseline := options.pushed, lastCheck := now } }

/-- Starts a check when one is due and none is out. Its read is sent at once. -/
def poll (options : AgentReadBackOptions) (s : ReadBackSystem) (clock : ClockReadings) : ReadBackSystem :=
  if s.readBack.running.isSome then s
  else if s.readBack.due options clock.now then
    { s with
      readBack := { s.readBack with lastCheck := clock.start, running := some s.nextCheck }
      checks := s.checks ++
        [{ id := s.nextCheck, refusing := s.readBack.refusal.isSome,
           phase := .reading s.readBack.answeredCalls, startedAt := s.ledger.time }]
      nextCheck := s.nextCheck + 1
      deeds := s.deeds ++ [.readSent s.nextCheck] }
  else s

/-- `isAuthorized`, up to its first await: refused at once, or sent at the generation there is. -/
def isAuthorized (s : ReadBackSystem) : ReadBackSystem :=
  match s.readBack.refusal with
  | some why =>
    { s with nextCall := s.nextCall + 1, deeds := s.deeds ++ [.refused s.nextCall why] }
  | none =>
    { s with
      calls := Function.update s.calls s.nextCall (some s.readBack.generation)
      nextCall := s.nextCall + 1
      deeds := s.deeds ++ [.sent s.nextCall] }

/-- The answer of a call, read as a decision: it is refused as late, or used. -/
def answer (s : ReadBackSystem) (call generation : Nat) : ReadBackSystem :=
  let readBack := s.readBack.answered
  { s with
    readBack
    calls := Function.update s.calls call none
    deeds := s.deeds ++
      [match readBack.refusedSince generation with
        | some why => .refused call why
        | none => .used call]
    ledger := { s.ledger with answers := s.ledger.answers ++ [s.ledger.time] } }

/-- The check of a number, when it is out and in the phase. -/
def check? (s : ReadBackSystem) (id : Nat) : Option Check := s.checks.find? fun c => c.id = id

/-- A check goes on to its next phase. -/
def advance (s : ReadBackSystem) (check : Check) : ReadBackSystem :=
  { s with checks := s.checks.map fun c => if c.id = check.id then check else c }

/-- The time of a lift, when the step was one. -/
def noteLift (s : ReadBackSystem) (before : AgentReadBack) : ReadBackSystem :=
  if before.refusal.isSome ∧ s.readBack.refusal = none then
    { s with ledger := { s.ledger with lastLift := s.ledger.time } }
  else s

/-- One step, at the time the ledger shows. -/
def act (options : AgentReadBackOptions) (s : ReadBackSystem) : ReadBackEvent → Option ReadBackSystem
  | .poll clock => some (s.poll options clock)
  | .call clock => some (s.poll options clock).isAuthorized
  | .answer call => (s.calls call).map (s.answer call)
  | .fail call =>
    match s.calls call with
    | some _ => some { s with calls := Function.update s.calls call none }
    | none => none
  | .readAnswered id answer logFails =>
    match s.check? id with
    | some check =>
      match check.phase with
      | .reading answeredBefore =>
        let (readBack, pushes) := s.readBack.readAnswered answeredBefore answer logFails
        let s' := { s with
          readBack
          deeds := s.deeds ++ if pushes then [Deed.pushSent id] else []
          ledger := { s.ledger with lastReadStart := check.startedAt } }
        some ((s'.advance { check with
          phase := if pushes then .pushing else .returned
          readEmpty := answer.showsEmpty s.readBack.baseline }).noteLift s.readBack)
      | _ => none
    | none => none
  | .readRejected id =>
    match s.check? id with
    | some check =>
      match check.phase with
      | .reading _ =>
        let s' := { s with
          readBack := s.readBack.readRejected
          ledger := { s.ledger with lastRejection := s.ledger.time } }
        some (s'.advance { check with phase := .returned })
      | _ => none
    | none => none
  | .pushEnded id copy =>
    match s.check? id with
    | some check =>
      match check.phase with
      | .pushing =>
        some (({ s with readBack := s.readBack.pushed copy }.advance
          { check with phase := .returned }).noteLift s.readBack)
      | _ => none
    | none => none
  | .settle id draw =>
    match s.check? id with
    | some check =>
      match check.phase with
      | .returned =>
        some { s with
          readBack := s.readBack.settled options check.refusing draw
          checks := s.checks.filter fun c => c.id ≠ id }
      | _ => none
    | none => none

/-- The ledger's time goes on. -/
def tick (s : ReadBackSystem) : ReadBackSystem :=
  { s with ledger := { s.ledger with time := s.ledger.time + 1 } }

/-- One step, which takes one tick of the ledger's time. -/
def step (options : AgentReadBackOptions) (s : ReadBackSystem) (e : ReadBackEvent) :
    Option ReadBackSystem :=
  act options s.tick e

end ReadBackSystem

end PolicyVerifier.Cedar
