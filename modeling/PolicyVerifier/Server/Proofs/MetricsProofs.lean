import PolicyVerifier.Lib.CappedLabels
import PolicyVerifier.Server.Metrics
import PolicyVerifier.Server.Proofs.AppProofs

/-!
# The counters agree with the log

Every line that reports a decision or blames a collector is counted, and nothing else is: first for one
decision and one request, then for any requests whose observations reach the counters in any order.
-/

namespace PolicyVerifier.Server

open Js PolicyVerifier.Core

/-! ## What a line is counted as -/

/-- What a failure is counted as. -/
def ClassifiedFailure.observed (failure : ClassifiedFailure) : List Observation :=
  match failure.collector? with
  | some collector => [.collectorFailure collector failure.category]
  | none => []

/-- What a decision is counted as. -/
def EventOutcome.observed : EventOutcome → Observation
  | .allow _ => .decision true none
  | .deny code _ => .decision false (some code)

/-- What a decision's line is counted as. -/
def LogLine.observed : LogLine → List Observation
  | .decision event => [event.outcome.observed]
  | .failure _ _ _ _ _ cause => cause.observed

/-- What a line of the route's own is counted as. -/
def RouteLine.observed : RouteLine → List Observation
  | .callerGone => []
  | .internalError _ failure => failure.observed

theorem countCollectorFailure_observed (failure : ClassifiedFailure) :
    countCollectorFailure (some Metrics.decisions) failure = failure.observed := by
  unfold countCollectorFailure ClassifiedFailure.observed
  cases failure.collector? with
  | none => rfl
  | some collector => rfl

theorem observe_observed (decision : Decision) (subject : Option Str) (resource action : Str) (requestId : Option Str) :
    observe (some Metrics.decisions) decision =
      (LogLine.decision (decisionEvent decision subject resource action requestId)).observed := by
  cases decision with
  | allow reason => rfl
  | deny code message reason => rfl

/-- What a decision has counted is what its lines are counted as. -/
theorem Deciding.Inv.observed {cfg : DeciderConfig} {entry : DecisionRequest} {input : DecisionInput} {s : Deciding}
    (h : Deciding.Inv cfg entry input s) (hm : cfg.metrics = some Metrics.decisions) :
    s.observations = s.logs.flatMap LogLine.observed := by
  have hfailed : ∀ cause failures, FailedWith cfg entry input cause failures s →
      s.observations = s.logs.flatMap LogLine.observed := by
    intro cause failures hf
    simp only [FailedWith] at hf
    split at hf
    · rw [hf.1, hf.2.1]
      rfl
    · rw [hf.1, hf.2.1, hm, countCollectorFailure_observed,
        observe_observed _ (subjectId input) entry.resource entry.action input.requestId]
      rfl
  cases h.place with
  | collecting he hc hl ho hs =>
    rw [hl, ho]
    rfl
  | evaluating attrs rules hj he hc hl ho hs =>
    rw [hl, ho]
    rfl
  | decided attrs rules world failures final decision hj he hrun hc hl ho hs =>
    rw [hl, ho, hm, observe_observed _ (subjectId input) entry.resource entry.action input.requestId]
    rw [List.flatMap_singleton]
  | collectFailed cause failures hj he hc hf => exact hfailed cause failures hf
  | evaluateFailed attrs rules world cause failures final hj he hrun hc hf => exact hfailed cause final.failures hf

theorem DecisionCall.Runs.observed {cfg : RouterConfig} {call : DecisionCall} (h : call.Runs cfg)
    (hm : cfg.metrics = some Metrics.decisions) :
    call.deciding.observations = call.deciding.logs.flatMap LogLine.observed := by
  obtain ⟨aborted, es, hrun⟩ := h
  exact (Deciding.run_inv hrun).observed hm

/-! ## The handlers -/

/-- What a step adds to the lines it adds to the observations. -/
def Adds (lines : List RouteLine) (observations : List Observation) (lines' : List RouteLine)
    (observations' : List Observation) : Prop :=
  observations = lines.flatMap RouteLine.observed → observations' = lines'.flatMap RouteLine.observed

theorem adds_internalError {lines : List RouteLine} {observations : List Observation} (err : LoggableError)
    (failure : ClassifiedFailure) :
    Adds lines observations (lines ++ [.internalError err failure])
      (observations ++ countCollectorFailure (some Metrics.decisions) failure) := by
  intro h
  rw [h, countCollectorFailure_observed, List.flatMap_append, List.flatMap_singleton]
  rfl

theorem adds_callerGone {lines : List RouteLine} {observations : List Observation} :
    Adds lines observations (lines ++ [.callerGone]) observations := by
  intro h
  rw [List.flatMap_append, List.flatMap_singleton, show RouteLine.observed .callerGone = [] from rfl, List.append_nil]
  exact h

namespace Verify

variable {cfg : RouterConfig} {requestId : Option Str} {body : Value}

theorem caught_adds (hm : cfg.metrics = some Metrics.decisions) (s : Verify) (cause : Thrown) (failure : ClassifiedFailure) :
    Adds s.lines s.observations (s.caught cfg cause failure).lines (s.caught cfg cause failure).observations := by
  unfold caught
  split
  · exact adds_callerGone
  · show Adds s.lines s.observations (s.lines ++ [_]) (s.observations ++ countCollectorFailure cfg.metrics failure)
    rw [hm]
    exact adds_internalError _ failure

theorem step_adds (hm : cfg.metrics = some Metrics.decisions) {s s' : Verify} {e : VerifyEvent} (hs : s.step cfg requestId e = some s') :
    Adds s.lines s.observations s'.lines s'.observations := by
  cases e with
  | authenticated o =>
    simp only [Verify.step] at hs
    split at hs
    · obtain rfl := Option.some.inj hs
      cases o with
      | error cause => exact caught_adds hm s cause .internal
      | ok result =>
        cases result with
        | refused code message => exact id
        | accepted subject => exact id
    · exact absurd hs (by simp)
  | decide e =>
    have hsame : s'.lines = s.lines ∧ s'.observations = s.observations := by
      cases e with
      | callerAbort reason => exact absurd hs (by simp [Verify.step])
      | _ =>
        obtain ⟨call, -, hs⟩ := Option.bind_eq_some_iff.1 hs
        obtain ⟨d, -, rfl⟩ := Option.map_eq_some_iff.1 hs
        exact ⟨rfl, rfl⟩
    rw [hsame.1, hsame.2]
    exact id
  | proceed =>
    simp only [Verify.step] at hs
    split at hs
    · obtain rfl := Option.some.inj hs
      exact id
    · obtain rfl := Option.some.inj hs
      exact caught_adds hm s _ _
    · exact absurd hs (by simp)
  | close reason =>
    obtain rfl := Option.some.inj hs
    exact id

theorem start_observed (hm : cfg.metrics = some Metrics.decisions) :
    (start cfg body).observations = (start cfg body).lines.flatMap RouteLine.observed := by
  unfold start
  split
  · rfl
  · exact caught_adds hm _ _ _ rfl
  · rfl

theorem run_observed (hm : cfg.metrics = some Metrics.decisions) {events : List VerifyEvent} {s : Verify}
    (h : Machine.run (step cfg requestId) (start cfg body) events = some s) :
    s.observations = s.lines.flatMap RouteLine.observed :=
  Machine.run_invariant (I := fun s => s.observations = s.lines.flatMap RouteLine.observed)
    (fun _ _ _ hI hs => step_adds hm hs hI) (start_observed hm) h

end Verify

namespace Batch

variable {cfg : BatchConfig} {body : Value}

theorem caught_adds (hm : cfg.metrics = some Metrics.decisions) (s : Batch) (cause : Thrown) (failure : ClassifiedFailure) :
    Adds s.lines s.observations (s.caught cfg cause failure).lines (s.caught cfg cause failure).observations := by
  unfold caught
  split
  · exact adds_callerGone
  · show Adds s.lines s.observations (s.lines ++ [_]) (s.observations ++ countCollectorFailure cfg.metrics failure)
    rw [hm]
    exact adds_internalError _ failure

theorem pull_lines (input : DecisionInput) (s : Batch) :
    (s.pull input).1.lines = s.lines ∧ (s.pull input).1.observations = s.observations := by
  rcases pull_eq input s with ⟨entry, -, -, hpull⟩ | ⟨-, hpull⟩
  · rw [hpull]
    exact ⟨rfl, rfl⟩
  · rw [hpull]
    exact ⟨rfl, rfl⟩

theorem startLanes_lines (input : DecisionInput) (s : Batch) (n : Nat) :
    ((startLane input)^[n] s).lines = s.lines ∧ ((startLane input)^[n] s).observations = s.observations := by
  induction n with
  | zero => exact ⟨rfl, rfl⟩
  | succ n ih =>
    rw [Function.iterate_succ_apply']
    obtain ⟨hlines, hobservations⟩ := pull_lines input ((startLane input)^[n] s)
    exact ⟨hlines.trans ih.1, hobservations.trans ih.2⟩

theorem step_adds (hm : cfg.metrics = some Metrics.decisions) {s s' : Batch} {e : BatchEvent} (hs : s.step cfg e = some s') :
    Adds s.lines s.observations s'.lines s'.observations := by
  cases e with
  | authenticated o =>
    simp only [Batch.step] at hs
    split at hs
    · obtain rfl := Option.some.inj hs
      cases o with
      | error cause => exact caught_adds hm s cause .internal
      | ok result =>
        cases result with
        | refused code message => exact id
        | accepted subject =>
          obtain ⟨hlines, hobservations⟩ := startLanes_lines (decisionInput cfg subject)
            { s with
              phase := .deciding
              decisions := List.replicate s.entries.length none
              all := if min cfg.batchConcurrency s.entries.length = 0 then some (.ok ()) else none }
            (min cfg.batchConcurrency s.entries.length)
          intro h
          exact hobservations.trans (h.trans (congrArg _ hlines.symm))
    · exact absurd hs (by simp)
  | settle i o =>
    simp only [Batch.step] at hs
    split at hs
    · exact absurd hs (by simp)
    split at hs
    · exact absurd hs (by simp)
    · obtain rfl := Option.some.inj hs
      exact id
  | resume l =>
    simp only [Batch.step] at hs
    split at hs
    · split at hs
      · exact absurd hs (by simp)
      · rename_i i hlane call hcall
        obtain ⟨o, -, rfl⟩ := Option.map_eq_some_iff.1 hs
        cases o with
        | error fault => exact id
        | ok response =>
          obtain ⟨hlines, hobservations⟩ :=
            pull_lines call.input { s with decisions := s.decisions.set _ (some response) }
          intro h
          exact hobservations.trans (h.trans (congrArg _ hlines.symm))
    · exact absurd hs (by simp)
  | laneEnded l =>
    simp only [Batch.step] at hs
    split at hs
    · obtain rfl := Option.some.inj hs
      split
      · exact id
      · exact id
    · obtain rfl := Option.some.inj hs
      exact id
    · exact absurd hs (by simp)
  | proceed =>
    simp only [Batch.step] at hs
    split at hs
    · obtain rfl := Option.some.inj hs
      exact id
    · obtain rfl := Option.some.inj hs
      exact caught_adds hm { s with abandoned := true } _ _
    · exact absurd hs (by simp)
  | close reason =>
    obtain rfl := Option.some.inj hs
    exact id

theorem start_observed (hm : cfg.metrics = some Metrics.decisions) :
    (start cfg body).observations = (start cfg body).lines.flatMap RouteLine.observed := by
  unfold start
  split
  · rfl
  · exact caught_adds hm _ _ _ rfl
  · rfl

theorem reaches_observed (hm : cfg.metrics = some Metrics.decisions) {s : Batch} (h : Machine.Reaches (step cfg) (start cfg body) s) :
    s.observations = s.lines.flatMap RouteLine.observed := by
  obtain ⟨events, hrun⟩ := h
  exact Machine.run_invariant (I := fun s => s.observations = s.lines.flatMap RouteLine.observed)
    (fun _ _ _ hI hs => step_adds hm hs hI) (start_observed hm) hrun

end Batch

/-! ## A request -/

namespace Exchange

variable {Digest : Type} [DecidableEq Digest] {sha256 : List UInt8 → Digest} {app : AppConfig} {request : IncomingRequest}

theorem calls_observed {calls : List DecisionCall} (h : ∀ call ∈ calls, call.Runs app.measured.router) :
    calls.flatMap (fun call => call.deciding.observations) =
      (calls.flatMap fun call => call.deciding.logs).flatMap LogLine.observed := by
  rw [List.flatMap_assoc]
  exact List.flatMap_congr fun call hcall => (h call hcall).observed rfl

/-- What a request has counted is what its lines are counted as. -/
theorem Reached.observed {events : List ExchangeEvent} {x : Exchange}
    (h : Reached sha256 app.measured request events x) :
    x.observations = x.lines.flatMap RouteLine.observed ++ x.logs.flatMap LogLine.observed := by
  cases h with
  | turnedAway header hgate => rfl
  | receiving hgate => rfl
  | bodyRefused err hgate =>
    unfold denyOnBodyFailure
    cases bodyParserFailure err with
    | some refusal => rfl
    | none =>
      show countCollectorFailure (some Metrics.decisions) (bodyFailure err) ++ [] =
        [RouteLine.internalError _ (bodyFailure err)].flatMap RouteLine.observed ++ []
      rw [countCollectorFailure_observed, List.flatMap_singleton]
      rfl
  | verifying body s own hgate he hbody hrun hown =>
    have hinv := Verify.run_inv hrun
    show s.observations ++ s.call.toList.flatMap _ = _
    rw [Verify.run_observed rfl hrun, calls_observed]
    · rfl
    · intro call hcall
      exact (hinv.call call (Option.mem_toList.1 hcall)).2.2.2
  | batching body s own hgate he hbody hrun hown =>
    have hinv := BatchDecisions.run_inv hrun
    show s.batch.observations ++ (batchCalls s).flatMap _ = _
    rw [Batch.reaches_observed rfl hinv.handler, calls_observed]
    · rfl
    · intro call hcall
      exact (mem_batchCalls hinv hcall).1

end Exchange

/-! ## The counters -/

theorem cappedLabel_eq (max : Nat) (published : List Str) (value : Str) : cappedLabel max published value =
    (CappedLabels.label otherLabel (CappedLabels.publish max published value) value,
      CappedLabels.publish max published value) := by
  unfold cappedLabel CappedLabels.publish CappedLabels.label
  by_cases hin : value ∈ published
  · rw [if_pos hin, if_pos hin, if_pos hin]
  · rw [if_neg hin, if_neg hin]
    by_cases hfull : max ≤ published.length
    · rw [if_pos hfull, if_pos hfull, if_neg hin]
    · rw [if_neg hfull, if_neg hfull, if_pos (List.mem_append_right _ List.mem_cons_self)]

/-- Whether an observation is of an allow. -/
def Observation.allowed? : Observation → Option Bool
  | .decision allowed _ => some allowed
  | .collectorFailure _ _ => none

/-- The code an observation denies with. -/
def Observation.denied? : Observation → Option Str
  | .decision false code => code
  | _ => none

/-- The collector an observation blames, and for what. -/
def Observation.blamed? : Observation → Option (Str × FailureCategory)
  | .decision _ _ => none
  | .collectorFailure collector category => some (collector, category)

/-- The counters hold the observations, each under its label. -/
structure Metrics.Holds (observations : List Observation) (m : Metrics) : Prop where
  decisions : m.decisionsTotal = observations.filterMap Observation.allowed?
  codes : CappedLabels.Settled maxDenyCodeLabels m.codes (observations.filterMap Observation.denied?)
  denials : m.denialsTotal =
    (observations.filterMap Observation.denied?).map (CappedLabels.label otherLabel m.codes)
  collectors : CappedLabels.Settled maxCollectorLabels m.collectors
    ((observations.filterMap Observation.blamed?).map Prod.fst)
  failures : m.collectorFailuresTotal =
    (observations.filterMap Observation.blamed?).map fun blamed =>
      (CappedLabels.label otherLabel m.collectors blamed.1, blamed.2)

theorem Metrics.Holds.observe {observations : List Observation} {m : Metrics} (h : m.Holds observations)
    (o : Observation) : (m.observe o).Holds (observations ++ [o]) := by
  obtain ⟨hdecisions, hcodes, hdenials, hcollectors, hfailures⟩ := h
  cases o with
  | decision allowed code =>
    cases allowed with
    | true =>
      refine ⟨?_, ?_, ?_, ?_, ?_⟩
      all_goals simp only [Metrics.observe, List.filterMap_append, Observation.allowed?, Observation.denied?,
        Observation.blamed?, List.filterMap_cons, List.filterMap_nil, List.append_nil]
      · rw [hdecisions]
      · exact hcodes
      · exact hdenials
      · exact hcollectors
      · exact hfailures
    | false =>
      cases code with
      | none =>
        refine ⟨?_, ?_, ?_, ?_, ?_⟩
        all_goals simp only [Metrics.observe, List.filterMap_append, Observation.allowed?, Observation.denied?,
          Observation.blamed?, List.filterMap_cons, List.filterMap_nil, List.append_nil]
        · rw [hdecisions]
        · exact hcodes
        · exact hdenials
        · exact hcollectors
        · exact hfailures
      | some code =>
        refine ⟨?_, ?_, ?_, ?_, ?_⟩
        all_goals simp only [Metrics.observe, cappedLabel_eq, List.filterMap_append, Observation.allowed?,
          Observation.denied?, Observation.blamed?, List.filterMap_cons, List.filterMap_nil, List.append_nil]
        · rw [hdecisions]
        · exact hcodes.publish code
        · rw [List.map_append, hdenials]
          refine congrArg (· ++ _) (List.map_congr_left ?_)
          intro v hv
          exact (hcodes.label_publish hv code).symm
        · exact hcollectors
        · exact hfailures
  | collectorFailure collector category =>
    refine ⟨?_, ?_, ?_, ?_, ?_⟩
    all_goals simp only [Metrics.observe, cappedLabel_eq, List.filterMap_append, Observation.allowed?,
      Observation.denied?, Observation.blamed?, List.filterMap_cons, List.filterMap_nil, List.append_nil]
    · exact hdecisions
    · exact hcodes
    · exact hdenials
    · rw [List.map_append]
      exact hcollectors.publish collector
    · rw [List.map_append, hfailures]
      refine congrArg (· ++ _) (List.map_congr_left ?_)
      intro blamed hblamed
      rw [hcollectors.label_publish (List.mem_map_of_mem hblamed) collector]

/-- What the counters hold after any observations. -/
theorem Metrics.after_holds (observations : List Observation) : (Metrics.after observations).Holds observations := by
  induction observations using List.reverseRecOn with
  | nil => exact ⟨rfl, CappedLabels.settled_nil, rfl, CappedLabels.settled_nil, rfl⟩
  | append_singleton observations o ih =>
    rw [Metrics.after, List.foldl_append]
    exact ih.observe o

/-! ## Any requests, counted in any order -/

/-- The code a line denies with. -/
def LogLine.denied? : LogLine → Option Str
  | .decision event =>
    match event.outcome with
    | .allow _ => none
    | .deny code _ => some code
  | .failure _ _ _ _ _ _ => none

/-- The line allows. -/
def LogLine.isAllow : LogLine → Bool
  | .decision event =>
    match event.outcome with
    | .allow _ => true
    | .deny _ _ => false
  | .failure _ _ _ _ _ _ => false

/-- The collector a failure blames, and for what. -/
def ClassifiedFailure.blamed? (failure : ClassifiedFailure) : Option (Str × FailureCategory) :=
  failure.collector?.map fun collector => (collector, failure.category)

def LogLine.blamed? : LogLine → Option (Str × FailureCategory)
  | .decision _ => none
  | .failure _ _ _ _ _ cause => cause.blamed?

def RouteLine.blamed? : RouteLine → Option (Str × FailureCategory)
  | .callerGone => none
  | .internalError _ failure => failure.blamed?

section Served

variable {Digest : Type} [DecidableEq Digest] (sha256 : List UInt8 → Digest) (app : AppConfig)

/-- A request to the app, and where it has got to. -/
structure Served where
  request : IncomingRequest
  events : List ExchangeEvent
  exchange : Exchange
  ran : Machine.run (Exchange.step app request) (Exchange.start sha256 app request) events = some exchange

/-- Some requests, and their observations in the order they reached the counters. -/
structure Counting where
  served : List (Served sha256 app)
  observations : List Observation
  reached : observations.Perm (served.flatMap fun one => one.exchange.observations)

end Served

/-- The counters say what the log says: as many allows and as many denies, each deny under its code while the
codes are few, and as many failures of a category as lines blame a collector for; under labels that are few
whatever the codes and the collectors are. -/
structure Metrics.Agrees (logs : List LogLine) (lines : List RouteLine) (m : Metrics) : Prop where
  allows : m.decisionsTotal.count true = (logs.filter LogLine.isAllow).length
  denies : m.decisionsTotal.count false = (logs.filterMap LogLine.denied?).length
  decisions : m.decisionsTotal.length = (logs.filter LogLine.isDecision).length
  denials : m.denialsTotal.length = (logs.filterMap LogLine.denied?).length
  code : (logs.filterMap LogLine.denied?).dedup.length ≤ maxDenyCodeLabels →
    ∀ code, m.denialsTotal.count code = (logs.filterMap LogLine.denied?).count code
  codeLabels : m.denialsTotal.dedup.length ≤ maxDenyCodeLabels + 1
  category : ∀ category, (m.collectorFailuresTotal.map Prod.snd).count category =
    ((lines.filterMap RouteLine.blamed? ++ logs.filterMap LogLine.blamed?).map Prod.snd).count category
  collector : ((lines.filterMap RouteLine.blamed? ++ logs.filterMap LogLine.blamed?).map Prod.fst).dedup.length ≤
      maxCollectorLabels →
    ∀ blamed, m.collectorFailuresTotal.count blamed =
      (lines.filterMap RouteLine.blamed? ++ logs.filterMap LogLine.blamed?).count blamed
  collectorLabels : (m.collectorFailuresTotal.map Prod.fst).dedup.length ≤ maxCollectorLabels + 1

theorem ClassifiedFailure.filterMap_observed (failure : ClassifiedFailure) :
    failure.observed.filterMap Observation.allowed? = [] ∧ failure.observed.filterMap Observation.denied? = [] ∧
      failure.observed.filterMap Observation.blamed? = failure.blamed?.toList := by
  unfold ClassifiedFailure.observed ClassifiedFailure.blamed?
  cases failure.collector? with
  | none => exact ⟨rfl, rfl, rfl⟩
  | some collector => exact ⟨rfl, rfl, rfl⟩

/-- What a list of lines is counted as, read off line by line. -/
theorem filterMap_observed {α β : Type} {observed : α → List Observation} {p : Observation → Option β} {q : α → Option β}
    (h : ∀ line, (observed line).filterMap p = (q line).toList) (lines : List α) :
    (lines.flatMap observed).filterMap p = lines.filterMap q := by
  rw [List.filterMap_flatMap, List.filterMap_eq_flatMap_toList]
  exact List.flatMap_congr fun line _ => h line

theorem LogLine.observed_denied (line : LogLine) :
    line.observed.filterMap Observation.denied? = line.denied?.toList := by
  cases line with
  | decision event =>
    obtain ⟨requestId, sub, resource, action, outcome, evaluations⟩ := event
    cases outcome with
    | allow satisfiedBy => rfl
    | deny code deniedBy => rfl
  | failure code err resource action requestId cause => exact cause.filterMap_observed.2.1

theorem LogLine.observed_blamed (line : LogLine) :
    line.observed.filterMap Observation.blamed? = line.blamed?.toList := by
  cases line with
  | decision event =>
    obtain ⟨requestId, sub, resource, action, outcome, evaluations⟩ := event
    cases outcome with
    | allow satisfiedBy => rfl
    | deny code deniedBy => rfl
  | failure code err resource action requestId cause => exact cause.filterMap_observed.2.2

theorem RouteLine.observed_blamed (line : RouteLine) :
    line.observed.filterMap Observation.blamed? = line.blamed?.toList := by
  cases line with
  | callerGone => rfl
  | internalError err failure => exact failure.filterMap_observed.2.2

/-- A line of the route's own reports no decision. -/
theorem RouteLine.observed_undecided (line : RouteLine) :
    line.observed.filterMap Observation.allowed? = (none : Option Bool).toList ∧
      line.observed.filterMap Observation.denied? = (none : Option Str).toList := by
  cases line with
  | callerGone => exact ⟨rfl, rfl⟩
  | internalError err failure => exact ⟨failure.filterMap_observed.1, failure.filterMap_observed.2.1⟩

/-- Whether a line is of an allow, where it is of a decision. -/
def LogLine.allowed? (line : LogLine) : Option Bool := if line.isDecision then some line.isAllow else none

theorem LogLine.observed_allowed (line : LogLine) :
    line.observed.filterMap Observation.allowed? = line.allowed?.toList := by
  cases line with
  | decision event =>
    obtain ⟨requestId, sub, resource, action, outcome, evaluations⟩ := event
    cases outcome with
    | allow satisfiedBy => rfl
    | deny code deniedBy => rfl
  | failure code err resource action requestId cause => exact cause.filterMap_observed.1

/-- Every decision's line allows, or denies with a code. -/
theorem count_allowed (logs : List LogLine) :
    (logs.filterMap LogLine.allowed?).count true = (logs.filter LogLine.isAllow).length ∧
      (logs.filterMap LogLine.allowed?).count false = (logs.filterMap LogLine.denied?).length ∧
      (logs.filterMap LogLine.allowed?).length = (logs.filter LogLine.isDecision).length := by
  induction logs with
  | nil => exact ⟨rfl, rfl, rfl⟩
  | cons line logs ih =>
    obtain ⟨hallows, hdenies, hall⟩ := ih
    cases line with
    | decision event =>
      obtain ⟨requestId, sub, resource, action, outcome, evaluations⟩ := event
      cases outcome with
      | allow satisfiedBy =>
        rw [List.filterMap_cons_some (f := LogLine.allowed?) (b := true) rfl,
          List.filter_cons_of_pos (p := LogLine.isAllow) rfl, List.filterMap_cons_none (f := LogLine.denied?) rfl,
          List.filter_cons_of_pos (p := LogLine.isDecision) rfl]
        exact ⟨by rw [List.count_cons_self, List.length_cons, hallows],
          by rw [List.count_cons_of_ne (by decide), hdenies], by rw [List.length_cons, List.length_cons, hall]⟩
      | deny code deniedBy =>
        have hdeny : ¬LogLine.isAllow
            (.decision ⟨requestId, sub, resource, action, .deny code deniedBy, evaluations⟩) = true :=
          Bool.false_ne_true
        rw [List.filterMap_cons_some (f := LogLine.allowed?) (b := false) rfl, List.filter_cons_of_neg hdeny,
          List.filterMap_cons_some (f := LogLine.denied?) (b := code) rfl,
          List.filter_cons_of_pos (p := LogLine.isDecision) rfl]
        exact ⟨by rw [List.count_cons_of_ne (by decide), hallows],
          by rw [List.count_cons_self, List.length_cons, hdenies], by rw [List.length_cons, List.length_cons, hall]⟩
    | failure code err resource action requestId cause =>
      have hallow : ¬LogLine.isAllow (.failure code err resource action requestId cause) = true := Bool.false_ne_true
      have hdecision : ¬LogLine.isDecision (.failure code err resource action requestId cause) = true :=
        Bool.false_ne_true
      rw [List.filterMap_cons_none (f := LogLine.allowed?) rfl, List.filter_cons_of_neg hallow,
        List.filterMap_cons_none (f := LogLine.denied?) rfl, List.filter_cons_of_neg hdecision]
      exact ⟨hallows, hdenies, hall⟩

section Served

variable {Digest : Type} [DecidableEq Digest] {sha256 : List UInt8 → Digest} {app : AppConfig}

/-- The lines the decisions of some requests wrote. -/
def logsOf (served : List (Served sha256 app)) : List LogLine := served.flatMap fun one => one.exchange.logs

/-- The lines the route wrote of them. -/
def linesOf (served : List (Served sha256 app)) : List RouteLine := served.flatMap fun one => one.exchange.lines

/-- What reached the counters is what the lines are counted as, in some order. -/
theorem Counting.observed (counting : Counting sha256 app.measured) :
    counting.observations.Perm ((linesOf counting.served).flatMap RouteLine.observed ++
      (logsOf counting.served).flatMap LogLine.observed) := by
  refine counting.reached.trans ?_
  have heach : (counting.served.flatMap fun one => one.exchange.observations) =
      counting.served.flatMap fun one =>
        one.exchange.lines.flatMap RouteLine.observed ++ one.exchange.logs.flatMap LogLine.observed :=
    List.flatMap_congr fun one _ => (Exchange.run_reached one.ran).observed
  rw [heach, linesOf, logsOf, List.flatMap_assoc, List.flatMap_assoc]
  exact (List.flatMap_append_perm _ _ _).symm

theorem Counting.denied (counting : Counting sha256 app.measured) :
    (counting.observations.filterMap Observation.denied?).Perm ((logsOf counting.served).filterMap LogLine.denied?) := by
  have hperm := counting.observed.filterMap Observation.denied?
  rw [List.filterMap_append, filterMap_observed fun line => (RouteLine.observed_undecided line).2,
    filterMap_observed LogLine.observed_denied, List.filterMap_none, List.nil_append] at hperm
  exact hperm

theorem Counting.allowed (counting : Counting sha256 app.measured) :
    (counting.observations.filterMap Observation.allowed?).Perm ((logsOf counting.served).filterMap LogLine.allowed?) := by
  have hperm := counting.observed.filterMap Observation.allowed?
  rw [List.filterMap_append, filterMap_observed fun line => (RouteLine.observed_undecided line).1,
    filterMap_observed LogLine.observed_allowed, List.filterMap_none, List.nil_append] at hperm
  exact hperm

theorem Counting.blamed (counting : Counting sha256 app.measured) :
    (counting.observations.filterMap Observation.blamed?).Perm
      ((linesOf counting.served).filterMap RouteLine.blamed? ++ (logsOf counting.served).filterMap LogLine.blamed?) := by
  have hperm := counting.observed.filterMap Observation.blamed?
  rw [List.filterMap_append, filterMap_observed RouteLine.observed_blamed,
    filterMap_observed LogLine.observed_blamed] at hperm
  exact hperm

/-- However many requests there were, and in whatever order they were counted, the counters say what the log
says, under few labels. -/
theorem counters_agree_with_log (counting : Counting sha256 app.measured) :
    (Metrics.after counting.observations).Agrees (logsOf counting.served) (linesOf counting.served) := by
  obtain ⟨hdecisions, hcodes, hdenials, hcollectors, hfailures⟩ := Metrics.after_holds counting.observations
  obtain ⟨hallows, hdenies, hall⟩ := count_allowed (logsOf counting.served)
  have hdenied := counting.denied
  have hallowed := counting.allowed
  have hblamed := counting.blamed
  refine ⟨?_, ?_, ?_, ?_, ?_, ?_, ?_, ?_, ?_⟩
  · rw [hdecisions, hallowed.count_eq, hallows]
  · rw [hdecisions, hallowed.count_eq, hdenies]
  · rw [hdecisions, hallowed.length_eq, hall]
  · rw [hdenials, List.length_map, hdenied.length_eq]
  · intro hfew code
    have hown : (counting.observations.filterMap Observation.denied?).map
        (CappedLabels.label otherLabel (Metrics.after counting.observations).codes) =
          counting.observations.filterMap Observation.denied? := by
      refine List.map_congr_left (fun v hv => ?_) |>.trans (List.map_id _)
      rw [← hdenied.dedup.length_eq] at hfew
      exact if_pos (hcodes.exact hfew hv)
    rw [hdenials, hown, hdenied.count_eq]
  · rw [hdenials]
    exact hcodes.labels_le otherLabel _
  · intro category
    rw [hfailures, List.map_map, show (Prod.snd ∘ fun blamed : Str × FailureCategory =>
      (CappedLabels.label otherLabel (Metrics.after counting.observations).collectors blamed.1, blamed.2)) = Prod.snd
        from rfl]
    exact (hblamed.map Prod.snd).count_eq category
  · intro hfew blamed
    have hown : ((counting.observations.filterMap Observation.blamed?).map fun blamed =>
        (CappedLabels.label otherLabel (Metrics.after counting.observations).collectors blamed.1, blamed.2)) =
          counting.observations.filterMap Observation.blamed? := by
      refine List.map_congr_left (fun v hv => ?_) |>.trans (List.map_id _)
      rw [← (hblamed.map Prod.fst).dedup.length_eq] at hfew
      exact Prod.ext (if_pos (hcollectors.exact hfew (List.mem_map_of_mem hv))) rfl
    rw [hfailures, hown, hblamed.count_eq]
  · rw [hfailures, List.map_map, show (Prod.fst ∘ fun blamed : Str × FailureCategory =>
      (CappedLabels.label otherLabel (Metrics.after counting.observations).collectors blamed.1, blamed.2)) =
        CappedLabels.label otherLabel (Metrics.after counting.observations).collectors ∘ Prod.fst
        from rfl, ← List.map_map]
    exact hcollectors.labels_le otherLabel _

end Served

/-- One request that ended with an allow, and one still at the gate. -/
theorem counters_agree_with_log_allowed : ∃ counting : Counting id gatedApp.measured,
    counting.served.map (fun one => one.events.length) = [allowedRun.length, 0] ∧
    (logsOf counting.served).filter LogLine.isAllow ≠ [] ∧
    (Metrics.after counting.observations).Agrees (logsOf counting.served) (linesOf counting.served) := by
  obtain ⟨x, -, -, hx, -⟩ := allowedRun_replies
  have hlogged : (allowedEnd.map fun x => (x.logs.filter LogLine.isAllow).length) = some 1 := by decide +kernel
  rw [allowedEnd, hx] at hlogged
  let counting : Counting id gatedApp.measured :=
    { served :=
        [{ request := knownCaller, events := allowedRun, exchange := x, ran := hx },
          { request := knownCaller, events := [], exchange := _, ran := rfl }]
      observations := _
      reached := List.Perm.refl _ }
  refine ⟨counting, rfl, fun hnil => ?_, counters_agree_with_log counting⟩
  have hone : (x.logs ++ _).filter LogLine.isAllow = [] := hnil
  rw [List.filter_append, List.append_eq_nil_iff] at hone
  rw [Option.map_some, hone.1] at hlogged
  exact absurd hlogged (by simp)

end PolicyVerifier.Server
