import PolicyVerifier.Server.App

/-!
# The counters

What `createMetrics` hands to the app, and what each observation adds to the series. A counter is the list of
the labels it was incremented under: a series is a label, and its value how often the label is in the list.
Durations are measured outside the model.
-/

namespace PolicyVerifier.Server

open Js PolicyVerifier.Core

/-- `MAX_DENY_CODE_LABELS`. -/
def maxDenyCodeLabels : Nat := 32

/-- `MAX_COLLECTOR_LABELS`. -/
def maxCollectorLabels : Nat := 32

/-- What everything past the cap is published as. -/
def otherLabel : Str := js "other"

/-- `cappedLabel`: the label of a value, and what is published after it. -/
def cappedLabel (max : Nat) (published : List Str) (value : Str) : Str × List Str :=
  if value ∈ published then (value, published)
  else if max ≤ published.length then (otherLabel, published)
  else (value, published ++ [value])

/-- The state of the counters. -/
structure Metrics where
  codes : List Str := []
  collectors : List Str := []
  decisionsTotal : List Bool := []
  denialsTotal : List Str := []
  collectorFailuresTotal : List (Str × FailureCategory) := []

namespace Metrics

/-- The seam `createMetrics` hands out. -/
def decisions : DecisionMetrics := { observesCollectorFailures := true }

/-- `observe` and `observeCollectorFailure`. -/
def observe (m : Metrics) : Observation → Metrics
  | .decision true _ => { m with decisionsTotal := m.decisionsTotal ++ [true] }
  | .decision false none => { m with decisionsTotal := m.decisionsTotal ++ [false] }
  | .decision false (some code) =>
    let (label, codes) := cappedLabel maxDenyCodeLabels m.codes code
    { m with
      decisionsTotal := m.decisionsTotal ++ [false]
      denialsTotal := m.denialsTotal ++ [label]
      codes }
  | .collectorFailure collector category =>
    let (label, collectors) := cappedLabel maxCollectorLabels m.collectors collector
    { m with
      collectorFailuresTotal := m.collectorFailuresTotal ++ [(label, category)]
      collectors }

/-- The counters after some observations. -/
def after (observations : List Observation) : Metrics := observations.foldl observe {}

end Metrics

/-- The app counts its decisions. -/
def AppConfig.measured (app : AppConfig) : AppConfig :=
  { app with router := { app.router with metrics := some Metrics.decisions } }

/-- What a request had counted so far: by its handler, and by each of its decisions. -/
def Exchange.observations (x : Exchange) : List Observation :=
  (match x with
    | .bodyRefused _ _ observations => observations
    | .verifying _ s => s.observations
    | .batching _ s => s.batch.observations
    | _ => []) ++ x.calls.flatMap fun call => call.deciding.observations

end PolicyVerifier.Server
