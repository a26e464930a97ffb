import PolicyVerifier.Core.CollectorLimits

/-!
# The two pipelines

What each pipeline makes of the list its fan-out resolved with: one attribute map out of many, one
rule list out of many.
-/

namespace PolicyVerifier.Core

open Js

/-- A pipeline as its constructor leaves it: the fan-out over its collectors under limits that were
resolved, so that at least one collector may be in flight. -/
structure Pipeline (kind : CollectorPipeline) (α : Type) where
  fanOut : FanOutConfig α
  kind_eq : fanOut.pipeline = kind
  positive : 0 < fanOut.limits.concurrency

/-- A whole number that `positive` accepts is one. -/
theorem positive_pos {value : Option Number} {fallback n : Nat} {field : Str}
    (hf : 0 < fallback) (h : positive value fallback field = .ok n) : 0 < n := by
  cases value with
  | none => exact (Except.ok.inj h) ▸ hf
  | some x =>
    rw [positive] at h
    split at h
    · split at h
      · exact absurd h (by simp)
      · have := Except.ok.inj h
        omega
    · exact absurd h (by simp)

/-- The limits a pipeline runs under let it run. -/
theorem resolveCollectorLimits_positive {limits : CollectorLimits} {resolved : ResolvedCollectorLimits}
    (h : resolveCollectorLimits limits = .ok resolved) : 0 < resolved.concurrency := by
  simp only [resolveCollectorLimits, bind, Except.bind] at h
  split at h
  · exact absurd h (by simp)
  · split at h
    · exact absurd h (by simp)
    · split at h
      · exact absurd h (by simp)
      · rename_i n hn
        obtain rfl := Except.ok.inj h
        exact positive_pos (by decide) hn

/-- The constructor of a pipeline: refuses limits it could not run under. -/
def Pipeline.new {α : Type} (kind : CollectorPipeline) (count : Nat) (className : Nat → Value)
    (atOnce : Nat → Option (Except Thrown α)) (limits : CollectorLimits) :
    Except Thrown (Pipeline kind α) :=
  match h : resolveCollectorLimits limits with
  | .error e => .error e
  | .ok resolved =>
    .ok { fanOut := { pipeline := kind, count, className, atOnce, limits := resolved }
          kind_eq := rfl
          positive := resolveCollectorLimits_positive h }

/-! ## The attribute map -/

/-- The merge under way: the values written so far, and for each key the arrays written since its
last value that is not one. -/
structure Merging where
  merged : Attributes := ∅
  fragments : OrderedMap Str (List (List Value)) := ∅

/-- One entry of one map. A key that holds two different values is refused; arrays are kept aside. -/
def mergeEntry (m : Merging) (entry : Str × Value) : Except Thrown Merging :=
  let (key, value) := entry
  match value.items? with
  | some items =>
    let parts := (m.fragments.get? key).getD []
    .ok { m with fragments := m.fragments.set key (parts ++ [items]) }
  | none =>
    match m.merged.get? key with
    | some written =>
      if written.is value then
        .ok { merged := m.merged.set key value, fragments := m.fragments.erase key }
      else .error (.attributeConflict .merge key)
    | none => .ok { merged := m.merged.set key value, fragments := m.fragments.erase key }

/-- `merge`: the entries of every map in turn, then the arrays left aside, each key's in one. -/
def merge (maps : List Attributes) : Except Thrown Attributes := do
  let m ← (maps.flatMap OrderedMap.entries).foldlM mergeEntry {}
  .ok (m.fragments.entries.foldl (fun merged e => merged.set e.1 (Value.list e.2.flatten)) m.merged)

/-- `AttributePipeline.collect`, once its fan-out has settled. A hole in the list is not a map. -/
def collectAttributes (settled : Except Thrown (List (Option Attributes))) : Except Thrown Attributes :=
  match settled with
  | .error e => .error e
  | .ok results =>
    match results.mapM id with
    | some maps => merge maps
    | none => .error (.typeError (js "undefined is not iterable"))

/-! ## The rule list -/

/-- `RulePipeline.collect`, once its fan-out has settled: `flat` passes over a hole. -/
def collectRules (settled : Except Thrown (List (Option (List AnyRule)))) :
    Except Thrown (List AnyRule) :=
  match settled with
  | .error e => .error e
  | .ok results => .ok (results.filterMap id).flatten

end PolicyVerifier.Core
