import PolicyVerifier.Cedar.Mapping
import PolicyVerifier.Cedar.WasmEngine

/-!
# What a Cedar evaluator is

Both engines rest on an evaluator that is not theirs: bindings in process, or an agent out of process. What they
rely on is stated here once. The ids of a set are names: an evaluation under other names comes to the same, under
those names.
-/

namespace PolicyVerifier.Cedar

open Js

/-- What an evaluation comes to: its decision, the ids of the policies that determined it, and the id and the
message of each error. -/
structure CedarResponse where
  allow : Bool
  reason : List Str
  errors : List (Str × Str)

/-- The same response, under other ids. Neither list is in an order that means anything. -/
structure CedarResponse.Renamed (f : Str → Str) (r r' : CedarResponse) : Prop where
  allow : r'.allow = r.allow
  reason : r'.reason.Perm (r.reason.map f)
  errors : (r'.errors.map Prod.fst).Perm ((r.errors.map Prod.fst).map f)

/-- Policies, each under its id. -/
abbrev Policies (Policy : Type) := List (Str × Policy)

/-- The ids of a set. -/
def Policies.ids {Policy : Type} (policies : Policies Policy) : List Str := policies.map Prod.fst

/-- A set under other ids. -/
def Policies.rename {Policy : Type} (f : Str → Str) (policies : Policies Policy) : Policies Policy :=
  policies.map fun policy => (f policy.1, policy.2)

/-- A Cedar evaluator: how it splits the text of a file, how it reads the text of one policy, and what it answers
a request over a set. -/
structure CedarEvaluator (Policy : Type) where
  parts : Str → PolicySetParts
  parse : Str → Except (List Str) Policy
  authorize : Policies Policy → CedarRequest → Except (List Str) CedarResponse
  /-- A text that is read as a policy is split into that one policy. -/
  single : ∀ text policy, parse text = .ok policy → ∃ part, parts text = .success [part] [] ∧ parse part = .ok policy
  /-- White space holds no policy. -/
  blank : ∀ text, (∀ c ∈ text, isWhiteSpace c = true) → ∀ policies templates, parts text = .success policies templates →
    policies = []
  /-- A response names policies of the set it was evaluated over. -/
  reason_mem : ∀ policies request response, authorize policies request = .ok response →
    ∀ id ∈ response.reason, id ∈ policies.ids
  /-- Cedar allows only on a permit. -/
  allow_named : ∀ policies request response, authorize policies request = .ok response →
    response.allow = true → response.reason ≠ []
  /-- The ids are names. -/
  renamed : ∀ f policies request response, Set.InjOn f {id | id ∈ policies.ids} →
    authorize policies request = .ok response →
    ∃ response', authorize (policies.rename f) request = .ok response' ∧ response.Renamed f response'
  /-- And what cannot be evaluated cannot be under other names either. -/
  fails_renamed : ∀ f policies request errors, Set.InjOn f {id | id ∈ policies.ids} →
    authorize policies request = .error errors → ∃ errors', authorize (policies.rename f) request = .error errors'

namespace CedarEvaluator

variable {Policy : Type} (cedar : CedarEvaluator Policy)

/-- Every text of a set, read as a policy. -/
def compile (texts : List (Str × Str)) : Except (List Str) (Policies Policy) :=
  texts.mapM fun entry => (cedar.parse entry.2).map fun policy => (entry.1, policy)

end CedarEvaluator

end PolicyVerifier.Cedar
