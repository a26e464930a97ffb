import PolicyVerifier.Cedar.Evaluator
import PolicyVerifier.Cedar.HttpEngine

/-!
# Loading a policy set in process

The engine's module keeps one counter, and the bindings keep every set that was compiled under the id the counter
gave it. An answer is looked up by that id.
-/

namespace PolicyVerifier.Cedar

open Js PolicyVerifier.Core

/-- What the module of the engine shares between its loads: the counter, and the memory of the bindings. -/
structure WasmModule (Policy : Type) where
  policySetCounter : Nat := 0
  preparsed : OrderedMap Str (Policies Policy) := ∅

/-- A set as it is loaded. -/
structure WasmPolicySet where
  policySetId : Str
  revision : Str
deriving DecidableEq

section

variable {Policy : Type} (cedar : CedarEvaluator Policy) {sha256 : Str → Digest}

/-- The id the set of one load is compiled under. -/
def policySetIdOf (counter : Nat) : Str := js "auth.policy-verifier.cedar-wasm:" ++ decimal counter

/-- The policies of a set, each under its id, as they are compiled. -/
def staticPolicies (policies : List NamedPolicy) : List (Str × Str) :=
  policies.map fun policy => (policy.id, policy.text)

/-- An answer as the object the rule is handed. -/
def wasmDecision (response : CedarResponse) (revision : Str) : Value :=
  .obj 0
    [(js "decision", .str (if response.allow then js "allow" else js "deny")),
      (js "reason", .strings response.reason),
      (js "errors", .strings (response.errors.map fun error => error.1 ++ js ": " ++ error.2)),
      (js "revision", .str revision)]

/-- What an evaluation comes to, as the object the rule is handed or as what is thrown. -/
def wasmAnswer (revision : Str) : Except (List Str) CedarResponse → Except Thrown Value
  | .ok response => .ok (wasmDecision response revision)
  | .error errors => cedarEngineError (js "cedar-wasm could not evaluate the request: " ++ join (js "; ") errors)

namespace WasmModule

/-- `load`. The counter goes on before the set is compiled. -/
def load (m : WasmModule Policy) (source : PolicySource sha256) : WasmModule Policy × Except Str WasmPolicySet :=
  match wasmPolicies cedar.parts source.files with
  | .error message => (m, .error message)
  | .ok policies =>
    let policySetId := policySetIdOf m.policySetCounter
    let m := { m with policySetCounter := m.policySetCounter + 1 }
    match cedar.compile (staticPolicies policies) with
    | .error errors =>
      (m, .error (js "policy set from " ++ source.description ++ js " failed to compile: " ++ join (js "; ") errors))
    | .ok compiled =>
      ({ m with preparsed := m.preparsed.set policySetId compiled }, .ok { policySetId, revision := source.revision })

/-- `isAuthorized`, of a set that was loaded. -/
def isAuthorized (m : WasmModule Policy) (set : WasmPolicySet) (request : CedarRequest) : Except Thrown Value :=
  wasmAnswer set.revision
    (match m.preparsed.get? set.policySetId with
      | some policies => cedar.authorize policies request
      | none => .error [js "preparsed policy set not found"])

end WasmModule

/-- `cedarWasmEngine`, with the module as it is when a collector is created. What it loads comes with the module
as it is then. -/
def cedarWasmEngine (m : WasmModule Policy) : CedarEngine sha256 (WasmModule Policy × WasmPolicySet) :=
  { name := js "wasm", async := false, confirmsRevision := true
    load := fun source => (m.load cedar source).2.map fun set => ((m.load cedar source).1, set)
    setAsync := fun _ => false }

/-- The module after loads one after another, by any collectors. A call changes nothing. -/
def WasmModule.loads (m : WasmModule Policy) (sources : List (PolicySource sha256)) : WasmModule Policy :=
  sources.foldl (fun m source => (m.load cedar source).1) m

end

end PolicyVerifier.Cedar
