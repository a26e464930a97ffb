import PolicyVerifier.Cedar.HttpEngine
import PolicyVerifier.Js.Json
import PolicyVerifier.Js.Strings

/-!
# The registry of engines

`registerCedarEngine` and `resolveCedarEngine` over the one map that every copy of the package shares. An engine is
an object of which the registry reads `name` and `load`; two are the same where they are the same object.
-/

namespace PolicyVerifier.Cedar

open Js

/-- What the registry holds: engines by name, in the order they were registered. -/
abbrev Engines (E : Type) := OrderedMap Str E

/-- `PREFERENCE`. -/
def preference : List Str := [js "wasm", js "http"]

/-- `ENGINE_PACKAGES`. -/
def enginePackages : OrderedMap Str Str :=
  OrderedMap.ofList [(js "wasm", js "@o3co/auth.policy-verifier.cedar-wasm")]

section Registration

variable {E : Type} [DecidableEq E] (name : E → Value) (loads : E → Bool)

/-- `registerCedarEngine`: refuses what is no engine, and another object under a taken name. -/
def registerCedarEngine (engines : Engines E) (engine : E) : Except Str (Engines E) :=
  match name engine with
  | .str n =>
    if n = [] then .error (js "registerCedarEngine: an engine needs a non-empty name")
    else if loads engine = false then
      .error (js "registerCedarEngine: engine \"" ++ n ++ js "\" needs a load function")
    else
      match engines.get? n with
      | some existing =>
        if existing = engine then .ok engines
        else .error (js "registerCedarEngine: a different engine is already registered as \"" ++ n ++ js "\"")
      | none => .ok (engines.set n engine)
  | _ => .error (js "registerCedarEngine: an engine needs a non-empty name")

/-- What happens to the slot of the process: a copy of the package is loaded, or one that is registers an engine. -/
inductive EngineEvent (E : Type) where
  | loaded
  | register (engine : E)

/-- One of them. The first copy puts the map there; a call that throws leaves it as it is. -/
def engineStep (slot : Option (Engines E)) : EngineEvent E → Option (Option (Engines E))
  | .loaded => some (some (slot.getD ∅))
  | .register engine =>
    slot.map fun engines => some ((registerCedarEngine name loads engines engine).toOption.getD engines)

end Registration

section Selection

variable {E : Type} (numeral : ℚ → List Json.NumeralChar)

/-- `registeredHint`. -/
def registeredHint (engines : Engines E) : Str :=
  if engines.keys = [] then js " (none registered)"
  else js " (registered: " ++ join (js ", ") engines.keys ++ js ")"

/-- `ENGINE_PACKAGES[name]`. A name that is not its own may be one of `Object.prototype`'s, of which `inherited` is
the text. -/
def enginePackage? (inherited : Str → Option Str) (name : Str) : Option Str :=
  (enginePackages.get? name).or (inherited name)

/-- `resolveCedarEngine`. -/
def resolveCedarEngine (inherited : Str → Option Str) (engines : Engines E) : Value → Except Str E
  | .undefined =>
    match preference.findSome? engines.get? with
    | some engine => .ok engine
    | none =>
      if engines.keys ≠ [] then
        .error (js "none of the engines chosen by default (" ++ join (js ", ") preference ++
          js ") is registered — set engine to one of the registered ones" ++ registeredHint engines)
      else
        .error (js "no Cedar engine is registered — import \"@o3co/auth.policy-verifier.cedar-wasm\" to evaluate in-process, or import a package that registers another engine (registerCedarEngine) and name it as engine" ++
          registeredHint engines)
  | .str name =>
    if name = [] then
      .error (js "engine must be a non-empty string, got " ++ Json.text numeral (.str name))
    else
      match engines.get? name with
      | some engine => .ok engine
      | none =>
        match enginePackage? inherited name with
        | some package =>
          .error (js "engine \"" ++ name ++ js "\" is not registered — import \"" ++ package ++
            js "\", which registers it, before the app is built" ++ registeredHint engines)
        | none => .error (js "engine \"" ++ name ++ js "\" is not a registered Cedar engine" ++ registeredHint engines)
  | value => .error (js "engine must be a non-empty string, got " ++ Json.text numeral value)

/-- `selectEngine`: the collector's config error. -/
def selectEngine (inherited : Str → Option Str) (engines : Engines E) (named : Value) : Except Str E :=
  (resolveCedarEngine numeral inherited engines named).mapError fun message =>
    js "CedarPolicyRuleCollector: " ++ message

/-- `CedarPolicyRuleCollector.create` over the engine its config selects: `engineOf` is what an engine that is
registered does. -/
def createSelected {sha256 : Str → Digest} {α : Type} (inherited : Str → Option Str) (engines : Engines E)
    (engineOf : E → CedarEngine sha256 α) (named : Value) (settings : CollectorSettings)
    (source : PolicySource sha256) : Except Str (BoundRule × α) := do
  let engine ← selectEngine numeral inherited engines named
  create (engineOf engine) settings source

end Selection

end PolicyVerifier.Cedar
