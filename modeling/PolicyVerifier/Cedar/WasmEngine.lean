import PolicyVerifier.Cedar.PolicySource
import PolicyVerifier.Js.Strings

/-!
# The in-process engine

How the engine that evaluates in process splits the files of a set and names their policies. Cedar's own
parser is a parameter: what it makes of a file's text, its parts sorted by their positional ids.
-/

namespace PolicyVerifier.Cedar

open Js

/-- What `policySetTextToParts` makes of a text: the messages of its errors, or its policies and its
templates. -/
inductive PolicySetParts where
  | failure (errors : List Str)
  | success (policies policyTemplates : List Str)

/-- The id Cedar gives a policy at a position of its file. -/
def positionalId (position : Nat) : Str := js "policy" ++ decimal position

/-- `Number(id.slice("policy".length))`, of a positional id. -/
def positionOf (id : Str) : Nat := (id.drop 6).foldl (fun n c => n * 10 + (c.toNat - 0x30)) 0

/-- The parts of a file, each put back where its positional id stands. A place that is not written to is a
hole. -/
def inFileOrder (policies : List Str) : List (Option Str) :=
  let sorted := sort ((List.range policies.length).map positionalId)
  (sorted.zip policies).foldl (fun slots part => slots.set (positionOf part.1) (some part.2))
    (List.replicate policies.length none)

section

variable (policySetTextToParts : Str → PolicySetParts)

/-- `policiesOf`: the policies of one file, as text, in the file's order. -/
def policiesOf (file : PolicyFile) : Except Str (List Str) :=
  match policySetTextToParts file.text with
  | .failure errors => .error (file.source ++ js " failed to parse: " ++ join (js "; ") errors)
  | .success policies policyTemplates =>
    if policyTemplates ≠ [] then
      .error (file.source ++
        js " holds a template — a policy with ?principal or ?resource never applies here, because nothing links it")
    -- every place is written to, so what a hole reads as does not show
    else .ok ((inFileOrder policies).map fun text => text.getD [])

/-- The policies `load` compiles, each under its id. -/
def wasmPolicies (files : List PolicyFile) : Except Str (List NamedPolicy) :=
  namePoliciesSplit files (policiesOf policySetTextToParts)

end

/-- A dozen parts, sorted by their ids as strings, are in the order of their file again. -/
example : inFileOrder ([0, 1, 10, 11, 2, 3, 4, 5, 6, 7, 8, 9].map decimal) =
    (List.range 12).map fun n => some (decimal n) := by decide

end PolicyVerifier.Cedar
