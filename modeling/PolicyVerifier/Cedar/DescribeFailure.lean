import Mathlib.Control.Traversable.Instances
import PolicyVerifier.Js.Strings
import PolicyVerifier.Js.Text

/-!
# A failure as one line

What `fetch` rejected with, its causes included, as the messages of the engine quote it. Anything may
have been thrown, so every read of it may throw in turn; describing it never does.
-/

namespace PolicyVerifier.Cedar

open Js

/-- What reading a thrown value comes to, read by read; a read that throws gives nothing. -/
structure FailureReads (F : Type) where
  /-- `failure instanceof Error`. -/
  isError : F → Option Bool
  /-- `String(failure)`. -/
  string : F → Option Str
  /-- `failure.message`; one that is no string throws where its white space is collapsed. -/
  message : F → Option Str
  /-- `failure instanceof AggregateError`. -/
  isAggregateError : F → Option Bool
  /-- `failure.errors` by index, where it is an array; else none. -/
  errors : F → Option (List (Option F))
  /-- `failure.code`, where it is a string. -/
  code : F → Option (Option Str)
  /-- `failure.cause`; none where it is `undefined` or `null`. -/
  cause : F → Option (Option F)

/-- How many links of a `cause` chain a message follows. -/
def failureDepth : Nat := 4

/-- How long one link may run. -/
def failureLinkMax : Nat := 200

/-- A link that could not be read. -/
def undescribable : Str := js "a failure that could not be described"

/-- Every run of white space as one space; `inRun` is whether the text before ended in one. -/
def spaced (inRun : Bool) : Str → Str
  | [] => []
  | c :: text =>
    if isWhiteSpace c then (if inRun then spaced true text else 0x20 :: spaced true text)
    else c :: spaced false text

/-- `text.replace(/\s+/g, " ").trim()`. -/
def collapse (text : Str) : Str := trim (spaced false text)

/-- A text, cut where it is too long. -/
def clip (text : Str) : Str :=
  if failureLinkMax < text.length then text.take (failureLinkMax - 1) ++ js "…" else text

section Describe

variable {F : Type} [DecidableEq F] (reads : FailureReads F)

/-- A read that is out, with the values that were seen before it. -/
abbrev Describing (F : Type) := OptionT (StateM (List F))

/-- What a read comes to, while the seen values stay as they are. -/
def readOff {α : Type} (read : Option α) : Describing F α := OptionT.mk (pure read)

/-- Adds a value to the seen ones; whether it was not one of them. -/
def see (failure : F) : StateM (List F) Bool := do
  let seen ← get
  if failure ∈ seen then pure false
  else do
    set (failure :: seen)
    pure true

/-- The link's own text, with its code in front of it where it does not hold it already. -/
def withCode (text : Str) (code : Option Str) : Str :=
  match code with
  | some code =>
    if 0 < code.length ∧ (indexOf code text).isSome = false then
      if 0 < text.length then code ++ js ": " ++ text else code
    else text
  | none => text

/-- The errors of an `AggregateError`, each that says something and was not seen before. -/
def describeErrors (describe : F → StateM (List F) Str) : List (Option F) → Describing F (List Str)
  | [] => pure []
  | error :: errors => do
    let error ← readOff error
    let isNew ← OptionT.lift (see error)
    let part ← if isNew then OptionT.lift (describe error) else pure []
    let parts ← describeErrors describe errors
    pure (if 0 < part.length then part :: parts else parts)

/-- `describeLink`; `nested` counts how deep errors of errors are still described. -/
def describeLink (nested : Nat) (failure : F) : StateM (List F) Str := do
  let described ← OptionT.run do
    let isError ← readOff (reads.isError failure)
    if !isError then
      let text ← readOff (reads.string failure)
      pure (clip (collapse text))
    else
      let message ← readOff (reads.message failure)
      let mut text := collapse message
      if text.length = 0 then
        let isAggregate ← readOff (reads.isAggregateError failure)
        match nested with
        | nested + 1 =>
          if isAggregate then
            let errors ← readOff (reads.errors failure)
            let parts ← describeErrors (describeLink nested) (errors.take failureDepth)
            text := join (js "; ") parts
        | 0 => pure ()
      let code ← readOff (reads.code failure)
      pure (clip (withCode text code))
  pure (described.getD undescribable)

/-- `failure.cause`, where it is an error whose cause can be read. -/
def causeOf (failure : F) : Option F :=
  if reads.isError failure = some true then (reads.cause failure).getD none else none

/-- The links of a failure that say something; `visits` counts how many are still followed. -/
def describeLinks (visits : Nat) (link : Option F) : StateM (List F) (List Str) :=
  match visits, link with
  | visits + 1, some link => do
    let isNew ← see link
    if isNew then
      let text ← describeLink reads (failureDepth - 1) link
      let links ← describeLinks visits (causeOf reads link)
      pure (if 0 < text.length then text :: links else links)
    else pure []
  | _, _ => pure []

/-- A failure as one line; none is one that is `undefined` or `null`. -/
def describeFailure (failure : Option F) : Str :=
  let links := join (js ": ") ((describeLinks reads failureDepth failure).run' [])
  if links = [] then js "no description" else links

end Describe

end PolicyVerifier.Cedar
