import PolicyVerifier.Server.Config.Secrets

/-!
# The HS256 rotation block

The checks a rotation block must pass before any of it becomes key material. The config is what a
caller may have built by hand, so every key of it is a value of any shape. `Date.parse` is a
parameter: the milliseconds of a timestamp, or none for `NaN`.
-/

namespace PolicyVerifier.Server

open Js

/-- How many retired secrets a config may name. -/
def maxPreviousSecrets : Nat := 3

/-- One retired secret and the window it stays a verification key for. -/
structure Hs256PreviousSecret where
  kid : Str
  secret : Str
  expiresAt : Str
deriving DecidableEq

/-- The keys of an `oauth.jwt` block a rotation is read from. -/
structure Hs256RotationConfig where
  secret : Value := .undefined
  kid : Value := .undefined
  previousSecrets : Value := .undefined
  secretEncoding : Value := .undefined

/-- One step of the path to a refused field. -/
inductive PathPart where
  | key (name : Str)
  | index (n : Nat)
deriving DecidableEq

/-- One rejected field, at the path inside the block where it was written. -/
structure Hs256RotationIssue where
  path : List PathPart
  message : Str
deriving DecidableEq

/-- The narrowed rotation config. -/
structure Hs256Rotation where
  secretEncoding : SecretEncoding
  kid : Option Str
  previousSecrets : List Hs256PreviousSecret

/-- A value that is a usable non-empty string. -/
def nonEmptyString? (v : Value) : Option Str := v.str?.filter fun s => s ≠ []

/-- `isNonEmptyString`. -/
def isNonEmptyString (v : Value) : Bool := (nonEmptyString? v).isSome

/-- `clearsEntropyFloor`: the issues a secret gives. -/
def clearsEntropyFloor (secret field : Str) (path : List PathPart) (encoding : SecretEncoding) :
    List Hs256RotationIssue :=
  let measured :=
    if encoding = .utf8 then some (measureSecretEntropyBytes secret)
    else (decodeSecret secret encoding).map List.length
  match measured with
  | none =>
    [{ path, message := field ++ js " is not " ++ encoding.name ++ js ", which secretEncoding names" }]
  | some actualBytes =>
    if minSecretEntropyBytes ≤ actualBytes then []
    else [{ path, message := describeWeakSecret field actualBytes encoding }]

/-- What a config calls an entry of `previousSecrets`. -/
def entryLabel (index : Nat) : Str := js "previousSecrets[" ++ decimal index ++ js "]"

/-- The path of an entry. -/
def entryPath (index : Nat) : List PathPart := [.key (js "previousSecrets"), .index index]

section Check

variable (dateParse : Str → Option ℚ)

/-- The issue of a field of an entry that is not a non-empty string. -/
def missingField (entry : Value) (index : Nat) (field : Str) : List Hs256RotationIssue :=
  if isNonEmptyString (entry.field field) then []
  else
    [{ path := entryPath index ++ [.key field]
       message := entryLabel index ++ js "." ++ field ++ js " must be a non-empty string" }]

/-- The issue of an entry's secret that misses the floor, where there is a reading to measure it. -/
def weakSecret (entry : Value) (index : Nat) (encoding : Option SecretEncoding) :
    List Hs256RotationIssue :=
  match encoding, nonEmptyString? (entry.field (js "secret")) with
  | some encoding, some secret =>
    clearsEntropyFloor secret (entryLabel index ++ js ".secret")
      (entryPath index ++ [.key (js "secret")]) encoding
  | _, _ => []

/-- The issue of an entry's expiry. -/
def badExpiry (entry : Value) (index : Nat) : List Hs256RotationIssue :=
  match nonEmptyString? (entry.field (js "expiresAt")) with
  | none =>
    [{ path := entryPath index ++ [.key (js "expiresAt")]
       message := entryLabel index ++ js ".expiresAt must be a non-empty ISO 8601 timestamp" }]
  | some expiresAt =>
    if (dateParse expiresAt).isSome then []
    else
      [{ path := entryPath index ++ [.key (js "expiresAt")]
         message := entryLabel index ++ js ".expiresAt is not a valid timestamp: " ++
           Json.quote expiresAt }]

/-- `checkEntry`: the issues of one entry, and the narrowed entry when there are none. -/
def checkEntry (entry : Value) (index : Nat) (encoding : Option SecretEncoding) :
    List Hs256RotationIssue × Option Hs256PreviousSecret :=
  if !entry.isObject || entry.isArray then
    ([{ path := entryPath index
        message := entryLabel index ++ js " must be an object with kid, secret and expiresAt" }], none)
  else
    let issues := missingField entry index (js "kid") ++ missingField entry index (js "secret") ++
      weakSecret entry index encoding ++ badExpiry dateParse entry index
    (issues,
      if issues = [] then
        some
          { kid := (entry.field (js "kid")).str?.getD []
            secret := (entry.field (js "secret")).str?.getD []
            expiresAt := (entry.field (js "expiresAt")).str?.getD [] }
      else none)

/-- What the loop over the entries has collected. -/
structure EntriesState where
  issues : List Hs256RotationIssue := []
  seen : List Str
  previousSecrets : List Hs256PreviousSecret := []

/-- One turn of that loop. -/
def checkNext (encoding : Option SecretEncoding) (s : EntriesState) (entry : Value × Nat) :
    EntriesState :=
  let (issues, checked) := checkEntry dateParse entry.1 entry.2 encoding
  match checked with
  | none => { s with issues := s.issues ++ issues }
  | some previous =>
    if previous.kid ∈ s.seen then
      { s with
        issues := s.issues ++ issues ++
          [{ path := entryPath entry.2 ++ [.key (js "kid")]
             message := entryLabel entry.2 ++ js ".kid duplicates another configured kid: " ++
               Json.quote previous.kid }] }
    else
      { issues := s.issues ++ issues
        seen := s.seen ++ [previous.kid]
        previousSecrets := s.previousSecrets ++ [previous] }

/-- The part of the check that reads `previousSecrets`. -/
def checkPreviousSecrets (config : Hs256RotationConfig) (encoding : Option SecretEncoding) :
    EntriesState :=
  let seen := (nonEmptyString? config.kid).toList
  match config.previousSecrets with
  | .undefined => { seen }
  | raw =>
    match raw.items? with
    | none =>
      { seen
        issues := [{ path := [.key (js "previousSecrets")]
                     message := js "previousSecrets must be an array of \x7b kid, secret, expiresAt \x7d entries, or omitted entirely when nothing is being rotated — null is not a spelling for omitted" }] }
    | some items =>
      if maxPreviousSecrets < items.length then
        { seen
          issues := [{ path := [.key (js "previousSecrets")]
                       message := js "previousSecrets accepts at most " ++ decimal maxPreviousSecrets ++
                         js " entries, got " ++ decimal items.length ++
                         js " — a token carrying no kid is tried against every configured secret, so the list length is the per-verification work bound" }] }
      else items.zipIdx.foldl (checkNext dateParse encoding) { seen }

/-- The reading the secrets are measured by, when the config names one. -/
def rotationEncoding (config : Hs256RotationConfig) : Option SecretEncoding :=
  (checkSecretEncoding config.secretEncoding).toOption

/-- The issue of a `secretEncoding` that is not a reading. -/
def encodingIssues (config : Hs256RotationConfig) : List Hs256RotationIssue :=
  match checkSecretEncoding config.secretEncoding with
  | .error message => [{ path := [.key (js "secretEncoding")], message }]
  | .ok _ => []

/-- The issue of a current `kid` that is not a non-empty string. -/
def kidIssues (config : Hs256RotationConfig) : List Hs256RotationIssue :=
  if config.kid ≠ .undefined ∧ !isNonEmptyString config.kid then
    [{ path := [.key (js "kid")], message := js "kid must be a non-empty string" }]
  else []

/-- The issue of a current secret that misses the floor; an absent one is another check's. -/
def secretIssues (config : Hs256RotationConfig) : List Hs256RotationIssue :=
  match rotationEncoding config, nonEmptyString? config.secret with
  | some encoding, some secret =>
    clearsEntropyFloor secret (js "secret") [.key (js "secret")] encoding
  | _, _ => []

/-- The issue of previous secrets without a current `kid`. -/
def currentIssues (config : Hs256RotationConfig) (previousSecrets : List Hs256PreviousSecret) :
    List Hs256RotationIssue :=
  if previousSecrets ≠ [] ∧ !isNonEmptyString config.kid then
    [{ path := [.key (js "kid")]
       message := js "kid is required when previousSecrets is configured — it names the secret the issuer signs with today, which is what tells it apart from the retired ones" }]
  else []

/-- `checkHs256Rotation`: the narrowed config, or every reason it is refused. -/
def checkHs256Rotation (config : Hs256RotationConfig) :
    Except (List Hs256RotationIssue) Hs256Rotation :=
  let encoding := rotationEncoding config
  let entries := checkPreviousSecrets dateParse config encoding
  let issues := encodingIssues config ++ kidIssues config ++ secretIssues config ++ entries.issues ++
    currentIssues config entries.previousSecrets
  if issues = [] then
    .ok
      { secretEncoding := encoding.getD defaultSecretEncoding
        kid := config.kid.str?
        previousSecrets := entries.previousSecrets }
  else .error issues

/-- `parseHs256Rotation`: the first refusal, under the path of the block. -/
def parseHs256Rotation (config : Hs256RotationConfig) (path : Str) : Except Str Hs256Rotation :=
  match checkHs256Rotation dateParse config with
  | .ok rotation => .ok rotation
  | .error issues =>
    .error (path ++ js "." ++
      (issues.head?.map Hs256RotationIssue.message).getD (js "previousSecrets is invalid"))

end Check

end PolicyVerifier.Server
