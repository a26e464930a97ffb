import PolicyVerifier.Js.Text
import PolicyVerifier.Lib.OrderedMap

/-!
# The policy set a collector loads

The files of the set, the revision that is computed from them, and the ids their policies are known
by. SHA-256 is a parameter. Reading the directory is left out: a source is the files it was read as.
-/

namespace PolicyVerifier.Cedar

open Js

/-- One file of the set. `source` is where it was read from, for messages. -/
structure PolicyFile where
  name : Str
  source : Str
  text : Str

/-- A digest: its 64 hexadecimal digits. -/
abbrev Digest := Fin 64 → Fin 16

/-- `digest("hex")`. -/
def Digest.hex (d : Digest) : Str := (List.ofFn d).map fun n : Fin 16 => Json.hexDigit n

/-- What a digest is taken of begins with this. -/
def revisionPreimageHeader : Str := js "auth.policy-verifier.cedar/policy-set/v1\n"

def netstring (value : Str) : Str := decimal (utf8Length value) ++ js ":" ++ value ++ js ","

/-- `computePolicyRevision`, over the digest of a string's UTF-8. -/
def computePolicyRevision (sha256 : Str → Digest) (files : List PolicyFile) : Str :=
  js "sha256:" ++ (sha256 (revisionPreimageHeader ++
    files.flatMap fun file => netstring file.name ++ netstring file.text)).hex

/-- The strings the digest is updated with, one after the other. -/
def revisionUpdates (files : List PolicyFile) : List Str :=
  revisionPreimageHeader :: files.flatMap fun file => [netstring file.name, netstring file.text]

/-- The bytes the digest is taken of: each string is written as UTF-8 where it is handed over. -/
def revisionPreimage (files : List PolicyFile) : List UInt8 := (revisionUpdates files).flatMap utf8Bytes

/-- A policy set as loaded: its revision is the one computed from its files. -/
structure PolicySource (sha256 : Str → Digest) where
  files : List PolicyFile
  description : Str
  revision : Str
  computed : revision = computePolicyRevision sha256 files

/-- The ids the `count` policies of a file are known by. -/
def policyIdsOf (file : PolicyFile) (count : Nat) : Except Str (List Str) :=
  let stem := if endsWith (js ".cedar") file.name then file.name.take (file.name.length - 6)
    else file.name
  if stem = [] ∧ 0 < count then
    .error (js "\"" ++ file.source ++
      js "\" yields an empty policy id — the file needs a name before .cedar")
  else if count = 1 then .ok [stem]
  else .ok ((List.range count).map fun index => stem ++ js "#" ++ decimal (index + 1))

/-- One policy of a set, named for its file. -/
structure NamedPolicy where
  id : Str
  text : Str
  file : PolicyFile

/-- One policy put under its id, which no other may have. -/
def nameOne (file : PolicyFile) (named : OrderedMap Str NamedPolicy) (policy : Str × Str) :
    Except Str (OrderedMap Str NamedPolicy) :=
  match named.get? policy.1 with
  | some holder =>
    .error (js "policy id \"" ++ policy.1 ++ js "\" names a policy in " ++ holder.file.source ++
      js " and one in " ++ file.source ++ js " — rename one of the files")
  | none => .ok (named.set policy.1 { id := policy.1, text := policy.2, file })

/-- One file of `namePolicies`. -/
def nameFile (split : PolicyFile → Except Str (List Str)) (named : OrderedMap Str NamedPolicy)
    (file : PolicyFile) : Except Str (OrderedMap Str NamedPolicy) := do
  let texts ← split file
  let ids ← policyIdsOf file texts.length
  (ids.zip texts).foldlM (nameOne file) named

/-- Names every policy of the files for its file, each file split into its policies' texts; the split may throw. -/
def namePoliciesSplit (files : List PolicyFile) (split : PolicyFile → Except Str (List Str)) :
    Except Str (List NamedPolicy) := do
  let named ← files.foldlM (nameFile split) (∅ : OrderedMap Str NamedPolicy)
  pure (named.entries.map Prod.snd)

/-- `namePolicies`, with a split that does not throw. -/
def namePolicies (files : List PolicyFile) (split : PolicyFile → List Str) : Except Str (List NamedPolicy) :=
  namePoliciesSplit files fun file => .ok (split file)

end PolicyVerifier.Cedar
