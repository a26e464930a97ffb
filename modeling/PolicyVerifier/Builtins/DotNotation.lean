import PolicyVerifier.Core.Types
import PolicyVerifier.Js.Strings

/-!
# Dot-separated resources

The parser for resources such as `org:123.document:42`, which refuses what is outside its grammar rather
than repairing it.
-/

namespace PolicyVerifier.Builtins

open Js PolicyVerifier.Core

/-- What a `ResourceParser` refuses a string with. -/
structure ResourceParseError where
  raw : Str
  detail : Str
deriving DecidableEq

/-- The message the error carries. -/
def ResourceParseError.message (e : ResourceParseError) : Str :=
  js "Invalid resource string \"" ++ e.raw ++ js "\": " ++ e.detail

/-- A character of `SEGMENT_TOKEN`. -/
def isSegmentChar (c : UInt16) : Bool :=
  c == 0x21 || (0x23 ≤ c && c ≤ 0x2D) || (0x2F ≤ c && c ≤ 0x39) || (0x3B ≤ c && c ≤ 0x5B) ||
    (0x5D ≤ c && c ≤ 0x7E)

/-- `SEGMENT_TOKEN.test(value)`. -/
def segmentToken (value : Str) : Bool := !value.isEmpty && value.all isSegmentChar

/-- One `type[:id]` segment after validation. -/
structure Segment where
  type : Str
  id : Option Str := none
deriving DecidableEq

/-- Which part of a segment a refusal names. -/
inductive SegmentPart where
  | type
  | id
deriving DecidableEq

def SegmentPart.name : SegmentPart → Str
  | type => js "type"
  | id => js "id"

/-- Rejects an empty or out-of-grammar type or id. -/
def assertToken (raw value : Str) (position : Nat) (part : SegmentPart) : Except ResourceParseError Unit :=
  if value = [] then
    .error { raw, detail := js "segment " ++ decimal position ++ js " has an empty " ++ part.name }
  else if !segmentToken value then
    .error
      { raw
        detail := js "segment " ++ decimal position ++ js " " ++ part.name ++
          js " carries a character outside the allowed set " ++
          js "(printable ASCII except space, '\"', \"\\\", \".\" and \":\")" }
  else .ok ()

/-- Validates one `type[:id]` segment, or explains why it is not one. -/
def parseSegment (raw segment : Str) (position : Nat) : Except ResourceParseError Segment :=
  match segment.splitOn 0x3A with
  | [type] => do
    assertToken raw type position .type
    .ok { type }
  | [type, id] => do
    assertToken raw type position .type
    assertToken raw id position .id
    .ok { type, id := some id }
  | _ =>
    .error
      { raw
        detail := js "segment " ++ decimal position ++
          js " has more than one \":\"; a segment is \"type\" or \"type:id\"" }

/-- The segments from one position on. -/
def parseSegments (raw : Str) : Nat → List Str → Except ResourceParseError (List Segment)
  | _, [] => .ok []
  | index, segment :: segments => do
    let first ← parseSegment raw segment (index + 1)
    let rest ← parseSegments raw (index + 1) segments
    .ok (first :: rest)

/-- The resource type: the types of the segments, joined with `.`. -/
def typesText (types : List Str) : Str := join (js ".") types

/-- `DotNotationResourceParser.parse`. -/
def parse (raw : Str) : Except ResourceParseError Resource := do
  let segments ← parseSegments raw 0 (raw.splitOn 0x2E)
  .ok
    { raw
      resourceType := typesText (segments.map Segment.type)
      resourceId := segments.getLast?.bind Segment.id }

end PolicyVerifier.Builtins
