import Urgentry.Clock
import Urgentry.Internal.GoText
import Urgentry.Internal.ParentWalk

/-!
# Translating OTLP traces

`internal/trace/otlp.go` turns a decoded OTLP request into transaction payloads, one for every root
span. A span's descendants are collected by a recursion over the map from span ids to children.

The translation may fail with an error, and the recursion may go on for ever. So a translation is an
action with three possible ends: a value, an error, or none at all when the depth bound `fuel` of
the recursion is not enough. It also keeps a record of the finished calls of `collectDescendants`,
which the code does not have; nothing reads it. The payload is the value that is handed to
`json.Marshal`, which cannot fail on it: it holds texts, numbers that were read from JSON, and lists
and maps of those.

## Main definitions

* `kvAttrs`, `spanOperation`, `decodeOTLPID`: reading attributes and ids
* `groupSpans`: the loop that sorts spans into roots and children
* `buildTransactionPayload`, `translateOTLPJSON`: the translation
-/

namespace Urgentry

open GoText

namespace Otlp

/-! ## The request -/

/-- `otlpAnyValue`. An absent member is `none`, and an absent `intValue` the empty text; `intValue`
is the raw JSON. -/
inductive OtlpAnyValue
  | mk (stringValue : Option String) (intValue : String) (doubleValue : Option Float)
    (boolValue : Option Bool) (arrayValue : Option (List OtlpAnyValue))
    (kvlistValue : Option (List (String × OtlpAnyValue))) (bytesValue : Option String)

/-- `otlpStatus`. -/
structure OtlpStatus where
  code : ℤ := 0
  message : String := ""

/-- `otlpSpan`. -/
structure OtlpSpan where
  traceId : String := ""
  spanId : String := ""
  parentSpanId : String := ""
  name : String := ""
  kind : ℤ := 0
  startTimeUnixNano : String := ""
  endTimeUnixNano : String := ""
  attributes : List (String × OtlpAnyValue) := []
  status : OtlpStatus := {}

/-- `otlpResourceSpans`, with the attributes of `resource` and the spans of each scope. -/
structure OtlpResourceSpans where
  resource : List (String × OtlpAnyValue) := []
  scopeSpans : List (List OtlpSpan) := []
  instrumentationLibrarySpans : List (List OtlpSpan) := []

/-- `otlpRequest`. -/
structure OtlpRequest where
  resourceSpans : List OtlpResourceSpans

/-! ## Attributes -/

/-- The values that attributes take; `null` is Go's `nil`. -/
inductive AttrValue
  | null
  | text (s : String)
  | int (n : ℤ)
  | double (x : Float)
  | bool (b : Bool)
  | array (values : List AttrValue)
  | map (entries : List (String × AttrValue))

/-- A `map[string]any`, as the list of its entries. -/
abbrev Attrs := List (String × AttrValue)

/-- `attrs[key] = value`. -/
def setAttr (attrs : Attrs) (key : String) (value : AttrValue) : Attrs :=
  attrs.filter (fun entry => entry.1 ≠ key) ++ [(key, value)]

/-- The library functions that the translation only passes texts through. -/
structure OtlpLib where
  /-- `fmt.Sprint` of an attribute. -/
  sprint : AttrValue → String
  /-- `json.Unmarshal` of raw JSON into a string. -/
  unquote : String → Option String
  /-- The first sixteen bytes of `sha256.Sum256`, in hexadecimal. -/
  sha256Hex : String → String

variable (lib : OtlpLib)

/-- `parseOTLPIntValue`. -/
def parseOTLPIntValue (raw : String) : AttrValue :=
  let trimmed := trimSpace raw
  if trimmed = "" then .text ""
  else
    let value := if trimmed.toList.head? = some '"' then
      ((lib.unquote raw).map trimSpace).getD trimmed else trimmed
    match parseInt value.toList with
    | some parsed => .int parsed
    | none => .text value

/-- What `kvAttrs` stores for a value: an empty text in place of `nil`. -/
def AttrValue.orEmpty : AttrValue → AttrValue
  | .null => .text ""
  | value => value

mutual

/-- `otlpAnyValue.value`. -/
def OtlpAnyValue.value : OtlpAnyValue → AttrValue
  | .mk (some s) _ _ _ _ _ _ => .text s
  | .mk none intValue doubleValue boolValue arrayValue kvlistValue bytesValue =>
    if intValue ≠ "" then parseOTLPIntValue lib intValue
    else match doubleValue, boolValue, arrayValue, kvlistValue, bytesValue with
      | some x, _, _, _, _ => .double x
      | none, some b, _, _, _ => .bool b
      | none, none, some values, _, _ => .array (arrayValues values)
      | none, none, none, some items, _ => .map (kvAttrsFrom [] items)
      | none, none, none, none, some s => .text s
      | none, none, none, none, none => .null

/-- The values of an array. -/
def arrayValues : List OtlpAnyValue → List AttrValue
  | [] => []
  | item :: items => item.value :: arrayValues items

/-- The loop of `kvAttrs`, adding to the entries `out`. -/
def kvAttrsFrom (out : Attrs) : List (String × OtlpAnyValue) → Attrs
  | [] => out
  | (key, item) :: items => kvAttrsFrom (setAttr out key item.value.orEmpty) items

end

/-- `kvAttrs`. -/
def kvAttrs (items : List (String × OtlpAnyValue)) : Attrs := kvAttrsFrom lib [] items

/-- `stringAttr`. -/
def stringAttr (attrs : Attrs) (key : String) : String :=
  match attrs.lookup key with
  | none => ""
  | some value => trimSpace (lib.sprint value)

/-- `otlpTags`. -/
def otlpTags (attrs : Attrs) : List (String × String) :=
  ["service.name", "deployment.environment", "service.namespace"].filterMap fun key =>
    if stringAttr lib attrs key ≠ "" then some (key, stringAttr lib attrs key) else none

/-- `buildRelease`. -/
def buildRelease (attrs : Attrs) : String :=
  let name := stringAttr lib attrs "service.name"
  let version := stringAttr lib attrs "service.version"
  if name ≠ "" ∧ version ≠ "" then name ++ "@" ++ version
  else if version ≠ "" then version
  else ""

/-- `spanOperation`. -/
def spanOperation (attrs : Attrs) (kind : ℤ) : String :=
  if stringAttr lib attrs "sentry.op" ≠ "" then stringAttr lib attrs "sentry.op"
  else if stringAttr lib attrs "span.op" ≠ "" then stringAttr lib attrs "span.op"
  else if stringAttr lib attrs "db.system" ≠ "" then "db"
  else if stringAttr lib attrs "rpc.system" ≠ "" then "rpc"
  else if stringAttr lib attrs "http.request.method" ≠ "" then "http.server"
  else if kind = 3 then "http.client"
  else "otel"

/-- `otlpStatusString`. -/
def otlpStatusString (status : OtlpStatus) : String :=
  if status.code = 2 then "error" else if status.code = 1 then "ok" else ""

/-! ## Ids and times -/

/-- A digit that `hex.DecodeString` accepts. -/
def isHexDigit (c : Char) : Bool :=
  ('0' ≤ c && c ≤ '9') || ('a' ≤ c && c ≤ 'f') || ('A' ≤ c && c ≤ 'F')

/-- `decodeOTLPID`. What is left to lower is ASCII, since it is made of hexadecimal digits. -/
def decodeOTLPID (raw : String) (byteLen : ℕ) (allowEmpty : Bool) : Except String String :=
  let raw := trimSpace raw
  if raw = "" then if allowEmpty then .ok "" else .error "missing otlp id"
  else if raw.utf8ByteSize ≠ byteLen * 2 then .error "invalid otlp id length"
  else if !raw.toList.all isHexDigit then .error "invalid otlp id"
  else .ok (String.ofList (raw.toList.map Char.toLower))

/-- The decoded ids of a span. -/
structure SpanIds where
  (traceId spanId parentSpanId : String)

/-- The three calls of `decodeOTLPID` that a span's payload starts with. -/
def decodeIds (span : OtlpSpan) : Except String SpanIds := do
  let traceId ← decodeOTLPID span.traceId 16 false
  let spanId ← decodeOTLPID span.spanId 8 false
  let parentSpanId ← decodeOTLPID span.parentSpanId 8 true
  return ⟨traceId, spanId, parentSpanId⟩

/-- `stableOTLPEventID`. -/
def stableOTLPEventID (traceId spanId startedAt : String) : String :=
  lib.sha256Hex (traceId ++ ":" ++ spanId ++ ":" ++ trimSpace startedAt)

/-- Days from the zero time to 1970-01-01. -/
def unixEpochDay : ℕ := 719162

/-- `time.Unix(0, ns)`. An `int64` of nanoseconds stays between the years 1677 and 2262. -/
def unixTime (ns : ℤ) : Time :=
  ⟨(ns + (unixEpochDay * Calendar.secondsPerDay * 10 ^ 9 : ℕ)).toNat⟩

/-- `t.UTC().Format(time.RFC3339Nano)`: the fraction has no trailing zeros. -/
def rfc3339Nano (t : Time) : String :=
  let digits := (Calendar.decimal 9 (t.ns % 10 ^ 9)).reverse.dropWhile (· = '0')
  let fraction := if digits.isEmpty then [] else '.' :: digits.reverse
  String.ofList
    (Calendar.dateText t.day ++ 'T' :: (Calendar.clockText t.timeOfDay ++ fraction ++ ['Z']))

/-- `unixNanoToRFC3339`. -/
def unixNanoToRFC3339 (raw : String) : String :=
  let raw := trimSpace raw
  if raw = "" then ""
  else match parseInt raw.toList with
    | none => ""
    | some value => rfc3339Nano (unixTime value)

/-! ## Payloads -/

/-- A member of `spans` in a transaction payload. -/
structure SpanPayload where
  ids : SpanIds
  (op description status startTimestamp timestamp : String)
  data : Attrs

/-- A transaction payload. The members `release`, `environment` and `spans` are left out of the JSON
when they are empty. -/
structure TransactionPayload where
  type : String := "transaction"
  eventId : String
  platform : String := "otlp"
  (transaction startTimestamp timestamp : String)
  tags : List (String × String)
  ids : SpanIds
  (op status release environment : String)
  spans : List SpanPayload

/-- The payload of a descendant. -/
def spanPayload (child : OtlpSpan) : Except String SpanPayload := do
  let ids ← decodeIds child
  let childAttrs := kvAttrs lib child.attributes
  return {
    ids
    op := spanOperation lib childAttrs child.kind
    description := trimSpace child.name
    status := otlpStatusString child.status
    startTimestamp := unixNanoToRFC3339 child.startTimeUnixNano
    timestamp := unixNanoToRFC3339 child.endTimeUnixNano
    data := childAttrs }

/-- The payload of a root span with these ids and descendants. -/
def rootPayload (root : OtlpSpan) (resourceAttrs : Attrs) (ids : SpanIds)
    (spans : List SpanPayload) : TransactionPayload where
  eventId := stableOTLPEventID lib ids.traceId ids.spanId root.startTimeUnixNano
  transaction :=
    if trimSpace root.name = "" then "otlp transaction" else trimSpace root.name
  startTimestamp := unixNanoToRFC3339 root.startTimeUnixNano
  timestamp := unixNanoToRFC3339 root.endTimeUnixNano
  tags := otlpTags lib resourceAttrs
  ids := ids
  op := spanOperation lib (kvAttrs lib root.attributes) root.kind
  status := otlpStatusString root.status
  release := buildRelease lib resourceAttrs
  environment := stringAttr lib resourceAttrs "deployment.environment"
  spans := spans

/-! ## The translation -/

/-- A finished call of `collectDescendants`: the spans of the entry, the root, and what the call
returned. -/
structure Call where
  spans : List OtlpSpan
  root : OtlpSpan
  descendants : List OtlpSpan

/-- A step of the translation: it has no end when the recursion is deeper than its bound, and
otherwise ends with a value or an error and the record of calls. -/
abbrev Translation := ExceptT String (StateT (List Call) Option)

/-- The end of a translation step that starts with the calls in `log`. -/
def Translation.exec {α : Type} (m : Translation α) (log : List Call) :
    Option (Except String α × List Call) := StateT.run (ExceptT.run m) log

/-- A step that neither recurses nor records. -/
def ofExcept {α : Type} (result : Except String α) : Translation α := ExceptT.mk (pure result)

/-- `collectDescendants`. -/
def collectDescendants (fuel : ℕ) (rootID : String) (children : String → List OtlpSpan) :
    Option (List OtlpSpan) :=
  ParentWalk.walk OtlpSpan.spanId children fuel rootID []

/-- A call of `collectDescendants`, recorded. -/
def recordDescendants (fuel : ℕ) (spans : List OtlpSpan) (root : OtlpSpan)
    (children : String → List OtlpSpan) : Translation (List OtlpSpan) :=
  ExceptT.mk fun log => (collectDescendants fuel root.spanId children).map fun descendants =>
    (.ok descendants, log ++ [⟨spans, root, descendants⟩])

/-- `buildTransactionPayload`. The argument `spans` is only recorded. -/
def buildTransactionPayload (fuel : ℕ) (spans : List OtlpSpan) (root : OtlpSpan)
    (children : String → List OtlpSpan) (resourceAttrs : Attrs) :
    Translation TransactionPayload := do
  let ids ← ofExcept (decodeIds root)
  let descendants ← recordDescendants fuel spans root children
  let payloads ← ofExcept (descendants.mapM (spanPayload lib))
  return rootPayload lib root resourceAttrs ids payloads

/-- `spanByID`: a missing id has the zero span. -/
def spanByID (allSpans : List OtlpSpan) : String → OtlpSpan :=
  allSpans.foldl (fun byID span => Function.update byID span.spanId span) fun _ => {}

/-- What the loop over the spans builds. -/
structure Grouped where
  roots : List OtlpSpan := []
  children : String → List OtlpSpan := fun _ => []

/-- One round of the loop over the spans. -/
def groupSpan (byID : String → OtlpSpan) (grouped : Grouped) (span : OtlpSpan) : Grouped :=
  let parent := trimSpace span.parentSpanId
  if parent = "" ∨ (byID parent).spanId = "" then
    { grouped with roots := grouped.roots ++ [span] }
  else { grouped with
    children := Function.update grouped.children parent (grouped.children parent ++ [span]) }

/-- The loop over the spans. -/
def groupSpans (allSpans : List OtlpSpan) : Grouped :=
  allSpans.foldl (groupSpan (spanByID allSpans)) {}

/-- `flattenScopeSpans`. -/
def flattenScopeSpans (scopes : List (List OtlpSpan)) : List OtlpSpan := scopes.flatten

/-- The spans of an entry. -/
def OtlpResourceSpans.allSpans (entry : OtlpResourceSpans) : List OtlpSpan :=
  flattenScopeSpans entry.scopeSpans ++ flattenScopeSpans entry.instrumentationLibrarySpans

/-- The roots of an entry: the first span when no span looks like one. -/
def rootsOf : List OtlpSpan → List OtlpSpan
  | [] => []
  | first :: rest =>
    if (groupSpans (first :: rest)).roots.isEmpty then [first]
      else (groupSpans (first :: rest)).roots

/-- One round of the loop over the entries. -/
def translateResourceSpans (fuel : ℕ) (entry : OtlpResourceSpans) :
    Translation (List TransactionPayload) :=
  let resourceAttrs := kvAttrs lib entry.resource
  (rootsOf entry.allSpans).mapM fun root =>
    buildTransactionPayload lib fuel entry.allSpans root (groupSpans entry.allSpans).children
      resourceAttrs

/-- `TranslateOTLPJSON`, on the decoded request. -/
def translateOTLPJSON (fuel : ℕ) (req : OtlpRequest) : Translation (List TransactionPayload) := do
  let payloads ← req.resourceSpans.mapM (translateResourceSpans lib fuel)
  return payloads.flatten

end Otlp

end Urgentry
