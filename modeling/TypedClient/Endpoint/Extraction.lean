import TypedClient.Document.Validation
import TypedClient.Endpoint.Basic
import TypedClient.Registry
import TypedClient.Name

/-!
# Endpoints of a description

Paths come in the order of the document, and the operations of a path in the order of the verbs. The
parameters of a path stand before those of its operations; parameters of one name are all kept.
Every map among the parameters becomes a parameter or a notice; anything else is ignored.
-/

namespace TypedClient

/-- Why endpoints cannot be extracted. -/
inductive ExtractionFault where
  | schema (fault : SchemaFault)
  /-- A value whose text is taken has none. -/
  | noText
  /-- A value stands where a list of parameters is expected, and it has no items. -/
  | parametersNotListed
  /-- A media type is not a text. -/
  | mediaTypeNotText
  deriving DecidableEq, Repr

/-- A notice as it is reported. One that shows a value without a text is passed over. -/
def Notice.message? : Notice → Option String
  | .unresolvedParameter ref =>
    if ref.hasText then some ("Не удалось разрешить ссылку на параметр " ++ ref.display) else none
  | .unsupportedLocation name location =>
    if name.hasText && location.isInspected then
      some ("Параметр " ++ name.display ++ " пропущен: неподдерживаемое расположение " ++
        location.inspect)
    else none
  | .namelessParameter => some "Параметр без имени пропущен"
  | .repeatedMethod name verb path =>
    some ("Метод " ++ name ++ " объявлен повторно (" ++ verb.upper ++ " " ++ path ++ ")")

/-- Endpoints or their parts with the notices about them. -/
structure Reported (α : Type) where
  items : List α
  notices : List Notice

namespace Reported

def append {α : Type} (a b : Reported α) : Reported α :=
  ⟨a.items ++ b.items, a.notices ++ b.notices⟩

end Reported

namespace Extraction

/-- A schema with its fault as one of extraction. -/
def readSchema (raw : Value) : Except ExtractionFault Schema :=
  (Schema.ofValue raw).mapError .schema

/-! ## Parameters -/

/-- The path of the parameters of the document itself. -/
def parametersPath : String := "#/components/parameters/"

/-- The value that a reference to a parameter leads to. -/
def parameterTarget? (parameters : List (String × Value)) : Value → Option Value
  | .text ref =>
    (Text.dropStart? parametersPath.toList ref.toList).bind fun name =>
      Assoc.find? parameters (String.ofList name)
  | _ => none

/-- The location that a value names. -/
def location? (raw : Value) : Option Location :=
  Location.all.find? fun l => raw.isText l.keyword

/-- What an item among the parameters becomes. -/
inductive Item where
  | kept (parameter : Parameter)
  | dropped (notice : Notice)
  | ignored

/-- The parameter that a map describes. -/
def parameter (fields : List (Value × Value)) : Except ExtractionFault Item :=
  match location? (Value.get fields "in") with
  | none => .ok (.dropped (.unsupportedLocation (Value.get fields "name") (Value.get fields "in")))
  | some location =>
    if (Value.get fields "name").isTruthy then do
      Value.requireTexts .noText [Value.get fields "name", Value.get fields "description"]
      let schema ←
        match Value.find? fields "schema" with
        | some raw => (readSchema raw).map some
        | none => pure none
      return .kept
        { name := (Value.get fields "name").display
          location := location
          required := (Value.get fields "required").isTruthy
          description := (Value.get fields "description").optionalText
          schema := schema }
    else .ok (.dropped .namelessParameter)

/-- What a value among the parameters becomes. A reference is followed once. -/
def item (parameters : List (String × Value)) : Value → Except ExtractionFault Item
  | .map fields =>
    match Value.get fields "$ref" with
    | .null => parameter fields
    | ref =>
      match parameterTarget? parameters ref with
      | some (.map target) => parameter target
      | _ => .ok (.dropped (.unresolvedParameter ref))
  | _ => .ok .ignored

/-- The parameters and notices of read items. -/
def report (items : List Item) : Reported Parameter where
  items := items.filterMap fun i => match i with | .kept p => some p | _ => none
  notices := items.filterMap fun i => match i with | .dropped n => some n | _ => none

/-- The items of the value that stands for a list of parameters. What is empty or missing has none;
the letters of a text and the keys of a map are no parameters. -/
def parameterItems (raw : Value) : Except ExtractionFault (List Value) :=
  match raw with
  | .list items => .ok items
  | .text _ => .ok []
  | .map _ => .ok []
  | v => if v.isTruthy then .error .parametersNotListed else .ok []

/-- The parameters that a value lists. -/
def readParameters (parameters : List (String × Value)) (raw : Value) :
    Except ExtractionFault (Reported Parameter) := do
  let raws ← parameterItems raw
  let items ← raws.mapM (item parameters)
  return report items

/-! ## Bodies -/

/-- The schema of a media type, if its description gives one. -/
def mediaSchema (media : Value) : Except ExtractionFault (Option Schema) :=
  match Value.get (Form.entriesOf media) "schema" with
  | .null => .ok none
  | raw => (readSchema raw).map some

/-- The schemas of all media types; only texts are allowed as media types. -/
def readContent (raw : Value) : Except ExtractionFault Content := do
  let content ← (Form.entriesOf raw).mapM fun e => (mediaSchema e.2).map (e.1, ·)
  content.mapM fun e =>
    match e.1 with
    | .text media => .ok (media, e.2)
    | _ => .error .mediaTypeNotText

def readRequestBody (raw : Value) : Except ExtractionFault (Option RequestBody) :=
  match raw with
  | .map fields => do
    let content ← readContent (Value.get fields "content")
    return some ⟨(Value.get fields "required").isTruthy, content⟩
  | _ => .ok none

def readResponse (raw : Value) : Except ExtractionFault Response := do
  let fields := Form.entriesOf raw
  Value.requireTexts .noText [Value.get fields "description"]
  let content ← readContent (Value.get fields "content")
  return ⟨((Value.get fields "description").optionalText).getD "", content⟩

/-- The responses under their status codes. -/
def readResponses (raw : Value) : Except ExtractionFault (List (String × Response)) := do
  let responses ← (Form.entriesOf raw).mapM fun e => do
    let response ← readResponse e.2
    Value.requireTexts .noText [e.1]
    return (e.1.display, response)
  return Assoc.ofPairs responses

/-! ## Operations -/

def readTags : Value → Option (List String)
  | .list tags => some (tags.map Value.display)
  | _ => none

/-- The declared identifier of an operation, or the one made from its verb and path. -/
def operationId (verb : Verb) (path : String) (fields : List (Value × Value)) : String :=
  match (Value.get fields "operationId").optionalText with
  | some declared => if declared.isEmpty then Name.operationId verb.keyword path else declared
  | none => Name.operationId verb.keyword path

/-- The endpoint of an operation whose path has parameters of its own. -/
def readOperation (parameters : List (String × Value)) (path : String)
    (shared : List Parameter) (verb : Verb) (fields : List (Value × Value)) :
    Except ExtractionFault (Reported Endpoint) := do
  Value.requireTexts .noText [Value.get fields "operationId", Value.get fields "summary",
    Value.get fields "description"]
  let own ← readParameters parameters (Value.get fields "parameters")
  let requestBody ← readRequestBody (Value.get fields "requestBody")
  let responses ← readResponses (Value.get fields "responses")
  Value.requireTexts .noText (Form.itemsOf (Value.get fields "tags"))
  return ⟨[{
    verb := verb
    path := path
    operationId := operationId verb path fields
    summary := (Value.get fields "summary").optionalText
    description := (Value.get fields "description").optionalText
    parameters := shared ++ own.items
    requestBody := requestBody
    responses := responses
    tags := readTags (Value.get fields "tags") }], own.notices⟩

/-- The operations of a path in the order of the verbs. -/
def operations (fields : List (String × Value)) : List (Verb × List (Value × Value)) :=
  Verb.all.filterMap fun verb =>
    match Assoc.find? fields verb.keyword with
    | some (.map operation) => some (verb, operation)
    | _ => none

/-- Several reports as one. -/
def joined {α : Type} (reports : List (Reported α)) : Reported α :=
  reports.foldr Reported.append ⟨[], []⟩

/-- The endpoints of a path. -/
def readPath (parameters : List (String × Value)) (path : String)
    (fields : List (String × Value)) : Except ExtractionFault (Reported Endpoint) := do
  let shared ← readParameters parameters ((Assoc.find? fields "parameters").getD .null)
  let endpoints ← (operations fields).mapM fun o =>
    readOperation parameters path shared.items o.1 o.2
  return Reported.append ⟨[], shared.notices⟩ (joined endpoints)

end Extraction

namespace Document

/-- The named parameters in the order of the document. -/
def parameters (doc : Document) : List (String × Value) :=
  match doc.components with
  | some components => components.parameters
  | none => []

/-- The registry of the named schemas. -/
def registry (doc : Document) : Except ExtractionFault Registry :=
  (Registry.ofValues doc.schemas).mapError .schema

/-- The endpoints of a description. -/
def endpoints (doc : Document) : Except ExtractionFault (Reported Endpoint) := do
  let paths ← doc.paths.mapM fun p => Extraction.readPath doc.parameters p.1 p.2
  return Extraction.joined paths

end Document

end TypedClient
