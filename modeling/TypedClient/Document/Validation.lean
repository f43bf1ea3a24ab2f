import TypedClient.Document.Basic
import TypedClient.Schema.Reading

/-!
# Validation of a description

Each field is checked on its own and gives its value or the complaints about it. A record collects
the complaints of all its fields in their order, so the complaints about a description are those
about its fields, one after another. Where a number may stand for a text its decimal text is taken;
whether the numbers there are written is a question of its own (`readsTexts`).
-/

namespace TypedClient

/-- What a field fails to be. -/
inductive Expectation where
  | present
  | text
  | list
  | map
  | record (model : String)

/-- The wording of a complaint. -/
def Expectation.message : Expectation → String
  | .present => "Field required"
  | .text => "Input should be a valid string"
  | .list => "Input should be a valid list"
  | .map => "Input should be a valid dictionary"
  | .record model => "Input should be a valid dictionary or instance of " ++ model

/-- A complaint about the field at a place in the document. -/
structure Complaint where
  place : List String
  expected : Expectation

def Complaint.message (c : Complaint) : String :=
  String.intercalate "." c.place ++ ": " ++ c.expected.message

/-- Why a value is no description. -/
inductive DocumentFault where
  | notAMap
  | invalid (complaints : List Complaint)

/-- The reasons for which a value is refused. -/
def DocumentFault.reasons : DocumentFault → List String
  | .notAMap => ["документ должен быть объектом"]
  | .invalid complaints => complaints.map Complaint.message

def DocumentFault.message (fault : DocumentFault) : String :=
  "Некорректная OpenAPI спецификация: " ++ String.intercalate "; " fault.reasons

/-- The outcome of a check: a value or the complaints. -/
abbrev Checked (α : Type) := Except (List Complaint) α

namespace Checked

/-- The complaints of a check that failed; none if it passed. -/
def complaints {α : Type} : Checked α → List Complaint
  | .ok _ => []
  | .error cs => cs

/-- A single complaint. -/
def refuse {α : Type} (place : List String) (expected : Expectation) : Checked α :=
  .error [⟨place, expected⟩]

/-- A pair of checks that complains about both. -/
def both {α β : Type} (a : Checked α) (b : Checked β) : Checked (α × β) :=
  match a, b with
  | .ok x, .ok y => .ok (x, y)
  | _, _ => .error (a.complaints ++ b.complaints)

/-- A list of checks that complains about all. -/
def all {α : Type} : List (Checked α) → Checked (List α)
  | [] => .ok []
  | c :: cs => (both c (all cs)).map fun p => p.1 :: p.2

end Checked

namespace Validation

open Checked

/-- Whether numbers may stand for texts. -/
inductive TextRule where
  | textOnly | numbersToo
  deriving DecidableEq

/-- The text that a value is under a rule. -/
def TextRule.read? : TextRule → Value → Option String
  | _, .text s => some s
  | .numbersToo, .int i => some (toString i)
  | .numbersToo, .float x => some x.text
  | _, _ => none

/-- A field that has to be there. -/
def required {α : Type} (place : List String) (read : Value → Checked α) : Option Value → Checked α
  | none => refuse place .present
  | some v => read v

/-- A field that may be missing. -/
def withDefault {α : Type} (default : α) (read : Value → Checked α) : Option Value → Checked α
  | none => .ok default
  | some v => read v

/-- A value that may be `null`. -/
def nullable {α : Type} (read : Value → Checked α) : Value → Checked (Option α)
  | .null => .ok none
  | v => (read v).map some

def text (rule : TextRule) (place : List String) (v : Value) : Checked String :=
  match rule.read? v with
  | some s => .ok s
  | none => refuse place .text

/-- How a key is named in the place of a complaint. Booleans count as numbers. -/
def keyPlace : Value → String
  | .text s => Text.lossy s
  | .bool b => if b then "1" else "0"
  | v => if v.isInspected then v.inspect else "<unprintable int object>"

/-- An entry of a map: its key and its value. -/
def entry {α : Type} (rule : TextRule) (place : List String)
    (read : List String → Value → Checked α) (e : Value × Value) : Checked (String × α) :=
  let here := place ++ [keyPlace e.1]
  both (text rule (here ++ ["[key]"]) e.1) (read here e.2)

/-- A map with texts as keys. Keys that become equal as texts count as repeated. -/
def map {α : Type} (rule : TextRule) (read : List String → Value → Checked α)
    (place : List String) : Value → Checked (List (String × α))
  | .map entries => (all (entries.map (entry rule place read))).map Assoc.ofPairs
  | _ => refuse place .map

/-- Any value. -/
def anything (_place : List String) (v : Value) : Checked Value := .ok v

def info (place : List String) : Value → Checked Info
  | .map fields =>
    (both (required (place ++ ["title"]) (text .numbersToo (place ++ ["title"]))
        (Value.find? fields "title"))
      (both (required (place ++ ["version"]) (text .numbersToo (place ++ ["version"]))
        (Value.find? fields "version"))
        (withDefault none (nullable (text .numbersToo (place ++ ["description"])))
          (Value.find? fields "description")))).map fun p => ⟨p.1, p.2.1, p.2.2⟩
  | _ => refuse place (.record "OpenApiInfo")

def server (place : List String) : Value → Checked Server
  | .map fields =>
    (both (required (place ++ ["url"]) (text .textOnly (place ++ ["url"]))
        (Value.find? fields "url"))
      (withDefault none (nullable (text .textOnly (place ++ ["description"])))
        (Value.find? fields "description"))).map fun p => ⟨p.1, p.2⟩
  | _ => refuse place (.record "OpenApiServer")

def servers (place : List String) : Value → Checked (List Server)
  | .list items => all (items.mapIdx fun i v => server (place ++ [toString i]) v)
  | _ => refuse place .list

/-- The operations under their paths. -/
def paths : List String → Value → Checked (List (String × List (String × Value))) :=
  map .numbersToo (map .numbersToo anything)

def components (place : List String) : Value → Checked Components
  | .map fields =>
    (both (withDefault [] (map .textOnly anything (place ++ ["schemas"]))
        (Value.find? fields "schemas"))
      (withDefault [] (map .textOnly anything (place ++ ["parameters"]))
        (Value.find? fields "parameters"))).map fun p => ⟨p.1, p.2⟩
  | _ => refuse place (.record "OpenApiComponents")

end Validation

namespace Document

open Checked Validation

/-- The fields of a description, checked one by one. -/
def check (fields : List (Value × Value)) : Checked Document :=
  (both (required ["openapi"] (text .numbersToo ["openapi"]) (Value.find? fields "openapi"))
    (both (required ["info"] (Validation.info ["info"]) (Value.find? fields "info"))
      (both (withDefault [] (Validation.servers ["servers"]) (Value.find? fields "servers"))
        (both (required ["paths"] (Validation.paths ["paths"]) (Value.find? fields "paths"))
          (withDefault none (nullable (Validation.components ["components"]))
            (Value.find? fields "components")))))).map
    fun p => ⟨p.1, p.2.1, p.2.2.1, p.2.2.2.1, p.2.2.2.2⟩

/-- The keys of paths, each with the keys under it. -/
def pathKeys (paths : Value) : List Value :=
  (Form.entriesOf paths).flatMap fun path => path.1 :: (Form.entriesOf path.2).map (·.1)

/-- The values of a description that may be a number where a text is expected. -/
def textValues : Value → List Value
  | .map fields =>
    Value.get fields "openapi" ::
      ["title", "version", "description"].map
        (Value.get (Form.entriesOf (Value.get fields "info"))) ++
      pathKeys (Value.get fields "paths")
  | _ => []

/-- Whether all numbers that stand for texts in a description are written. -/
def readsTexts (raw : Value) : Bool :=
  (textValues raw).all fun v => !v.isUnwritten

/-- The description that a value is. -/
def ofValue : Value → Except DocumentFault Document
  | .map fields => (check fields).mapError .invalid
  | _ => .error .notAMap

end Document

end TypedClient
