import TypedClient.Calendar
import TypedClient.Decimal.Binary64

/-!
# Document values

The data that a description consists of: what a JSON, YAML or TOML text can hold. A map keeps its
entries in the order of the text, and its keys are values, because YAML allows numbers, booleans and
dates as keys. Two keys are the same if they are equal as numbers or as texts or as moments; in
particular `true` is the same key as `1`.
-/

namespace TypedClient

/-- A value of a document. -/
inductive Value where
  | null
  | bool (b : Bool)
  | int (i : Int)
  | float (x : Binary64)
  | text (s : String)
  | moment (m : Moment)
  | list (items : List Value)
  | map (entries : List (Value × Value))
  deriving Inhabited

namespace Value

/-- The integer that a value equals, if it is a number or a boolean. -/
def toInt? : Value → Option Int
  | .bool b => some (if b then 1 else 0)
  | .int i => some i
  | .float x => x.toInt?
  | _ => none

/-- Whether two values are the same key of a map. -/
def sameKey : Value → Value → Bool
  | .null, .null => true
  | .text s, .text s' => s = s'
  | .moment m, .moment m' => m.same m'
  | .float x, .float y => x.sameNumber y
  | a, b =>
    match a.toInt?, b.toInt? with
    | some i, some j => i = j
    | _, _ => false

/-- Whether a value can be a key or a member of a set: lists and maps cannot. -/
def isKey : Value → Bool
  | .list _ => false
  | .map _ => false
  | _ => true

/-- Whether a value counts as present: zeros, empty texts, empty collections and `null` do not. -/
def isTruthy : Value → Bool
  | .null => false
  | .bool b => b
  | .int i => i != 0
  | .float x => !x.isZero
  | .text s => !s.isEmpty
  | .moment _ => true
  | .list items => !items.isEmpty
  | .map entries => !entries.isEmpty

/-- Whether the value is the given text. -/
def isText (s : String) : Value → Bool
  | .text t => t = s
  | _ => false

/-- The value under a text key. -/
def find? (entries : List (Value × Value)) (key : String) : Option Value :=
  (entries.find? fun e => e.1.isText key).map (·.2)

/-- The value under a text key, or `null`. -/
def get (entries : List (Value × Value)) (key : String) : Value :=
  (find? entries key).getD .null

/-- The entries with a key set: a known key keeps its place and takes the new value. -/
def put (entries : List (Value × Value)) (key value : Value) : List (Value × Value) :=
  if entries.any fun e => e.1.sameKey key then
    entries.map fun e => if e.1.sameKey key then (e.1, value) else e
  else entries ++ [(key, value)]

/-- The map that results from setting the keys one after another. -/
def ofPairs (pairs : List (Value × Value)) : List (Value × Value) :=
  pairs.foldl (fun entries p => put entries p.1 p.2) []

theorem mem_of_find? {entries : List (Value × Value)} {key : String} {v : Value}
    (h : find? entries key = some v) : (.text key, v) ∈ entries := by
  obtain ⟨⟨k, w⟩, he, rfl⟩ := Option.map_eq_some_iff.1 h
  have hk := List.find?_some he
  have hm := List.mem_of_find?_eq_some he
  cases k <;> simp_all [isText]

theorem sizeOf_lt_of_mem {entries : List (Value × Value)} {e : Value × Value} (h : e ∈ entries) :
    sizeOf e.2 < sizeOf (Value.map entries) := by
  have h₁ := List.sizeOf_lt_of_mem h
  obtain ⟨k, v⟩ := e
  simp only [Value.map.sizeOf_spec, Prod.mk.sizeOf_spec] at *
  omega

theorem sizeOf_find?_lt {entries : List (Value × Value)} {key : String} {v : Value}
    (h : find? entries key = some v) : sizeOf v < sizeOf (Value.map entries) :=
  sizeOf_lt_of_mem (mem_of_find? h)

end Value

end TypedClient
