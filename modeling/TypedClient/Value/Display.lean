import TypedClient.Value.Basic
import TypedClient.Decimal.Shortest
import TypedClient.Text.Digit
import TypedClient.Text.Quoted

/-!
# Values as text

`inspect` shows a value with its structure: texts as labels, lists in brackets, maps in braces.
`display` is the text of a value that stands on its own: a text is shown bare and a moment in its
plain form. Not every value has a text (`hasText`): a number with too many digits has none, nor has
a value with such a number inside. What `inspect` and `display` give for such a value is never asked
for.
-/

namespace TypedClient.Value

mutual

/-- The value with its structure. -/
def inspect : Value → String
  | .null => "None"
  | .bool b => if b then "True" else "False"
  | .int i => toString i
  | .float x => x.text
  | .text s => Text.documentLabel s
  | .moment m => m.inspect
  | .list items => "[" ++ String.intercalate ", " (inspectItems items) ++ "]"
  | .map entries => "\x7b" ++ String.intercalate ", " (inspectEntries entries) ++ "\x7d"

def inspectItems : List Value → List String
  | [] => []
  | v :: vs => inspect v :: inspectItems vs

def inspectEntries : List (Value × Value) → List String
  | [] => []
  | (k, v) :: es => (inspect k ++ ": " ++ inspect v) :: inspectEntries es

end

/-- Whether a number is written: it has at most `numeralLimit` digits. -/
def hasNumeral (i : Int) : Bool :=
  (Nat.toDigits 10 i.natAbs).length ≤ Text.numeralLimit

/-- Whether a value is a number that is not written. -/
def isUnwritten : Value → Bool
  | .int i => !hasNumeral i
  | _ => false

mutual

/-- Whether all numbers in a value are written. -/
def isInspected : Value → Bool
  | .int i => hasNumeral i
  | .list items => areInspected items
  | .map entries => entriesInspected entries
  | _ => true

def areInspected : List Value → Bool
  | [] => true
  | v :: vs => isInspected v && areInspected vs

def entriesInspected : List (Value × Value) → Bool
  | [] => true
  | (k, v) :: es => isInspected k && isInspected v && entriesInspected es

end

/-- Whether a value has a text. -/
def hasText : Value → Bool
  | .moment m => m.hasText
  | v => v.isInspected

/-- Values whose texts are taken have to have them. -/
def requireTexts {ε : Type} (fault : ε) (values : List Value) : Except ε Unit :=
  if values.all hasText then .ok () else .error fault

/-- The value as the text of a field. -/
def display : Value → String
  | .text s => s
  | .moment m => m.plain
  | v => v.inspect

/-- The text of an optional field: `null` is no text. -/
def optionalText : Value → Option String
  | .null => none
  | v => some v.display

end TypedClient.Value
