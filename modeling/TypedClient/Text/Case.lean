import TypedClient.Text.CaseTable

/-!
# Upper and lower case of a text

A letter may become several characters. A capital sigma becomes the final form at the end of a word
and the ordinary one elsewhere; every other letter is mapped on its own.
-/

namespace TypedClient.Text

/-- Whether a code point lies in one of the ranges. -/
def inRanges (ranges : List (Nat × Nat)) (c : Char) : Bool :=
  ranges.any fun r => r.1 ≤ c.toNat && c.toNat ≤ r.2

/-- The image of a code point under the first run that holds it. -/
def CaseRun.image? (runs : List CaseRun) (n : Nat) : Option Nat :=
  (runs.find? fun r => r.first ≤ n && n ≤ r.last && (n - r.first) % r.step == 0).map
    fun r => (Int.ofNat n + r.shift).toNat

/-- The image of a letter: several characters, one character, or itself. -/
def mapLetter (expansions : List (Nat × List Nat)) (runs : List CaseRun) (c : Char) : List Char :=
  match expansions.lookup c.toNat with
  | some image => image.map Char.ofNat
  | none => [((CaseRun.image? runs c.toNat).map Char.ofNat).getD c]

/-- The upper-case form of a letter. -/
def upperLetter (c : Char) : List Char :=
  if c.toNat < 0x80 then [c.toUpper] else mapLetter upperExpansions upperRuns c

/-- The lower-case form of a letter that stands alone. -/
def lowerLetter (c : Char) : List Char :=
  if c.toNat < 0x80 then [c.toLower] else mapLetter lowerExpansions lowerRuns c

/-- Whether the nearest character that is not looked through has case. -/
def meetsCased (cs : List Char) : Bool :=
  match cs.dropWhile (inRanges ignorableRanges) with
  | [] => false
  | c :: _ => inRanges casedRanges c

/-- The lower-case form of `cs`, where `before` is what precedes it, nearest character first. -/
def lowerAfter (before : List Char) : List Char → List Char
  | [] => []
  | c :: rest =>
    let image :=
      if c = 'Σ' then
        if meetsCased before && !meetsCased rest then ['ς'] else ['σ']
      else lowerLetter c
    image ++ lowerAfter (c :: before) rest

/-- The lower-case form of a text. -/
def lower (text : String) : String :=
  String.ofList (lowerAfter [] text.toList)

/-- The text with its first letter in upper case. -/
def capitalize : List Char → List Char
  | [] => []
  | c :: rest => upperLetter c ++ rest

end TypedClient.Text
