/-!
# Decoding UTF-8

Bytes are decoded strictly. A fault tells which bytes cannot be decoded and why: a byte that starts
no character, a byte that does not go on with the character before it, or an end inside a character.
-/

namespace TypedClient.Text.Utf8

/-- Why bytes cannot be decoded. -/
inductive Reason where
  | invalidStart
  | invalidContinuation
  | unexpectedEnd
  deriving DecidableEq, Repr

def Reason.message : Reason → String
  | .invalidStart => "invalid start byte"
  | .invalidContinuation => "invalid continuation byte"
  | .unexpectedEnd => "unexpected end of data"

/-- The first bytes that cannot be decoded: where they are, how many, and the first of them. -/
structure Fault where
  position : Nat
  count : Nat
  byte : Nat
  reason : Reason
  deriving DecidableEq, Repr

def Fault.message (f : Fault) : String :=
  let place :=
    if f.count = 1 then
      "byte 0x" ++ String.ofList [Nat.digitChar (f.byte / 16), Nat.digitChar (f.byte % 16)] ++
        " in position " ++ toString f.position
    else "bytes in position " ++ toString f.position ++ "-" ++ toString (f.position + f.count - 1)
  "'utf-8' codec can't decode " ++ place ++ ": " ++ f.reason.message

/-- Whether a byte goes on with a character. -/
def isContinuation (b : Nat) : Bool := 0x80 ≤ b && b < 0xc0

/-- Whether a byte may follow the first byte of a character. It must not lead to a longer form than
needed, to a surrogate, or beyond the last code point. -/
def mayFollow (first second : Nat) : Bool :=
  isContinuation second &&
    (if first = 0xe0 then 0xa0 ≤ second
     else if first = 0xed then second < 0xa0
     else if first = 0xf0 then 0x90 ≤ second
     else if first = 0xf4 then second < 0x90
     else true)

/-- The number of bytes after the first byte of a character, if it is one. -/
def following? (b : Nat) : Option Nat :=
  if b < 0x80 then some 0
  else if 0xc2 ≤ b && b < 0xe0 then some 1
  else if 0xe0 ≤ b && b < 0xf0 then some 2
  else if 0xf0 ≤ b && b < 0xf5 then some 3
  else none

/-- The number of bytes after the first one that go on with a character, at most `wanted`. -/
def accepted (first : Nat) (wanted : Nat) (rest : List Nat) : Nat :=
  match wanted, rest with
  | 0, _ => 0
  | _, [] => 0
  | wanted + 1, second :: more =>
    if mayFollow first second then 1 + ((more.take wanted).takeWhile isContinuation).length else 0

/-- The code point of a first byte and the bytes after it. -/
def codePoint (first : Nat) (rest : List Nat) : Nat :=
  let start :=
    match rest.length with
    | 0 => first
    | 1 => first - 0xc0
    | 2 => first - 0xe0
    | _ => first - 0xf0
  rest.foldl (fun n b => n * 0x40 + (b - 0x80)) start

/-- The characters of bytes from a position on. The first argument bounds the number of characters.
-/
def decodeFrom : Nat → Nat → List Nat → Except Fault (List Char)
  | _, _, [] => .ok []
  | 0, _, _ => .ok []
  | n + 1, position, first :: rest =>
    match following? first with
    | none => .error ⟨position, 1, first, .invalidStart⟩
    | some wanted =>
      let count := accepted first wanted rest
      if count = wanted then
        (decodeFrom n (position + 1 + wanted) (rest.drop wanted)).map fun more =>
          Char.ofNat (codePoint first (rest.take wanted)) :: more
      else if rest.length = count then .error ⟨position, 1 + count, first, .unexpectedEnd⟩
      else .error ⟨position, 1 + count, first, .invalidContinuation⟩

/-- The text that bytes encode. -/
def decode (bytes : List UInt8) : Except Fault String :=
  (decodeFrom bytes.length 0 (bytes.map UInt8.toNat)).map String.ofList

end TypedClient.Text.Utf8
