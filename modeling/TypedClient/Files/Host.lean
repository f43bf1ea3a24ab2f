import TypedClient.Files.Path
import TypedClient.Text.Utf8
import TypedClient.Text.Quoted

/-!
# What a command asks of its host

A command reads and writes files, makes directories, fetches pages and prints lines. `Host` names
these requests for any monad that can answer them. A request for a file may be refused; the refusal
keeps the path that was asked for. A device may break off a file that is being filled, and the stack
may be too small for a step of the command.
-/

namespace TypedClient

/-- Why a path is refused. -/
inductive FileFault.Reason where
  | missing
  | taken
  | notDirectory
  | directory
  | nameTooLong
  /-- The path contains a null character, which no file name can. -/
  | nullCharacter
  /-- The system refuses the path for a reason of its own, such as a lack of permission. -/
  | other (words : String)
  /-- The device fails while the file is being filled. -/
  | device (words : String)
  deriving DecidableEq, Repr

/-- A path that is refused and why. -/
structure FileFault where
  reason : FileFault.Reason
  path : String
  deriving DecidableEq, Repr

/-- The number and the words of the reason. -/
def FileFault.Reason.words : FileFault.Reason → String
  | .missing => "[Errno 2] No such file or directory"
  | .taken => "[Errno 17] File exists"
  | .notDirectory => "[Errno 20] Not a directory"
  | .directory => "[Errno 21] Is a directory"
  | .nameTooLong => "[Errno 36] File name too long"
  | .nullCharacter => "embedded null byte"
  | .other words => words
  | .device words => words

/-- Whether a fault for the reason shows the path. -/
def FileFault.Reason.showsPath : FileFault.Reason → Bool
  | .nullCharacter | .device _ => false
  | _ => true

def FileFault.message (f : FileFault) : String :=
  if f.reason.showsPath then f.reason.words ++ ": " ++ Text.label f.path else f.reason.words

/-- The answer to a request for a page. -/
structure Page where
  status : Nat
  text : String

/-- Whether the page is what was asked for. -/
def Page.isSuccess (p : Page) : Bool :=
  200 ≤ p.status && p.status < 300

/-- The text of a file, or why its bytes are no text. -/
abbrev FileContent := Except Text.Utf8.Fault String

/-- The steps of a command that go as deep as what they read. -/
inductive Stage where
  | settings | document | project
  deriving DecidableEq

/-- The requests of a command. -/
class Host (m : Type → Type) where
  /-- Whether a path names a file or a directory. -/
  isPresent : String → m Bool
  isDirectory : String → m Bool
  /-- The content of a file. -/
  read : String → m (Except FileFault FileContent)
  /-- Makes a file or replaces its content. -/
  write : String → String → m (Except FileFault Unit)
  /-- Puts a text into a file that has just been made. -/
  fill : String → String → m (Except FileFault Unit)
  makeDirectory : String → m (Except FileFault Unit)
  /-- The page at an address; none if there is no connection. -/
  fetch : String → m (Option Page)
  printLine : String → m Unit
  workingDirectory : m String
  /-- Whether the stack is large enough for a step. -/
  hasStackFor : Stage → m Bool

namespace Host

variable {m : Type → Type} [Monad m] [Host m]

/-- The text of a file with every line break made a line feed. -/
def unifyLineBreaks : List Char → List Char
  | '\r' :: '\n' :: rest => '\n' :: unifyLineBreaks rest
  | '\r' :: rest => '\n' :: unifyLineBreaks rest
  | c :: rest => c :: unifyLineBreaks rest
  | [] => []

/-- The text of a file as lines. -/
def readText (path : String) : m (Except FileFault FileContent) := do
  return (← Host.read path).map fun content =>
    content.map fun text => String.ofList (unifyLineBreaks text.toList)

/-- Makes a directory unless it is there already. -/
def ensureDirectory (path : String) : m (Except FileFault Unit) := do
  match ← Host.makeDirectory path with
  | .ok () => return .ok ()
  | .error fault =>
    let isThere ← Host.isDirectory path
    return if fault.reason != .nullCharacter && isThere then .ok () else .error fault

/-- Makes a directory and those on the way to it. The number bounds the names of the path. That a
path on the way is taken is left to the directory itself to find out. -/
def makeDirectoriesWithin : Nat → String → m (Except FileFault Unit)
  | 0, _ => return .ok ()
  | n + 1, path => do
    let (parent, name) := Path.parentAndName path
    if parent = "" || name = "" || (← Host.isPresent parent) then ensureDirectory path
    else
      let made ← makeDirectoriesWithin n parent
      match made with
      | .error ⟨.taken, _⟩ | .ok () => if name = "." then return .ok () else ensureDirectory path
      | .error fault => return .error fault

/-- Makes a directory and those on the way to it. -/
def makeDirectories (path : String) : m (Except FileFault Unit) :=
  makeDirectoriesWithin (path.length + 1) path

end Host

end TypedClient
