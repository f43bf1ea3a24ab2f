import TypedClient.Toml
import TypedClient.Toml.Printer
import TypedClient.Files.Host
import TypedClient.Client.Generation

/-!
# Settings

What a run generates from, where it writes to, and whether examples are included. Settings are kept
in a TOML file; what is given on the command line goes before what the file says. The file may hold
any value for the source and the output, so these are values here.
-/

namespace TypedClient

/-- The settings of a run. -/
structure Settings where
  url : Value
  output : Value
  includeExample : Bool

/-- Settings of the command line that go before those of a file. An empty text counts as not given.
-/
structure Settings.Override where
  url : Option String
  output : Option String
  noExample : Bool

/-- Why settings cannot be read or written. -/
inductive SettingsFault where
  /-- The bytes of the file are no text. -/
  | bytes (fault : Text.Utf8.Fault)
  /-- The text of the file asks for something that a value does not have. -/
  | format (fault : Toml.Fault)
  | file (fault : FileFault)

namespace Settings

/-- The name of the settings file. -/
def fileName : String := "openapi.toml"

def default : Settings := ⟨.null, .text Options.defaultClientFile, true⟩

/-- The settings that the entries of a table hold. -/
def ofEntries (entries : List (Value × Value)) : Settings where
  url := Value.get entries "url"
  output := (Value.find? entries "output").getD default.output
  includeExample := ((Value.find? entries "include_example").map Value.isTruthy).getD true

/-- The entries that hold the settings. A source that counts as absent has none. -/
def entries (s : Settings) : List (Value × Value) :=
  [(.text "output", s.output), (.text "include_example", .bool s.includeExample)] ++
    if s.url.isTruthy then [(.text "url", s.url)] else []

/-- A text that is given, or a value. -/
def given (text : Option String) (v : Value) : Value :=
  match text with
  | some s => if s.isEmpty then v else .text s
  | none => v

/-- The settings with what goes before them. -/
def override (s : Settings) (o : Override) : Settings :=
  ⟨given o.url s.url, given o.output s.output, s.includeExample && !o.noExample⟩

/-- The settings that a text holds, if it is a TOML text. -/
def ofText (text : String) : Except Toml.Fault (Option Settings) :=
  match Toml.read text with
  | .ok entries => .ok (some (ofEntries entries))
  | .error .malformed => .ok none
  | .error fault => .error fault

/-- The text that holds the settings. -/
def text (s : Settings) : Except Toml.Fault String :=
  Toml.write s.entries

section

variable {m : Type → Type} [Monad m] [Host m]

/-- The path of the settings file: the one in a directory, if there is one, or the given one. -/
def locate (path : String) (directory : Option String) : m String := do
  match directory with
  | none => return path
  | some d =>
    let inside := Path.join d fileName
    if d != "" && (← Host.isDirectory d) && (← Host.isPresent inside) then return inside
    else return path

/-- The settings in a file. There are none if the file is missing, is a directory, or is not a TOML
text. -/
def load (path : String) (directory : Option String) :
    m (Except SettingsFault (Option Settings)) := do
  let path ← locate path directory
  if !(← Host.isPresent path) then return .ok none
  match ← Host.readText path with
  | .error _ => return .ok none
  | .ok (.error fault) => return .error (.bytes fault)
  | .ok (.ok text) => return (ofText text).mapError .format

/-- Writes the settings to a file. The file is there, and empty, before its text is known. -/
def save (s : Settings) (path : String) : m (Except SettingsFault Unit) := do
  match ← Host.write path "" with
  | .error fault => return .error (.file fault)
  | .ok () =>
    match s.text with
    | .error fault => return .error (.format fault)
    | .ok text => return (← Host.write path text).mapError .file

end

end Settings

end TypedClient
