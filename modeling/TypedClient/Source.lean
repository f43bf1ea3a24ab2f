import TypedClient.Json
import TypedClient.Yaml
import TypedClient.Files.Host
import TypedClient.Text.Case

/-!
# Sources of documents

A document is read from a file or from an address of the web. Its text is JSON or YAML: a name that
ends like a YAML file says YAML, any other text is YAML if it is not JSON.
-/

namespace TypedClient

/-- Why a text holds no document. -/
inductive SourceFault.Cause where
  | missing
  | bytes (fault : Text.Utf8.Fault)
  | format
  deriving DecidableEq

/-- Why no document is read from a source. -/
inductive SourceFault where
  /-- The source is not readable as a document. -/
  | unreadable (source : String) (cause : SourceFault.Cause)
  | file (fault : FileFault)
  /-- The page is not a success. -/
  | status (code : Nat)
  /-- The address is not in reach. -/
  | noConnection
  /-- The text holds a numeral with too many digits. -/
  | oversizedNumeral
  /-- A scalar of the text denotes no value of its type. -/
  | value (fault : Yaml.Fault)
  /-- The text holds a character that stands for a lone surrogate here, or a value that has no place
  among those of documents. -/
  | unsupported

def SourceFault.Cause.message : SourceFault.Cause → String
  | .missing => "файл не найден"
  | .bytes fault => fault.message
  | .format => "not a YAML text"

def SourceFault.message : SourceFault → String
  | .unreadable source cause =>
    "Не удалось загрузить спецификацию из '" ++ source ++ "': " ++ cause.message
  | .file fault => fault.message
  | .status code => "HTTP status " ++ toString code
  | .noConnection => "connection refused"
  | .oversizedNumeral => "numeral too long"
  | .value _ => "impossible value"
  | .unsupported => "unsupported text"

namespace Source

/-- Whether a name says that a text is YAML. -/
def isYamlName (source : String) : Bool :=
  let name := Text.lower source
  name.endsWith ".yaml" || name.endsWith ".yml"

/-- The document of a YAML text. -/
def parseYaml (text source : String) : Except SourceFault Value :=
  match Yaml.read text with
  | .ok v => .ok v
  | .error .malformed => .error (.unreadable source .format)
  | .error .unsupported => .error .unsupported
  | .error fault => .error (.value fault)

/-- The document of a text. -/
def parse (text source : String) : Except SourceFault Value :=
  if !Text.isEncodable text then .error .unsupported
  else if isYamlName source then parseYaml text source
  else
    match Json.read text with
    | .ok v => .ok v
    | .error .malformed => parseYaml text source
    | .error .oversized => .error .oversizedNumeral
    | .error .unsupported => .error .unsupported

/-- Whether a source is an address of the web. -/
def isAddress (source : String) : Bool :=
  source.startsWith "http://" || source.startsWith "https://"

variable {m : Type → Type} [Monad m] [Host m]

/-- The document of a page. -/
def readPage (source : String) : m (Except SourceFault Value) := do
  match ← Host.fetch source with
  | none => return .error .noConnection
  | some page =>
    if page.isSuccess then return parse page.text source else return .error (.status page.status)

/-- The document of a file. -/
def readFile (source : String) : m (Except SourceFault Value) := do
  if !(← Host.isPresent source) then return .error (.unreadable source .missing)
  match ← Host.readText source with
  | .error fault => return .error (.file fault)
  | .ok (.error fault) => return .error (.unreadable source (.bytes fault))
  | .ok (.ok text) => return parse text source

/-- The document of a source. -/
def load (source : String) : m (Except SourceFault Value) :=
  if isAddress source then readPage source else readFile source

end Source

end TypedClient
