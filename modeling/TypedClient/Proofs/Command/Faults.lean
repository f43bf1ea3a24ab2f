import TypedClient.Proofs.Command.Session
import TypedClient.Proofs.Failure.Generation

/-!
# Faults that a run does not report

Before a run saves its files, it fails silently for these reasons only: the settings file is there
but not readable (`Workspace.Unreadable`), the text of the document has an impossible value
(`Source.Impossible`), the generation gets settings or a document of a kind that it is not made for,
or the stack is too small for a step (`Settings.Interrupts`). Every other fault up to then has a
text to report, or is about something that is not represented (`RunFault.IsUnsupported`).
-/

namespace TypedClient

namespace Source

end Source

namespace Session

end Session

/-! ## Generations -/

section

variable {ε ε' α β : Type} {P : ε → Prop}

end

namespace Workspace

/-- Why settings are not read though their file is there: its bytes are no text, or reading the text
goes wrong otherwise than that it is not in the format. -/
inductive Unreadable (w : Workspace) (path : String) : Prop
  | bytes {fault : Text.Utf8.Fault} (h : w.content? path = some (.error fault))
  | format {text : String} {fault : Toml.Fault} (htext : w.content? path = some (.ok text))
      (h : Toml.read text = .error fault) (hmalformed : fault ≠ .malformed)
      (hunsupported : fault ≠ .unsupported)

variable {w : Workspace} {path : String}

end Workspace

namespace Settings

end Settings

end TypedClient
