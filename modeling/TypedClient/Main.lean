import TypedClient.Command.Run

/-!
# The command

The host of the command is the system it runs on. Pages are out of its reach, so a document is read
from a file.
-/

namespace TypedClient.Main

/-- The reason of an error of the system, by its number. -/
def reasonOf : IO.Error → FileFault.Reason
  | .alreadyExists _ _ _ => .taken
  | .inappropriateType _ code _ => if code = 21 then .directory else .notDirectory
  | .invalidArgument _ 36 _ => .nameTooLong
  | .resourceExhausted _ 36 _ => .nameTooLong
  | .noFileOrDirectory _ _ _ => .missing
  | .permissionDenied _ _ _ => .other "[Errno 13] Permission denied"
  | e => .other (toString e)

/-- A request for a path with its refusal. -/
def attempt {α : Type} (path : String) (x : IO α) : IO (Except FileFault α) := do
  if path.toList.contains '\x00' then return .error ⟨.nullCharacter, path⟩
  try return .ok (← x)
  catch e => return .error ⟨reasonOf e, path⟩

/-- Whether a path names a directory; none if it names nothing. -/
def directory? (path : String) : IO (Option Bool) := do
  try
    let found ← IO.FS.realPath path
    return some (← found.isDir)
  catch _ => return none

instance : Host IO where
  isPresent path := return (← directory? path).isSome
  isDirectory path := return (← directory? path) = some true
  read path := do
    if (← directory? path) = some true then return .error ⟨.directory, path⟩
    let bytes ← attempt path (IO.FS.readBinFile path)
    return bytes.map fun b => Text.Utf8.decode b.toList
  write path text := do
    if (← directory? path) = some true || path.endsWith "/" then return .error ⟨.directory, path⟩
    attempt path (IO.FS.writeFile path text)
  fill path text := attempt path (IO.FS.writeFile path text)
  makeDirectory path := attempt path (IO.FS.createDir path)
  fetch _ := return none
  printLine := IO.println
  workingDirectory := return (← IO.currentDir).toString
  hasStackFor _ := return true

/-- What is said of a fault that stops a run. -/
def complaint : RunFault → String
  | .noUrl => "no source is given"
  | .urlNotText => "the source in the settings is not a text"
  | .urlWithoutText => "the source in the settings has no text"
  | .outputNotText => "the output in the settings is not a text"
  | .source fault => fault.message
  | .generation (.document fault) => fault.message
  | .generation (.extraction _) => "the document cannot be read"
  | .generation (.clientClass (.status code)) => "not a status code: " ++ code
  | .generation (.clientClass .noText) | .generation .noText =>
    "a value in the document has no text"
  | .file fault => fault.message
  | .settings (.bytes fault) => fault.message
  | .settings (.format _) => "the settings cannot be read or written"
  | .settings (.file fault) => fault.message
  | .encoding => "the client cannot be encoded"
  | .stack => "the document is too deep"
  | .unsupported => "the document or its path is not supported"

/-- The options of the command. -/
def usage : String :=
  "options: " ++ String.intercalate " " (Arguments.options.map (·.1))

end TypedClient.Main

open TypedClient in
def main (args : List String) : IO UInt32 := do
  let ending ← Command.run args
  match ending with
  | .usage .help => IO.println TypedClient.Main.usage
  | .usage .unusable => IO.eprintln TypedClient.Main.usage
  | .stopped fault => IO.eprintln (TypedClient.Main.complaint fault)
  | _ => pure ()
  return ending.exitCode.toUInt32
