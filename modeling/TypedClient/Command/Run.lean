import TypedClient.Command.Arguments
import TypedClient.Source

/-!
# Runs of the command

A run reads its settings, loads the document, generates the project, and saves its files; or it only
writes a settings file. What it does is told line by line. Faults of the source, of the document and
of the files are reported on a line; any other fault stops the run where it is. Runs that meet what
is not represented stop as well, and nothing is said of them (`RunFault.IsUnsupported`).
-/

namespace TypedClient

/-- Why a run does not reach its end. -/
inductive RunFault where
  | noUrl
  | urlNotText
  /-- The source in the settings has no text. -/
  | urlWithoutText
  | outputNotText
  | source (fault : SourceFault)
  | generation (fault : GenerationFault)
  | file (fault : FileFault)
  | settings (fault : SettingsFault)
  /-- A text that is to be written holds a lone surrogate. -/
  | encoding
  /-- A step goes deeper than the stack of the host. -/
  | stack
  /-- A text that is not of the document, or its base address, holds a character that stands for a
  lone surrogate. -/
  | unsupported

namespace RunFault

/-- Whether the run met something that is not represented. -/
def IsUnsupported : RunFault → Prop
  | .unsupported => True
  | .source fault => fault = .unsupported
  | .settings fault => fault = .format .unsupported
  | _ => False

/-- The text of a fault of the system, unless the path could not even be asked for. -/
def ofFile (fault : FileFault) : Option String :=
  if fault.reason = .nullCharacter then none else some fault.message

/-- The text of a fault that a run reports. The others have none. -/
def report? : RunFault → Option String
  | .source (.unreadable name cause) => some (SourceFault.unreadable name cause).message
  | .source (.file fault) => ofFile fault
  | .source (.status code) => some (SourceFault.status code).message
  | .source .noConnection => some SourceFault.noConnection.message
  | .generation (.document fault) => some fault.message
  | .file fault => ofFile fault
  | _ => none

end RunFault

/-- How a run ends. -/
inductive Ending where
  | done
  /-- The arguments are not run. -/
  | usage (fault : ArgumentsFault)
  /-- No source is given. -/
  | noSource
  /-- The fault has been reported. -/
  | reported (fault : RunFault)
  | stopped (fault : RunFault)

/-- The exit code that tells how a run ends. -/
def Ending.exitCode : Ending → Nat
  | .done | .usage .help => 0
  | .usage .unusable => 2
  | _ => 1

namespace Command

variable {m : Type → Type} [Monad m] [Host m]

/-- A line of the report. -/
def tell (line : String) : ExceptT RunFault m Unit :=
  ExceptT.lift (Host.printLine line)

/-- A request whose fault ends the run. -/
def request {ε α : Type} (fault : ε → RunFault) (x : m (Except ε α)) : ExceptT RunFault m α :=
  ExceptT.mk do return (← x).mapError fault

/-- Asks whether the stack is large enough for a step. -/
def requireStack (stage : Stage) : ExceptT RunFault m Unit := do
  if !(← ExceptT.lift (Host.hasStackFor stage)) then throw .stack

/-- Whether the texts beside those of the document are represented. Its base address counts among
them, for it is written in escapes. -/
def isRepresented (url output : String) (raw : Value) : Bool :=
  Text.isEncodable url && Text.isEncodable output &&
    match Document.ofValue raw with
    | .ok doc => Text.isEncodable doc.baseUrl
    | .error _ => true

/-- The project for settings. -/
def generateClient (s : Settings) : ExceptT RunFault m Project := do
  if !s.url.isTruthy then throw .noUrl
  if !s.url.hasText then throw .urlWithoutText
  tell ("🚀 Генерация клиента из " ++ s.url.display)
  tell "📥 Загрузка OpenAPI спецификации..."
  let .text url := s.url | throw .urlNotText
  requireStack .document
  let raw ← request .source (Source.load url)
  tell "⚙️ Генерация кода..."
  let .text output := s.output | throw .outputNotText
  if !isRepresented url output raw then throw .unsupported
  requireStack .project
  let options : Options := ⟨some url, Path.baseName output, s.includeExample⟩
  let (project, _) ← request .generation (pure (generate raw options))
  return project

/-- Writes a file. It is there, and empty, before its text is encoded. -/
def writeFile (path text : String) : ExceptT RunFault m Unit := do
  request .file (Host.write path "")
  if !Text.isEncodable text then throw .encoding
  request .file (Host.fill path text)

/-- Writes files one after another into a directory. -/
def writeFiles (directory : String) : List CodeFile → ExceptT RunFault m Unit
  | [] => return
  | f :: rest => do
    writeFile (Path.join directory f.name) f.text
    writeFiles directory rest

/-- Saves the files of a project in a directory. -/
def saveProject (project : Project) (directory : String) : ExceptT RunFault m Unit := do
  tell ("💾 Сохранение " ++ toString project.files.length ++ " файлов...")
  if directory != "" then request .file (Host.makeDirectories directory)
  writeFiles directory project.files
  tell "✅ Генерация завершена успешно!"
  let root ← ExceptT.lift Host.workingDirectory
  tell ("📦 Клиент создан в: " ++ Path.absolute root directory)

/-- Generates the client and saves it. -/
def generateAndSave (s : Settings) : ExceptT RunFault m Unit := do
  let project ← generateClient s
  let .text output := s.output | throw .outputNotText
  saveProject project (Path.directoryName output)

/-- Writes the settings that the command line gives. -/
def initSettings (a : Arguments) : ExceptT RunFault m Unit := do
  request .settings ((Settings.default.override a.override).save a.config)
  tell ("✅ Создан конфиг файл " ++ a.config)

/-- The settings of the file with those of the command line before them. -/
def readSettings (a : Arguments) : ExceptT RunFault m Settings := do
  requireStack .settings
  match ← request .settings (Settings.load a.config none) with
  | some found =>
    tell ("📋 Используется конфиг из " ++ a.config)
    return found.override a.override
  | none => return Settings.default.override a.override

/-- Writes the settings of a run. -/
def keepSettings (s : Settings) (path : String) : ExceptT RunFault m Unit := do
  request .settings (s.save path)
  tell ("💾 Конфиг сохранен в " ++ path)

/-- The ending of a step that stops the run if it fails. -/
def ending (x : ExceptT RunFault m Unit) : m Ending := do
  match ← x.run with
  | .ok () => return .done
  | .error fault => return .stopped fault

/-- Generates and saves, and reports what can be reported. -/
def generateOrReport (s : Settings) (after : m Ending) : m Ending := do
  match ← (generateAndSave s).run with
  | .ok () => after
  | .error fault =>
    match fault.report? with
    | some text =>
      Host.printLine ("❌ Ошибка генерации: " ++ text)
      return .reported fault
    | none => return .stopped fault

/-- A run for arguments. -/
def runWith (a : Arguments) : m Ending := do
  if a.initConfig then ending (initSettings a)
  else
    match ← (readSettings a).run with
    | .error fault => return .stopped fault
    | .ok s =>
      if s.url.isTruthy then
        generateOrReport s
          (if a.saveConfig then ending (keepSettings s a.config) else return .done)
      else
        Host.printLine "❌ Ошибка: Укажите --url или создайте конфиг с --init-config"
        return .noSource

/-- A run of the command. -/
def run (args : List String) : m Ending :=
  match Arguments.parse args with
  | .error fault => return .usage fault
  | .ok a => runWith a

end Command

end TypedClient
