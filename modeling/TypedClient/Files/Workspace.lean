import TypedClient.Files.Host

/-!
# A workspace

The working directory of a command as a value: directories and files under the names that lead to
them, the pages that can be fetched, and the lines that have been printed. Nothing is known of what
lies outside the working directory except that its directories are there. A path leads to one place
only: there are no links. The system may refuse any path that is to be made for reasons that the
entries do not show, a device may break off a file, and the stack may be too small for a step.
-/

namespace TypedClient

/-- What is found under names. -/
inductive Entry where
  | directory
  | file (content : FileContent)

/-- The files of a working directory, each under the names that lead to it, and the words with which
the system refuses paths that nothing else is wrong with. -/
structure Workspace where
  entries : List (List String × Entry)
  refuses : String → Option String

namespace Workspace

/-- The working directory with entries, in which the system refuses no path. -/
def ofEntries (entries : List (List String × Entry)) : Workspace := ⟨entries, fun _ => none⟩

def empty : Workspace := ofEntries []

/-- What is found under names. The working directory itself has none. -/
def entry? (w : Workspace) (names : List String) : Option Entry :=
  if names.isEmpty then some .directory else (w.entries.find? fun e => e.1 = names).map (·.2)

/-- The workspace with an entry set. -/
def put (w : Workspace) (names : List String) (e : Entry) : Workspace :=
  if (w.entries.any fun x => x.1 = names) then
    { w with entries := w.entries.map fun x => if x.1 = names then (names, e) else x }
  else { w with entries := w.entries ++ [(names, e)] }

/-- The workspace with an entry and the directories above it. -/
def place (w : Workspace) (names : List String) (e : Entry) : Workspace :=
  let parents := (List.range names.length).map fun n => names.take n
  let w := parents.foldl (fun w p =>
    if (w.entry? p).isSome then w else w.put p .directory) w
  match e, w.entry? names with
  | .directory, some _ => w
  | e, _ => w.put names e

/-- A place that a path leads to: names in the working directory, or a directory outside it. -/
inductive Place where
  | within (names : List String)
  | outside
  deriving DecidableEq

/-- What is found at a place. -/
def entryAt? (w : Workspace) : Place → Option Entry
  | .within names => w.entry? names
  | .outside => some .directory

/-- The longest name of a file, in bytes. -/
def nameLimit : Nat := 255

/-- The place one name further. Only a directory leads further. -/
def step (w : Workspace) (p : Place) (name : String) : Except FileFault.Reason Place :=
  match w.entryAt? p with
  | none => .error .missing
  | some (.file _) => .error .notDirectory
  | some .directory =>
    if name = "" || name = "." then .ok p
    else
      match p with
      | .outside => .error .missing
      | .within names =>
        if name = ".." then .ok (if names.isEmpty then .outside else .within names.dropLast)
        else if nameLimit < name.utf8ByteSize then .error .nameTooLong
        else .ok (.within (names ++ [name]))

/-- The place at the end of names. A place on the way that is not there is found out by the next
step. -/
def walk (w : Workspace) (start : Place) (names : List String) : Except FileFault.Reason Place :=
  names.foldlM w.step start

/-- Where a path starts. -/
def startOf (path : String) : Place :=
  if Path.isAbsolute path then .outside else .within []

/-- The place of a path. -/
def locate (w : Workspace) (path : String) : Except FileFault.Reason Place :=
  if path.toList.contains '\x00' then .error .nullCharacter
  else if path = "" then .error .missing
  else w.walk (startOf path) (Path.names path)

/-- What a path names. -/
def find (w : Workspace) (path : String) : Except FileFault.Reason Entry := do
  match w.entryAt? (← w.locate path) with
  | some e => return e
  | none => throw .missing

def isPresent (w : Workspace) (path : String) : Bool :=
  (w.find path).toOption.isSome

def isDirectory (w : Workspace) (path : String) : Bool :=
  match w.find path with
  | .ok .directory => true
  | _ => false

/-- The content of the file that a path names. -/
def read (w : Workspace) (path : String) : Except FileFault FileContent :=
  match w.find path with
  | .ok (.file content) => .ok content
  | .ok .directory => .error ⟨.directory, path⟩
  | .error reason => .error ⟨reason, path⟩

/-- The place that a new file or directory gets. -/
def locateNew (w : Workspace) (path : String) : Except FileFault.Reason Place :=
  w.locate (String.ofList (Path.trimSlashes path.toList))

/-- The workspace with an entry made at a path, unless the system refuses it. -/
def make (w : Workspace) (path : String) (names : List String) (e : Entry) :
    Except FileFault Workspace :=
  match w.refuses path with
  | some words => .error ⟨.other words, path⟩
  | none => .ok (w.put names e)

/-- The workspace with a file of a content. A path that ends in a slash names no file. -/
def store (w : Workspace) (path : String) (content : FileContent) : Except FileFault Workspace :=
  match w.locateNew path with
  | .error reason => .error ⟨reason, path⟩
  | .ok .outside => .error ⟨.directory, path⟩
  | .ok (.within names) =>
    if path.endsWith "/" then .error ⟨.directory, path⟩
    else
      match w.entry? names with
      | some .directory => .error ⟨.directory, path⟩
      | _ => w.make path names (.file content)

/-- The workspace with a file written. -/
def write (w : Workspace) (path text : String) : Except FileFault Workspace :=
  w.store path (.ok text)

/-- The workspace with a directory made. -/
def makeDirectory (w : Workspace) (path : String) : Except FileFault Workspace :=
  match w.locateNew path with
  | .error reason => .error ⟨reason, path⟩
  | .ok p =>
    match p, w.entryAt? p with
    | .within names, none => w.make path names .directory
    | _, _ => .error ⟨.taken, path⟩

/-- The files with their paths, those of decodable content. -/
def texts (w : Workspace) : List (String × String) :=
  w.entries.filterMap fun e =>
    match e.2 with
    | .file (.ok text) => some (String.intercalate "/" e.1, text)
    | _ => none

/-- The files that are new or have another text than before, by path. -/
def changes (before after : Workspace) : List (String × String) :=
  let known := before.texts
  (after.texts.filter fun f => !known.contains f).mergeSort fun a b => !(b.1 < a.1)

end Workspace

/-- What a device leaves of a file that it breaks off, and the words of its failure. -/
structure Cut where
  content : FileContent
  words : String

/-- A workspace in a session: its name, the pages in reach, what has been printed, the paths under
which the device breaks off what is put into a file, and the steps that the stack is large enough
for. -/
structure Session where
  workspace : Workspace
  root : String
  pages : List (String × Page)
  printed : List String
  cuts : String → Option Cut
  stack : Stage → Bool

namespace Session

/-- A session in a workspace with nothing printed yet, on a host that fails at nothing. -/
def start (w : Workspace) (root : String) (pages : List (String × Page)) : Session :=
  ⟨w, root, pages, [], fun _ => none, fun _ => true⟩

/-- The session after a change of its workspace, unless the change is refused. -/
def update (s : Session) : Except FileFault Workspace → Except FileFault Unit × Session
  | .ok w => (.ok (), { s with workspace := w })
  | .error fault => (.error fault, s)

/-- The session after a text is put into a file, of which the device may leave less. -/
def fill (s : Session) (path text : String) : Except FileFault Unit × Session :=
  match s.cuts path with
  | none => s.update (s.workspace.write path text)
  | some cut =>
    match s.workspace.store path cut.content with
    | .ok w => (.error ⟨.device cut.words, path⟩, { s with workspace := w })
    | .error fault => (.error fault, s)

instance : Host (StateM Session) where
  isPresent path := fun s => (s.workspace.isPresent path, s)
  isDirectory path := fun s => (s.workspace.isDirectory path, s)
  read path := fun s => (s.workspace.read path, s)
  write path text := fun s => s.update (s.workspace.write path text)
  fill path text := fun s => s.fill path text
  makeDirectory path := fun s => s.update (s.workspace.makeDirectory path)
  fetch url := fun s => ((s.pages.find? fun p => p.1 = url).map (·.2), s)
  printLine line := fun s => ((), { s with printed := s.printed ++ [line] })
  workingDirectory := fun s => (s.root, s)
  hasStackFor stage := fun s => (s.stack stage, s)

end Session

end TypedClient
