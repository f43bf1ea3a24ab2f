import TypedClient.Text.Indent

/-!
# Projects

A project is a list of files, and a file is a list of blocks of code. The text of a file has its
blocks by ascending order, and blocks of one order as they were added. Files of one name may be
added; the first one is found.
-/

namespace TypedClient

/-- A block of code with its place in a file. -/
structure CodeBlock where
  order : Int
  code : String

/-- The text of a block: its tabs are written as spaces. -/
def CodeBlock.text (b : CodeBlock) : String :=
  Text.expandTabs b.code

/-- A file of a project with its blocks as they were added. -/
structure CodeFile where
  name : String
  blocks : List CodeBlock

namespace CodeFile

/-- The blocks with another one after all blocks of its order or less. -/
def insert (b : CodeBlock) : List CodeBlock → List CodeBlock
  | [] => [b]
  | x :: xs => if x.order ≤ b.order then x :: insert b xs else b :: x :: xs

/-- The blocks by ascending order. -/
def arranged (f : CodeFile) : List CodeBlock :=
  f.blocks.foldl (fun sorted b => insert b sorted) []

def text (f : CodeFile) : String :=
  String.join (f.arranged.map CodeBlock.text)

def add (f : CodeFile) (b : CodeBlock) : CodeFile :=
  { f with blocks := f.blocks ++ [b] }

end CodeFile

/-- A named list of files. -/
structure Project where
  name : String
  files : List CodeFile

namespace Project

/-- The project without files. -/
def empty (name : String) : Project := ⟨name, []⟩

def addFile (p : Project) (f : CodeFile) : Project :=
  { p with files := p.files ++ [f] }

/-- The project with a block added to the file at a position, if there is one. -/
def addBlock? (p : Project) (position : Nat) (b : CodeBlock) : Option Project :=
  if position < p.files.length then some { p with files := p.files.modify position (·.add b) }
  else none

/-- The first file of a name. -/
def find? (p : Project) (name : String) : Option CodeFile :=
  p.files.find? (·.name = name)

/-- The names and texts of the files. -/
def texts (p : Project) : List (String × String) :=
  p.files.map fun f => (f.name, f.text)

end Project

end TypedClient
