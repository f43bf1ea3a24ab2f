import TypedClient.Text.Split

/-!
# Paths

A path is a text of names between slashes. A path that begins with a slash starts at the root of the
system, any other one at the working directory. An empty name and a single point stand for the
directory itself, two points for the one above.
-/

namespace TypedClient.Path

open Text

/-- What follows the last slash. -/
def baseName (path : String) : String :=
  String.ofList (afterLast '/' path.toList)

/-- The text without the slashes at its end, unless it consists of slashes. -/
def trimSlashes (cs : List Char) : List Char :=
  if cs.all (· = '/') then cs else (cs.reverse.dropWhile (· = '/')).reverse

/-- What precedes the last slash, without slashes at its end. -/
def directoryName (path : String) : String :=
  String.ofList (trimSlashes ((path.toList.reverse.dropWhile (· != '/')).reverse))

/-- A path continued from a directory. -/
def join (directory path : String) : String :=
  if path.startsWith "/" then path
  else if directory.isEmpty || directory.endsWith "/" then directory ++ path
  else directory ++ "/" ++ path

/-- Whether a path starts at the root of the system. -/
def isAbsolute (path : String) : Bool :=
  path.startsWith "/"

/-- The names of a path. -/
def names (path : String) : List String :=
  (splitAt '/' path.toList).map String.ofList

/-- The names of a path after others, with two points taken back. What is taken back beyond the
start is dropped. -/
def follow (start : List String) (path : String) : List String :=
  (names path).foldl (fun taken name =>
    if name = "" || name = "." then taken
    else if name = ".." then taken.dropLast
    else taken ++ [name]) start

/-- The absolute path of a path in a working directory. -/
def absolute (root path : String) : String :=
  let taken := follow (if isAbsolute path then [""] else names root) path
  if taken = [""] || taken = [] then "/" else String.intercalate "/" taken

/-- The parent of a directory and its name, for making it. A slash at the end is passed over. -/
def parentAndName (path : String) : String × String :=
  if baseName path = "" then (directoryName (directoryName path), baseName (directoryName path))
  else (directoryName path, baseName path)

end TypedClient.Path
