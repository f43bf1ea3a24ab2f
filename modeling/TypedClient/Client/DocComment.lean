import TypedClient.Client.Call

/-!
# Comments on methods

The comment of a method tells what the operation does, describes its parameters, and shows a call. A
text of the document is guarded against closing the comment and is cut into lines; the descriptions
of parameters stay on one line.
-/

namespace TypedClient.DocComment

open Text

/-- Lines of a comment from the lines of a text, without white space at their ends. -/
def starred (text : String) : List String :=
  (lineBodies text.toList).map fun line => String.ofList (trimEnd (" * ".toList ++ line))

/-- The description of a parameter, or its name if it has none. -/
def parameterText (p : Parameter) : String :=
  inComment (match p.description with
    | some d => if d.isEmpty then p.name else d
    | none => p.name)

/-- The lines about the path parameters. -/
def pathLines (ps : List Parameter) : List String :=
  if ps.isEmpty then []
  else " * @param params - Path parameters" ::
    ps.map fun p => " * @param params." ++ p.name ++ " - " ++ parameterText p

/-- The lines about the query parameters. -/
def queryLines (ps : List Parameter) : List String :=
  if ps.isEmpty then []
  else " * @param query - Query parameters" ::
    ps.map fun p => " * @param query." ++ p.name ++ " - " ++ parameterText p ++
      (if p.required then " (required)" else " (optional)")

/-- The lines about the operation. -/
def aboutLines (e : Endpoint) : List String :=
  starred (inComment e.headline) ++
    (match e.description with
      | some d => if d.isEmpty then [] else " *" :: starred (inComment d)
      | none => []) ++
    [" *"]

/-- The code of the example in the comment. -/
def example_ (reg : Registry) (e : Endpoint) : String :=
  Call.statement Call.commentStyle reg e ++ "\n" ++
    "if (result._tag === 'Success') \x7b\n" ++
    "  console.log(result.data);\n" ++
    "\x7d else \x7b\n" ++
    "  console.error('Error:', result.status, result.message);\n" ++
    "\x7d"

/-- The lines of the comment on the method of an endpoint. -/
def lines (reg : Registry) (e : Endpoint) : List String :=
  ["/**"] ++ aboutLines e ++ pathLines e.pathParameters ++ queryLines e.queryParameters ++
    (if e.requestBody.isSome then [" * @param body - Request body"] else []) ++
    [" * @returns Promise resolving to API result with type-safe success/error handling",
      " *",
      " * @example",
      " * ```typescript"] ++
    starred (example_ reg e) ++
    [" * ```", " */"]

/-- The comment on the method of an endpoint at a level. -/
def text (reg : Registry) (e : Endpoint) (level : Int) : String :=
  String.join ((lines reg e).map fun line => indent level ++ line ++ "\n")

end TypedClient.DocComment
