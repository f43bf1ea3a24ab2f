import TypedClient.Client.Signature
import TypedClient.Client.Scaffold

/-!
# Body of a method

After the address is built, the query is appended to it, the options of the request are set, and the
request is made with its outcome wrapped in a result.
-/

namespace TypedClient.Request

open Text

/-- The line that sets one query parameter if it is given. -/
def setQuery (level : Int) (p : Parameter) : String :=
  let access := Name.memberAccess "query" p.name
  indent level ++ "if (" ++ access ++ " !== undefined) searchParams.set(" ++ singleQuoted p.name ++
    ", String(" ++ access ++ "));\n"

/-- The statements that append the query to the address. -/
def query (ps : List Parameter) (level : Int) : String :=
  if ps.isEmpty then indent level ++ "const finalUrl = url;\n\n"
  else
    indent level ++ "const searchParams = new URLSearchParams();\n" ++
      indent level ++ "if (query) \x7b\n" ++
      String.join (ps.map (setQuery (level + 1))) ++
      indent level ++ "\x7d\n" ++
      indent level ++ "const queryString = searchParams.toString();\n" ++
      indent level ++
        "const finalUrl = queryString ? `$\x7burl\x7d?$\x7bqueryString\x7d` : url;\n\n"

/-- The line of the options that sets the body. -/
def bodyOption (body : Option RequestBody) (level : Int) : String :=
  match body with
  | some b =>
    if b.required then indent level ++ "body: JSON.stringify(body),\n"
    else indent level ++ "body: body !== undefined ? JSON.stringify(body) : undefined,\n"
  | none => ""

/-- The options of the request. -/
def options (e : Endpoint) (level : Int) : String :=
  indent level ++ "const options: RequestInit = \x7b\n" ++
    indent (level + 1) ++ "method: '" ++ e.verb.upper ++ "',\n" ++
    bodyOption e.requestBody (level + 1) ++
    indent level ++ "\x7d;\n\n"

/-- The request with a type for its response, at no level. -/
def wrapped (response : String) : String :=
  Scaffold.ofLines (Scaffold.requestOpening ++
    ["  const data = await this.internalFetch<" ++ response ++ ">(finalUrl, options);"] ++
    Scaffold.requestClosing)

/-- Everything after the address. -/
def text (e : Endpoint) (response : String) (level : Int) : String :=
  query e.queryParameters level ++ options e level ++ indentBlock (wrapped response) level

end TypedClient.Request
