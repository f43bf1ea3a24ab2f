import TypedClient.Client.DocComment
import TypedClient.Client.Request
import TypedClient.Client.Url

/-!
# Methods of the client class

The method of an endpoint is its comment, its signature and its body. It cannot be written if a
status code consists of digits that form no numeral.
-/

namespace TypedClient.Method

open Text

/-- The opening and the body of the method of an endpoint, given the type of its error statuses. -/
def code (reg : Registry) (e : Endpoint) (error : Option String) (level : Int) : String :=
  let response := Signature.responseType reg e.responses
  Signature.opening (Name.method e.operationId) (Signature.arguments reg e)
      (Signature.resultType response error) level ++
    Url.statement (e.pathParameters.map (·.name)) e.path (level + 1) ++
    Request.text e response (level + 1) ++
    indent level ++ "\x7d\n\n"

/-- The method of an endpoint. The error is the status code that cannot be read. -/
def text (reg : Registry) (e : Endpoint) (level : Int) : Except String String :=
  (Signature.errorType (Assoc.names e.responses)).map fun error =>
    DocComment.text reg e level ++ code reg e error level

end TypedClient.Method
