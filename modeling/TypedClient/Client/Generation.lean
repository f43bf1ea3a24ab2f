import TypedClient.Client.File
import TypedClient.Client.ExampleFile
import TypedClient.Project

/-!
# Generating a client

A value of a document is validated, its schemas and endpoints are read, and the client file and, if
wanted, the example file are written from them.
-/

namespace TypedClient

/-- Why no client is generated. -/
inductive GenerationFault where
  | document (fault : DocumentFault)
  | extraction (fault : ExtractionFault)
  | clientClass (fault : ClassFault)
  /-- A number that stands for a text in the document is not written, or a choice has no text. -/
  | noText

/-- What is generated beside the class. -/
structure Options where
  sourceUrl : Option String
  clientFile : String
  includeExample : Bool

namespace Options

/-- The name of the client file unless another is given. -/
def defaultClientFile : String := "generated-client.ts"

def default : Options := ⟨none, defaultClientFile, true⟩

end Options

/-- A description that has been read: its interface and its endpoints. -/
structure Description where
  document : Document
  interface : Interface

namespace Description

/-- The document that a value is. -/
def validated (raw : Value) : Except GenerationFault Document :=
  if Document.readsTexts raw then (Document.ofValue raw).mapError .document else .error .noText

/-- The description that a value holds. -/
def ofValue (raw : Value) (sourceUrl : Option String) : Except GenerationFault Description := do
  let document ← validated raw
  let registry ← document.registry.mapError .extraction
  return ⟨document, document.info.title, document.baseUrl, sourceUrl, registry⟩

/-- The endpoints of the description with the notices about them. -/
def endpoints (d : Description) : Except GenerationFault (Reported Endpoint) :=
  d.document.endpoints.mapError .extraction

/-- The client file. -/
def clientFile (d : Description) (endpoints : List Endpoint) (name : String) :
    Except GenerationFault CodeFile := do
  Value.requireTexts .noText d.interface.literals
  let clientClass ← (d.interface.clientClass endpoints 0).mapError .clientClass
  return ⟨name, [
    ⟨0, d.interface.header⟩, ⟨1, d.interface.types⟩, ⟨2, clientClass⟩, ⟨3, d.interface.exportLine⟩]⟩

/-- The example file next to a client file. -/
def exampleFile (d : Description) (endpoints : List Endpoint) (clientFile : String) : CodeFile :=
  ⟨ExampleFile.fileName clientFile, [⟨0, ExampleFile.text d.interface.registry endpoints
    d.interface.className (ExampleFile.modulePath clientFile) d.interface.baseUrl⟩]⟩

/-- The files beside the client file. -/
def examples (d : Description) (endpoints : List Endpoint) (options : Options) :
    Except GenerationFault (List CodeFile) :=
  if options.includeExample then do
    Value.requireTexts .noText (ExampleFile.shownChoices d.interface.registry endpoints)
    return [d.exampleFile endpoints options.clientFile]
  else return []

/-- The project of the client and the notices of the generation. -/
def project (d : Description) (options : Options) :
    Except GenerationFault (Project × List Notice) := do
  let found ← d.endpoints
  let client ← d.clientFile found.items options.clientFile
  let examples ← d.examples found.items options
  return (⟨d.interface.className, client :: examples⟩,
    found.notices ++ Interface.repeatedMethods [] found.items)

end Description

/-- The project of the client for a value of a document, and the notices of the generation. -/
def generate (raw : Value) (options : Options) :
    Except GenerationFault (Project × List Notice) := do
  let d ← Description.ofValue raw options.sourceUrl
  d.project options

end TypedClient
