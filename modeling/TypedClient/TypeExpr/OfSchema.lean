import TypedClient.TypeExpr.Printer
import TypedClient.Registry

/-!
# Types of schemas

A reference to a declared schema is replaced by the type of that schema, unless its name has been
visited: on the path that leads to the reference, or as one of the names given from outside. A
visited name, like the name of an undeclared schema, stands for itself. Visited names are handed
down a path and not across, so each path visits a name at most once, and the walk ends on cyclic
schemas too.
-/

namespace TypedClient.TypeExpr

/-- The type of a schema without parts. -/
def ofPrimitive (p : Primitive) : TypeExpr :=
  match p.kind with
  | .string =>
    match p.choices with
    | some (v :: vs) => .literals ((v :: vs).map Value.optionalText)
    | _ => .string
  | .number => .number
  | .integer => .number
  | .boolean => .boolean

/-- The combination that a kind of combinator denotes. -/
def combinationOf : CombinatorKind → Combination
  | .allOf => .intersection
  | _ => .union

/-- A combination of any number of members. -/
def combine (how : Combination) : List TypeExpr → TypeExpr
  | [] => .unknown
  | [member] => member
  | members => .combination how members

mutual

/-- The type of a schema. -/
def ofSchema (reg : Registry) (visited : List String) : Schema → TypeExpr
  | .primitive p => ofPrimitive p
  | .array element => .array (ofSchema reg visited element)
  | .object properties required _ _ =>
    if properties.isEmpty then .openRecord
    else .object (ofProperties reg visited required properties)
  | .reference ref =>
    if new : Reference.name ref ∈ visited then .named (Reference.name ref)
    else
      match found : reg.lookup? (Reference.name ref) with
      | none => .named (Reference.name ref)
      | some target =>
        have := Registry.length_unvisited_cons_lt (Registry.mem_names_of_lookup? found) new
        ofSchema reg (Reference.name ref :: visited) target
  | .combinator kind members => combine (combinationOf kind) (ofMembers reg visited members)
  | .unknown _ => .unknown
termination_by s => ((reg.unvisited visited).length, sizeOf s)

/-- The types of the properties of an object. -/
def ofProperties (reg : Registry) (visited : List String) (required : List String) :
    List (String × Schema) → List (PropertyKey × TypeExpr)
  | [] => []
  | (name, s) :: rest =>
    (⟨name, !required.contains name⟩, ofSchema reg visited s) ::
      ofProperties reg visited required rest
termination_by ps => ((reg.unvisited visited).length, sizeOf ps)

/-- The types of the members of a combination. -/
def ofMembers (reg : Registry) (visited : List String) : List Schema → List TypeExpr
  | [] => []
  | s :: rest => ofSchema reg visited s :: ofMembers reg visited rest
termination_by ss => ((reg.unvisited visited).length, sizeOf ss)

end

end TypedClient.TypeExpr

namespace TypedClient

/-- The choices that the type of a schema without parts lists. -/
def Primitive.literals (p : Primitive) : List Value :=
  match p.kind with
  | .string => p.choices.getD []
  | _ => []

namespace Schema

mutual

/-- The choices that the type of a schema lists. They are found on the walk that types the schema,
and the type has a text only if all of them have one. -/
def literals (reg : Registry) (visited : List String) : Schema → List Value
  | .primitive p => p.literals
  | .array element => literals reg visited element
  | .object properties _ _ _ => propertyLiterals reg visited properties
  | .reference ref =>
    if new : Reference.name ref ∈ visited then []
    else
      match found : reg.lookup? (Reference.name ref) with
      | none => []
      | some target =>
        have := Registry.length_unvisited_cons_lt (Registry.mem_names_of_lookup? found) new
        literals reg (Reference.name ref :: visited) target
  | .combinator _ members => memberLiterals reg visited members
  | .unknown _ => []
termination_by s => ((reg.unvisited visited).length, sizeOf s)

/-- The choices that the types of properties list. -/
def propertyLiterals (reg : Registry) (visited : List String) :
    List (String × Schema) → List Value
  | [] => []
  | (_, s) :: rest => literals reg visited s ++ propertyLiterals reg visited rest
termination_by ps => ((reg.unvisited visited).length, sizeOf ps)

/-- The choices that the types of members list. -/
def memberLiterals (reg : Registry) (visited : List String) : List Schema → List Value
  | [] => []
  | s :: rest => literals reg visited s ++ memberLiterals reg visited rest
termination_by ss => ((reg.unvisited visited).length, sizeOf ss)

end

/-- The text of the type of a schema. -/
def typeText (reg : Registry) (visited : List String) (level : Int) (s : Schema) : String :=
  (TypeExpr.ofSchema reg visited s).render level

end Schema

end TypedClient
