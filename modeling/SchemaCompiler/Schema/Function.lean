import SchemaCompiler.Schema.Merge

/-!
# Functions

A `Function` is one call of an interface: its method, its address template, its
parameters and what it takes and returns. `itemizedInput` folds everything a call
takes into one object.
-/

namespace SchemaCompiler
namespace Schema

/-- One call of an interface. -/
structure Function where
  name : String := ""
  method : Option String := none
  uri : String := ""
  pathParameters : List Node := []
  queryParameters : List Node := []
  body : Option Node := none
  output : Option Node := none
deriving Repr, Inhabited

/-- Name of the body among the inputs of a function. -/
def requestBodyName : String := "request"

/-- Names in braces in an address template, where `opened` is what was read behind
the latest opening brace. -/
def placeholdersFrom (opened : Option (List Char)) : List Char → List String
  | [] => []
  | character :: rest =>
      if character = '\x7b' then placeholdersFrom (some []) rest
      else
        match opened with
        | none => placeholdersFrom none rest
        | some name =>
            if character ≠ '\x7d' then placeholdersFrom (some (name ++ [character])) rest
            else if name.isEmpty then placeholdersFrom none rest
            else String.ofList name :: placeholdersFrom none rest

namespace Function

/-- Method of a call, `GET` unless another is given. -/
def httpMethod (function : Function) : String := function.method.getD "GET"

/-- Names in braces in the address template, in order of appearance. -/
def placeholders (function : Function) : List String :=
  placeholdersFrom none function.uri.toList

/-- The nodes of a function: parameters, body and output. -/
def nodes (function : Function) : List Node :=
  function.pathParameters ++ function.queryParameters ++ function.body.toList
    ++ function.output.toList

/-- Checks that every placeholder is a path parameter and that every node is
valid. -/
def validate (function : Function) : Except SchemaError Unit := do
  let unknown := function.placeholders.find? fun placeholder =>
    !Node.hasChild placeholder function.pathParameters
  if let some parameter := unknown then
    throw (.unknownPathParameter function.name function.uri parameter)
  let path := FieldPath.single function.name
  Node.validateAll path (function.pathParameters ++ function.queryParameters)
  for node in function.body.toList ++ function.output.toList do
    node.validate path

/-- Everything a call takes, each with the place it travels in. -/
def locatedInputs (function : Function) : List (Location × Node) :=
  (function.pathParameters.map fun node => (.path, node))
    ++ (function.queryParameters.map fun node => (.query, node))
    ++ function.body.toList.map fun node =>
      (.body, node.withDeclaration { node.declaration with name := requestBodyName })

/-- The node marked with the place it travels in. -/
def locate (location : Location) (node : Node) : Node :=
  node.withDeclaration { node.declaration with location := some location }

/-- The located inputs as children of one object, after those already `seen`. -/
def itemize
    (function : Function)
    (seen : List (Location × Node)) :
    List (Location × Node) → Except SchemaError (List Node)
  | [] => .ok []
  | (location, node) :: rest =>
      match seen.find? fun (_, earlier) => earlier.name = node.name with
      | some (first, _) => .error (.inputNameCollision function.name node.name first location)
      | none => do
          let others ← itemize function (seen ++ [(location, node)]) rest
          return locate location node :: others

/-- Everything a call takes as one object named after the function. -/
def itemizedInput (function : Function) : Except SchemaError Node := do
  let children ← function.itemize [] function.locatedInputs
  return .object { name := function.name } {} children

/-- The body or output of a base with what an overlay states. -/
def mergeSlot (path : FieldPath) (base overlay : Option Node) : Except SchemaError (Option Node) :=
  match base, overlay with
  | some existing, some node => do return some (← existing.mergeAt path node)
  | none, some node => .ok (some node)
  | base, none => .ok base

/-- The function with what an overlay states. -/
def merge (base overlay : Function) : Except SchemaError Function := do
  let name := overlayText base.name overlay.name
  let path := FieldPath.single name
  let pathParameters ← Node.mergeChildren path base.pathParameters overlay.pathParameters
  let queryParameters ← Node.mergeChildren path base.queryParameters overlay.queryParameters
  let body ← mergeSlot path base.body overlay.body
  let output ← mergeSlot path base.output overlay.output
  return {
    name := name
    method := overlayOption base.method overlay.method
    uri := overlayText base.uri overlay.uri
    pathParameters := pathParameters
    queryParameters := queryParameters
    body := body
    output := output }

end Function
end Schema
end SchemaCompiler
