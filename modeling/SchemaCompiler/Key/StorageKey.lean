import SchemaCompiler.Code.Expression
import SchemaCompiler.Key.Position
import SchemaCompiler.Name.Identifier
import SchemaCompiler.Registry.Basic
import SchemaCompiler.Usage.Exposure

/-!
# Storage keys

A secret is stored outside the generated client, once in plain form and once in
encrypted form. `derive` gives the key of either from the place of its field:
parts joined by bars that name the policy, the form, what tells equal names apart
and the field. One part may be the value of a sibling field at run time.
-/

namespace SchemaCompiler
namespace Key

open SchemaCompiler.Schema

/-- The form in which a secret is stored. -/
inductive Form where
  /-- As the caller sent it last. -/
  | plaintext
  /-- As the appliance returned it. -/
  | encrypted
deriving Repr, DecidableEq, Inhabited

namespace Form

/-- Name of a form. -/
def text : Form → String
  | .plaintext => "plaintext"
  | .encrypted => "encrypted"

/-- Both forms. -/
def all : List Form := [.plaintext, .encrypted]

end Form

/-- The sign between the parts of a key. -/
def separator : String := "|"

/-- Parts of a key joined. -/
def join (parts : List String) : String := String.intercalate separator parts

/-- A key with a part that is known at run time only. -/
structure SiblingKey where
  leading : String
  sibling : String
  /-- The sibling may be left out. -/
  isOptional : Bool
  field : String
deriving Repr, DecidableEq, Inhabited

/-- Key under which a secret is stored. -/
inductive StorageKey where
  | fixed (text : String)
  | withSibling (key : SiblingKey)
deriving Repr, DecidableEq, Inhabited

namespace SiblingKey

/-- The key for a value of the sibling; a missing value counts as empty. -/
def render (key : SiblingKey) (value : Option String) : String :=
  join [key.leading, value.getD "", key.field]

/-- A part of a key in a template. -/
def templatePart (part : String) : String := String.ofList (Code.escapeBraces part.toList)

/-- The expression that renders the key from the value that holds the sibling. -/
def expression [Name.Lettering] (key : SiblingKey) : Code.Expression :=
  .filled
    (join [templatePart key.leading, String.ofList Code.argumentSign, templatePart key.field])
    [⟨Name.fieldName key.sibling, if key.isOptional then .textOrEmpty else .text⟩]

end SiblingKey

namespace StorageKey

/-- The key for a value of the sibling it depends on, if any. -/
def render : StorageKey → Option String → String
  | .fixed text, _ => text
  | .withSibling key, value => key.render value

/-- The key, if it does not depend on a sibling. -/
def fixed? : StorageKey → Option String
  | .fixed text => some text
  | .withSibling _ => none

/-- The expression that renders the key from the value that holds the field. -/
def expression [Name.Lettering] : StorageKey → Code.Expression
  | .fixed text => .ownedText text
  | .withSibling key => key.expression

@[simp] theorem render_withSibling (key : SiblingKey) (value : Option String) :
    (withSibling key).render value = key.render value := rfl

end StorageKey

/-- Key of a field that carries the name of an ancestor. -/
def ancestorKey (position : Position) (form : Form) (depth : UInt64) :
    Except SchemaError StorageKey :=
  if depth = 0 then .error (.invalidAncestorDepth position.path)
  else
    match position.ancestor? depth.toNat with
    | none => .error (.ancestorDepthExceeded position.path depth)
    | some ancestor =>
        .ok (.fixed (join
          ["with_parent_name", form.text, ancestor.internalName, position.internalName]))

/-- Key of a field that carries the value of a sibling. -/
def siblingKey
    (registry : Registry)
    (position : Position)
    (form : Form)
    (name : String) : Except SchemaError StorageKey :=
  match position.parent? with
  | none => .error (.parentNotObject position.path name)
  | some parent =>
      match parent.canonical.object? with
      | none => .error (.parentNotObject position.path name)
      | some object =>
          match object.get? name with
          | none => .error (.siblingNotFound position.path name)
          | some sibling =>
              if sibling.kind ≠ .string then
                .error (.siblingNotString position.path name sibling.kind)
              else do
                let canonical ← registry.resolveAt (parent.path.child sibling.name) sibling
                return .withSibling {
                  leading := join ["with_param_value", form.text, sibling.name]
                  sibling := sibling.name
                  isOptional := isHeldOptional sibling canonical
                  field := position.internalName }

/-- Key of the secret at a position. -/
def derive (registry : Registry) (position : Position) (form : Form) :
    Except SchemaError StorageKey :=
  match position.canonical.string?.map StringFacets.hashing with
  | none => .error (.notEncrypted position.path)
  | some .plaintext => .error (.notEncrypted position.path)
  | some .solo => .ok (.fixed (join ["solo", form.text, position.internalName]))
  | some (.withAncestor depth) => ancestorKey position form depth
  | some (.withSibling name) => siblingKey registry position form name

end Key
end SchemaCompiler
