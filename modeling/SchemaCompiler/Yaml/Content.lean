import SchemaCompiler.Json.Draft
import SchemaCompiler.Yaml.ScalarValue
import SchemaCompiler.Yaml.TokenStream
import SchemaCompiler.Yaml.Tree

/-!
# The draft of a YAML text

An alias becomes what its anchor stands in front of. What is nested too deep, what
contains itself and what aliases multiply without bound can only be skipped.
-/

namespace SchemaCompiler
namespace Yaml

open SchemaCompiler.Json (Draft)

namespace Tree

mutual

/-- What stands behind each anchor, in the order of the text. -/
def anchored : Tree → List (Nat × Tree)
  | .alias _ => []
  | .scalar properties style text =>
      (properties.anchor.map fun anchor => (anchor, .scalar properties style text)).toList
  | .list properties items =>
      (properties.anchor.map fun anchor => (anchor, .list properties items)).toList
        ++ anchoredItems items
  | .map properties members =>
      (properties.anchor.map fun anchor => (anchor, .map properties members)).toList
        ++ anchoredMembers members

/-- What stands behind each anchor of some items. -/
def anchoredItems : List Tree → List (Nat × Tree)
  | [] => []
  | item :: rest => anchored item ++ anchoredItems rest

/-- What stands behind each anchor of some members. -/
def anchoredMembers : List (Tree × Tree) → List (Nat × Tree)
  | [] => []
  | (key, value) :: rest => anchored key ++ anchored value ++ anchoredMembers rest

end

mutual

/-- Number of scalars, aliases and bounds of lists and maps. -/
def size : Tree → Nat
  | .alias _ => 1
  | .scalar _ _ _ => 1
  | .list _ items => 2 + sizeItems items
  | .map _ members => 2 + sizeMembers members

/-- Size of some items. -/
def sizeItems : List Tree → Nat
  | [] => 0
  | item :: rest => size item + sizeItems rest

/-- Size of some members. -/
def sizeMembers : List (Tree × Tree) → Nat
  | [] => 0
  | (key, value) :: rest => size key + size value + sizeMembers rest

end

end Tree

/-- The name of a tag that is known to this text only. -/
def localName? (tag : String) : Option String :=
  match tag.toList with
  | '!' :: name => some (String.ofList name)
  | _ => none

/-- The draft behind a tag, unless the tag is known everywhere. -/
def behindTag (tag : Option String) (draft : Draft) : Draft :=
  match tag.bind localName? with
  | some name => .tagged name draft
  | none => draft

/-- The draft of a scalar without a tag. -/
def untaggedScalar (style : ScalarStyle) (text : String) : Draft :=
  if style = .plain then .scalar text true (plainValue text) else .string text

/-- A scalar written as it stands: without quotes, or a block of a truth value. -/
def isBare (tag : String) (style : ScalarStyle) : Bool :=
  style = .plain || (style = .literal && tag = "tag:yaml.org,2002:bool")

/-- The draft of a scalar. -/
def scalarDraft (tag : Option String) (style : ScalarStyle) (text : String) : Draft :=
  match tag with
  | none => untaggedScalar style text
  | some tag =>
      match localName? tag with
      | some name => .tagged name (untaggedScalar style text)
      | none => .scalar text (isBare tag style) (taggedValue tag text)

/-- Deepest level of lists and maps that can be used. -/
def deepestLevel : Nat := 128

/-- The draft of a tree, with `levels` more levels to use. `opened` are the aliases
around it, and the state is the number of aliases that may still be followed. -/
def expand (anchored : List (Nat × Tree)) :
    Nat → Nat → List Nat → Tree → StateM Nat Draft
  | 0, _, _, _ => return .unusable .malformed
  | fuel + 1, levels, opened, .alias anchor => do
      match ← get, anchored.lookup anchor with
      | left + 1, some tree =>
          if opened.contains anchor then return .unusable .malformed
          else
            set left
            expand anchored fuel levels (anchor :: opened) tree
      | _, _ => return .unusable .malformed
  | _ + 1, _, _, .scalar properties style text => return scalarDraft properties.tag style text
  | fuel + 1, levels, opened, .list properties items => do
      match levels with
      | 0 => return .unusable .nestedTooDeep
      | levels + 1 =>
          let drafts ← items.mapM (expand anchored fuel levels opened)
          return behindTag properties.tag (.array drafts)
  | fuel + 1, levels, opened, .map properties members => do
      match levels with
      | 0 => return .unusable .nestedTooDeep
      | levels + 1 =>
          let drafts ← members.mapM fun (key, value) => do
            let keyDraft ← expand anchored fuel levels opened key
            let valueDraft ← expand anchored fuel levels opened value
            return (keyDraft, valueDraft)
          return behindTag properties.tag (.object drafts)

/-- The draft of a tree. -/
def Tree.draft (tree : Tree) : Draft :=
  (expand tree.anchored.reverse (2 * deepestLevel + 2) deepestLevel [] tree
    (100 * tree.size)).1

/-- The draft of a text, unless it is malformed. -/
def draft? (text : String) : Option Draft := do
  let tokens ← tokens text.toList
  let tree ← Tree.ofTokens tokens
  some tree.draft

end Yaml
end SchemaCompiler
