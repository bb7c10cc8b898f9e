import SchemaCompiler.Key.StorageKey
import SchemaCompiler.Proofs.Registry.Arrangement

/-!
# Keys in arranged trees

The key of a secret is found from the names around it and from one sibling, which is looked
up by its name. Both are the same where all nodes are arranged.
-/

namespace SchemaCompiler
namespace Key

open SchemaCompiler.Outcome
open SchemaCompiler.Schema

variable [Name.Lettering]

/-- The place with both nodes arranged. -/
def Place.arranged (place : Place) : Place := ⟨place.node.arranged, place.canonical.arranged⟩

namespace Position

/-- The position with all nodes arranged. -/
def arranged (position : Position) : Position :=
  ⟨position.place.arranged, position.enclosing.map Place.arranged⟩

theorem nameFrom_arranged
    (place : Place)
    (enclosing : List Place) :
    nameFrom place.arranged (enclosing.map Place.arranged) = nameFrom place enclosing := by
  induction enclosing generalizing place with
  | nil => simp [nameFrom, Place.arranged]
  | cons parent rest hypothesis =>
      rw [List.map_cons, nameFrom, nameFrom, hypothesis]
      simp [Place.arranged]

theorem namesUpward_arranged
    (place : Place)
    (enclosing : List Place) :
    namesUpward place.arranged (enclosing.map Place.arranged) = namesUpward place enclosing := by
  induction enclosing generalizing place with
  | nil => rfl
  | cons parent rest hypothesis =>
      rw [List.map_cons, namesUpward, namesUpward, hypothesis]
      simp [Place.arranged]

variable (position : Position)

@[simp] theorem canonical_arranged :
    position.arranged.canonical = position.canonical.arranged := rfl

@[simp] theorem internalName_arranged :
    position.arranged.internalName = position.internalName :=
  nameFrom_arranged position.place position.enclosing

@[simp] theorem path_arranged : position.arranged.path = position.path := by
  have names : namesUpward position.arranged.place position.arranged.enclosing =
      namesUpward position.place position.enclosing :=
    namesUpward_arranged position.place position.enclosing
  rw [path, names, path]

@[simp] theorem parent?_arranged :
    position.arranged.parent? = position.parent?.map arranged := by
  obtain ⟨place, enclosing⟩ := position
  cases enclosing <;> rfl

@[simp] theorem ancestor?_arranged (depth : Nat) :
    position.arranged.ancestor? depth = (position.ancestor? depth).map arranged := by
  obtain ⟨place, enclosing⟩ := position
  unfold ancestor?
  dsimp only [arranged]
  rw [← List.map_drop]
  cases depth with
  | zero => rfl
  | succ depth => cases enclosing.drop (depth + 1 - 1) <;> rfl

end Position

theorem ancestorKey_arranged
    (position : Position)
    (form : Form)
    (depth : UInt64) :
    ancestorKey position.arranged form depth = ancestorKey position form depth := by
  unfold ancestorKey
  rw [Position.path_arranged, Position.ancestor?_arranged, Position.internalName_arranged]
  cases position.ancestor? depth.toNat with
  | none => rfl
  | some ancestor => simp only [Option.map_some, Position.internalName_arranged]

/-- A client holds the arranged form of a field as it holds the field. -/
@[simp] theorem isHeldOptional_arranged (node canonical : Node) :
    isHeldOptional node.arranged canonical.arranged = isHeldOptional node canonical := by
  simp [isHeldOptional]

theorem siblingKey_arranged
    (registry : Registry)
    (position : Position)
    (form : Form)
    (name : String) :
    siblingKey registry.arranged position.arranged form name =
      siblingKey registry position form name := by
  unfold siblingKey
  rw [Position.parent?_arranged, Position.path_arranged, Position.internalName_arranged]
  cases position.parent? with
  | none => rfl
  | some parent =>
      simp only [Option.map_some, Position.canonical_arranged, Node.object?_arranged]
      cases parent.canonical.object? with
      | none => rfl
      | some object =>
          simp only [Option.map_some, Object.get?_arranged]
          cases object.get? name with
          | none => rfl
          | some sibling =>
              simp only [Option.map_some, Node.kind_arranged, Node.name_arranged,
                Position.path_arranged, Registry.resolveAt_arranged]
              cases registry.resolveAt (parent.path.child sibling.name) sibling with
              | error cause => rfl
              | ok canonical => simp only [Except.map, ok_bind, isHeldOptional_arranged]

/-- The key of a secret does not depend on the order of children. -/
@[simp] theorem derive_arranged
    (registry : Registry)
    (position : Position)
    (form : Form) :
    derive registry.arranged position.arranged form = derive registry position form := by
  unfold derive
  rw [Position.canonical_arranged, Node.string?_arranged, Position.path_arranged,
    Position.internalName_arranged]
  split
  · rfl
  · rfl
  · rfl
  · exact ancestorKey_arranged position form _
  · exact siblingKey_arranged registry position form _

end Key
end SchemaCompiler
