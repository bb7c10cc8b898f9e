import SchemaCompiler.Proofs.Reading.Soundness
import SchemaCompiler.Proofs.Schema.KeyedAgreement
import SchemaCompiler.Proofs.Schema.KeyedGrowth
import SchemaCompiler.Proofs.Schema.Validation

/-!
# The invariant of objects over whole runs

Trees that are built or read and then edited stay sound, and their children stay in the order
of their first insertion. So the groups of a loaded document name children, and its validation
looks for numbers that are not finite and for unknown placeholders only.
-/

namespace SchemaCompiler
namespace Schema

namespace KeyedObject

/-- A child is refused exactly for a key that is taken, and then nothing changes. -/
theorem insert_stopped
    {object : KeyedObject}
    {path : FieldPath}
    {child : KeyedNode}
    {error : SchemaError}
    (stopped : (object.insert path child).error? = some error) :
    (object.insert path child).value = object ∧
      child.name ∈ object.keys ∧ error = .duplicateField path child.name := by
  unfold insert at stopped ⊢
  split at stopped
  next present =>
    cases stopped
    rw [if_pos present]
    exact ⟨rfl, present, rfl⟩
  next => cases stopped

/-- A group is refused exactly for a member that is no key, and then nothing changes. -/
theorem addGroup_stopped
    {object : KeyedObject}
    {path : FieldPath}
    {members : List String}
    {error : SchemaError}
    (stopped : (object.addGroup path members).error? = some error) :
    (object.addGroup path members).value = object ∧
      ∃ member ∈ members, member ∉ object.keys ∧ error = .unknownGroupMember path member := by
  unfold addGroup at stopped ⊢
  split at stopped
  next member strange =>
    cases stopped
    have unknown := List.find?_some strange
    exact ⟨rfl, member, List.mem_of_find?_eq_some strange, of_decide_eq_true unknown, rfl⟩
  next => split at stopped <;> cases stopped

end KeyedObject

namespace KeyedNode

/-- Reachable trees are sound. -/
theorem Reachable.sound
    {node : KeyedNode}
    (reachable : node.Reachable) :
    node.Sound := by
  induction reachable with
  | scalar declaration facets => exact .scalar declaration facets
  | array declaration facets _ hypothesis => exact .array declaration facets hypothesis
  | built declaration _ result hypothesis =>
      have built := KeyedObject.sound_empty.insertAll hypothesis FieldPath.root
      exact (Edited.value_of_toExcept result ▸ built).toNode declaration
  | read given => exact (Reading.yields_readNode _ given).wellFormed.sound_keyed
  | performed _ _ hypothesis operands => exact hypothesis.perform operands

/-- Trees stay reachable under commands with reachable trees. -/
theorem Reachable.run
    {node : KeyedNode}
    {commands : List Command}
    (reachable : node.Reachable)
    (operands : ∀ command ∈ commands, ∀ operand ∈ command.operands, operand.Reachable) :
    (Command.run commands node).Reachable := by
  induction commands generalizing node with
  | nil => exact reachable
  | cons command rest hypothesis =>
      rw [List.forall_mem_cons] at operands
      exact hypothesis (reachable.performed operands.1) operands.2

end KeyedNode

/-- Runs keep trees sound and children in order, refused edits change nothing, edits agree with
the operations on nodes, and the validation of a loaded document never objects to a group. -/
theorem object_invariant :
    (∀ (node : KeyedNode) (commands : List Command),
      node.Reachable →
      (∀ command ∈ commands, ∀ operand ∈ command.operands, operand.Reachable) →
      (Command.run commands node).Sound ∧ node.Grows (Command.run commands node)) ∧
    (∀ (object : KeyedObject) (path : FieldPath) (child : KeyedNode) (error : SchemaError),
      (object.insert path child).error? = some error →
      (object.insert path child).value = object ∧
        child.name ∈ object.keys ∧ error = .duplicateField path child.name) ∧
    (∀ (object : KeyedObject) (path : FieldPath) (members : List String) (error : SchemaError),
      (object.addGroup path members).error? = some error →
      (object.addGroup path members).value = object ∧
        ∃ member ∈ members, member ∉ object.keys ∧ error = .unknownGroupMember path member) ∧
    ((∀ (children : List Node),
        (KeyedObject.ofChildren (children.map Node.keyed)).toExcept =
          Object.keyed <$> Object.ofChildren children) ∧
      (∀ (object : Object) (path : FieldPath) (child : Node),
        (object.keyed.insert path child.keyed).toExcept =
          Object.keyed <$> object.insert path child) ∧
      (∀ (object : Object) (path : FieldPath) (members : List String),
        (object.keyed.addGroup path members).toExcept =
          Object.keyed <$> object.addGroup path members) ∧
      (∀ (object : Object) (key : String) (required readOnly replaceOnChange : Bool),
        object.names.Nodup →
        object.keyed.modify key (KeyedNode.setFlags required readOnly replaceOnChange) =
          (object.modify key (Node.setFlags required readOnly replaceOnChange)).keyed) ∧
      ∀ (base overlay : Node) (path : FieldPath),
        (base.keyed.mergeInto path overlay.keyed).toExcept =
          Node.keyed <$> base.mergeAt path overlay) ∧
    ∀ document : Document, document.Loaded →
      (document.validate = .ok () ↔
        (∀ number ∈ document.floats, number.isFinite) ∧ document.PlaceholdersKnown) ∧
      ∀ path member, document.validate ≠ .error (.unknownGroupMember path member) := by
  refine ⟨?_, ?_, ?_, ⟨?_, ?_, ?_, ?_, ?_⟩, ?_⟩
  · intro node commands reachable operands
    exact ⟨(reachable.run operands).sound, KeyedNode.grows_run commands node⟩
  · intro object path child error
    exact KeyedObject.insert_stopped
  · intro object path members error
    exact KeyedObject.addGroup_stopped
  · exact Object.toExcept_insertAll Object.empty FieldPath.root
  · exact Object.toExcept_insert
  · exact Object.toExcept_addGroup
  · intro object key required readOnly replaceOnChange distinct
    exact Object.keyed_modify distinct (Node.keyed_setFlags _ _ _) (Node.name_setFlags _ _ _) key
  · intro base overlay path
    exact Node.toExcept_mergeInto path base overlay
  · intro document loaded
    have decides := Document.decides_validate loaded.sound
    exact ⟨decides.eq_ok_iff, decides.ne_unknownGroupMember⟩

/-- An object with one child. -/
def listener : KeyedObject := ⟨[("port", .scalar { name := "port" } (.int {}))], {}⟩

/-- Adds the child once more, a group of it and its flag, and merges the object into itself. -/
def listenerEdits : List Command :=
  [.insert FieldPath.root (.scalar { name := "port" } (.int {})),
    .addGroup FieldPath.root ["port"],
    .setFlags "port" true false false,
    .merge FieldPath.root (listener.toNode {})]

theorem object_invariant_listener :
    (Command.run listenerEdits (listener.toNode {})).Sound ∧
      (listener.toNode {}).Grows (Command.run listenerEdits (listener.toNode {})) ∧
      (listener.insert FieldPath.root (.scalar { name := "port" } (.int {}))).value = listener ∧
      (listener.addGroup FieldPath.root ["host"]).value = listener ∧
      Document.validate {} = .ok () := by
  obtain ⟨runs, inserts, groups, -, documents⟩ := object_invariant
  have port : KeyedNode.Reachable (.scalar { name := "port" } (.int {})) := .scalar _ _
  have built : (listener.toNode {}).Reachable :=
    .built {} (List.forall_mem_singleton.mpr port) rfl
  have operands : ∀ command ∈ listenerEdits, ∀ operand ∈ command.operands, operand.Reachable := by
    simp [listenerEdits, Command.operands, port, built]
  have run := runs _ _ built operands
  have empty : Document.Loaded {} :=
    .read (show Reading.readDocument .text (Json.Draft.ofValue (.object [])) = .ok {} from rfl)
  refine ⟨run.1, run.2, ?_, ?_, ?_⟩
  · exact (inserts listener FieldPath.root _ (.duplicateField FieldPath.root "port") rfl).1
  · exact (groups listener FieldPath.root _ (.unknownGroupMember FieldPath.root "host") rfl).1
  · exact (documents {} empty).1.mpr ⟨List.forall_mem_nil _, List.forall_mem_nil _⟩

end Schema
end SchemaCompiler
