import SchemaCompiler.Proofs.Reading.Records
import SchemaCompiler.Proofs.Schema.Objects

/-!
# Documents that are read are sound

Whatever a document is read from, its objects are made of children with distinct names and
distinct groups of them, and its methods are in upper case.
-/

namespace SchemaCompiler
namespace Json

/-- A property of all values by induction: lists and objects have it if their parts do. -/
@[elab_as_elim]
theorem Value.inductOn
    {motive : Value → Prop}
    (value : Value)
    (null : motive .null)
    (bool : ∀ truth, motive (.bool truth))
    (number : ∀ number, motive (.number number))
    (string : ∀ text, motive (.string text))
    (array : ∀ items, (∀ item ∈ items, motive item) → motive (.array items))
    (object : ∀ members, (∀ member ∈ members, motive member.2) → motive (.object members)) :
    motive value :=
  match value with
  | .null => null
  | .bool truth => bool truth
  | .number value => number value
  | .string text => string text
  | .array items => array items fun item _ => inductOn item null bool number string array object
  | .object members =>
      object members fun member inside =>
        have := Order.sizeOf_value_lt inside
        inductOn member.2 null bool number string array object
termination_by sizeOf value

end Json

namespace Reading

open SchemaCompiler.Json (Value)
open SchemaCompiler.Outcome (bind_eq_ok_iff)
open SchemaCompiler.Schema

/-! ## Nodes -/

/-- The node and the nodes of a kept value are sound. -/
def ReadsSound (value : Value) : Prop :=
  (∀ node, readKeptNode value = .ok node → node.Sound) ∧
    ∀ nodes, readKeptNodes value = .ok nodes → ∀ node ∈ nodes, node.Sound

/-- Facets of an array leave its element alone. -/
theorem ArrayParts.element_take
    {parts next : ArrayParts}
    {key : String}
    {value : Value}
    (read : parts.take key value = .ok next) :
    next.element = parts.element := by
  unfold ArrayParts.take at read
  split at read
  · obtain ⟨-, _, -, rfl⟩ := fill_bind_eq_ok_iff.mp read
    rfl
  · obtain ⟨-, _, -, rfl⟩ := fill_bind_eq_ok_iff.mp read
    rfl
  · obtain ⟨-, _, -, rfl⟩ := fill_bind_eq_ok_iff.mp read
    rfl
  · cases read
    rfl

/-- Facets of an object leave its children alone. -/
theorem ObjectParts.children_take
    {parts next : ObjectParts}
    {key : String}
    {value : Value}
    (read : parts.take key value = .ok next) :
    next.children = parts.children := by
  unfold ObjectParts.take at read
  split at read
  · obtain ⟨-, _, -, rfl⟩ := fill_bind_eq_ok_iff.mp read
    rfl
  · obtain ⟨-, _, -, rfl⟩ := fill_bind_eq_ok_iff.mp read
    rfl
  · cases read
    rfl

/-- The element of an array that is read is sound. -/
theorem sound_readArrayMembers
    {members : List (String × Value)}
    (each : ∀ member ∈ members, ReadsSound member.2)
    {parts result : ArrayParts}
    (given : ∀ element ∈ parts.element, element.Sound)
    (read : readArrayMembers parts members = .ok result) :
    ∀ element ∈ result.element, element.Sound := by
  induction members generalizing parts with
  | nil =>
      rw [readArrayMembers] at read
      cases read
      exact given
  | cons first rest hypothesis =>
      rw [List.forall_mem_cons] at each
      rw [readArrayMembers] at read
      split at read
      · obtain ⟨element, filled, later⟩ := bind_eq_ok_iff.mp read
        obtain ⟨-, node, inner, rfl⟩ := fill_eq_ok_iff.mp filled
        exact hypothesis each.2 (by simpa using each.1.1 node inner) later
      · obtain ⟨next, head, later⟩ := bind_eq_ok_iff.mp read
        have same : next.element = parts.element := ArrayParts.element_take head
        exact hypothesis each.2 (same ▸ given) later

/-- The children of an object that is read are sound. -/
theorem sound_readObjectMembers
    {members : List (String × Value)}
    (each : ∀ member ∈ members, ReadsSound member.2)
    {parts result : ObjectParts}
    (given : ∀ child ∈ parts.children.getD [], child.Sound)
    (read : readObjectMembers parts members = .ok result) :
    ∀ child ∈ result.children.getD [], child.Sound := by
  induction members generalizing parts with
  | nil =>
      rw [readObjectMembers] at read
      cases read
      exact given
  | cons first rest hypothesis =>
      rw [List.forall_mem_cons] at each
      rw [readObjectMembers] at read
      split at read
      · obtain ⟨children, filled, later⟩ := bind_eq_ok_iff.mp read
        obtain ⟨-, nodes, inner, rfl⟩ := fill_eq_ok_iff.mp filled
        refine hypothesis each.2 ?_ later
        exact each.1.2 nodes inner
      · obtain ⟨next, head, later⟩ := bind_eq_ok_iff.mp read
        have same : next.children = parts.children := ObjectParts.children_take head
        exact hypothesis each.2 (same ▸ given) later

/-- An object that is built of sound children is sound. -/
theorem sound_finish
    {parts : ObjectParts}
    (children : ∀ child ∈ parts.children.getD [], child.Sound)
    {declaration : Declaration}
    {node : Node}
    (built : parts.finish declaration = .ok node) :
    node.Sound := by
  unfold ObjectParts.finish at built
  split at built
  next object ofParts =>
    cases built
    obtain ⟨plain, ofChildren, ofParts⟩ := bind_eq_ok_iff.mp ofParts
    obtain ⟨grouped, added, same⟩ := bind_eq_ok_iff.mp ofParts
    cases same
    obtain ⟨sound, kept⟩ := (Node.SoundParts.ofChildren ofChildren).addGroups added
    obtain ⟨-, rfl⟩ := Object.ofChildren_eq_ok_iff.mp ofChildren
    refine Node.sound_object_iff.mpr ⟨⟨sound.distinct, sound.groups, sound.known, ?_⟩, ?_⟩
    · simp [Option.filter_eq_some_iff]
    · rw [kept]
      exact children
  next => cases built

/-- A node that is read from members whose nodes are sound is sound. -/
theorem sound_readFacets
    {members : List (String × Value)}
    (each : ∀ member ∈ members, ReadsSound member.2)
    {declaration : Declaration}
    {node : Node}
    (read : readFacets declaration members = .ok node) :
    node.Sound := by
  rw [readFacets] at read
  obtain ⟨kind, -, read⟩ := bind_eq_ok_iff.mp read
  cases kind with
  | bool | int | float | string =>
      obtain ⟨_, -, same⟩ := bind_eq_ok_iff.mp read
      cases same
      exact Node.sound_scalar _ _
  | array =>
      obtain ⟨parts, inner, built⟩ := bind_eq_ok_iff.mp read
      have element := sound_readArrayMembers each (by simp) inner
      unfold ArrayParts.finish at built
      split at built
      next => cases built
      next node present =>
        cases built
        exact Node.sound_array_iff.mpr (element node present)
  | object =>
      obtain ⟨parts, inner, built⟩ := bind_eq_ok_iff.mp read
      exact sound_finish (sound_readObjectMembers each (by simp) inner) built

/-- What is read from a kept value is sound. -/
theorem readsSound (value : Value) : ReadsSound value := by
  induction value using Value.inductOn with
  | null | bool | number | string =>
      constructor <;> intro _ read <;> simp [readKeptNode, readKeptNodes] at read
  | array items each =>
      refine ⟨fun node read => by simp [readKeptNode] at read, fun nodes read => ?_⟩
      rw [readKeptNodes] at read
      induction items generalizing nodes with
      | nil =>
          rw [readKeptItems] at read
          cases read
          simp
      | cons first rest hypothesis =>
          rw [List.forall_mem_cons] at each
          rw [readKeptItems] at read
          obtain ⟨node, head, read⟩ := bind_eq_ok_iff.mp read
          obtain ⟨others, later, same⟩ := bind_eq_ok_iff.mp read
          cases same
          exact List.forall_mem_cons.mpr ⟨each.1.1 node head, hypothesis each.2 others later⟩
  | object members each =>
      refine ⟨fun node read => ?_, fun nodes read => by simp [readKeptNodes] at read⟩
      rw [readKeptNode] at read
      obtain ⟨parts, -, facets⟩ := bind_eq_ok_iff.mp read
      exact sound_readFacets each facets

/-- Every node that is read is sound. -/
theorem yields_readNode (origin : Origin) : Yields (readNode origin) Node.Sound := by
  intro draft node read
  unfold readNode at read
  split at read
  · obtain ⟨⟨parts, kept⟩, -, facets⟩ := bind_eq_ok_iff.mp read
    exact sound_readFacets (fun member _ => readsSound member.2) facets
  · exact sound_readFacets (by simp) read
  · cases read
  · cases read

/-! ## Functions -/

/-- A letter in upper case is in upper case already. -/
theorem toUpper_toUpper (character : Char) : character.toUpper.toUpper = character.toUpper := by
  unfold Char.toUpper
  by_cases lower : 'a'.val ≤ character.val ∧ character.val ≤ 'z'.val
  · -- The code of an upper-case letter lies below those of the lower-case ones.
    rw [dif_pos lower, dif_neg]
    rintro ⟨above, -⟩
    revert above
    have least := UInt32.le_iff_toNat_le.mp lower.1
    have greatest := UInt32.le_iff_toNat_le.mp lower.2
    have first : 'a'.val.toNat = 97 := rfl
    have last : 'z'.val.toNat = 122 := rfl
    have shift : ('A'.val - 'a'.val).toNat = 4294967264 := rfl
    rw [UInt32.le_iff_toNat_le, UInt32.toNat_add]
    omega
  · rw [dif_neg lower, dif_neg lower]

/-- Methods that are read are methods in upper case. -/
theorem yields_readMethod : Yields readMethod IsMethod := by
  intro draft method read
  obtain ⟨text, -, read⟩ := bind_eq_ok_iff.mp read
  simp only at read
  split at read
  · cases read
  next proper =>
    cases read
    simp only [Bool.or_eq_true, Bool.not_eq_true', not_or, List.isEmpty_iff, Bool.not_eq_false]
      at proper
    refine ⟨fun empty => proper.1 (String.ofList_eq_empty_iff.mp empty), ?_, ?_⟩
    · rw [String.toList_ofList]
      exact List.all_eq_true.mp proper.2
    · rw [String.toList_ofList]
      intro character member
      obtain ⟨letter, -, rfl⟩ := List.mem_map.mp member
      exact toUpper_toUpper letter

/-- Parts of a sound function. -/
structure FunctionParts.Sound (parts : FunctionParts) : Prop where
  method : ∀ method ∈ parts.method.join, IsMethod method
  pathParameters : ∀ node ∈ parts.pathParameters.getD [], node.Sound
  queryParameters : ∀ node ∈ parts.queryParameters.getD [], node.Sound
  body : ∀ node ∈ parts.body.join, node.Sound
  output : ∀ node ∈ parts.output.join, node.Sound

theorem FunctionParts.keeps_take (origin : Origin) :
    Keeps (FunctionParts.take origin) FunctionParts.Sound := by
  intro parts key draft next given read
  have node := yields_readNode origin
  unfold FunctionParts.take at read
  split at read
  · obtain ⟨-, _, -, rfl⟩ := fill_bind_eq_ok_iff.mp read
    exact ⟨given.method, given.pathParameters, given.queryParameters, given.body, given.output⟩
  · obtain ⟨-, stated, inner, rfl⟩ := fill_bind_eq_ok_iff.mp read
    exact { given with method := yields_readMethod.readOption inner }
  · obtain ⟨-, _, -, rfl⟩ := fill_bind_eq_ok_iff.mp read
    exact ⟨given.method, given.pathParameters, given.queryParameters, given.body, given.output⟩
  · obtain ⟨-, stated, inner, rfl⟩ := fill_bind_eq_ok_iff.mp read
    exact { given with pathParameters := node.readList inner }
  · obtain ⟨-, stated, inner, rfl⟩ := fill_bind_eq_ok_iff.mp read
    exact { given with queryParameters := node.readList inner }
  · obtain ⟨-, stated, inner, rfl⟩ := fill_bind_eq_ok_iff.mp read
    exact { given with body := node.readOption inner }
  · obtain ⟨-, stated, inner, rfl⟩ := fill_bind_eq_ok_iff.mp read
    exact { given with output := node.readOption inner }
  · rw [eq_of_ignoreField read]
    exact given

/-- Every function that is read is sound. -/
theorem yields_readFunction (origin : Origin) : Yields (readFunction origin) Function.Sound := by
  intro draft function read
  obtain ⟨parts, ofRecord, same⟩ := bind_eq_ok_iff.mp read
  cases same
  have sound := (FunctionParts.keeps_take origin).readRecord ⟨by simp, by simp, by simp, by simp,
    by simp⟩ ofRecord
  exact ⟨Function.forall_mem_nodes_iff.mpr ⟨sound.pathParameters, sound.queryParameters,
    sound.body, sound.output⟩, sound.method⟩

/-! ## Namespaces and documents -/

/-- Parts of a namespace with sound functions. -/
structure NamespaceParts.Sound (parts : NamespaceParts) : Prop where
  create : ∀ function ∈ parts.create.join, function.Sound
  read : ∀ function ∈ parts.read.join, function.Sound
  update : ∀ function ∈ parts.update.join, function.Sound
  delete : ∀ function ∈ parts.delete.join, function.Sound
  list : ∀ function ∈ parts.list.join, function.Sound
  others : ∀ entry ∈ parts.others.getD [], entry.2.Sound

theorem NamespaceParts.keeps_take (origin : Origin) :
    Keeps (NamespaceParts.take origin) NamespaceParts.Sound := by
  intro parts key draft next given read
  have function := (yields_readFunction origin).readOption
  unfold NamespaceParts.take at read
  simp only at read
  split at read
  · obtain ⟨-, _, -, rfl⟩ := fill_bind_eq_ok_iff.mp read
    exact ⟨given.create, given.read, given.update, given.delete, given.list, given.others⟩
  · obtain ⟨-, _, -, rfl⟩ := fill_bind_eq_ok_iff.mp read
    exact ⟨given.create, given.read, given.update, given.delete, given.list, given.others⟩
  · obtain ⟨-, _, -, rfl⟩ := fill_bind_eq_ok_iff.mp read
    exact ⟨given.create, given.read, given.update, given.delete, given.list, given.others⟩
  · obtain ⟨-, stated, inner, rfl⟩ := fill_bind_eq_ok_iff.mp read
    exact { given with create := function inner }
  · obtain ⟨-, stated, inner, rfl⟩ := fill_bind_eq_ok_iff.mp read
    exact { given with read := function inner }
  · obtain ⟨-, stated, inner, rfl⟩ := fill_bind_eq_ok_iff.mp read
    exact { given with update := function inner }
  · obtain ⟨-, stated, inner, rfl⟩ := fill_bind_eq_ok_iff.mp read
    exact { given with delete := function inner }
  · obtain ⟨-, stated, inner, rfl⟩ := fill_bind_eq_ok_iff.mp read
    exact { given with list := function inner }
  · obtain ⟨-, stated, inner, rfl⟩ := fill_bind_eq_ok_iff.mp read
    exact { given with others := (yields_readFunction origin).readMap inner }
  · rw [eq_of_ignoreField read]
    exact given

/-- Every namespace that is read has sound functions. -/
theorem yields_readNamespace (origin : Origin) :
    Yields (readNamespace origin) fun managed => managed.All Function.Sound := by
  intro draft managed read
  obtain ⟨parts, ofRecord, read⟩ := bind_eq_ok_iff.mp read
  have sound := (NamespaceParts.keeps_take origin).readRecord ⟨by simp, by simp, by simp, by simp,
    by simp, by simp⟩ ofRecord
  split at read
  · cases read
    exact ⟨sound.create, sound.read, sound.update, sound.delete, sound.list,
      fun entry member => sound.others entry (Order.Table.mem_entries_ofList member)⟩
  · split at read <;> cases read

/-- Parts of a sound document. -/
structure DocumentParts.Sound (parts : DocumentParts) : Prop where
  schemas : ∀ entry ∈ parts.schemas.getD [], entry.2.Sound
  functions : ∀ managed ∈ parts.namespaces.getD [], managed.All Function.Sound

theorem DocumentParts.keeps_take (origin : Origin) :
    Keeps (DocumentParts.take origin) DocumentParts.Sound := by
  intro parts key draft next given read
  unfold DocumentParts.take at read
  split at read
  · obtain ⟨-, stated, inner, rfl⟩ := fill_bind_eq_ok_iff.mp read
    exact { given with schemas := (yields_readNode origin).readMap inner }
  · obtain ⟨-, stated, inner, rfl⟩ := fill_bind_eq_ok_iff.mp read
    exact { given with functions := (yields_readNamespace origin).readList inner }
  · rw [eq_of_ignoreField read]
    exact given

/-- Every document that is read is sound. -/
theorem yields_readDocument (origin : Origin) : Yields (readDocument origin) Document.Sound := by
  intro draft document read
  obtain ⟨parts, ofRecord, same⟩ := bind_eq_ok_iff.mp read
  cases same
  have sound := (DocumentParts.keeps_take origin).readRecord ⟨by simp, by simp⟩ ofRecord
  exact ⟨fun entry member => sound.schemas entry (Order.Table.mem_entries_ofList member),
    sound.functions⟩

end Reading

/-- Documents that are read, and such documents with overrides that are read. -/
inductive Schema.Document.Loaded : Schema.Document → Prop
  | read {origin : Reading.Origin} {draft : Json.Draft} {document : Schema.Document} :
      Reading.readDocument origin draft = .ok document → Loaded document
  | override {base overlay document : Schema.Document}
      {origin : Reading.Origin} {draft : Json.Draft} :
      Loaded base →
      Reading.readDocument origin draft = .ok overlay →
      base.applyOverride overlay = .ok document →
      Loaded document

/-- Documents stay sound under overrides. -/
theorem Schema.Document.Loaded.sound
    {document : Schema.Document}
    (loaded : document.Loaded) :
    document.Sound := by
  induction loaded with
  | read given => exact Reading.yields_readDocument _ given
  | override _ given applied hypothesis =>
      exact Schema.Document.sound_applyOverride hypothesis (Reading.yields_readDocument _ given)
        applied

end SchemaCompiler
