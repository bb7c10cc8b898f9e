import SchemaCompiler.Generation.Run
import SchemaCompiler.Proofs.Client.Names
import SchemaCompiler.Proofs.Order.Table

/-!
# Names in scope of a client file

A client file brings into scope the structs that it declares and the classes that it
imports. It imports the class of every dependency that another module declares, but not
that of one which its own module declares, though that may be in a file beside it.
-/

namespace SchemaCompiler
namespace Generation

open SchemaCompiler.Client
open SchemaCompiler.Code (Item)
open SchemaCompiler.Order (NameSet)
open SchemaCompiler.Schema

/-! ## Views of client files -/

/-- What a view shows of the items of a client file depends on the names of structs and aliases
and on the imports. -/
structure IsView
    {α : Type}
    (view : Item → Option α)
    (ofStruct ofAlias : String → Option α)
    (ofImport : Import → Option α) : Prop where
  struct (markers : List Code.Marker) (name : String) (fields : List Code.FieldItem) :
    view (.struct markers name fields) = ofStruct name
  other (markers : List Code.Marker) (name : String) (target : Code.CodeType) :
    view (.alias markers name target) = ofAlias name
  required (required : Import) : view (importItem required) = ofImport required
  implementation (name : String) (members : List Code.Member) :
    view (.implementation name members) = none
  serde : view (.use false ["serde"] (.several ["Deserialize", "Serialize"])) = none

namespace IsView

variable
  {α : Type}
  {view : Item → Option α}
  {ofStruct ofAlias : String → Option α}
  {ofImport : Import → Option α}

theorem filterMap_structItems
    [Name.Lettering]
    (isView : IsView view ofStruct ofAlias ofImport)
    (struct : Struct) :
    (structItems struct).filterMap view = (ofStruct struct.name).toList := by
  rw [List.filterMap_eq_flatMap_toList, structItems, List.flatMap_cons, isView.struct]
  split
  · exact List.append_nil _
  · rw [List.flatMap_singleton, isView.implementation]
    exact List.append_nil _

theorem filterMap_inputItems
    [Name.Lettering]
    (isView : IsView view ofStruct ofAlias ofImport)
    (input : Input) :
    (inputItems input).filterMap view = (ofStruct input.struct.name).toList := by
  rw [inputItems, List.filterMap_append, isView.filterMap_structItems,
    List.filterMap_cons_none (isView.implementation _ _), List.filterMap_nil, List.append_nil]

/-- What the view shows of an output. -/
def ofOutput (ofStruct ofAlias : String → Option α) (output : Client.Output) : Option α :=
  if output.struct?.isSome then ofStruct output.name else ofAlias output.name

theorem filterMap_outputItems
    [Name.Lettering]
    (isView : IsView view ofStruct ofAlias ofImport)
    (output : Client.Output) :
    (outputItems output).filterMap view = (ofOutput ofStruct ofAlias output).toList := by
  rcases output with ⟨name, documentation, target⟩ | ⟨definition⟩
  · rw [outputItems, List.filterMap_eq_flatMap_toList, List.flatMap_singleton, isView.other]
    rfl
  · exact isView.filterMap_structItems definition

/-- A view shows the imports of a client file, then its structs, inputs and outputs. -/
theorem filterMap_clientItems
    [Name.Lettering]
    (isView : IsView view ofStruct ofAlias ofImport)
    (definitions : Definitions)
    (imports : List Import) :
    (clientItems definitions imports).filterMap view =
      imports.filterMap ofImport
        ++ definitions.structs.filterMap (fun struct => ofStruct struct.name)
        ++ definitions.inputs.filterMap (fun input => ofStruct input.struct.name)
        ++ definitions.outputs.filterMap (ofOutput ofStruct ofAlias) := by
  have serde : (if definitions.structCount = 0 then []
      else [Item.use false ["serde"] (.several ["Deserialize", "Serialize"])]).filterMap
        view = [] := by
    split
    · rfl
    · exact List.filterMap_cons_none isView.serde
  have imported : view ∘ importItem = ofImport := funext isView.required
  simp only [clientItems, List.filterMap_append, serde, List.nil_append, List.filterMap_map,
    imported, List.filterMap_flatMap, isView.filterMap_structItems, isView.filterMap_inputItems,
    isView.filterMap_outputItems, ← List.filterMap_eq_flatMap_toList]

end IsView

/-! ## Scopes -/

/-- The name that an item brings into scope: of the struct that it declares, or of the
class that it takes from a module of the crate. -/
def scopedName? : Item → Option String
  | .struct _ name _ => some name
  | .use false ["crate", _] (.one name) => some name
  | _ => none

/-- Every struct name in the types of the definitions is in scope of the items. -/
def InScope (items : List Item) (definitions : Definitions) : Prop :=
  ∀ type ∈ definitions.types, ∀ name, type.name? = some name →
    name ∈ items.filterMap scopedName?

theorem isView_scopedName? :
    IsView scopedName? some (fun _ => none) fun required => some required.className :=
  ⟨fun _ _ _ => rfl, fun _ _ _ => rfl, fun _ => rfl, fun _ _ => rfl, rfl⟩

/-- The names in scope of a client file are those of its structs and its imports. -/
theorem mem_scopedNames_iff
    [Name.Lettering]
    {definitions : Definitions}
    {imports : List Import}
    {name : String} :
    name ∈ (clientItems definitions imports).filterMap scopedName? ↔
      (∃ struct ∈ definitions.allStructs, struct.name = name) ∨
        ∃ required ∈ imports, required.className = name := by
  have output : ∀ output : Client.Output, IsView.ofOutput some (fun _ => none) output =
      output.struct?.map Struct.name := by
    rintro (⟨name, documentation, target⟩ | ⟨definition⟩) <;> rfl
  rw [isView_scopedName?.filterMap_clientItems]
  simp only [List.mem_append, List.mem_filterMap, output, Option.map_eq_some_iff,
    Option.some.injEq, Definitions.allStructs, List.mem_map]
  grind

/-- A file imports the classes of its dependencies that other modules declare. -/
theorem mem_ofDependencies_iff
    {index : TypeIndex}
    {current : String}
    {dependencies : NameSet}
    {required : Import} :
    required ∈ Import.ofDependencies index current dependencies ↔
      ∃ id ∈ dependencies.names, ∃ shared, index.get? id = some shared ∧
        shared.moduleName ≠ current ∧ required = ⟨shared.moduleName, shared.className⟩ := by
  unfold Import.ofDependencies
  simp only [List.mem_eraseDups, (List.mergeSort_perm _ _).mem_iff, List.mem_map,
    List.mem_filter, List.mem_filterMap]
  grind

/-- Every object entry is declared somewhere. -/
theorem exists_shared_of_object
    [Name.Lettering]
    {registry : Registry}
    {id : String}
    {entry : Node}
    (namespaces : List Namespace)
    (found : registry.get? id = some entry)
    (isObject : entry.isObject = true) :
    ∃ shared, (TypeIndex.build registry namespaces).get? id = some shared := by
  apply Order.Table.exists_get?_of_mem_names
  rw [TypeIndex.build, Order.Table.mem_names_ofList]
  have declared : ∃ shared, sharedType? namespaces id entry = some shared := by
    cases entry with
    | object declaration facets children =>
        dsimp only [sharedType?]
        split <;> exact ⟨_, rfl⟩
    | scalar declaration facets => cases facets <;> cases isObject
    | array declaration facets element => cases isObject
  obtain ⟨shared, same⟩ := declared
  refine List.mem_map.mpr ⟨(id, shared), List.mem_filterMap.mpr ?_, rfl⟩
  exact ⟨(id, entry), Order.Table.mem_entries_of_get? found, by simp [same]⟩

/-- Every dependency that the module of a file declares is a struct of the file itself, or
shares its class with a dependency from another module. -/
def CoversModule
    (index : TypeIndex)
    (directory : String)
    (definitions : Definitions) : Prop :=
  ∀ id ∈ definitions.dependencies.names, ∀ shared, index.get? id = some shared →
    shared.moduleName = directory →
      (∃ struct ∈ definitions.allStructs, struct.name = shared.className) ∨
      ∃ other ∈ definitions.dependencies.names, ∃ elsewhere,
        index.get? other = some elsewhere ∧ elsewhere.moduleName ≠ directory ∧
          elsewhere.className = shared.className

/-- A file has every struct name of its types in scope exactly if it covers what its own
module declares. -/
theorem inScope_iff
    [Name.Lettering]
    {registry : Registry}
    {namespaces : List Namespace}
    {definitions : Definitions}
    {index : TypeIndex}
    {directory : String}
    (built : index = TypeIndex.build registry namespaces)
    (traced : definitions.Traced registry index) :
    InScope
        (clientItems definitions (Import.ofDependencies index directory definitions.dependencies))
        definitions ↔
      CoversModule index directory definitions := by
  constructor
  · intro inScope id member shared found _
    obtain ⟨type, used, named⟩ := traced.needed id member
    have className : index.classOf id = shared.className := by simp [TypeIndex.classOf, found]
    have visible := inScope type used _ named
    rw [className, mem_scopedNames_iff] at visible
    rcases visible with own | ⟨required, imported, same⟩
    · exact .inl own
    · obtain ⟨other, known, elsewhere, foundOther, foreign, rfl⟩ :=
        mem_ofDependencies_iff.mp imported
      exact .inr ⟨other, known, elsewhere, foundOther, foreign, same⟩
  · intro covered type used name named
    rw [mem_scopedNames_iff]
    rcases traced.origin type used name named with own | ⟨id, member, rfl⟩
    · obtain ⟨struct, inside, same⟩ := List.mem_map.mp own
      exact .inl ⟨struct, List.mem_append_left _ (List.mem_append_left _ inside), same⟩
    · obtain ⟨entry, registered, isObject⟩ := traced.registered id member
      obtain ⟨shared, found⟩ := exists_shared_of_object namespaces registered isObject
      rw [← built] at found
      have className : index.classOf id = shared.className := by simp [TypeIndex.classOf, found]
      rw [className]
      by_cases here : shared.moduleName = directory
      · rcases covered id member shared found here with own | ⟨other, known, elsewhere, rest⟩
        · exact .inl own
        · obtain ⟨foundOther, foreign, same⟩ := rest
          exact .inr ⟨_, mem_ofDependencies_iff.mpr
            ⟨other, known, elsewhere, foundOther, foreign, rfl⟩, same⟩
      · exact .inr ⟨_, mem_ofDependencies_iff.mpr ⟨id, member, shared, found, here, rfl⟩, rfl⟩

end Generation
end SchemaCompiler
