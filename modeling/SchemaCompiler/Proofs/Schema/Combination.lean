import SchemaCompiler.Proofs.Order.Overlay
import SchemaCompiler.Proofs.Schema.Merge
import SchemaCompiler.Schema.Document

/-!
# Merges as overlays

The place of a merge matters to its errors alone. With errors forgotten, a merge combines
two nodes, functions, namespaces or documents, and its parts are overlays of options, of
tables and of lists.
-/

namespace SchemaCompiler
namespace Schema

open SchemaCompiler.Order.Overlay
open SchemaCompiler.Outcome (toOption_eq_some_iff)

namespace Object

/-- Where groups are added matters to errors alone. -/
theorem toOption_addGroups
    (object : Object)
    (path other : FieldPath)
    (groups : List (List String)) :
    (object.addGroups path groups).toOption = (object.addGroups other groups).toOption := by
  induction groups generalizing object with
  | nil => rfl
  | cons members rest hypothesis =>
      have same : (object.addGroup path members).toOption =
          (object.addGroup other members).toOption := by
        unfold addGroup
        split
        · rfl
        · rfl
      simp only [addGroups, Outcome.toOption_bind, same, hypothesis]

end Object

namespace Node

/-- The base with what an overlay states, if they fit together. -/
def combine (base overlay : Node) : Option Node :=
  (mergeAt FieldPath.root base overlay).toOption

/-- A node merged into a list by name: it is merged into the one found, or put at the
end. -/
theorem mergeNamed_eq
    (child : Node)
    (base : List Node) :
    mergeNamed name combine child base =
      match findChild? child.name base with
      | some existing =>
          (combine existing child).map fun merged => replaceFirst child.name merged base
      | none => some (base ++ [child]) := by
  induction base with
  | nil => rfl
  | cons first rest hypothesis =>
      rw [mergeNamed, findChild?_cons]
      by_cases same : first.name = child.name
      · simp [replaceFirst, same]
      · rw [if_neg same, if_neg same, hypothesis]
        cases findChild? child.name rest <;> simp [replaceFirst, same, Function.comp_def]

/-- Children are merged by name, where each overlay is merged as at the root. -/
theorem toOption_mergeChildren_of
    {overlay : List Node}
    (each : ∀ child ∈ overlay, ∀ path base,
      (mergeAt path base child).toOption = combine base child)
    (path : FieldPath)
    (base : List Node) :
    (mergeChildren path base overlay).toOption = mergeList name combine base overlay := by
  induction overlay generalizing base with
  | nil => rfl
  | cons child rest hypothesis =>
      rw [List.forall_mem_cons] at each
      rw [mergeChildren, mergeList, mergeNamed_eq]
      cases findChild? child.name base with
      | none => exact hypothesis each.2 _
      | some existing =>
          simp only [Outcome.toOption_bind, Option.bind_map, each.1]
          exact Option.bind_congr fun merged _ => hypothesis each.2 _

/-- Where a merge is done matters to its error alone. -/
theorem toOption_mergeAt
    (path : FieldPath)
    (base overlay : Node) :
    (mergeAt path base overlay).toOption = combine base overlay := by
  unfold combine
  induction overlay using inductOn generalizing path base with
  | scalar declaration overlay =>
      cases base with
      | scalar _ facets =>
          rw [mergeAt, mergeAt]
          cases facets.merge? overlay <;> rfl
      | array => simp [mergeAt]
      | object => simp [mergeAt]
  | array _ _ element hypothesis =>
      cases base with
      | scalar => simp [mergeAt]
      | array _ _ baseElement =>
          rw [mergeAt, mergeAt, Outcome.toOption_bind, hypothesis, Outcome.toOption_bind]
      | object => simp [mergeAt]
  | object _ facets children hypothesis =>
      cases base with
      | scalar => simp [mergeAt]
      | array => simp [mergeAt]
      | object _ baseFacets baseChildren =>
          have inner := fun path => toOption_mergeChildren_of
            (fun child member path base => hypothesis child member path base) path baseChildren
          simp only [mergeAt, Outcome.toOption_bind, inner,
            Object.toOption_addGroups _ path FieldPath.root]

/-- Children are merged by name. -/
theorem toOption_mergeChildren
    (path : FieldPath)
    (base overlay : List Node) :
    (mergeChildren path base overlay).toOption = mergeList name combine base overlay :=
  toOption_mergeChildren_of (fun child _ path base => toOption_mergeAt path base child) path base

/-- Nodes of one name keep it when they are combined. -/
theorem keepsNames_combine : KeepsNames name combine :=
  fun same merged => name_mergeAt same (toOption_eq_some_iff.mp merged)

/-- A child that an overlay states is there afterwards. -/
theorem hasChild_of_mergeChildren
    {path : FieldPath}
    {base overlay result : List Node}
    (merged : mergeChildren path base overlay = .ok result)
    {member : String}
    (stated : hasChild member overlay) :
    hasChild member result := by
  rw [← toOption_eq_some_iff, toOption_mergeChildren] at merged
  rw [hasChild_iff] at stated ⊢
  exact (mem_names_mergeList keepsNames_combine merged member).mpr (.inr stated)

end Node

namespace Function

/-- The function with what an overlay states, if they fit together. -/
def combine (base overlay : Function) : Option Function := (base.merge overlay).toOption

theorem toOption_mergeSlot
    (path : FieldPath)
    (base overlay : Option Node) :
    (mergeSlot path base overlay).toOption = mergeOption Node.combine base overlay := by
  cases overlay with
  | none => cases base <;> rfl
  | some node =>
      cases base with
      | none => rfl
      | some existing =>
          rw [mergeSlot, Outcome.toOption_bind, Node.toOption_mergeAt, mergeOption,
            Option.map_eq_bind]
          rfl

/-- A function that combines two, part by part. -/
structure Combined (base overlay result : Function) : Prop where
  name : result.name = overlayText base.name overlay.name
  method : result.method = overlayOption base.method overlay.method
  uri : result.uri = overlayText base.uri overlay.uri
  pathParameters : mergeList Node.name Node.combine base.pathParameters overlay.pathParameters =
    some result.pathParameters
  queryParameters : mergeList Node.name Node.combine base.queryParameters overlay.queryParameters =
    some result.queryParameters
  body : mergeOption Node.combine base.body overlay.body = some result.body
  output : mergeOption Node.combine base.output overlay.output = some result.output

theorem combine_eq_some_iff
    {base overlay result : Function} :
    combine base overlay = some result ↔ Combined base overlay result := by
  simp only [combine, merge, Outcome.toOption_bind, Node.toOption_mergeChildren,
    toOption_mergeSlot, Option.bind_eq_some_iff]
  constructor
  · rintro ⟨pathParameters, ofPath, queryParameters, ofQuery, body, ofBody, output, ofOutput, same⟩
    cases same
    exact ⟨rfl, rfl, rfl, ofPath, ofQuery, ofBody, ofOutput⟩
  · rintro ⟨ofName, ofMethod, ofUri, ofPath, ofQuery, ofBody, ofOutput⟩
    refine ⟨_, ofPath, _, ofQuery, _, ofBody, _, ofOutput, ?_⟩
    rw [← ofName, ← ofMethod, ← ofUri]
    rfl

end Function

/-- A place for a function in a namespace. -/
inductive Slot where
  | create
  | read
  | update
  | delete
  | list
  /-- The place for a function of a name of its own. -/
  | other (name : String)
deriving Repr, DecidableEq

namespace Namespace

/-- The function in a slot. -/
def function? (slot : Slot) (managed : Namespace) : Option Function :=
  match slot with
  | .create => managed.create
  | .read => managed.read
  | .update => managed.update
  | .delete => managed.delete
  | .list => managed.list
  | .other name => managed.others.get? name

/-- The namespace with what an overlay states, if they fit together. -/
def combine (base overlay : Namespace) : Option Namespace := (base.merge overlay).toOption

theorem toOption_mergeFunction (base overlay : Option Function) :
    (mergeFunction base overlay).toOption = mergeOption Function.combine base overlay := by
  cases overlay with
  | none => cases base <;> rfl
  | some function =>
      cases base with
      | none => rfl
      | some existing =>
          rw [mergeFunction, Outcome.toOption_bind, mergeOption, Option.map_eq_bind]
          rfl

theorem toOption_mergeOthers
    (base : Order.Table Function)
    (overlay : List (String × Function)) :
    (mergeOthers base overlay).toOption = mergeTable Function.combine base overlay := by
  induction overlay generalizing base with
  | nil => rfl
  | cons stated rest hypothesis =>
      obtain ⟨key, function⟩ := stated
      rw [mergeOthers, mergeTable]
      cases base.get? key with
      | none => exact hypothesis _
      | some existing =>
          rw [Outcome.toOption_bind]
          exact Option.bind_congr fun merged _ => hypothesis _

/-- A namespace that combines two, part by part. -/
structure Combined (base overlay result : Namespace) : Prop where
  name : result.name = base.name
  schema : result.schema = overlayText base.schema overlay.schema
  moduleName : result.moduleName = overlayNonempty base.moduleName overlay.moduleName
  create : mergeOption Function.combine base.create overlay.create = some result.create
  read : mergeOption Function.combine base.read overlay.read = some result.read
  update : mergeOption Function.combine base.update overlay.update = some result.update
  delete : mergeOption Function.combine base.delete overlay.delete = some result.delete
  list : mergeOption Function.combine base.list overlay.list = some result.list
  others : mergeTables Function.combine base.others overlay.others = some result.others

theorem combine_eq_some_iff
    {base overlay result : Namespace} :
    combine base overlay = some result ↔ Combined base overlay result := by
  simp only [combine, merge, Outcome.toOption_bind, toOption_mergeFunction, toOption_mergeOthers,
    Option.bind_eq_some_iff]
  constructor
  · rintro ⟨create, ofCreate, read, ofRead, update, ofUpdate, delete, ofDelete, list, ofList,
      others, ofOthers, same⟩
    cases same
    exact ⟨rfl, rfl, rfl, ofCreate, ofRead, ofUpdate, ofDelete, ofList, ofOthers⟩
  · rintro ⟨ofName, ofSchema, ofModule, ofCreate, ofRead, ofUpdate, ofDelete, ofList, ofOthers⟩
    refine ⟨_, ofCreate, _, ofRead, _, ofUpdate, _, ofDelete, _, ofList, _, ofOthers, ?_⟩
    rw [← ofName, ← ofSchema, ← ofModule]
    rfl

/-- Namespaces combine if the functions in every slot do. -/
theorem combine_eq_some_iff_function?
    {base overlay result : Namespace} :
    combine base overlay = some result ↔
      result.name = base.name ∧
        result.schema = overlayText base.schema overlay.schema ∧
        result.moduleName = overlayNonempty base.moduleName overlay.moduleName ∧
        ∀ slot, mergeOption Function.combine (base.function? slot) (overlay.function? slot) =
          some (result.function? slot) := by
  rw [combine_eq_some_iff]
  constructor
  · rintro ⟨name, schema, moduleName, create, read, update, delete, list, others⟩
    refine ⟨name, schema, moduleName, ?_⟩
    intro slot
    cases slot with
    | create => exact create
    | read => exact read
    | update => exact update
    | delete => exact delete
    | list => exact list
    | other key => exact mergeTables_eq_some_iff.mp others key
  · rintro ⟨name, schema, moduleName, functions⟩
    exact ⟨name, schema, moduleName, functions .create, functions .read, functions .update,
      functions .delete, functions .list,
      mergeTables_eq_some_iff.mpr fun key => functions (.other key)⟩

/-- A combination of the functions of every slot is one of the namespaces. -/
theorem exists_combine
    {base overlay : Namespace}
    {property : Slot → Option Function → Prop}
    (each : ∀ slot, ∃ function,
      mergeOption Function.combine (base.function? slot) (overlay.function? slot) =
        some function ∧ property slot function) :
    ∃ result, combine base overlay = some result ∧
      ∀ slot, property slot (result.function? slot) := by
  obtain ⟨create, ofCreate, createHolds⟩ := each .create
  obtain ⟨read, ofRead, readHolds⟩ := each .read
  obtain ⟨update, ofUpdate, updateHolds⟩ := each .update
  obtain ⟨delete, ofDelete, deleteHolds⟩ := each .delete
  obtain ⟨list, ofList, listHolds⟩ := each .list
  obtain ⟨others, ofOthers, othersHold⟩ := exists_mergeTables fun key => each (.other key)
  refine ⟨⟨base.name, overlayText base.schema overlay.schema,
    overlayNonempty base.moduleName overlay.moduleName, create, read, update, delete, list,
    others⟩, combine_eq_some_iff.mpr ?_, ?_⟩
  · exact ⟨rfl, rfl, rfl, ofCreate, ofRead, ofUpdate, ofDelete, ofList, ofOthers⟩
  · intro slot
    cases slot with
    | create => exact createHolds
    | read => exact readHolds
    | update => exact updateHolds
    | delete => exact deleteHolds
    | list => exact listHolds
    | other key => exact othersHold key

/-- A namespace keeps its name. -/
theorem keepsNames_combine : KeepsNames Namespace.name combine :=
  fun _ merged => (combine_eq_some_iff.mp merged).name

end Namespace

namespace Document

/-- The document with what an override states, if they fit together. -/
def combine (base overlay : Document) : Option Document := (base.applyOverride overlay).toOption

theorem toOption_mergeSchemas
    (base : Order.Table Node)
    (overlay : List (String × Node)) :
    (mergeSchemas base overlay).toOption = mergeTable Node.combine base overlay := by
  induction overlay generalizing base with
  | nil => rfl
  | cons stated rest hypothesis =>
      obtain ⟨id, node⟩ := stated
      rw [mergeSchemas, mergeTable]
      cases base.get? id with
      | none => exact hypothesis _
      | some existing =>
          simp only [Outcome.toOption_bind, Node.toOption_mergeAt]
          exact Option.bind_congr fun merged _ => hypothesis _

theorem toOption_mergeNamespace
    (overlay : Namespace)
    (base : List Namespace) :
    (mergeNamespace overlay base).toOption =
      mergeNamed Namespace.name Namespace.combine overlay base := by
  induction base with
  | nil => rfl
  | cons first rest hypothesis =>
      rw [mergeNamespace, mergeNamed]
      split
      · rw [Outcome.toOption_bind, Option.map_eq_bind]
        rfl
      · rw [Outcome.toOption_bind, hypothesis, Option.map_eq_bind]
        rfl

theorem toOption_mergeNamespaces (base overlay : List Namespace) :
    (mergeNamespaces base overlay).toOption =
      mergeList Namespace.name Namespace.combine base overlay := by
  induction overlay generalizing base with
  | nil => rfl
  | cons stated rest hypothesis =>
      rw [mergeNamespaces, Outcome.toOption_bind, toOption_mergeNamespace, mergeList]
      exact Option.bind_congr fun next _ => hypothesis next

/-- A document combines two exactly if its entries and its namespaces do. -/
theorem combine_eq_some_iff
    {base overlay result : Document} :
    combine base overlay = some result ↔
      mergeTables Node.combine base.schemas overlay.schemas = some result.schemas ∧
        mergeList Namespace.name Namespace.combine base.namespaces overlay.namespaces =
          some result.namespaces := by
  simp only [combine, applyOverride, Outcome.toOption_bind, toOption_mergeSchemas,
    toOption_mergeNamespaces, Option.bind_eq_some_iff]
  constructor
  · rintro ⟨schemas, ofSchemas, namespaces, ofNamespaces, same⟩
    cases same
    exact ⟨ofSchemas, ofNamespaces⟩
  · rintro ⟨ofSchemas, ofNamespaces⟩
    exact ⟨_, ofSchemas, _, ofNamespaces, rfl⟩

end Document

end Schema
end SchemaCompiler
