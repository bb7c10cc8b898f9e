import SchemaCompiler.Generation.Run
import SchemaCompiler.Name.Standard
import SchemaCompiler.Proofs.Client.Arrangement
import SchemaCompiler.Proofs.Resource.Arrangement
import SchemaCompiler.Proofs.Schema.Reordering

/-!
# Runs over documents in another order

The output of a run does not depend on the order in which objects declare their children, nor
on the order of the parameters of functions whose inputs can be itemized. Every step of the run
takes children by display name or gathers names into a set, so it sees arranged forms only.
-/

namespace SchemaCompiler
namespace Generation

open SchemaCompiler.Client (TypeIndex)
open SchemaCompiler.Order (NameSet)
open SchemaCompiler.Outcome
open SchemaCompiler.Schema

/-! ## Names that travel -/

/-- Nodes that need not be there are both absent, or the same when arranged. -/
theorem absent_or_present_of_map_eq
    [Name.Lettering]
    {left right : Option Node}
    (same : left.map Node.arranged = right.map Node.arranged) :
    left = none ∧ right = none ∨
      ∃ first second, left = some first ∧ right = some second ∧
        first.arranged = second.arranged := by
  cases left <;> cases right <;> simp_all

/-- Names that make up one set make up one set together with the same others. -/
theorem bind_ofList_append_eq
    {left right : Except SchemaError (List String)}
    {before beforeToo : List String}
    (same : left.map NameSet.ofList = right.map NameSet.ofList)
    (sameBefore : ∀ name, name ∈ before ↔ name ∈ beforeToo) :
    (do return NameSet.ofList (before ++ (← left)) : Except SchemaError NameSet) =
      (do return NameSet.ofList (beforeToo ++ (← right))) := by
  rcases error_or_ok_of_map_eq same with
    ⟨cause, failed, failedToo⟩ | ⟨names, others, made, madeToo, sets⟩
  · rw [failed, failedToo, error_bind, error_bind]
  · rw [made, madeToo]
    refine congrArg Except.ok (NameSet.ofList_congr fun name => ?_)
    rw [List.mem_append, List.mem_append, sameBefore, ← NameSet.mem_ofList names, sets,
      NameSet.mem_ofList]

/-- Lists of the same arranged nodes have the same names. -/
theorem mem_map_name_iff
    [Name.Lettering]
    {left right : List Node}
    (same : (left.map Node.arranged).Perm (right.map Node.arranged))
    (name : String) :
    name ∈ left.map Node.name ↔ name ∈ right.map Node.name := by
  have names := (same.map Node.name).mem_iff (a := name)
  simpa only [List.map_map, Function.comp_def, Node.name_arranged] using names

/-- Functions with the same names gather the same names. -/
theorem gatherNames_eq
    [Name.Lettering]
    {names namesToo : Function → Except SchemaError NameSet}
    {left right : List (OperationKind × Function)}
    (each : ∀ first second, first.ArrangedAlike second → names first = namesToo second)
    (same : List.Forall₂ (fun first second => first.1 = second.1 ∧ first.2.ArrangedAlike second.2)
      left right) :
    gatherNames names left = gatherNames namesToo right := by
  induction same with
  | nil => rfl
  | cons first _ hypothesis => rw [gatherNames, gatherNames, each _ _ first.2, hypothesis]

section Usage

variable
  [Name.Lettering]
  {registry other : Registry}
  (entries : registry.arranged = other.arranged)

include entries

theorem ofList_topLevelNames_eq
    {left right : Node}
    (nodes : left.arranged = right.arranged) :
    (topLevelNames registry left).map NameSet.ofList =
      (topLevelNames other right).map NameSet.ofList := by
  rw [← topLevelNames_arranged, entries, nodes, topLevelNames_arranged]

/-- Functions that are arranged alike take the same names. -/
theorem inputNames_eq
    {left right : Function}
    (same : left.ArrangedAlike right) :
    left.inputNames registry = right.inputNames other := by
  have parameters : ∀ name,
      name ∈ (left.pathParameters ++ left.queryParameters).map Node.name ↔
        name ∈ (right.pathParameters ++ right.queryParameters).map Node.name := by
    refine mem_map_name_iff ?_
    rw [List.map_append, List.map_append]
    exact same.pathParameters.append same.queryParameters
  unfold Function.inputNames
  rcases absent_or_present_of_map_eq same.body with
    ⟨absent, absentToo⟩ | ⟨body, bodyToo, present, presentToo, nodes⟩
  · rw [absent, absentToo]
    have none : Except.map NameSet.ofList (.ok [] : Except SchemaError (List String)) =
        Except.map NameSet.ofList (.ok []) := rfl
    exact bind_ofList_append_eq none parameters
  · rw [present, presentToo]
    exact bind_ofList_append_eq (ofList_topLevelNames_eq entries nodes) parameters

/-- So they return the same names. -/
theorem outputNames_eq
    {left right : Function}
    (same : left.ArrangedAlike right) :
    left.outputNames registry = right.outputNames other := by
  unfold Function.outputNames
  rcases absent_or_present_of_map_eq same.output with
    ⟨absent, absentToo⟩ | ⟨output, outputToo, present, presentToo, nodes⟩
  · rw [absent, absentToo]
  · rw [present, presentToo]
    have nothing : ∀ name : String, name ∈ [] ↔ name ∈ [] := fun _ => Iff.rfl
    exact bind_ofList_append_eq (ofList_topLevelNames_eq entries nodes) nothing

theorem usageIndex_eq
    {left right : Namespace}
    (same : left.ArrangedAlike right) :
    UsageIndex.ofNamespace registry left = UsageIndex.ofNamespace other right := by
  have input : left.inputNames registry = right.inputNames other :=
    gatherNames_eq (fun _ _ => inputNames_eq entries) same.functions
  have output : left.outputNames registry = right.outputNames other :=
    gatherNames_eq (fun _ _ => outputNames_eq entries) same.functions
  rw [UsageIndex.ofNamespace, UsageIndex.ofNamespace, input, output]

end Usage

/-! ## Conversions -/

section Conversions

variable
  [Name.Lettering]
  {registry other : Registry}
  (entries : registry.arranged = other.arranged)
  (index : TypeIndex)

include entries

theorem convertRoot_eq
    (name : String)
    (path : FieldPath)
    {left right : Node}
    (nodes : left.arranged = right.arranged) :
    Client.convertRoot registry index name path left =
      Client.convertRoot other index name path right := by
  rw [← Client.convertRoot_arranged, entries, nodes, Client.convertRoot_arranged]

theorem convertEntry_eq (id : String) :
    Client.convertEntry registry index id = Client.convertEntry other index id := by
  rw [← Client.convertEntry_arranged, entries, Client.convertEntry_arranged]

theorem convertOutput_eq
    (name : String)
    (path : FieldPath)
    {left right : Node}
    (nodes : left.arranged = right.arranged) :
    Client.convertOutput registry index name path left =
      Client.convertOutput other index name path right := by
  rw [← Client.convertOutput_arranged, entries, nodes, Client.convertOutput_arranged]

/-- Functions that are arranged alike have the same input type. -/
theorem convertInput_eq
    (lead : String)
    {left right : Function}
    (same : left.ArrangedAlike right) :
    Client.convertInput registry index lead left =
      Client.convertInput other index lead right := by
  have method : left.httpMethod = right.httpMethod := by
    rw [Function.httpMethod, Function.httpMethod, same.method]
  have placeholders : left.placeholders = right.placeholders := by
    rw [Function.placeholders, Function.placeholders, same.uri]
  unfold Client.convertInput
  rcases error_or_ok_of_map_eq same.input with
    ⟨cause, failed, failedToo⟩ | ⟨taken, takenToo, itemized, itemizedToo, nodes⟩
  · rw [failed, failedToo, error_bind, error_bind]
  · rw [itemized, itemizedToo, ok_bind, ok_bind, same.name,
      convertRoot_eq entries index _ _ nodes, method, placeholders, same.uri]

/-- So they have the same definitions. -/
theorem convertFunction_eq
    (namespaceType : String)
    {left right : Function}
    (same : left.ArrangedAlike right) :
    Client.convertFunction registry index namespaceType left =
      Client.convertFunction other index namespaceType right := by
  unfold Client.convertFunction
  dsimp only
  rw [same.name, convertInput_eq entries index _ same]
  rcases absent_or_present_of_map_eq same.output with
    ⟨absent, absentToo⟩ | ⟨output, outputToo, present, presentToo, nodes⟩
  · rw [absent, absentToo]
  · rw [present, presentToo]
    dsimp only
    rw [convertOutput_eq entries index _ _ nodes]

theorem convertFunctions_eq
    (namespaceType : String)
    {left right : List (OperationKind × Function)}
    (same : List.Forall₂ (fun first second => first.1 = second.1 ∧ first.2.ArrangedAlike second.2)
      left right) :
    Client.convertFunctions registry index namespaceType left =
      Client.convertFunctions other index namespaceType right := by
  induction same with
  | nil => rfl
  | cons first _ hypothesis =>
      rw [Client.convertFunctions, Client.convertFunctions,
        convertFunction_eq entries index namespaceType first.2, hypothesis]

/-- Namespaces that are arranged alike have the same client. -/
theorem convertNamespace_eq
    {left right : Namespace}
    (same : left.ArrangedAlike right) :
    Client.convertNamespace registry index left = Client.convertNamespace other index right := by
  rw [Client.convertNamespace, Client.convertNamespace, same.schema, same.name,
    convertEntry_eq entries index, convertFunctions_eq entries index _ same.functions]

end Conversions

/-- Namespaces that are arranged alike have the same resource schema. -/
theorem ofNamespace_eq
    [Name.Lettering]
    {registry other : Registry}
    (entries : registry.arranged = other.arranged)
    (usage : UsageIndex)
    {left right : Namespace}
    (same : left.ArrangedAlike right) :
    Resource.ofNamespace registry usage left = Resource.ofNamespace other usage right := by
  have renamed :
      Resource.ofNamespace other usage left = Resource.ofNamespace other usage right := by
    unfold Resource.ofNamespace Resource.schemaOf
    rw [same.schema, same.name]
  rw [← Resource.ofNamespace_arranged, entries, Resource.ofNamespace_arranged, renamed]

/-! ## Projects -/

/-- Lists whose elements have the same parts one by one have the same parts. -/
theorem mem_flatMap_iff_of_forall₂
    {relation : α → β → Prop}
    {left : List α}
    {right : List β}
    (same : List.Forall₂ relation left right)
    {parts : α → List γ}
    {partsToo : β → List γ}
    {part : γ}
    (each : ∀ first second, relation first second → (part ∈ parts first ↔ part ∈ partsToo second)) :
    part ∈ left.flatMap parts ↔ part ∈ right.flatMap partsToo := by
  induction same with
  | nil => rfl
  | cons first _ hypothesis =>
      rw [List.flatMap_cons, List.flatMap_cons, List.mem_append, List.mem_append, each _ _ first,
        hypothesis]

/-- The namespaces have one slug and functions that are arranged alike. -/
structure Titled.ArrangedAlike [Name.Lettering] (left right : Titled) : Prop where
  slug : left.slug = right.slug
  managed : left.managed.ArrangedAlike right.managed

/-- The projects have the same arranged entries, and namespaces that are arranged alike. -/
structure Project.ArrangedAlike [Name.Lettering] (left right : Project) : Prop where
  registry : left.registry.arranged = right.registry.arranged
  namespaces :
    List.Forall₂ Titled.ArrangedAlike left.namespaces right.namespaces
  index : left.index = right.index

/-- Slugs depend on the names of namespaces only. -/
theorem assignSlugs_arrangedAlike
    [Name.Lettering]
    {left right : List Namespace}
    (same : List.Forall₂ Namespace.ArrangedAlike left right)
    (ledger : Name.SlugLedger) :
    List.Forall₂ Titled.ArrangedAlike (assignSlugs ledger left) (assignSlugs ledger right) := by
  induction same generalizing ledger with
  | nil => exact .nil
  | cons first _ hypothesis =>
      rw [assignSlugs, assignSlugs, first.name]
      split
      · exact .cons ⟨rfl, first⟩ (hypothesis _)
      · exact .cons ⟨rfl, first⟩ (hypothesis _)

/-- The same names are those of a namespace. -/
theorem any_name_eq
    [Name.Lettering]
    {left right : List Titled}
    (same : List.Forall₂ Titled.ArrangedAlike left right)
    (name : String) :
    (left.any fun titled => titled.managed.name = name) =
      right.any fun titled => titled.managed.name = name := by
  induction same with
  | nil => rfl
  | cons first _ hypothesis => rw [List.any_cons, List.any_cons, first.managed.name, hypothesis]

/-- Of the namespace that manages an object entry, the module matters. -/
theorem sharedType?_object
    [Name.Lettering]
    (namespaces : List Namespace)
    (id : String)
    (declaration : Declaration)
    (facets : ObjectFacets)
    (children : List Node) :
    Client.sharedType? namespaces id (.object declaration facets children) =
      match (namespaces.find? fun managed => managed.schema = id).map Namespace.outputModule with
      | some owner => some ⟨owner, Client.entryClass id facets, true⟩
      | none => some ⟨Client.unmanagedModule declaration, Client.entryClass id facets, false⟩ := by
  unfold Client.sharedType?
  dsimp only
  cases namespaces.find? fun managed => managed.schema = id <;> rfl

/-- An entry is declared in the same module and under the same class. -/
theorem sharedType?_eq
    [Name.Lettering]
    {left right : List Namespace}
    (same : List.Forall₂ Namespace.ArrangedAlike left right)
    (id : String)
    (entry : Node) :
    Client.sharedType? left id entry = Client.sharedType? right id entry := by
  have owners : (left.find? fun managed => managed.schema = id).map Namespace.outputModule =
      (right.find? fun managed => managed.schema = id).map Namespace.outputModule := by
    induction same with
    | nil => rfl
    | cons first _ hypothesis =>
        rw [List.find?_cons, List.find?_cons, first.schema]
        split
        · rw [Option.map_some, Option.map_some, Namespace.outputModule, Namespace.outputModule,
            first.moduleName, first.name]
        · exact hypothesis
  cases entry with
  | scalar | array => rfl
  | object declaration facets children => rw [sharedType?_object, sharedType?_object, owners]

/-- Documents that differ in an order only are made ready alike. -/
theorem arrangedAlike_ofDocument
    [Name.Lettering]
    {left right : Document}
    (same : left.Reordered right)
    (formed : left.WellFormed) :
    (Project.ofDocument left).ArrangedAlike (.ofDocument right) where
  registry := same.registry_arranged_eq formed
  namespaces := assignSlugs_arrangedAlike (same.forall₂_arrangedAlike formed) .empty
  index := by
    have declared := sharedType?_eq (same.forall₂_arrangedAlike formed)
    have namespaces : TypeIndex.build ⟨right.schemas⟩ left.namespaces =
        TypeIndex.build ⟨right.schemas⟩ right.namespaces := by
      simp only [TypeIndex.build, declared]
    calc
      TypeIndex.build ⟨left.schemas⟩ left.namespaces =
          TypeIndex.build (Registry.arranged ⟨left.schemas⟩) left.namespaces :=
        (Client.build_arranged _ _).symm
      _ = TypeIndex.build (Registry.arranged ⟨right.schemas⟩) left.namespaces := by
        rw [same.registry_arranged_eq formed]
      _ = TypeIndex.build ⟨right.schemas⟩ left.namespaces := Client.build_arranged _ _
      _ = TypeIndex.build ⟨right.schemas⟩ right.namespaces := namespaces

namespace Project.ArrangedAlike

variable
  [Name.Lettering]
  {left right : Project}
  (same : left.ArrangedAlike right)

include same

/-- Namespaces that are arranged alike are converted alike. -/
theorem convert_eq
    {managed managedToo : Namespace}
    (namespaces : managed.ArrangedAlike managedToo) :
    convert left managed = convert right managedToo := by
  unfold convert
  rw [usageIndex_eq same.registry namespaces]
  cases UsageIndex.ofNamespace right.registry managedToo with
  | error cause => rfl
  | ok usage =>
      dsimp only
      rw [ofNamespace_eq same.registry usage namespaces,
        convertNamespace_eq same.registry left.index namespaces, same.index]

/-- Either namespace has the same files or the same warning. -/
theorem addNamespace_eq
    (made : Progress)
    {titled titledToo : Titled}
    (titles : titled.ArrangedAlike titledToo) :
    addNamespace left made titled = addNamespace right made titledToo := by
  obtain ⟨slug, namespaces⟩ := titles
  unfold addNamespace
  rw [same.convert_eq namespaces]
  simp only [failureOf, addFiles, clientFile, Namespace.outputModule, Namespace.fileStem, slug,
    namespaces.name, namespaces.schema, namespaces.moduleName, same.index]

/-- The selected namespaces add the same to a run. -/
theorem foldlM_addNamespace_eq
    {titles titlesToo : List Titled}
    (each : List.Forall₂ Titled.ArrangedAlike titles titlesToo)
    (made : Progress) :
    titles.foldlM (addNamespace left) made = titlesToo.foldlM (addNamespace right) made := by
  induction each generalizing made with
  | nil => rfl
  | cons first _ hypothesis =>
      rw [List.foldlM_cons, List.foldlM_cons, same.addNamespace_eq made first]
      simp only [hypothesis]

/-- The same namespaces are selected. -/
theorem select_arrangedAlike (only : NameSet) :
    List.Forall₂ Titled.ArrangedAlike (select left only) (select right only) := by
  unfold select
  split
  · exact same.namespaces
  · refine List.rel_filter ?_ same.namespaces
    rintro first second ⟨_, namespaces⟩
    dsimp only
    rw [namespaces.name]

/-- A run over either project starts with the same cycles and warnings. -/
theorem start_eq (only : NameSet) : start left only = start right only := by
  have cycles : left.registry.cycles = right.registry.cycles := by
    rw [← Registry.cycles_arranged, same.registry, Registry.cycles_arranged]
  simp only [start, cycles, unknownNames, any_name_eq same.namespaces]

/-- The same entries are needed by the selected namespaces. -/
theorem wantedIds_eq
    {titles titlesToo : List Titled}
    (each : List.Forall₂ Titled.ArrangedAlike titles titlesToo) :
    wantedIds left titles = wantedIds right titlesToo := by
  unfold wantedIds
  dsimp only
  rw [← Registry.reachable_arranged, same.registry, Registry.reachable_arranged]
  refine congrArg (fun names : NameSet => right.registry.reachable names.names)
    (NameSet.ofList_congr fun id => mem_flatMap_iff_of_forall₂ each ?_)
  rintro first second ⟨_, namespaces⟩
  rw [List.mem_cons, List.mem_cons, namespaces.schema]
  refine or_congr_right (mem_flatMap_iff_of_forall₂ namespaces.functions ?_)
  rintro ⟨_, function⟩ ⟨_, functionToo⟩ ⟨_, functions⟩
  exact functions.mem_mentions_iff id

/-- The same shared types are written. -/
theorem wantedTypes_eq (only : NameSet) : wantedTypes left only = wantedTypes right only := by
  unfold wantedTypes
  rw [same.index, same.wantedIds_eq (same.select_arrangedAlike only)]

/-- The shared types of a module have the same definitions. -/
theorem convertShared_eq (ids : List String) :
    convertShared left ids = convertShared right ids := by
  induction ids with
  | nil => rfl
  | cons id rest hypothesis =>
      rw [convertShared, convertShared, hypothesis, convertEntry_eq same.registry left.index,
        same.index]

theorem addShared_eq
    (made : Progress)
    (shared : String × List String) :
    addShared left made shared = addShared right made shared := by
  simp only [addShared, same.convertShared_eq, clientFile, same.index]

/-- Runs over either project make the same. -/
theorem progress_eq (only : NameSet) : progress left only = progress right only := by
  have shared : addShared left = addShared right :=
    funext fun made => funext fun types => same.addShared_eq made types
  unfold progress
  rw [same.foldlM_addNamespace_eq (same.select_arrangedAlike only), same.start_eq,
    same.wantedTypes_eq, shared]

end Project.ArrangedAlike

/-- Two documents that differ only in the order in which objects declare their children, and in
the order of the parameters of functions whose inputs can be itemized, have the same output for
every request: the same files, statistics, cycles and warnings. No object may have two children
of one name, nor has one in a document that reading returns (`Document.Sound.wellFormed`). -/
theorem generate_eq_of_reordered
    [Name.Lettering]
    {left right : Document}
    (formed : left.WellFormed)
    (same : left.Reordered right)
    (request : Request) :
    generate (.ofDocument left) request = generate (.ofDocument right) request := by
  rw [generate, generate, (arrangedAlike_ofDocument same formed).progress_eq]

/-! ## Two listings -/

/-- Where a listener is. -/
def hostField : Node := .scalar { name := "host" } (.string {})

/-- The port of a listener. -/
def portField : Node := .scalar { name := "port" } (.int {})

/-- The page of a listing. -/
def pageParameter : Node := .scalar { name := "page" } (.int {})

/-- The site of a listing. -/
def siteParameter : Node := .scalar { name := "site" } (.string {})

/-- An entry with fields in some order. -/
def listenerEntry (fields : List Node) : Node := .object { name := "listener" } {} fields

/-- A function with parameters in some order, whose output is an object with the fields. -/
def listenerListing (fields parameters : List Node) : Function where
  name := "list"
  uri := "/listeners"
  queryParameters := parameters
  output := some (.object {} {} fields)

/-- The entry with a namespace that lists it. -/
def listenerDocument (fields parameters : List Node) : Document where
  schemas := .ofList [("listener", listenerEntry fields)]
  namespaces := [{
    name := "Listener"
    schema := "listener"
    list := some (listenerListing fields parameters) }]

theorem wellFormed_fields (declaration : Declaration) :
    (Node.object declaration {} [hostField, portField]).WellFormed := by
  refine .object (by decide) .nil (by simp) fun child member => ?_
  rcases List.mem_pair.mp member with rfl | rfl <;> exact .scalar _ _

theorem reordered_fields (declaration : Declaration) :
    (Node.object declaration {} [hostField, portField]).Reordered
      (.object declaration {} [portField, hostField]) := by
  refine .object [(hostField, hostField), (portField, portField)] (.refl _) (.swap _ _ _) ?_
  intro pair member
  rcases List.mem_pair.mp member with rfl | rfl <;> exact .scalar _ _

theorem wellFormed_listenerDocument :
    (listenerDocument [hostField, portField] [siteParameter, pageParameter]).WellFormed := by
  refine ⟨fun entry member => ?_, fun managed isManaged entry isFunction node isNode => ?_⟩
  · rw [List.mem_singleton.mp member]
    exact wellFormed_fields { name := "listener" }
  · rw [List.mem_singleton.mp isManaged] at isFunction
    rw [List.mem_singleton.mp isFunction] at isNode
    simp only [listenerListing, Function.nodes, List.nil_append, Option.toList, List.append_nil,
      List.cons_append, List.mem_cons, List.not_mem_nil, or_false] at isNode
    rcases isNode with rfl | rfl | rfl
    · exact .scalar _ _
    · exact .scalar _ _
    · exact wellFormed_fields {}

theorem reordered_listenerListing :
    (listenerListing [hostField, portField] [siteParameter, pageParameter]).Reordered
      (listenerListing [portField, hostField] [pageParameter, siteParameter]) where
  name := rfl
  method := rfl
  uri := rfl
  pathParameters := ⟨[], .nil, .nil, by simp⟩
  queryParameters := by
    refine ⟨[(siteParameter, siteParameter), (pageParameter, pageParameter)], .refl _,
      .swap _ _ _, ?_⟩
    intro pair member
    rcases List.mem_pair.mp member with rfl | rfl <;> exact .scalar _ _
  inOrder := .inl ⟨_, rfl⟩
  body := .none
  output := .some (reordered_fields {})

theorem reordered_listenerDocument :
    (listenerDocument [hostField, portField] [siteParameter, pageParameter]).Reordered
      (listenerDocument [portField, hostField] [pageParameter, siteParameter]) where
  schemas := .cons ⟨rfl, reordered_fields { name := "listener" }⟩ .nil
  namespaces := .cons {
    name := rfl
    schema := rfl
    moduleName := rfl
    create := .none
    read := .none
    update := .none
    delete := .none
    list := .some reordered_listenerListing
    others := .nil } .nil

/-- The order of fields and of parameters does not show in the output. -/
theorem generate_listenerDocument :
    generate (.ofDocument (listenerDocument [hostField, portField] [siteParameter, pageParameter]))
        ⟨"listener.json", .everyone, .empty⟩ =
      generate
        (.ofDocument (listenerDocument [portField, hostField] [pageParameter, siteParameter]))
        ⟨"listener.json", .everyone, .empty⟩ :=
  generate_eq_of_reordered wellFormed_listenerDocument reordered_listenerDocument _

end Generation
end SchemaCompiler
