import SchemaCompiler.Proofs.Registry.Arrangement
import SchemaCompiler.Proofs.Schema.Soundness

/-!
# Documents in another order

Two documents are `Reordered` if they differ only in the order in which objects declare their
children, and functions their parameters. Such documents are `Arranged` alike: their entries
are the same when arranged, and so is what each function takes and returns.
-/

namespace SchemaCompiler
namespace Schema

open SchemaCompiler.Outcome

namespace Node

/-- Trees that differ one by one in the order of children only are the same when arranged. -/
theorem map_arranged_eq_of_forall₂
    [Name.Lettering]
    {left right : List Node}
    (same : List.Forall₂ Reordered left right)
    (formed : ∀ node ∈ left, node.WellFormed) :
    left.map arranged = right.map arranged := by
  induction same with
  | nil => rfl
  | cons first _ hypothesis =>
      obtain ⟨firstFormed, restFormed⟩ := List.forall_mem_cons.mp formed
      rw [List.map_cons, List.map_cons, first.arranged_eq firstFormed, hypothesis restFormed]

/-- So are nodes that need not be there. -/
theorem option_map_arranged_eq
    [Name.Lettering]
    {left right : Option Node}
    (same : Option.Rel Reordered left right)
    (formed : ∀ node ∈ left, node.WellFormed) :
    left.map arranged = right.map arranged := by
  cases same with
  | none => rfl
  | some nodes => exact congrArg some (nodes.arranged_eq (formed _ rfl))

end Node

/-! ## Functions -/

namespace Function

/-- The functions differ only in the order of children and, if the inputs of the function can
be itemized, in the order of parameters. -/
structure Reordered (left right : Function) : Prop where
  name : left.name = right.name
  method : left.method = right.method
  uri : left.uri = right.uri
  pathParameters : Node.ReorderedAll left.pathParameters right.pathParameters
  queryParameters : Node.ReorderedAll left.queryParameters right.queryParameters
  inOrder :
    (∃ taken, left.itemizedInput = .ok taken) ∨
      List.Forall₂ Node.Reordered left.pathParameters right.pathParameters ∧
        List.Forall₂ Node.Reordered left.queryParameters right.queryParameters
  body : Option.Rel Node.Reordered left.body right.body
  output : Option.Rel Node.Reordered left.output right.output

/-- The functions take and return the same when all nodes are arranged. -/
structure ArrangedAlike [Name.Lettering] (left right : Function) : Prop where
  name : left.name = right.name
  method : left.method = right.method
  uri : left.uri = right.uri
  pathParameters :
    (left.pathParameters.map Node.arranged).Perm (right.pathParameters.map Node.arranged)
  queryParameters :
    (left.queryParameters.map Node.arranged).Perm (right.queryParameters.map Node.arranged)
  input : left.itemizedInput.map Node.arranged = right.itemizedInput.map Node.arranged
  body : left.body.map Node.arranged = right.body.map Node.arranged
  output : left.output.map Node.arranged = right.output.map Node.arranged

@[simp] theorem name_locate
    (location : Location)
    (node : Node) :
    (locate location node).name = node.name := by
  simp [locate, Node.name]

@[simp] theorem arranged_locate
    [Name.Lettering]
    (location : Location)
    (node : Node) :
    (locate location node).arranged = locate location node.arranged := by
  simp [locate]

/-- Inputs with distinct names can be itemized, and no others. -/
theorem itemize_eq_ok_iff
    {function : Function}
    {seen rest : List (Location × Node)}
    {children : List Node} :
    function.itemize seen rest = .ok children ↔
      (rest.map fun input => input.2.name).Nodup ∧
        (∀ earlier ∈ seen, ∀ input ∈ rest, earlier.2.name ≠ input.2.name) ∧
        children = rest.map fun input => locate input.1 input.2 := by
  induction rest generalizing seen children with
  | nil => simp [itemize, eq_comm]
  | cons input rest hypothesis =>
      obtain ⟨location, node⟩ := input
      rw [itemize]
      split
      next first other found =>
        have known := List.mem_of_find?_eq_some found
        have same : other.name = node.name := by simpa using List.find?_some found
        simp only [reduceCtorEq, false_iff]
        rintro ⟨-, apart, -⟩
        exact apart _ known _ List.mem_cons_self same
      next missing =>
        have fresh : ∀ earlier ∈ seen, earlier.2.name ≠ node.name := by
          simpa using List.find?_eq_none.mp missing
        rw [bind_eq_ok_iff]
        constructor
        · rintro ⟨others, itemized, made⟩
          obtain ⟨distinct, apart, rfl⟩ := hypothesis.mp itemized
          cases made
          refine ⟨List.nodup_cons.mpr ⟨?_, distinct⟩, ?_, rfl⟩
          · intro repeated
            obtain ⟨later, member, same⟩ := List.mem_map.mp repeated
            exact apart _ (List.mem_append_right seen List.mem_cons_self) later member same.symm
          · intro earlier known
            exact List.forall_mem_cons.mpr
              ⟨fresh earlier known, apart earlier (List.mem_append_left _ known)⟩
        · rintro ⟨distinct, apart, rfl⟩
          obtain ⟨new, distinct⟩ := List.nodup_cons.mp distinct
          refine ⟨_, hypothesis.mpr ⟨distinct, ?_, rfl⟩, rfl⟩
          intro earlier known later member
          rcases List.mem_append.mp known with old | latest
          · exact apart earlier old later (List.mem_cons_of_mem _ member)
          · rw [List.mem_singleton.mp latest]
            exact fun same => new (List.mem_map.mpr ⟨later, member, same.symm⟩)

/-- Only the name of a function shows in how its inputs are itemized. -/
theorem itemize_eq_of_name
    {left right : Function}
    (name : left.name = right.name)
    (seen rest : List (Location × Node)) :
    left.itemize seen rest = right.itemize seen rest := by
  induction rest generalizing seen with
  | nil => rfl
  | cons input rest hypothesis => rw [itemize, itemize, name, hypothesis]

/-- An input with its node arranged. -/
def arrangedInput [Name.Lettering] (input : Location × Node) : Location × Node :=
  (input.1, input.2.arranged)

/-- Arranged inputs are itemized as the inputs themselves. -/
theorem itemize_arranged
    [Name.Lettering]
    (function : Function)
    (seen rest : List (Location × Node)) :
    function.itemize (seen.map arrangedInput) (rest.map arrangedInput) =
      (function.itemize seen rest).map (List.map Node.arranged) := by
  induction rest generalizing seen with
  | nil => rfl
  | cons input rest hypothesis =>
      obtain ⟨location, node⟩ := input
      have later := hypothesis (seen ++ [(location, node)])
      rw [List.map_append, List.map_singleton] at later
      rw [List.map_cons, arrangedInput, itemize, itemize, List.find?_map]
      have same : ((fun earlier : Location × Node =>
          decide (earlier.2.name = node.arranged.name)) ∘ arrangedInput) =
            fun earlier => decide (earlier.2.name = node.name) := by
        funext earlier
        simp [arrangedInput]
      rw [same]
      cases seen.find? fun earlier => decide (earlier.2.name = node.name) with
      | some first =>
          rw [Option.map_some, Node.name_arranged]
          rfl
      | none =>
          rw [Option.map_none]
          dsimp only
          rw [arrangedInput] at later
          rw [later]
          cases function.itemize (seen ++ [(location, node)]) rest with
          | error cause => rfl
          | ok children =>
              rw [Except.map, ok_bind, ok_bind, ← arranged_locate]
              rfl

/-- The inputs of a function when all nodes are arranged. -/
theorem map_locatedInputs [Name.Lettering] (function : Function) :
    function.locatedInputs.map arrangedInput =
      ((function.pathParameters.map Node.arranged).map fun node => (.path, node))
        ++ ((function.queryParameters.map Node.arranged).map fun node => (.query, node))
        ++ (function.body.map Node.arranged).toList.map fun node =>
          (.body, node.withDeclaration { node.declaration with name := requestBodyName }) := by
  simp only [locatedInputs, List.map_append, List.map_map]
  cases function.body <;> simp [arrangedInput, Function.comp_def]

/-- What a function takes, when arranged, by its arranged inputs. -/
theorem map_itemizedInput [Name.Lettering] (function : Function) :
    function.itemizedInput.map Node.arranged =
      (function.itemize [] (function.locatedInputs.map arrangedInput)).map fun children =>
        .object { name := function.name } {} (Node.sorted children) := by
  have itemized := itemize_arranged function [] function.locatedInputs
  rw [List.map_nil] at itemized
  rw [itemized]
  unfold itemizedInput
  cases function.itemize [] function.locatedInputs with
  | error cause => rfl
  | ok children =>
      rw [ok_bind]
      exact congrArg Except.ok (Node.arranged_object _ _ children)

/-- Functions that differ in the order of children and parameters only take and return the
same when arranged. -/
theorem Reordered.arrangedAlike
    [Name.Lettering]
    {left right : Function}
    (same : left.Reordered right)
    (formed : ∀ node ∈ left.nodes, node.WellFormed) :
    left.ArrangedAlike right := by
  obtain ⟨ofPath, ofQuery, ofBody, ofOutput⟩ := forall_mem_nodes_iff.mp formed
  have path := same.pathParameters.perm_arranged ofPath
  have query := same.queryParameters.perm_arranged ofQuery
  have body := Node.option_map_arranged_eq same.body ofBody
  refine ⟨same.name, same.method, same.uri, path, query, ?_, body,
    Node.option_map_arranged_eq same.output ofOutput⟩
  rw [map_itemizedInput, map_itemizedInput, itemize_eq_of_name same.name, same.name]
  rcases same.inOrder with ⟨taken, itemized⟩ | ⟨pathInOrder, queryInOrder⟩
  · obtain ⟨children, made, -⟩ := bind_eq_ok_iff.mp itemized
    have madeArranged := itemize_arranged left [] left.locatedInputs
    rw [made, List.map_nil, Except.map, itemize_eq_of_name same.name] at madeArranged
    obtain ⟨distinct, -, children⟩ := itemize_eq_ok_iff.mp madeArranged
    have inputs : (left.locatedInputs.map arrangedInput).Perm
        (right.locatedInputs.map arrangedInput) := by
      rw [map_locatedInputs, map_locatedInputs, body]
      exact ((path.map _).append (query.map _)).append_right _
    have madeToo : right.itemize [] (right.locatedInputs.map arrangedInput) = .ok _ :=
      itemize_eq_ok_iff.mpr
        ⟨(inputs.map fun input => input.2.name).nodup_iff.mp distinct, by simp, rfl⟩
    rw [madeArranged, madeToo, children, Except.map, Except.map,
      Node.sorted_eq_of_perm ?_ (inputs.map fun input => locate input.1 input.2)]
    simpa [Function.comp_def] using distinct
  · rw [map_locatedInputs, map_locatedInputs, body,
      Node.map_arranged_eq_of_forall₂ pathInOrder ofPath,
      Node.map_arranged_eq_of_forall₂ queryInOrder ofQuery]

/-- The nodes of functions that are arranged alike are the same when arranged, in some order. -/
theorem ArrangedAlike.perm_nodes
    [Name.Lettering]
    {left right : Function}
    (same : left.ArrangedAlike right) :
    (left.nodes.map Node.arranged).Perm (right.nodes.map Node.arranged) := by
  have body : left.body.toList.map Node.arranged = right.body.toList.map Node.arranged := by
    rw [← Option.toList_map, ← Option.toList_map, same.body]
  have output : left.output.toList.map Node.arranged = right.output.toList.map Node.arranged := by
    rw [← Option.toList_map, ← Option.toList_map, same.output]
  simp only [nodes, List.map_append, body, output]
  exact ((same.pathParameters.append same.queryParameters).append_right _).append_right _

/-- They mention the same ids. -/
theorem ArrangedAlike.mem_mentions_iff
    [Name.Lettering]
    {left right : Function}
    (same : left.ArrangedAlike right)
    (id : String) :
    id ∈ left.nodes.flatMap Node.mentions ↔ id ∈ right.nodes.flatMap Node.mentions := by
  have mentioned : ∀ nodes : List Node,
      id ∈ (nodes.map Node.arranged).flatMap Node.mentions ↔ id ∈ nodes.flatMap Node.mentions := by
    intro nodes
    simp [List.flatMap_map, Node.mem_mentions_arranged]
  rw [← mentioned left.nodes, ← mentioned right.nodes]
  exact (same.perm_nodes.flatMap_right Node.mentions).mem_iff

end Function

/-! ## Documents -/

namespace Namespace

/-- The namespaces differ only in their functions, and these only in an order. -/
structure Reordered (left right : Namespace) : Prop where
  name : left.name = right.name
  schema : left.schema = right.schema
  moduleName : left.moduleName = right.moduleName
  create : Option.Rel Function.Reordered left.create right.create
  read : Option.Rel Function.Reordered left.read right.read
  update : Option.Rel Function.Reordered left.update right.update
  delete : Option.Rel Function.Reordered left.delete right.delete
  list : Option.Rel Function.Reordered left.list right.list
  others :
    List.Forall₂ (fun first second => first.1 = second.1 ∧ first.2.Reordered second.2)
      left.others.entries right.others.entries

/-- The namespaces have functions that are arranged alike. -/
structure ArrangedAlike [Name.Lettering] (left right : Namespace) : Prop where
  name : left.name = right.name
  schema : left.schema = right.schema
  moduleName : left.moduleName = right.moduleName
  functions :
    List.Forall₂ (fun first second => first.1 = second.1 ∧ first.2.ArrangedAlike second.2)
      left.functions right.functions

theorem forall₂_toList
    {left right : Option Function}
    (kind : OperationKind)
    (same : Option.Rel Function.Reordered left right) :
    List.Forall₂ (fun first second => first.1 = second.1 ∧ first.2.Reordered second.2)
      (left.toList.map fun function => (kind, function))
      (right.toList.map fun function => (kind, function)) := by
  cases same with
  | none => exact .nil
  | some functions => exact .cons ⟨rfl, functions⟩ .nil

/-- The functions of the namespaces by kind differ in an order only. -/
theorem Reordered.functions
    {left right : Namespace}
    (same : left.Reordered right) :
    List.Forall₂ (fun first second => first.1 = second.1 ∧ first.2.Reordered second.2)
      left.functions right.functions := by
  have others : List.Forall₂ (fun first second => first.1 = second.1 ∧ first.2.Reordered second.2)
      (left.others.entries.map fun entry => (OperationKind.other, entry.2))
      (right.others.entries.map fun entry => (OperationKind.other, entry.2)) := by
    rw [List.forall₂_map_left_iff, List.forall₂_map_right_iff]
    exact same.others.imp fun first second entry => ⟨rfl, entry.2⟩
  unfold Namespace.functions
  refine List.rel_append (List.rel_append (List.rel_append (List.rel_append (List.rel_append
    ?_ ?_) ?_) ?_) ?_) others
  · exact forall₂_toList .create same.create
  · exact forall₂_toList .read same.read
  · exact forall₂_toList .update same.update
  · exact forall₂_toList .delete same.delete
  · exact forall₂_toList .list same.list

/-- Namespaces that differ in an order only have functions that are arranged alike. -/
theorem Reordered.arrangedAlike
    [Name.Lettering]
    {left right : Namespace}
    (same : left.Reordered right)
    (formed : ∀ entry ∈ left.functions, ∀ node ∈ entry.2.nodes, node.WellFormed) :
    left.ArrangedAlike right := by
  refine ⟨same.name, same.schema, same.moduleName, ?_⟩
  refine ((List.forall₂_and_left _ _).mpr ⟨formed, same.functions⟩).imp ?_
  rintro first second ⟨formed, kind, functions⟩
  exact ⟨kind, functions.arrangedAlike formed⟩

end Namespace

namespace Document

/-- Every object of the document has children with distinct names and groups of them. -/
structure WellFormed (document : Document) : Prop where
  schemas : ∀ entry ∈ document.schemas.entries, entry.2.WellFormed
  functions : ∀ managed ∈ document.namespaces, ∀ entry ∈ managed.functions,
    ∀ node ∈ entry.2.nodes, node.WellFormed

/-- The documents differ only in the order in which objects declare their children and
functions their parameters. -/
structure Reordered (left right : Document) : Prop where
  schemas :
    List.Forall₂ (fun first second => first.1 = second.1 ∧ first.2.Reordered second.2)
      left.schemas.entries right.schemas.entries
  namespaces : List.Forall₂ Namespace.Reordered left.namespaces right.namespaces

/-- A document that reading can return is well-formed. -/
theorem Sound.wellFormed
    {document : Document}
    (sound : document.Sound) :
    document.WellFormed where
  schemas entry member := (sound.schemas entry member).wellFormed
  functions managed member entry isFunction node isNode :=
    ((Namespace.all_iff.mp (sound.functions managed member) entry isFunction).nodes node
      isNode).wellFormed

/-- The entries of documents that differ in an order only are the same when arranged. -/
theorem Reordered.registry_arranged_eq
    [Name.Lettering]
    {left right : Document}
    (same : left.Reordered right)
    (formed : left.WellFormed) :
    Registry.arranged ⟨left.schemas⟩ = Registry.arranged ⟨right.schemas⟩ := by
  have entries : left.schemas.entries.map (fun entry => (entry.1, entry.2.arranged)) =
      right.schemas.entries.map fun entry => (entry.1, entry.2.arranged) := by
    rw [← List.forall₂_eq_eq_eq, List.forall₂_map_left_iff, List.forall₂_map_right_iff]
    refine ((List.forall₂_and_left _ _).mpr ⟨formed.schemas, same.schemas⟩).imp ?_
    rintro first second ⟨formed, id, nodes⟩
    exact Prod.ext id (nodes.arranged_eq formed)
  exact congrArg Registry.mk (Order.Table.ext_entries entries)

/-- Their namespaces have functions that are arranged alike. -/
theorem Reordered.forall₂_arrangedAlike
    [Name.Lettering]
    {left right : Document}
    (same : left.Reordered right)
    (formed : left.WellFormed) :
    List.Forall₂ Namespace.ArrangedAlike left.namespaces right.namespaces := by
  refine ((List.forall₂_and_left _ _).mpr ⟨formed.functions, same.namespaces⟩).imp ?_
  rintro first second ⟨formed, namespaces⟩
  exact namespaces.arrangedAlike formed

end Document

end Schema
end SchemaCompiler
