import SchemaCompiler.Proofs.Order.Repetition
import SchemaCompiler.Proofs.Schema.Composition

/-!
# Overrides applied again

An override without edits to values changes nothing when it is applied a second time. What it
adds to the first document is then there, and merging it onto itself leaves it as it is. The
exception are functions that are added as they stand with two parameters of one name in one
place: the second time the later parameter is merged into the earlier one.
-/

namespace SchemaCompiler
namespace Schema

open SchemaCompiler.Order.Overlay
open SchemaCompiler.Outcome (toOption_eq_some_iff)

/-! ## Facets -/

@[simp] theorem overlayText_self (text : String) : overlayText text text = text :=
  ite_self text

@[simp] theorem overlayOption_self (value? : Option α) : overlayOption value? value? = value? :=
  Option.or_self

@[simp] theorem overlayNonempty_self (text? : Option String) :
    overlayNonempty text? text? = text? := by
  cases text? with
  | none => rfl
  | some text =>
      by_cases empty : text = "" <;>
        simp [overlayNonempty, overlayOption, Option.filter, empty]

@[simp] theorem overlayValues_self (values : List α) : overlayValues values values = values :=
  ite_self values

@[simp] theorem Declaration.merge_self (declaration : Declaration) :
    declaration.merge declaration = declaration := by
  simp [merge]

@[simp] theorem BoolFacets.merge_self (facets : BoolFacets) : facets.merge facets = facets := by
  simp [merge]

@[simp] theorem NumberFacets.merge_self (facets : NumberFacets α) :
    facets.merge facets = facets := by
  simp [merge]

@[simp] theorem ArrayFacets.merge_self (facets : ArrayFacets) : facets.merge facets = facets := by
  simp [merge]

@[simp] theorem ObjectFacets.merge_self (facets : ObjectFacets) :
    facets.merge facets = facets := by
  have nothing : facets.groups.filter (· ∉ facets.groups) = [] := by
    rw [List.filter_eq_nil_iff]
    simp
  rw [merge, nothing, List.append_nil, overlayNonempty_self]

theorem StringFacets.merge_self
    {facets : StringFacets}
    (unpatched : facets.valuesPatch = none) :
    facets.merge facets = facets := by
  have values : mergeValues facets facets = facets.values := by
    simp [mergeValues, unpatched]
  simp [merge, values]

/-- A scalar without edits to values, merged with itself, is the same. -/
theorem Scalar.merge?_self
    {facets : Scalar}
    (unpatched : facets.Unpatched) :
    facets.merge? facets = some facets := by
  cases facets with
  | bool | int | float => simp [merge?]
  | string facets => rw [merge?, StringFacets.merge_self unpatched]

/-- Scalars without edits to values merge into one. -/
theorem Scalar.unpatched_merge?
    {base overlay result : Scalar}
    (unpatched : base.Unpatched)
    (merged : base.merge? overlay = some result) :
    result.Unpatched := by
  cases base <;> cases overlay <;> cases merged <;> exact unpatched

/-! ## Nodes -/

namespace Node

/-- A sound node without edits to values, combined with itself, is the same. -/
theorem combine_self
    {node : Node}
    (sound : node.Sound)
    (unpatched : node.Unpatched) :
    combine node node = some node := by
  induction node using inductOn with
  | scalar declaration facets =>
      rw [combine_scalar_eq_some_iff]
      refine ⟨declaration, facets, facets, rfl, Scalar.merge?_self unpatched.facets, ?_⟩
      rw [Declaration.merge_self]
  | array declaration facets element hypothesis =>
      rw [combine_array_eq_some_iff]
      refine ⟨declaration, facets, element, element, rfl,
        hypothesis (sound_array_iff.mp sound) unpatched.element, ?_⟩
      rw [Declaration.merge_self, ArrayFacets.merge_self]
  | object declaration facets children hypothesis =>
      obtain ⟨parts, sounds⟩ := sound_object_iff.mp sound
      rw [combine_object_eq_some_iff parts]
      refine ⟨declaration, facets, children, children, rfl, ?_, ?_⟩
      · apply mergeList_self parts.distinct
        exact fun child member =>
          hypothesis child member (sounds child member) (unpatched.children child member)
      · rw [Declaration.merge_self, ObjectFacets.merge_self]

/-- Nodes without edits to values combine into one. -/
theorem unpatched_combine
    {base overlay result : Node}
    (sound : overlay.Sound)
    (ofBase : base.Unpatched)
    (ofOverlay : overlay.Unpatched)
    (combined : combine base overlay = some result) :
    result.Unpatched := by
  induction overlay using inductOn generalizing base result with
  | scalar =>
      obtain ⟨_, _, _, rfl, merged, rfl⟩ := combine_scalar_eq_some_iff.mp combined
      exact .scalar (Scalar.unpatched_merge? ofBase.facets merged)
  | array _ _ _ hypothesis =>
      obtain ⟨_, _, _, _, rfl, inner, rfl⟩ := combine_array_eq_some_iff.mp combined
      exact .array (hypothesis (sound_array_iff.mp sound) ofBase.element ofOverlay.element inner)
  | object _ _ children hypothesis =>
      obtain ⟨parts, sounds⟩ := sound_object_iff.mp sound
      obtain ⟨_, _, _, _, rfl, inner, rfl⟩ := (combine_object_eq_some_iff parts).mp combined
      apply Unpatched.object
      refine forall_mergeList ofBase.children ofOverlay.children ?_ inner
      intro existing merged child member unpatched
      exact hypothesis child member (sounds child member) unpatched
        (ofOverlay.children child member)

/-- Sound nodes without edits to values can be applied again. -/
theorem repeatable_combine : Repeatable combine fun node => node.Sound ∧ node.Unpatched where
  composes left right := composes_combine left.1 right.1 right.2
  closed left right merged :=
    ⟨sound_combine left.1 right.1 merged, unpatched_combine right.1 left.2 right.2 merged⟩
  self each := combine_self each.1 each.2

end Node

/-! ## Functions -/

namespace Function

/-- What the nodes of a function state lasts: they are sound and carry no edits to values. -/
def Lasting (function : Function) : Prop :=
  ∀ node ∈ function.nodes, node.Sound ∧ node.Unpatched

/-- A function with overlays one after the other, part by part. -/
structure AllCombined (base : Function) (overlays : List Function) (result : Function) :
    Prop where
  name : result.name = (overlays.map Function.name).foldl overlayText base.name
  method : result.method = (overlays.map Function.method).foldl overlayOption base.method
  uri : result.uri = (overlays.map Function.uri).foldl overlayText base.uri
  pathParameters : mergeList Node.name Node.combine base.pathParameters
    (overlays.flatMap Function.pathParameters) = some result.pathParameters
  queryParameters : mergeList Node.name Node.combine base.queryParameters
    (overlays.flatMap Function.queryParameters) = some result.queryParameters
  body : mergeAll Node.combine base.body (overlays.flatMap (·.body.toList)) = some result.body
  output : mergeAll Node.combine base.output (overlays.flatMap (·.output.toList)) =
    some result.output

theorem mergeAll_eq_some_iff
    {base result : Function}
    {overlays : List Function} :
    mergeAll combine (some base) overlays = some (some result) ↔
      AllCombined base overlays result := by
  induction overlays generalizing base with
  | nil =>
      rw [mergeAll_nil, Option.some.injEq, Option.some.injEq]
      constructor
      · rintro rfl
        exact ⟨rfl, rfl, rfl, rfl, rfl, mergeAll_nil _, mergeAll_nil _⟩
      · rintro ⟨name, method, uri, path, query, body, output⟩
        cases base
        cases result
        simp_all [mergeList]
  | cons overlay rest hypothesis =>
      rw [mergeAll_some_cons, Option.bind_eq_some_iff]
      constructor
      · rintro ⟨next, merged, others⟩
        have inner := combine_eq_some_iff.mp merged
        have outer := hypothesis.mp others
        constructor
        · rw [outer.name, inner.name, List.map_cons, List.foldl_cons]
        · rw [outer.method, inner.method, List.map_cons, List.foldl_cons]
        · rw [outer.uri, inner.uri, List.map_cons, List.foldl_cons]
        · rw [List.flatMap_cons, mergeList_append, inner.pathParameters, Option.bind_some,
            outer.pathParameters]
        · rw [List.flatMap_cons, mergeList_append, inner.queryParameters, Option.bind_some,
            outer.queryParameters]
        · rw [List.flatMap_cons, mergeAll_toList_append, inner.body, Option.bind_some, outer.body]
        · rw [List.flatMap_cons, mergeAll_toList_append, inner.output, Option.bind_some,
            outer.output]
      · rintro ⟨name, method, uri, path, query, body, output⟩
        rw [List.flatMap_cons, mergeList_append, Option.bind_eq_some_iff] at path query
        rw [List.flatMap_cons, mergeAll_toList_append, Option.bind_eq_some_iff] at body output
        obtain ⟨pathNext, pathInner, pathOuter⟩ := path
        obtain ⟨queryNext, queryInner, queryOuter⟩ := query
        obtain ⟨bodyNext, bodyInner, bodyOuter⟩ := body
        obtain ⟨outputNext, outputInner, outputOuter⟩ := output
        refine ⟨⟨overlayText base.name overlay.name, overlayOption base.method overlay.method,
          overlayText base.uri overlay.uri, pathNext, queryNext, bodyNext, outputNext⟩, ?_, ?_⟩
        · apply combine_eq_some_iff.mpr
          exact ⟨rfl, rfl, rfl, pathInner, queryInner, bodyInner, outputInner⟩
        · apply hypothesis.mpr
          exact ⟨name, method, uri, pathOuter, queryOuter, bodyOuter, outputOuter⟩

/-- Lasting functions settle on every function. -/
theorem settles_some
    {overlays : List Function}
    (lasting : ∀ overlay ∈ overlays, overlay.Lasting)
    (base : Function) :
    Settles combine (some base) overlays := by
  intro result merged
  obtain ⟨last, rfl⟩ := exists_of_mergeAll_some merged
  have parts := mergeAll_eq_some_iff.mp merged
  have path : ∀ node ∈ overlays.flatMap Function.pathParameters, node.Sound ∧ node.Unpatched :=
    List.forall_mem_flatMap.mpr fun overlay member =>
      (forall_mem_nodes_iff.mp (lasting overlay member)).1
  have query : ∀ node ∈ overlays.flatMap Function.queryParameters, node.Sound ∧ node.Unpatched :=
    List.forall_mem_flatMap.mpr fun overlay member =>
      (forall_mem_nodes_iff.mp (lasting overlay member)).2.1
  have body : ∀ node ∈ overlays.flatMap (·.body.toList), node.Sound ∧ node.Unpatched :=
    List.forall_mem_flatMap.mpr fun overlay member => by
      simpa using (forall_mem_nodes_iff.mp (lasting overlay member)).2.2.1
  have output : ∀ node ∈ overlays.flatMap (·.output.toList), node.Sound ∧ node.Unpatched :=
    List.forall_mem_flatMap.mpr fun overlay member => by
      simpa using (forall_mem_nodes_iff.mp (lasting overlay member)).2.2.2
  have listed : ∀ {base overlays result : List Node},
      (∀ node ∈ overlays, node.Sound ∧ node.Unpatched) →
      mergeList Node.name Node.combine base overlays = some result →
      mergeList Node.name Node.combine result overlays = some result := by
    intro base overlays result each once
    refine mergeList_settles Node.keepsNames_combine (fun key => ?_) once
    apply Node.repeatable_combine.settles
    exact fun node member => each node (List.mem_of_mem_filter member)
  apply mergeAll_eq_some_iff.mpr
  exact {
    name := by rw [parts.name, foldl_foldl_self overlayText_assoc overlayText_self]
    method := by rw [parts.method, foldl_foldl_self overlayOption_assoc overlayOption_self]
    uri := by rw [parts.uri, foldl_foldl_self overlayText_assoc overlayText_self]
    pathParameters := listed path parts.pathParameters
    queryParameters := listed query parts.queryParameters
    body := Node.repeatable_combine.settles body base.body _ parts.body
    output := Node.repeatable_combine.settles output base.output _ parts.output }

/-- A lasting function with distinct parameters, combined with itself, is the same. -/
theorem combine_self
    {function : Function}
    (lasting : function.Lasting)
    (distinct : function.ParametersDistinct) :
    combine function function = some function := by
  obtain ⟨path, query, body, output⟩ := forall_mem_nodes_iff.mp lasting
  have optional := Node.repeatable_combine.option
  rw [combine_eq_some_iff]
  exact {
    name := (overlayText_self function.name).symm
    method := (overlayOption_self function.method).symm
    uri := (overlayText_self function.uri).symm
    pathParameters := mergeList_self distinct.pathParameters fun node member =>
      Node.repeatable_combine.self (path node member)
    queryParameters := mergeList_self distinct.queryParameters fun node member =>
      Node.repeatable_combine.self (query node member)
    body := optional.self body
    output := optional.self output }

/-- Lasting functions settle, also on no function if the first of them has distinct
parameters. -/
theorem settles
    {base : Option Function}
    {overlays : List Function}
    (lasting : ∀ overlay ∈ overlays, overlay.Lasting)
    (whole : base = none → ∀ function ∈ overlays.head?, function.ParametersDistinct) :
    Settles combine base overlays := by
  cases base with
  | some function => exact settles_some lasting function
  | none =>
      cases overlays with
      | nil => exact fun result _ => mergeAll_nil result
      | cons first rest =>
          apply Settles.none
          · exact combine_self (lasting first (.head _)) (whole rfl first rfl)
          · exact settles_some lasting first

end Function

/-! ## Namespaces -/

namespace Namespace

/-- Namespaces are equal if their names and their functions are. -/
theorem ext_function?
    {left right : Namespace}
    (name : left.name = right.name)
    (schema : left.schema = right.schema)
    (moduleName : left.moduleName = right.moduleName)
    (functions : ∀ slot, left.function? slot = right.function? slot) :
    left = right := by
  have others : left.others = right.others :=
    Order.Table.ext_get? fun key => functions (.other key)
  have create := functions .create
  have read := functions .read
  have update := functions .update
  have delete := functions .delete
  have list := functions .list
  cases left
  cases right
  simp_all [function?]

/-- A namespace with overlays one after the other, slot by slot. -/
structure AllCombined (base : Namespace) (overlays : List Namespace) (result : Namespace) :
    Prop where
  name : result.name = base.name
  schema : result.schema = (overlays.map Namespace.schema).foldl overlayText base.schema
  moduleName : result.moduleName =
    (overlays.map Namespace.moduleName).foldl overlayNonempty base.moduleName
  functions : ∀ slot, mergeAll Function.combine (base.function? slot)
    (overlays.flatMap fun overlay => (overlay.function? slot).toList) =
      some (result.function? slot)

theorem mergeAll_eq_some_iff
    {base result : Namespace}
    {overlays : List Namespace} :
    mergeAll combine (some base) overlays = some (some result) ↔
      AllCombined base overlays result := by
  induction overlays generalizing base with
  | nil =>
      rw [mergeAll_nil, Option.some.injEq, Option.some.injEq]
      constructor
      · rintro rfl
        exact ⟨rfl, rfl, rfl, fun slot => mergeAll_nil _⟩
      · rintro ⟨name, schema, moduleName, functions⟩
        apply ext_function? name.symm schema.symm moduleName.symm
        intro slot
        simpa using functions slot
  | cons overlay rest hypothesis =>
      rw [mergeAll_some_cons, Option.bind_eq_some_iff]
      constructor
      · rintro ⟨next, merged, others⟩
        obtain ⟨name, schema, moduleName, functions⟩ := combine_eq_some_iff_function?.mp merged
        have outer := hypothesis.mp others
        constructor
        · rw [outer.name, name]
        · rw [outer.schema, schema, List.map_cons, List.foldl_cons]
        · rw [outer.moduleName, moduleName, List.map_cons, List.foldl_cons]
        · intro slot
          rw [List.flatMap_cons, mergeAll_toList_append, functions slot, Option.bind_some,
            outer.functions slot]
      · rintro ⟨name, schema, moduleName, functions⟩
        have each : ∀ slot, ∃ function,
            mergeOption Function.combine (base.function? slot) (overlay.function? slot) =
              some function ∧
            mergeAll Function.combine function
              (rest.flatMap fun later => (later.function? slot).toList) =
                some (result.function? slot) := by
          intro slot
          have all := functions slot
          rwa [List.flatMap_cons, mergeAll_toList_append, Option.bind_eq_some_iff] at all
        obtain ⟨next, merged, outer⟩ := exists_combine each
        obtain ⟨nextName, nextSchema, nextModule, -⟩ := combine_eq_some_iff_function?.mp merged
        refine ⟨next, merged, hypothesis.mpr ⟨?_, ?_, ?_, outer⟩⟩
        · rw [name, nextName]
        · rw [schema, nextSchema, List.map_cons, List.foldl_cons]
        · rw [moduleName, nextModule, List.map_cons, List.foldl_cons]

/-- Namespaces of lasting functions settle on a namespace, if the functions that are new to it
have distinct parameters. -/
theorem settles_some
    {base : Namespace}
    {overlays : List Namespace}
    (lasting : ∀ overlay ∈ overlays, overlay.All Function.Lasting)
    (whole : ∀ slot function, base.function? slot = none →
      overlays.findSome? (function? slot) = some function → function.ParametersDistinct) :
    Settles combine (some base) overlays := by
  intro result merged
  obtain ⟨last, rfl⟩ := exists_of_mergeAll_some merged
  have parts := mergeAll_eq_some_iff.mp merged
  apply mergeAll_eq_some_iff.mpr
  refine ⟨rfl, ?_, ?_, ?_⟩
  · rw [parts.schema, foldl_foldl_self overlayText_assoc overlayText_self]
  · rw [parts.moduleName, foldl_foldl_self overlayNonempty_assoc overlayNonempty_self]
  · intro slot
    refine Function.settles ?_ ?_ _ (parts.functions slot)
    · rw [List.forall_mem_flatMap]
      intro overlay member function found
      exact all_iff_function?.mp (lasting overlay member) slot function (Option.mem_toList.mp found)
    · intro vacant function isFirst
      rw [List.head?_flatMap] at isFirst
      simp only [Option.head?_toList] at isFirst
      exact whole slot function vacant isFirst

/-- A namespace of lasting functions with distinct parameters, combined with itself, is the
same. -/
theorem combine_self
    {managed : Namespace}
    (lasting : managed.All Function.Lasting)
    (distinct : ∀ slot function, managed.function? slot = some function →
      function.ParametersDistinct) :
    combine managed managed = some managed := by
  rw [combine_eq_some_iff_function?]
  refine ⟨rfl, (overlayText_self _).symm, (overlayNonempty_self _).symm, ?_⟩
  intro slot
  cases found : managed.function? slot with
  | none => rfl
  | some function =>
      rw [mergeOption, Function.combine_self (all_iff_function?.mp lasting slot function found)
        (distinct slot function found), Option.map_some]

/-- Namespaces of lasting functions settle, if the functions that are added as they stand have
distinct parameters. -/
theorem settles
    {base : Option Namespace}
    {overlays : List Namespace}
    (lasting : ∀ overlay ∈ overlays, overlay.All Function.Lasting)
    (whole : ∀ slot function, base.bind (function? slot) = none →
      overlays.findSome? (function? slot) = some function → function.ParametersDistinct) :
    Settles combine base overlays := by
  cases base with
  | some managed => exact settles_some lasting whole
  | none =>
      cases overlays with
      | nil => exact fun result _ => mergeAll_nil result
      | cons first rest =>
          apply Settles.none
          · apply combine_self (lasting first (.head _))
            intro slot function found
            apply whole slot function rfl
            rw [List.findSome?_cons, found]
          · exact settles_some lasting fun slot function _ => whole slot function rfl

end Namespace

/-! ## Documents -/

namespace Document

/-- An override adds a function to a base as it stands: the base has no function in that place,
and the override states none earlier. -/
def Adds (base overlay : Document) (function : Function) : Prop :=
  ∃ name slot, (base.namespace? name).bind (Namespace.function? slot) = none ∧
    (overlay.namespaces.filter (·.name = name)).findSome? (Namespace.function? slot) =
      some function

/-- An override that was read, carries no edits to values and adds functions with distinct
parameters only leaves its result as it is when it is applied again. -/
theorem applyOverride_again
    {origin : Reading.Origin}
    {draft : Json.Draft}
    {base overlay result : Document}
    (read : Reading.readDocument origin draft = .ok overlay)
    (unpatched : overlay.Unpatched)
    (distinct : ∀ function, base.Adds overlay function → function.ParametersDistinct)
    (applied : base.applyOverride overlay = .ok result) :
    result.applyOverride overlay = .ok result := by
  have sound := Reading.yields_readDocument origin read
  have lasting : ∀ managed ∈ overlay.namespaces, managed.All Function.Lasting := by
    intro managed member
    have both := (sound.functions managed member).and (unpatched.functions managed member)
    rw [Namespace.all_iff] at both ⊢
    intro entry present node inside
    exact ⟨(both entry present).1.nodes node inside, (both entry present).2 node inside⟩
  rw [← toOption_eq_some_iff] at applied ⊢
  obtain ⟨schemas, namespaces⟩ := combine_eq_some_iff.mp applied
  apply combine_eq_some_iff.mpr
  constructor
  · refine mergeTables_settles ?_ schemas
    intro id node stated
    have member := Order.Table.mem_entries_of_get? stated
    apply Node.repeatable_combine.settles
    simpa using ⟨sound.schemas _ member, unpatched.schemas _ member⟩
  · refine mergeList_settles Namespace.keepsNames_combine ?_ namespaces
    intro key
    apply Namespace.settles
    · exact fun managed member => lasting managed (List.mem_of_mem_filter member)
    · exact fun slot function vacant found => distinct function ⟨key, slot, vacant, found⟩

/-- A parameter with a description. -/
def describedId (description : String) : Node :=
  .scalar { name := "id", description := some description } (.string {})

/-- A function with path parameters of that kind. -/
def byIds (descriptions : List String) : Function where
  pathParameters := descriptions.map describedId

theorem sound_byIds (descriptions : List String) : (byIds descriptions).Sound := by
  refine ⟨?_, nofun⟩
  simp only [Function.nodes, byIds, Option.toList_none, List.append_nil, List.forall_mem_map]
  exact fun description _ => Node.sound_scalar ..

theorem unpatched_byIds (descriptions : List String) : (byIds descriptions).Unpatched := by
  simp only [Function.Unpatched, Function.nodes, byIds, Option.toList_none, List.append_nil,
    List.forall_mem_map]
  exact fun description _ => .scalar rfl

/-- A gate that is read by its id. -/
def gateDocument : Document where
  namespaces := [{ name := "gate", read := some { uri := "gates/\x7bid\x7d" } }]

/-- An override that describes the id twice, and that opens the gate in a part of its own. -/
def gateOverride : Document where
  schemas := .ofList [("gate", .object {} { groups := [["host"]] }
    [.scalar { name := "host" } (.string {})])]
  namespaces := [{ name := "gate", read := some (byIds ["number", "name"]) },
    { name := "gate", create := some (byIds ["name"]) }]

theorem applyOverride_again_gateOverride :
    ∃ result, gateDocument.applyOverride gateOverride = .ok result ∧
      result.applyOverride gateOverride = .ok result := by
  have all : ∀ {property : Function → Prop}, (∀ descriptions, property (byIds descriptions)) →
      ∀ managed ∈ gateOverride.namespaces, managed.All property :=
    fun holds => List.forall_mem_cons.mpr
      ⟨Namespace.all_iff.mpr (List.forall_mem_singleton.mpr (holds _)),
        List.forall_mem_singleton.mpr
          (Namespace.all_iff.mpr (List.forall_mem_singleton.mpr (holds _)))⟩
  have node : Node.Sound (.object {} { groups := [["host"]] }
      [.scalar { name := "host" } (.string {})]) :=
    Node.sound_object_iff.mpr ⟨⟨by decide, by decide, by decide, by decide⟩,
      List.forall_mem_singleton.mpr (Node.sound_scalar _ _)⟩
  have sound : gateOverride.Sound := ⟨List.forall_mem_singleton.mpr node, all sound_byIds⟩
  have unpatched : gateOverride.Unpatched :=
    ⟨List.forall_mem_singleton.mpr (.object (List.forall_mem_singleton.mpr (.scalar rfl))),
      all unpatched_byIds⟩
  have distinct : ∀ function, gateDocument.Adds gateOverride function →
      function.ParametersDistinct := by
    rintro function ⟨name, slot, vacant, found⟩
    by_cases named : "gate" = name
    · subst named
      cases slot with
      | create =>
          cases found
          exact ⟨by decide, by decide⟩
      | read => cases vacant
      | update | delete | list | other => cases found
    · simp [gateOverride, named] at found
  exact ⟨_, rfl, applyOverride_again (Reading.readDocument_writeDocument .text sound) unpatched
    distinct rfl⟩

/-- A gate without functions. -/
def plainGate : Document where
  namespaces := [{ name := "gate" }]

/-- An override that updates the gate, with two descriptions of the id. -/
def updateOverride (first second : String) : Document where
  namespaces := [{ name := "gate", update := some (byIds [first, second]) }]

/-- What an override adds as it stands can change when the override is applied again: the second
description of the id is merged into the first. -/
theorem not_applyOverride_again_updateOverride :
    Reading.readDocument .text (.ofValue (Writing.writeDocument (updateOverride "number" "name"))) =
        .ok (updateOverride "number" "name") ∧
      (updateOverride "number" "name").Unpatched ∧
      plainGate.applyOverride (updateOverride "number" "name") =
        .ok (updateOverride "number" "name") ∧
      (updateOverride "number" "name").applyOverride (updateOverride "number" "name") =
        .ok (updateOverride "name" "name") ∧
      updateOverride "name" "name" ≠ updateOverride "number" "name" := by
  have all : ∀ {property : Function → Prop}, (∀ descriptions, property (byIds descriptions)) →
      ∀ managed ∈ (updateOverride "number" "name").namespaces, managed.All property :=
    fun holds => List.forall_mem_singleton.mpr
      (Namespace.all_iff.mpr (List.forall_mem_singleton.mpr (holds _)))
  have sound : (updateOverride "number" "name").Sound := ⟨nofun, all sound_byIds⟩
  refine ⟨Reading.readDocument_writeDocument .text sound, ⟨nofun, all unpatched_byIds⟩, rfl, rfl,
    ?_⟩
  simp [updateOverride, byIds, describedId]

end Document

end Schema
end SchemaCompiler
