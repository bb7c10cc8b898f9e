import SchemaCompiler.Name.Standard
import SchemaCompiler.Proofs.Resource.Mirror
import SchemaCompiler.Proofs.Resource.Termination

/-!
# Exposures by usage

How a top-level field of an entry travels decides how the resource exposes the field and all
that is below it, through objects, elements of lists and references. Some flags have no exposure
under some usages. A field with such flags anywhere below the top ends the conversion, and for
entries whose references can be expanded nothing else does.
-/

namespace SchemaCompiler
namespace Resource

open SchemaCompiler.Outcome
open SchemaCompiler.Schema
open Relation

/-! ## One field -/

/-- The exposure of a field below the top-level field of the given name: flags are those of the
declaration, and a default may come from the canonical node as well. -/
structure Follows
    (usage : UsageIndex)
    (name : String)
    (node canonical : Node)
    (exposure : Exposure) : Prop where
  outputOnly : name ∉ usage.input.names → name ∈ usage.output.names →
    exposure = .computed ∧
      (node.declaration.required = true → node.declaration.readOnly = true)
  inputOutput : name ∈ usage.input.names → name ∈ usage.output.names →
    (exposure = .computed ↔ node.declaration.readOnly = true) ∧
      (exposure = .optional ↔ node.declaration.readOnly = false) ∧
      ∀ value, exposure ≠ .optionalComputed value
  inputOnly : name ∉ usage.output.names →
    exposure ≠ .computed ∧
      (exposure = .required ↔ node.declaration.required = true ∧
        node.defaultValue? = none ∧ canonical.defaultValue? = none) ∧
      exposure.defaultValue? = node.defaultValue?.or canonical.defaultValue? ∧
      ¬(node.declaration.required = true ∧ node.declaration.readOnly = true)

/-- There is no exposure for the flags of a field below the top-level field of the given name. -/
def IsRefused (usage : UsageIndex) (name : String) (node : Node) : Prop :=
  node.declaration.required = true ∧
    (node.declaration.readOnly = true ∧ name ∉ usage.output.names ∨
      node.declaration.readOnly = false ∧
        name ∉ usage.input.names ∧ name ∈ usage.output.names)

/-- Whether a name travels as input and as output decides its usage. -/
theorem usage_eq
    (usage : UsageIndex)
    (name : String) :
    (name ∉ usage.input.names → name ∈ usage.output.names →
        usage.usage name = .outputOnly) ∧
      (name ∈ usage.input.names → name ∈ usage.output.names →
        usage.usage name = .inputOutput) ∧
      (name ∉ usage.output.names → usage.usage name = .inputOnly) := by
  unfold UsageIndex.usage Order.NameSet.contains
  by_cases input : name ∈ usage.input.names <;> by_cases output : name ∈ usage.output.names <;>
    simp [input, output]

section Classification

variable
  {node canonical : Node}
  {path : FieldPath}
  {exposure : Exposure}

theorem classify_outputOnly_eq_ok_iff :
    classify node canonical .outputOnly path = .ok exposure ↔
      exposure = .computed ∧
        (node.declaration.required = true → node.declaration.readOnly = true) := by
  cases required : node.declaration.required <;>
    cases readOnly : node.declaration.readOnly <;>
    simp [classify, required, readOnly, eq_comm]

theorem classify_inputOutput_eq_ok_iff :
    classify node canonical .inputOutput path = .ok exposure ↔
      exposure = if node.declaration.readOnly then .computed else .optional := by
  rw [classify, Except.ok.injEq]
  exact eq_comm

theorem classify_inputOnly_eq_ok_iff :
    classify node canonical .inputOnly path = .ok exposure ↔
      ¬(node.declaration.required = true ∧ node.declaration.readOnly = true) ∧
        exposure =
          match node.defaultValue?.or canonical.defaultValue? with
          | some value => .optionalComputed value
          | none => if node.declaration.required then .required else .optional := by
  unfold classify
  dsimp only
  generalize node.defaultValue?.or canonical.defaultValue? = default
  cases default <;>
    cases required : node.declaration.required <;>
    cases readOnly : node.declaration.readOnly <;>
    simp [eq_comm]

/-- A field is classified as its top-level field asks. -/
theorem follows_of_classify
    {usage : UsageIndex}
    {name : String}
    (classified : classify node canonical (usage.usage name) path = .ok exposure) :
    Follows usage name node canonical exposure := by
  obtain ⟨outputOnly, inputOutput, inputOnly⟩ := usage_eq usage name
  refine ⟨fun input output => ?_, fun input output => ?_, fun output => ?_⟩
  · rw [outputOnly input output] at classified
    exact classify_outputOnly_eq_ok_iff.mp classified
  · rw [inputOutput input output] at classified
    rw [classify_inputOutput_eq_ok_iff.mp classified]
    cases node.declaration.readOnly <;> simp
  · rw [inputOnly output] at classified
    obtain ⟨accepted, rfl⟩ := classify_inputOnly_eq_ok_iff.mp classified
    rw [← Option.or_eq_none_iff]
    cases node.defaultValue?.or canonical.defaultValue? with
    | some value => simpa [Exposure.defaultValue?] using accepted
    | none => cases required : node.declaration.required <;> simp_all [Exposure.defaultValue?]

theorem isHeldOptional_iff :
    isHeldOptional node canonical = true ↔
      ¬(node.declaration.required = true ∧
        node.defaultValue? = none ∧ canonical.defaultValue? = none) := by
  unfold isHeldOptional Node.hasDefault
  cases node.defaultValue? <;> cases canonical.defaultValue? <;> simp

/-- The caller may leave out what is taken and may be written, and of what is only taken exactly
the fields that a client holds as options. -/
theorem Follows.isOptional_iff
    {usage : UsageIndex}
    {name : String}
    (follows : Follows usage name node canonical exposure) :
    exposure.isOptional = true ↔
      (name ∈ usage.output.names →
        name ∈ usage.input.names ∧ node.declaration.readOnly = false) ∧
      (name ∉ usage.output.names → isHeldOptional node canonical = true) := by
  by_cases output : name ∈ usage.output.names
  · by_cases input : name ∈ usage.input.names
    · obtain ⟨computed, optional, noDefault⟩ := follows.inputOutput input output
      cases exposure <;> simp_all [Exposure.isOptional]
    · rw [(follows.outputOnly input output).1]
      simp [Exposure.isOptional, input, output]
  · obtain ⟨notComputed, required, -⟩ := follows.inputOnly output
    have left : exposure.isOptional = true ↔ exposure ≠ .required := by
      cases exposure <;> simp_all [Exposure.isOptional]
    rw [left, isHeldOptional_iff, ← required]
    simp [output]

/-- A field may be filled in for the caller exactly if it is returned and may not be written, or if
it is only taken and has a default. -/
theorem Follows.isComputed_iff
    {usage : UsageIndex}
    {name : String}
    (follows : Follows usage name node canonical exposure) :
    exposure.isComputed = true ↔
      (name ∈ usage.output.names →
        name ∈ usage.input.names → node.declaration.readOnly = true) ∧
      (name ∉ usage.output.names →
        (node.defaultValue?.or canonical.defaultValue?).isSome = true) := by
  by_cases output : name ∈ usage.output.names
  · by_cases input : name ∈ usage.input.names
    · obtain ⟨computed, optional, noDefault⟩ := follows.inputOutput input output
      cases exposure <;> simp_all [Exposure.isComputed]
    · rw [(follows.outputOnly input output).1]
      simp [Exposure.isComputed, input, output]
  · obtain ⟨notComputed, -, default, -⟩ := follows.inputOnly output
    have filled : exposure.isComputed = exposure.defaultValue?.isSome := by
      cases exposure with
      | computed => exact absurd rfl notComputed
      | required | optional | optionalComputed value => rfl
    rw [filled, default]
    simp [output]

/-- A usage has an exposure for a field. -/
def Accepts (usage : FieldUsage) (node : Node) : Prop :=
  ∀ canonical path, ∃ exposure, classify node canonical usage path = .ok exposure

/-- A field is classified unless it is refused. -/
theorem accepts_of_not_isRefused
    {usage : UsageIndex}
    {name : String}
    (accepted : ¬IsRefused usage name node) :
    Accepts (usage.usage name) node := by
  intro canonical path
  obtain ⟨outputOnly, inputOutput, inputOnly⟩ := usage_eq usage name
  by_cases output : name ∈ usage.output.names
  · by_cases input : name ∈ usage.input.names
    · rw [inputOutput input output]
      exact ⟨_, rfl⟩
    · rw [outputOnly input output]
      refine ⟨_, classify_outputOnly_eq_ok_iff.mpr ⟨rfl, fun required => ?_⟩⟩
      by_contra writable
      exact accepted ⟨required, .inr ⟨Bool.eq_false_iff.mpr writable, input, output⟩⟩
  · rw [inputOnly output]
    refine ⟨_, classify_inputOnly_eq_ok_iff.mpr ⟨?_, rfl⟩⟩
    rintro ⟨required, readOnly⟩
    exact accepted ⟨required, .inl ⟨readOnly, output⟩⟩

/-- A field whose exposure follows its usage is not refused. -/
theorem Follows.not_isRefused
    {usage : UsageIndex}
    {name : String}
    (follows : Follows usage name node canonical exposure) :
    ¬IsRefused usage name node := by
  rintro ⟨required, ⟨readOnly, output⟩ | ⟨writable, input, output⟩⟩
  · exact (follows.inputOnly output).2.2.2 ⟨required, readOnly⟩
  · rw [(follows.outputOnly input output).2 required] at writable
    cases writable

end Classification

/-- The facts of a field have the exposure that the field is classified with. -/
theorem classify_of_openField
    [Name.Lettering]
    {registry : Registry}
    {path : FieldPath}
    {usage : FieldUsage}
    {node canonical : Node}
    {facts : AttributeFacts}
    (opened : openField registry path usage node = .ok (facts, canonical)) :
    classify node canonical usage path = .ok facts.exposure := by
  obtain ⟨resolved, found, rest⟩ := bind_eq_ok_iff.mp opened
  obtain ⟨exposure, classified, made⟩ := bind_eq_ok_iff.mp rest
  obtain ⟨rfl, rfl⟩ := Prod.mk.inj (Except.ok.inj made)
  exact classified

theorem Converts.exposure_eq
    [Name.Lettering]
    {registry : Registry}
    {path : FieldPath}
    {usage : FieldUsage}
    {facts : AttributeFacts}
    {canonical : Node}
    {shown : Attribute}
    (converts : Converts registry path usage facts canonical shown) :
    shown.facts.exposure = facts.exposure := by
  cases converts <;> rfl

@[simp] theorem exposure_addGroup
    [Name.Lettering]
    (groups : List (List String))
    (name : String)
    (shown : Attribute) :
    (addGroup groups name shown).facts.exposure = shown.facts.exposure := by
  unfold addGroup
  split <;> simp

/-! ## Attributes below a top-level field -/

namespace Level

/-- The attributes at or below the top-level field `top` of a level, each with its field. -/
inductive Shows
    [Name.Lettering]
    (registry : Registry)
    (level : Level)
    (top : Node) : Node → Attribute → Prop
  | top {shown : Attribute} :
      (top, shown) ∈ level.fields →
      Shows registry level top top shown
  | inside {outer node : Node} {shown inner : Attribute} {object : Object} :
      Shows registry level top outer shown →
      openedObject? registry outer = some object →
      (node, inner) ∈ fields ⟨object, shown.children⟩ →
      Shows registry level top node inner

variable
  {registry : Registry}
  {level : Level}
  {top node : Node}
  {shown : Attribute}

/-- Every attribute of a level that was made stands for a field. -/
theorem MadeUnder.exists_node
    [Name.Lettering]
    {usage : String → FieldUsage}
    (made : level.MadeUnder registry usage)
    (member : shown ∈ level.attributes) :
    ∃ node, (node, shown) ∈ level.fields := by
  obtain ⟨path, converted⟩ := made
  have same : level.fields.map Prod.snd = level.attributes :=
    List.map_snd_zip (Nat.le_of_eq (convertFields_eq_ok converted).length_eq.symm)
  rw [← same] at member
  obtain ⟨⟨node, _⟩, inFields, rfl⟩ := List.mem_map.mp member
  exact ⟨node, inFields⟩

/-- An attribute with attributes inside has a field that opens. -/
theorem MadeUnder.exists_opened
    [Name.Lettering]
    {usage : String → FieldUsage}
    (made : level.MadeUnder registry usage)
    (member : (node, shown) ∈ level.fields)
    {inner : Attribute}
    (below : inner ∈ shown.children) :
    ∃ object, openedObject? registry node = some object := by
  obtain ⟨path, facts, canonical, converted, opened, converts, rfl⟩ := made.field member
  obtain ⟨resolved, -⟩ := openField_eq_ok opened
  rw [children_addGroup] at below
  cases converts with
  | scalar | list => cases below
  | object => exact ⟨_, openedObject?_of_object resolved⟩
  | listOfObjects resolvedElement =>
      exact ⟨_, openedObject?_of_listOfObjects resolved
        (Registry.resolveAt_eq_ok_iff.mp resolvedElement)⟩

/-- An attribute below a top-level field is a field of some level that is made under the usage
of the former. -/
theorem Shows.exists_level
    [Name.Lettering]
    {usage : String → FieldUsage}
    (shows : level.Shows registry top node shown)
    (made : level.MadeUnder registry usage) :
    ∃ (around : Level) (inherited : String → FieldUsage),
      around.MadeUnder registry inherited ∧ (node, shown) ∈ around.fields ∧
        inherited node.name = usage top.name := by
  induction shows with
  | top member => exact ⟨level, usage, made, member, rfl⟩
  | inside _ opened member hypothesis =>
      obtain ⟨around, inherited, madeAround, outer, same⟩ := hypothesis
      exact ⟨_, _, madeAround.inside outer opened, member, same⟩

/-- The exposure of an attribute is that of its field under the usage of the top-level field. -/
theorem Shows.follows
    [Name.Lettering]
    {usage : UsageIndex}
    (shows : level.Shows registry top node shown)
    (made : level.MadeUnder registry usage.usage) :
    ∃ canonical, registry.resolve node = .ok canonical ∧
      Follows usage top.name node canonical shown.facts.exposure := by
  obtain ⟨around, inherited, madeAround, member, same⟩ := shows.exists_level made
  obtain ⟨path, facts, canonical, converted, opened, converts, rfl⟩ := madeAround.field member
  refine ⟨canonical, (openField_eq_ok opened).1, ?_⟩
  rw [exposure_addGroup, converts.exposure_eq]
  exact follows_of_classify (same ▸ classify_of_openField opened)

mutual

/-- What is inside an attribute below a top-level field is below one as well. -/
theorem exists_shows_of_mem_preorder
    [Name.Lettering]
    {usage : String → FieldUsage}
    (made : level.MadeUnder registry usage) :
    ∀ outer : Attribute, (∃ top node, level.Shows registry top node outer) →
      ∀ inner ∈ outer.preorder, ∃ top node, level.Shows registry top node inner
  | .plain facts type, shows, inner, member => by
      rw [Attribute.preorder, List.mem_singleton] at member
      exact member ▸ shows
  | .nested facts nesting attributes, ⟨top, node, shows⟩, inner, member => by
      rw [Attribute.preorder, List.mem_cons] at member
      rcases member with rfl | member
      · exact ⟨top, node, shows⟩
      · refine exists_shows_of_mem_preorderAll made attributes (fun child inside => ?_) inner
          member
        obtain ⟨around, inherited, madeAround, own, -⟩ := shows.exists_level made
        obtain ⟨object, opened⟩ := madeAround.exists_opened own inside
        obtain ⟨field, inFields⟩ := (madeAround.inside own opened).exists_node inside
        exact ⟨top, field, .inside shows opened inFields⟩

theorem exists_shows_of_mem_preorderAll
    [Name.Lettering]
    {usage : String → FieldUsage}
    (made : level.MadeUnder registry usage) :
    ∀ attributes : List Attribute,
      (∀ child ∈ attributes, ∃ top node, level.Shows registry top node child) →
      ∀ inner ∈ Attribute.preorderAll attributes, ∃ top node,
        level.Shows registry top node inner
  | [], _, inner, member => by
      rw [Attribute.preorderAll] at member
      cases member
  | first :: rest, each, inner, member => by
      obtain ⟨ofFirst, others⟩ := List.forall_mem_cons.mp each
      rw [Attribute.preorderAll, List.mem_append] at member
      exact member.elim (exists_shows_of_mem_preorder made first ofFirst inner)
        (exists_shows_of_mem_preorderAll made rest others inner)

end

/-- Every attribute of a level, at any depth, is at or below a top-level field. -/
theorem MadeUnder.exists_shows
    [Name.Lettering]
    {usage : String → FieldUsage}
    (made : level.MadeUnder registry usage) :
    ∀ inner ∈ Attribute.preorderAll level.attributes, ∃ top node,
      level.Shows registry top node inner := by
  refine exists_shows_of_mem_preorderAll made level.attributes fun child member => ?_
  obtain ⟨top, inFields⟩ := made.exists_node member
  exact ⟨top, top, .top inFields⟩

end Level

/-! ## Fields that end the conversion -/

/-- The fields that a conversion reaches from a field: itself, and those of the objects whose
fields have their attributes inside its own. -/
inductive Below (registry : Registry) (top : Node) : Node → Prop
  | top : Below registry top top
  | inside {outer node : Node} {object : Object} :
      Below registry top outer →
      openedObject? registry outer = some object →
      node ∈ object.children →
      Below registry top node

namespace Below

variable
  {registry : Registry}
  {top middle node : Node}

theorem trans
    (first : Below registry top middle)
    (second : Below registry middle node) :
    Below registry top node := by
  induction second with
  | top => exact first
  | inside _ opened member hypothesis => exact .inside hypothesis opened member

/-- What a level shows at a field has attributes for all fields below. -/
theorem exists_shows
    [Name.Lettering]
    {level : Level}
    {usage : String → FieldUsage}
    (below : Below registry top node)
    (made : level.MadeUnder registry usage)
    (member : top ∈ level.object.children) :
    ∃ shown, level.Shows registry top node shown := by
  induction below with
  | top =>
      obtain ⟨path, converted⟩ := made
      obtain ⟨shown, inFields⟩ := Level.Made.exists_field ⟨path, usage, converted⟩ member
      exact ⟨shown, .top inFields⟩
  | inside _ opened inObject hypothesis =>
      obtain ⟨outer, shows⟩ := hypothesis
      obtain ⟨around, inherited, madeAround, own, -⟩ := shows.exists_level made
      obtain ⟨path, converted⟩ := madeAround.inside own opened
      obtain ⟨shown, inFields⟩ := Level.Made.exists_field ⟨path, _, converted⟩ inObject
      exact ⟨shown, .inside shows opened inFields⟩

end Below

/-- A usage has an exposure for every field that a conversion reaches from a field. -/
def AcceptsBelow
    (registry : Registry)
    (usage : FieldUsage)
    (node : Node) : Prop :=
  ∀ inner, Below registry node inner → Accepts usage inner

theorem AcceptsBelow.own
    {registry : Registry}
    {usage : FieldUsage}
    {node : Node}
    (accepted : AcceptsBelow registry usage node) :
    Accepts usage node :=
  accepted node .top

/-- So it has for the fields of the object whose attributes are inside that of the field. -/
theorem AcceptsBelow.sorted
    [Name.Lettering]
    {registry : Registry}
    {usage : FieldUsage}
    {node : Node}
    {object : Object}
    (accepted : AcceptsBelow registry usage node)
    (opened : openedObject? registry node = some object) :
    ∀ child ∈ Node.sorted object.children, AcceptsBelow registry usage child := by
  intro child member inner below
  have inObject := (Node.mem_sorted child object.children).mp member
  exact accepted inner (Below.trans (.inside .top opened inObject) below)

/-- If a conversion fails, then at a reference inside itself. -/
def FailsAtCycles (outcome : Except SchemaError α) : Prop :=
  ∀ cause, outcome = .error cause → ∃ path id, cause = .referenceCycle path id

namespace FailsAtCycles

theorem ok (value : α) : FailsAtCycles (.ok value : Except SchemaError α) := by
  rintro cause ⟨⟩

theorem bind
    {first : Except SchemaError α}
    {next : α → Except SchemaError β}
    (ofFirst : FailsAtCycles first)
    (ofNext : ∀ value, first = .ok value → FailsAtCycles (next value)) :
    FailsAtCycles (first >>= next) := by
  intro cause failed
  rcases bind_eq_error_iff.mp failed with failed | ⟨value, made, failed⟩
  · exact ofFirst cause failed
  · exact ofNext value made cause failed

theorem map
    {outcome : Except SchemaError α}
    (fails : FailsAtCycles outcome)
    (change : α → β) :
    FailsAtCycles (outcome.map change) := by
  cases outcome with
  | ok value => exact .ok _
  | error cause =>
      rintro other ⟨⟩
      exact fails cause rfl

/-- A node is opened unless it is inside itself. -/
theorem within
    (stack : List String)
    (path : FieldPath)
    (node : Node) :
    FailsAtCycles (Resource.within stack path node) := by
  unfold Resource.within
  split
  · exact .ok _
  · split
    · rintro cause ⟨⟩
      exact ⟨_, _, rfl⟩
    · exact .ok _

end FailsAtCycles

/-- The references of the fields of an object are met in the order of the conversion. -/
theorem met_sorted
    [Name.Lettering]
    {registry : Registry}
    {root : Node}
    {declaration : Declaration}
    {facets : ObjectFacets}
    {children : List Node}
    (met : ∀ reference ∈ (Node.object declaration facets children).references,
      registry.Meets root reference) :
    ∀ reference ∈ (Node.sorted children).flatMap Node.frontier,
      registry.Meets root reference := by
  rw [Node.references_object] at met
  exact fun reference member =>
    met reference ((Node.mem_flatMap_sorted reference children).mp member)

section Failures

variable
  {registry : Registry}
  {root : Node}
  (resolving : ∀ reference, registry.Meets root reference → registry.Resolves reference)

include resolving

/-- A node whose references are met from the root has a canonical node, and so have those
below it. -/
theorem exists_resolved
    {node : Node}
    (met : ∀ reference ∈ node.frontier, registry.Meets root reference)
    (path : FieldPath) :
    ∃ canonical, registry.resolveAt path node = .ok canonical ∧
      ∀ reference ∈ canonical.references, registry.Meets root reference := by
  cases named : node.reference? with
  | none =>
      rw [Node.frontier_of_reference?_none named] at met
      exact ⟨node, Registry.resolveAt_of_reference?_none registry path named, met⟩
  | some id =>
      have own := met node (Node.mem_frontier_of_reference? named)
      obtain ⟨canonical, resolved⟩ := resolving node own
      exact ⟨canonical, Registry.resolveAt_eq_ok_iff.mpr resolved, fun reference =>
        .through own named resolved⟩

/-- The search for the type of elements fails at cycles only. -/
theorem failsAtCycles_checkedElement
    (stack : List String)
    (path : FieldPath)
    (canonical : Node)
    (met : ∀ reference ∈ canonical.references, registry.Meets root reference) :
    FailsAtCycles (checkedElement registry stack path canonical) := by
  induction stack, canonical using checkedElement_induct registry path with
  | scalar stack declaration facets =>
      rw [checkedElement]
      exact .ok _
  | object stack declaration facets children =>
      rw [checkedElement]
      exact .ok _
  | unresolved stack declaration facets element cause failed =>
      obtain ⟨inner, resolved, -⟩ := exists_resolved resolving met path
      rw [failed] at resolved
      cases resolved
  | array stack declaration facets element inner resolved below =>
      obtain ⟨_, again, metBelow⟩ := exists_resolved resolving met path
      cases resolved.symm.trans again
      rw [checkedElement_array, resolved, ok_bind]
      exact (FailsAtCycles.within stack path element).bind fun inside entered =>
        (below inside entered metBelow).map _

/-- A field that is accepted opens. -/
theorem exists_openField
    [Name.Lettering]
    {node : Node}
    {usage : FieldUsage}
    (met : ∀ reference ∈ node.frontier, registry.Meets root reference)
    (accepted : Accepts usage node)
    (path : FieldPath) :
    ∃ facts canonical, openField registry path usage node = .ok (facts, canonical) ∧
      ∀ reference ∈ canonical.references, registry.Meets root reference := by
  obtain ⟨canonical, resolved, metBelow⟩ := exists_resolved resolving met path
  obtain ⟨exposure, classified⟩ := accepted canonical path
  refine ⟨factsOf node canonical exposure, canonical, ?_, metBelow⟩
  rw [openField, resolved, ok_bind, classified]
  rfl

/-- A conversion with its expansions checked, all fields that it reaches being accepted, fails at
cycles only. -/
theorem failsAtCycles_checkedFields [Name.Lettering] :
    (∀ stack path usage node,
      (∀ reference ∈ node.frontier, registry.Meets root reference) →
      AcceptsBelow registry usage node →
        FailsAtCycles (checkedField registry stack path usage node)) ∧
    (∀ stack path usage facts canonical,
      (∀ reference ∈ canonical.references, registry.Meets root reference) →
      (∀ node, registry.resolve node = .ok canonical → AcceptsBelow registry usage node →
        FailsAtCycles (checkedCanonical registry stack path usage facts canonical))) ∧
    ∀ stack path groups usage children,
      (∀ reference ∈ children.flatMap Node.frontier, registry.Meets root reference) →
      (∀ child ∈ children, AcceptsBelow registry (usage child.name) child) →
        FailsAtCycles (checkedFields registry stack path groups usage children) := by
  apply checked_induct registry
  case unopened =>
    intro stack path usage node cause failed met accepted
    obtain ⟨facts, canonical, opened, -⟩ := exists_openField resolving met accepted.own path
    rw [failed] at opened
    cases opened
  case opened =>
    intro stack path usage node facts canonical opened below met accepted
    obtain ⟨_, _, again, metBelow⟩ := exists_openField resolving met accepted.own path
    cases opened.symm.trans again
    rw [checkedField_of_opened opened]
    exact (FailsAtCycles.within stack path node).bind fun inside entered =>
      below inside entered metBelow node (openField_eq_ok opened).1 accepted
  case scalar =>
    intro stack path usage facts declaration facets met node resolved accepted
    rw [checkedCanonical]
    exact .ok _
  case object =>
    intro stack path usage facts declaration facets children below met node resolved accepted
    have acceptedInside := accepted.sorted (openedObject?_of_object resolved)
    rw [checkedCanonical_object]
    exact (below (met_sorted met) acceptedInside).map _
  case unresolved =>
    intro stack path usage facts declaration facets element cause failed met
    obtain ⟨inner, resolvedElement, -⟩ := exists_resolved resolving met path
    rw [failed] at resolvedElement
    cases resolvedElement
  case listOfObjects =>
    intro stack path usage facts declaration facets element innerDeclaration innerFacets children
      resolvedElement below met node resolved accepted
    obtain ⟨_, again, metBelow⟩ := exists_resolved resolving met path
    cases resolvedElement.symm.trans again
    have acceptedInside := accepted.sorted (openedObject?_of_listOfObjects resolved
      (Registry.resolveAt_eq_ok_iff.mp resolvedElement))
    rw [checkedCanonical_array_of_object resolvedElement]
    exact (FailsAtCycles.within stack path element).bind fun inside entered =>
      (below inside entered (met_sorted metBelow) acceptedInside).map _
  case list =>
    intro stack path usage facts declaration facets element inner resolvedElement other met node
      resolved accepted
    obtain ⟨_, again, metBelow⟩ := exists_resolved resolving met path
    cases resolvedElement.symm.trans again
    rw [checkedCanonical_array_of_other resolvedElement other]
    exact (failsAtCycles_checkedElement resolving [] path inner metBelow).map _
  case nil =>
    intro stack path groups usage met accepted
    rw [checkedFields]
    exact .ok _
  case cons =>
    intro stack path groups usage child rest first others met accepted
    rw [List.flatMap_cons] at met
    obtain ⟨metFirst, metRest⟩ := List.forall_mem_append.mp met
    obtain ⟨acceptedFirst, acceptedRest⟩ := List.forall_mem_cons.mp accepted
    rw [checkedFields]
    refine (first metFirst acceptedFirst).bind fun shown _ => ?_
    exact (others metRest acceptedRest).bind fun attributes _ => .ok _

end Failures

/-! ## Whole schemas -/

/-- The attributes of a schema at or below the top-level field `top` of the managed entry, each
with its field. -/
def ResourceSchema.Shows
    [Name.Lettering]
    (registry : Registry)
    (managed : Namespace)
    (schema : ResourceSchema)
    (top node : Node)
    (shown : Attribute) : Prop :=
  ∃ declaration facets children,
    registry.root managed.schema = .ok (.object declaration facets children) ∧
      Level.Shows registry ⟨⟨children, facets⟩, schema.attributes⟩ top node shown

/-- The schema of an entry without reference, whose references can all be expanded, is that of
the checked conversion, which comes back to no reference. -/
theorem ofNamespace_of_expandable
    [Name.Lettering]
    {registry : Registry}
    {managed : Namespace}
    {declaration : Declaration}
    {facets : ObjectFacets}
    {children : List Node}
    (usage : UsageIndex)
    (found : registry.root managed.schema = .ok (.object declaration facets children))
    (plain : (Node.object declaration facets children).reference? = none)
    (resolving : ∀ reference, registry.Meets (.object declaration facets children) reference →
      registry.Resolves reference)
    (free : ∀ id, registry.Reaches (.object declaration facets children) id →
      ¬TransGen registry.Leads id id) :
    (∃ visits, registry.collect .expanded (.object declaration facets children) = .ok visits) ∧
      ofNamespace registry usage managed = some (checkedNamespace registry usage managed) ∧
      ∀ path id, checkedNamespace registry usage managed ≠ .error (.referenceCycle path id) := by
  cases walked : registry.collect .expanded (.object declaration facets children) with
  | error cause =>
      obtain ⟨path, id, -, reached, back⟩ := Registry.cycle_of_collect_error resolving walked
      exact absurd back (free id reached)
  | ok visits =>
      have faithful := faithful_checkedNamespace usage found walked
      have ended : ∀ path id,
          checkedNamespace registry usage managed ≠ .error (.referenceCycle path id) := by
        intro path id cycle
        obtain ⟨reached, back⟩ :=
          faithful.back _ (pending_fields registry declaration facets children plain) path id cycle
        exact free id reached back
      exact ⟨⟨visits, rfl⟩, faithful.agrees ended, ended⟩

/-- The exposure of every attribute of a schema, at any depth, is that of its field under the
usage of the top-level field it is below, and every attribute is below one. If an entry carries
no reference, and the references that are met from it resolve and lead to no cycle, then the
conversion ends, and it fails exactly if it reaches a field, at any depth, whose flags have no
exposure under that usage. -/
theorem exposure_follows_usage
    [Name.Lettering]
    (registry : Registry)
    (usage : UsageIndex)
    (managed : Namespace) :
    (∀ schema, ofNamespace registry usage managed = some (.ok schema) →
      (∀ shown ∈ Attribute.preorderAll schema.attributes, ∃ top node,
        schema.Shows registry managed top node shown) ∧
      ∀ top node shown, schema.Shows registry managed top node shown →
        ∃ canonical, registry.resolve node = .ok canonical ∧
          shown.facts.name = node.snakeName ∧
          Follows usage top.name node canonical shown.facts.exposure) ∧
    ∀ declaration facets children,
      registry.root managed.schema = .ok (.object declaration facets children) →
      (Node.object declaration facets children).reference? = none →
      (∀ reference, registry.Meets (.object declaration facets children) reference →
        registry.Resolves reference) →
      (∀ id, registry.Reaches (.object declaration facets children) id →
        ¬TransGen registry.Leads id id) →
      (∃ outcome, ofNamespace registry usage managed = some outcome) ∧
      ((∃ cause, ofNamespace registry usage managed = some (.error cause)) ↔
        ∃ top ∈ children, ∃ node, Below registry top node ∧ IsRefused usage top.name node) := by
  have made : ∀ {schema declaration facets children},
      ofNamespace registry usage managed = some (.ok schema) →
      registry.root managed.schema = .ok (.object declaration facets children) →
      Level.MadeUnder registry usage.usage ⟨⟨children, facets⟩, schema.attributes⟩ := by
    intro schema declaration facets children converted found
    obtain ⟨_, _, _, _, foundToo, -, fields⟩ := exists_of_ofNamespace converted
    cases found.symm.trans foundToo
    exact ⟨_, fields⟩
  refine ⟨fun schema converted => ⟨fun shown member => ?_, ?_⟩, ?_⟩
  · obtain ⟨declaration, facets, children, _, found, -, -⟩ := exists_of_ofNamespace converted
    obtain ⟨top, node, shows⟩ := (made converted found).exists_shows shown member
    exact ⟨top, node, declaration, facets, children, found, shows⟩
  · rintro top node shown ⟨declaration, facets, children, found, shows⟩
    obtain ⟨around, inherited, ⟨path, inner⟩, member, -⟩ :=
      shows.exists_level (made converted found)
    obtain ⟨canonical, resolved, follows⟩ := shows.follows (made converted found)
    exact ⟨canonical, resolved, Level.Made.name_eq ⟨path, _, inner⟩ member, follows⟩
  · intro declaration facets children found plain resolving free
    obtain ⟨⟨visits, walked⟩, same, ended⟩ :=
      ofNamespace_of_expandable usage found plain resolving free
    refine ⟨⟨_, same⟩, ?_, ?_⟩
    · rintro ⟨cause, failed⟩
      by_contra none
      have accepted : ∀ top ∈ Node.sorted children,
          AcceptsBelow registry (usage.usage top.name) top := by
        intro top member node below
        refine accepts_of_not_isRefused fun refused => none ⟨top, ?_, node, below, refused⟩
        exact (Node.mem_sorted top children).mp member
      have met := fun reference member =>
        (pending_fields registry declaration facets children plain reference member).met
      have fails : FailsAtCycles (checkedNamespace registry usage managed) := by
        unfold checkedNamespace
        rw [found]
        dsimp only
        rw [walked, ok_bind]
        exact ((failsAtCycles_checkedFields resolving).2.2 _ _ _ _ _ met accepted).bind
          fun attributes _ => .ok _
      obtain ⟨path, id, rfl⟩ := fails cause (Option.some.inj (same.symm.trans failed))
      exact ended path id (Option.some.inj (same.symm.trans failed))
    · rintro ⟨top, member, node, below, refused⟩
      cases outcome : checkedNamespace registry usage managed with
      | error cause => exact ⟨cause, same.trans (congrArg some outcome)⟩
      | ok schema =>
          have madeTop := made (same.trans (congrArg some outcome)) found
          obtain ⟨shown, shows⟩ := below.exists_shows madeTop member
          obtain ⟨canonical, -, follows⟩ := shows.follows madeTop
          exact absurd refused follows.not_isRefused

/-- A number that has to be there and that nobody may write. -/
def ceilingField : Node :=
  .scalar { name := "ceiling", required := true, readOnly := true } (.int {})

/-- A list of references to an object with the number. -/
def limitsField : Node := .array { name := "limits" } {} (Registry.pointer "" "limit")

/-- An entry with the list, beside the object. -/
def quotaRegistry : Registry :=
  ⟨.ofList [("limit", .object {} {} [ceilingField]), ("quota", .object {} {} [limitsField])]⟩

/-- A namespace that manages the entry. -/
def quotaNamespace : Namespace := { name := "Quota", schema := "quota" }

/-- The reference of the list is all that is met, and it resolves. -/
theorem meets_quotaRegistry
    {reference : Node}
    (met : quotaRegistry.Meets (.object {} {} [limitsField]) reference) :
    reference = Registry.pointer "" "limit" := by
  induction met with
  | start member => exact List.mem_singleton.mp member
  | through _ _ resolved member hypothesis =>
      subst hypothesis
      cases resolved
      cases member

/-- The number is all that is below the list. -/
theorem below_limitsField
    {node : Node}
    (below : Below quotaRegistry limitsField node) :
    node = limitsField ∨ node = ceilingField := by
  induction below with
  | top => exact .inl rfl
  | inside _ opened member hypothesis =>
      rcases hypothesis with rfl | rfl
      · cases opened
        exact .inr (List.mem_singleton.mp member)
      · cases opened

/-- Where the list is returned only, the number in its elements is computed. Where it is taken
only, the number ends the conversion. -/
theorem exposure_follows_usage_quotaRegistry :
    (∃ schema shown,
      ofNamespace quotaRegistry ⟨.empty, .ofList ["limits"]⟩ quotaNamespace =
          some (.ok schema) ∧
        schema.Shows quotaRegistry quotaNamespace limitsField ceilingField shown ∧
        shown.facts.exposure = .computed) ∧
      ∃ cause,
        ofNamespace quotaRegistry ⟨.ofList ["limits"], .empty⟩ quotaNamespace =
          some (.error cause) := by
  have found : quotaRegistry.root quotaNamespace.schema = .ok (.object {} {} [limitsField]) := rfl
  have resolving : ∀ reference, quotaRegistry.Meets (.object {} {} [limitsField]) reference →
      quotaRegistry.Resolves reference := by
    intro reference met
    rw [meets_quotaRegistry met]
    exact ⟨_, rfl⟩
  have free : ∀ id, quotaRegistry.Reaches (.object {} {} [limitsField]) id →
      ¬TransGen quotaRegistry.Leads id id := by
    rintro id ⟨reference, met, named⟩ back
    rw [meets_quotaRegistry met] at named
    cases named
    obtain ⟨next, ⟨entry, registered, inner, member, -⟩, -⟩ := TransGen.head'_iff.mp back
    cases registered
    cases member
  have opened : openedObject? quotaRegistry limitsField = some ⟨[ceilingField], {}⟩ := rfl
  have below : Below quotaRegistry limitsField ceilingField :=
    .inside .top opened List.mem_cons_self
  have listed : limitsField.name ∈ (Order.NameSet.ofList ["limits"]).names := by decide
  constructor
  · obtain ⟨exposed, fails⟩ := exposure_follows_usage quotaRegistry ⟨.empty, .ofList ["limits"]⟩
      quotaNamespace
    obtain ⟨⟨outcome, ended⟩, failsIff⟩ := fails _ _ _ found rfl resolving free
    cases outcome with
    | error cause =>
        obtain ⟨top, member, node, inside, required, refused⟩ := failsIff.mp ⟨cause, ended⟩
        rw [List.mem_singleton.mp member] at inside refused
        rcases below_limitsField inside with rfl | rfl
        · cases required
        · rcases refused with ⟨-, missing⟩ | ⟨writable, -⟩
          · exact absurd listed missing
          · cases writable
    | ok schema =>
        obtain ⟨_, _, _, _, foundToo, -, fields⟩ := exists_of_ofNamespace ended
        cases found.symm.trans foundToo
        have made : Level.MadeUnder quotaRegistry _ ⟨⟨[limitsField], {}⟩, schema.attributes⟩ :=
          ⟨_, fields⟩
        obtain ⟨shown, shows⟩ := below.exists_shows made List.mem_cons_self
        have shows : schema.Shows quotaRegistry quotaNamespace limitsField ceilingField shown :=
          ⟨_, _, _, found, shows⟩
        obtain ⟨canonical, -, -, follows⟩ := (exposed schema ended).2 _ _ _ shows
        exact ⟨schema, shown, ended, shows, (follows.outputOnly List.not_mem_nil listed).1⟩
  · obtain ⟨-, fails⟩ := exposure_follows_usage quotaRegistry ⟨.ofList ["limits"], .empty⟩
      quotaNamespace
    exact (fails _ _ _ found rfl resolving free).2.mpr
      ⟨limitsField, List.mem_cons_self, ceilingField, below, rfl, .inl ⟨rfl, List.not_mem_nil⟩⟩

end Resource
end SchemaCompiler
