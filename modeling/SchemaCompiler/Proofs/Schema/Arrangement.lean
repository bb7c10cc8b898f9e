import SchemaCompiler.Constraint.Rules
import SchemaCompiler.Proofs.Order.Table
import SchemaCompiler.Proofs.Registry.References
import SchemaCompiler.Proofs.Schema.Tree

/-!
# Arranged trees

An object keeps its children in the order of their declaration. A tree is `arranged` if every
object has them by display name instead. Trees that differ only in the order of the children
of objects are the same when arranged, and a node and its arranged form agree in all that is
read off one node alone.
-/

namespace SchemaCompiler
namespace Schema
namespace Node

open SchemaCompiler.Order (NameSet)

variable [Name.Lettering]

/-! ## Children by display name -/

theorem displayOrder_iff {left right : Node} :
    Object.displayOrder left right = true ↔
      left.snakeName < right.snakeName ∨
        left.snakeName = right.snakeName ∧ left.name ≤ right.name := by
  simp only [Object.displayOrder, Bool.or_eq_true, Bool.and_eq_true, decide_eq_true_eq]

/-- Of two children, one comes before the other. -/
theorem displayOrder_total (left right : Node) :
    (Object.displayOrder left right || Object.displayOrder right left) = true := by
  rw [Bool.or_eq_true, displayOrder_iff, displayOrder_iff]
  by_cases same : left.snakeName = right.snakeName
  · rcases String.le_total left.name right.name with before | after
    · exact .inl (.inr ⟨same, before⟩)
    · exact .inr (.inr ⟨same.symm, after⟩)
  · by_cases before : left.snakeName < right.snakeName
    · exact .inl (.inl before)
    · exact .inr (.inl (Std.lt_of_le_of_ne (String.not_lt.mp before) (Ne.symm same)))

theorem displayOrder_trans
    (first second third : Node)
    (before : Object.displayOrder first second = true)
    (after : Object.displayOrder second third = true) :
    Object.displayOrder first third = true := by
  rw [displayOrder_iff] at before after ⊢
  rcases before with shown | ⟨same, named⟩
  · rcases after with shownToo | ⟨sameToo, _⟩
    · exact .inl (String.lt_trans shown shownToo)
    · rw [← sameToo]
      exact .inl shown
  · rw [same]
    exact after.imp_right fun ⟨sameToo, namedToo⟩ => ⟨sameToo, String.le_trans named namedToo⟩

/-- Two children that come before each other have one name. -/
theorem name_eq_of_displayOrder
    {left right : Node}
    (before : Object.displayOrder left right = true)
    (after : Object.displayOrder right left = true) :
    left.name = right.name := by
  rw [displayOrder_iff] at before after
  rcases before with shown | ⟨same, named⟩
  · rcases after with shownToo | ⟨sameToo, _⟩
    · exact absurd shownToo (String.lt_asymm shown)
    · rw [sameToo] at shown
      exact absurd shown (String.lt_irrefl _)
  · rcases after with shownToo | ⟨_, namedToo⟩
    · rw [same] at shownToo
      exact absurd shownToo (String.lt_irrefl _)
    · exact String.le_antisymm named namedToo

theorem pairwise_sorted (children : List Node) :
    (sorted children).Pairwise (Object.displayOrder · · = true) :=
  List.pairwise_mergeSort displayOrder_trans displayOrder_total children

@[simp] theorem sorted_sorted (children : List Node) :
    sorted (sorted children) = sorted children :=
  List.mergeSort_of_pairwise (pairwise_sorted children)

/-- Distinctly named children are sorted alike in every order. -/
theorem sorted_eq_of_perm
    {left right : List Node}
    (distinct : (left.map name).Nodup)
    (same : left.Perm right) :
    sorted left = sorted right := by
  have permuted : (sorted left).Perm (sorted right) :=
    (List.mergeSort_perm left _).trans (same.trans (List.mergeSort_perm right _).symm)
  refine permuted.eq_of_pairwise ?_ (pairwise_sorted left) (pairwise_sorted right)
  intro first second inLeft inRight before after
  have member := (mem_sorted first left).mp inLeft
  have memberToo := same.mem_iff.mpr ((mem_sorted second right).mp inRight)
  exact List.inj_on_of_nodup_map distinct member memberToo (name_eq_of_displayOrder before after)

/-- A change that keeps names keeps the order. -/
theorem map_sorted
    {change : Node → Node}
    (keeps : ∀ node, (change node).name = node.name)
    (children : List Node) :
    (sorted children).map change = sorted (children.map change) := by
  refine List.map_mergeSort fun left _ right _ => ?_
  rw [Bool.eq_iff_iff, displayOrder_iff, displayOrder_iff, snakeName, snakeName, snakeName,
    snakeName, keeps, keeps]

/-- Sorting leaves children of one name in their order, so a look-up finds the same. -/
@[simp] theorem findChild?_sorted
    (name : String)
    (children : List Node) :
    findChild? name (sorted children) = findChild? name children := by
  have named : ∀ child ∈ children.filter fun child => child.name = name, child.name = name := by
    intro child member
    simpa using (List.mem_filter.mp member).2
  have ordered : (children.filter fun child => child.name = name).Pairwise
      (Object.displayOrder · · = true) := by
    refine List.pairwise_of_forall_mem_list fun left isLeft right isRight => ?_
    have same : left.name = right.name := (named left isLeft).trans (named right isRight).symm
    rw [displayOrder_iff, snakeName, snakeName, same]
    exact .inr ⟨rfl, String.le_refl _⟩
  have kept : (children.filter fun child => child.name = name).Sublist (sorted children) :=
    List.sublist_mergeSort displayOrder_trans displayOrder_total ordered List.filter_sublist
  have filtered : (children.filter fun child => child.name = name).Sublist
      ((sorted children).filter fun child => child.name = name) := by
    simpa using kept.filter fun child => decide (child.name = name)
  have same := filtered.eq_of_length
    ((List.mergeSort_perm children Object.displayOrder).filter _).length_eq.symm
  unfold findChild?
  rw [← List.head?_filter, ← List.head?_filter, same]

/-! ## The arranged tree -/

mutual

/-- The tree with the children of every object by display name. -/
def arranged : Node → Node
  | .scalar declaration facets => .scalar declaration facets
  | .array declaration facets element => .array declaration facets (arranged element)
  | .object declaration facets children =>
      .object declaration facets (sorted (arrangedAll children))

/-- The trees of a list arranged, in their order. -/
def arrangedAll : List Node → List Node
  | [] => []
  | child :: rest => arranged child :: arrangedAll rest

end

theorem arrangedAll_eq_map (children : List Node) :
    arrangedAll children = children.map arranged := by
  induction children with
  | nil => simp [arrangedAll]
  | cons child rest hypothesis => simp [arrangedAll, hypothesis]

@[simp] theorem arranged_scalar
    (declaration : Declaration)
    (facets : Scalar) :
    (scalar declaration facets).arranged = .scalar declaration facets := by
  simp [arranged]

@[simp] theorem arranged_array
    (declaration : Declaration)
    (facets : ArrayFacets)
    (element : Node) :
    (array declaration facets element).arranged = .array declaration facets element.arranged := by
  simp [arranged]

@[simp] theorem arranged_object
    (declaration : Declaration)
    (facets : ObjectFacets)
    (children : List Node) :
    (object declaration facets children).arranged =
      .object declaration facets (sorted (children.map arranged)) := by
  simp [arranged, arrangedAll_eq_map]

section Arranged

variable (node : Node)

@[simp] theorem declaration_arranged : node.arranged.declaration = node.declaration := by
  cases node <;> simp [declaration]

@[simp] theorem kind_arranged : node.arranged.kind = node.kind := by
  cases node <;> simp [kind]

@[simp] theorem name_arranged : node.arranged.name = node.name := by
  simp [name]

@[simp] theorem snakeName_arranged : node.arranged.snakeName = node.snakeName := by
  simp [snakeName]

@[simp] theorem reference?_arranged : node.arranged.reference? = node.reference? := by
  simp [reference?]

@[simp] theorem isReference_arranged : node.arranged.isReference = node.isReference := by
  simp [isReference]

@[simp] theorem isObject_arranged : node.arranged.isObject = node.isObject := by
  simp [isObject]

@[simp] theorem defaultValue?_arranged : node.arranged.defaultValue? = node.defaultValue? := by
  cases node <;> simp [defaultValue?]

@[simp] theorem hasDefault_arranged : node.arranged.hasDefault = node.hasDefault := by
  simp [hasDefault]

@[simp] theorem string?_arranged : node.arranged.string? = node.string? := by
  cases node <;> simp [string?]

@[simp] theorem isEncrypted_arranged : node.arranged.isEncrypted = node.isEncrypted := by
  simp [isEncrypted]

@[simp] theorem element?_arranged :
    node.arranged.element? = node.element?.map arranged := by
  cases node <;> simp [element?]

@[simp] theorem describe_arranged :
    Constraint.describe node.arranged = Constraint.describe node := by
  cases node <;> simp [Constraint.describe, Constraint.constraintLines, defaultValue?]

@[simp] theorem valueValidators_arranged :
    Constraint.valueValidators node.arranged = Constraint.valueValidators node := by
  cases node <;> simp [Constraint.valueValidators]

end Arranged

@[simp] theorem arranged_withDeclaration
    (declaration : Declaration)
    (node : Node) :
    (node.withDeclaration declaration).arranged = node.arranged.withDeclaration declaration := by
  cases node <;> simp [withDeclaration]

/-- The children of an arranged object by display name are its own children arranged. -/
@[simp] theorem sorted_map_arranged (children : List Node) :
    sorted (children.map arranged) = (sorted children).map arranged :=
  (map_sorted name_arranged children).symm

/-- A child of an arranged object is looked up as that of the object. -/
@[simp] theorem findChild?_map_arranged
    (name : String)
    (children : List Node) :
    findChild? name (children.map arranged) = (findChild? name children).map arranged := by
  have same : (fun child : Node => decide (child.name = name)) ∘ arranged =
      fun child => decide (child.name = name) := by
    funext child
    rw [Function.comp_apply, name_arranged]
  rw [findChild?, findChild?, List.find?_map, same]

/-- The same ids are mentioned in an arranged tree. -/
theorem mem_mentions_arranged
    (id : String)
    (node : Node) :
    id ∈ node.arranged.mentions ↔ id ∈ node.mentions := by
  induction node using inductOn with
  | scalar declaration facets => simp
  | array declaration facets element hypothesis => simp [mentions, hypothesis]
  | object declaration facets children hypothesis =>
      simp only [arranged_object, mentions, mentionsAll_eq_flatMap, List.mem_append,
        List.mem_flatMap, mem_sorted, List.mem_map]
      refine or_congr_right ⟨?_, ?_⟩
      · rintro ⟨_, ⟨child, member, rfl⟩, mentioned⟩
        exact ⟨child, member, (hypothesis child member).mp mentioned⟩
      · rintro ⟨child, member, mentioned⟩
        exact ⟨_, ⟨child, member, rfl⟩, (hypothesis child member).mpr mentioned⟩

@[simp] theorem referenceIds_arranged (node : Node) :
    node.arranged.referenceIds = node.referenceIds :=
  NameSet.ofList_congr fun id => mem_mentions_arranged id node

/-! ## Trees in another order -/

/-- The trees differ only in the order of the children of objects. -/
inductive Reordered : Node → Node → Prop
  | scalar (declaration : Declaration) (facets : Scalar) :
      Reordered (.scalar declaration facets) (.scalar declaration facets)
  | array {declaration : Declaration} {facets : ArrayFacets} {left right : Node} :
      Reordered left right →
      Reordered (.array declaration facets left) (.array declaration facets right)
  | object
      {declaration : Declaration}
      {facets : ObjectFacets}
      {left right : List Node}
      (pairs : List (Node × Node)) :
      left.Perm (pairs.map Prod.fst) →
      right.Perm (pairs.map Prod.snd) →
      (∀ pair ∈ pairs, Reordered pair.1 pair.2) →
      Reordered (.object declaration facets left) (.object declaration facets right)

/-- The lists have the same trees in some order, up to the order of the children of objects. -/
def ReorderedAll (left right : List Node) : Prop :=
  ∃ pairs : List (Node × Node),
    left.Perm (pairs.map Prod.fst) ∧
      right.Perm (pairs.map Prod.snd) ∧ ∀ pair ∈ pairs, Reordered pair.1 pair.2

/-- Trees that are paired with trees of the same arranged form have these forms in some order. -/
theorem perm_arranged_of_pairs
    {left right : List Node}
    {pairs : List (Node × Node)}
    (ofLeft : left.Perm (pairs.map Prod.fst))
    (ofRight : right.Perm (pairs.map Prod.snd))
    (same : ∀ pair ∈ pairs, pair.1.arranged = pair.2.arranged) :
    (left.map arranged).Perm (right.map arranged) :=
  calc
    (left.map arranged).Perm ((pairs.map Prod.fst).map arranged) := ofLeft.map arranged
    _ = (pairs.map Prod.snd).map arranged := by
      rw [List.map_map, List.map_map]
      exact List.map_congr_left same
    _ |>.Perm (right.map arranged) := (ofRight.map arranged).symm

/-- Well-formed trees that differ in the order of children only are the same when arranged. -/
theorem Reordered.arranged_eq
    {left right : Node}
    (formed : left.WellFormed)
    (same : Reordered left right) :
    left.arranged = right.arranged := by
  induction same with
  | scalar declaration facets => rfl
  | array _ hypothesis =>
      cases formed with
      | array element => rw [arranged_array, arranged_array, hypothesis element]
  | object pairs ofLeft ofRight _ hypothesis =>
      cases formed with
      | object distinct _ _ children =>
          have each : ∀ pair ∈ pairs, pair.1.arranged = pair.2.arranged := fun pair member =>
            hypothesis pair member
              (children _ (ofLeft.mem_iff.mpr (List.mem_map_of_mem member)))
          rw [arranged_object, arranged_object,
            sorted_eq_of_perm ?_ (perm_arranged_of_pairs ofLeft ofRight each)]
          simpa [Function.comp_def] using distinct

/-- Well-formed trees that differ in an order only have the same arranged forms in some order. -/
theorem ReorderedAll.perm_arranged
    {left right : List Node}
    (same : ReorderedAll left right)
    (formed : ∀ node ∈ left, node.WellFormed) :
    (left.map arranged).Perm (right.map arranged) := by
  obtain ⟨pairs, ofLeft, ofRight, each⟩ := same
  refine perm_arranged_of_pairs ofLeft ofRight fun pair member => (each pair member).arranged_eq ?_
  exact formed _ (ofLeft.mem_iff.mpr (List.mem_map_of_mem member))

end Node

namespace Object

/-- The object with its children arranged, by display name. -/
def arranged [Name.Lettering] (object : Object) : Object where
  children := Node.sorted (object.children.map Node.arranged)
  facets := object.facets

@[simp] theorem get?_arranged
    [Name.Lettering]
    (object : Object)
    (name : String) :
    object.arranged.get? name = (object.get? name).map Node.arranged := by
  rw [get?, arranged, Node.findChild?_sorted, Node.findChild?_map_arranged, get?]

theorem mem_names_arranged
    [Name.Lettering]
    (object : Object)
    (name : String) :
    name ∈ object.arranged.names ↔ name ∈ object.names := by
  simp [names, arranged]

end Object

@[simp] theorem Node.object?_arranged [Name.Lettering] (node : Node) :
    node.arranged.object? = node.object?.map Object.arranged := by
  cases node <;> simp [Node.object?, Object.arranged]

end Schema
end SchemaCompiler
