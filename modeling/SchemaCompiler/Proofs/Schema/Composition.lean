import SchemaCompiler.Proofs.Writing.Document

/-!
# Overrides compose

Two overrides one after the other do to every base what the second one applied to the first
does in one go. The second must not carry edits to values, which a merge uses up and does
not keep.
-/

namespace SchemaCompiler
namespace Schema

open SchemaCompiler.Order.Overlay
open SchemaCompiler.Outcome (toOption_eq_some_iff)

/-! ## Facets -/

theorem overlayText_assoc (base first second : String) :
    overlayText (overlayText base first) second = overlayText base (overlayText first second) := by
  unfold overlayText
  split <;> simp_all

theorem overlayOption_assoc (base first second : Option α) :
    overlayOption (overlayOption base first) second =
      overlayOption base (overlayOption first second) :=
  (Option.or_assoc ..).symm

theorem overlayNonempty_assoc (base first second : Option String) :
    overlayNonempty (overlayNonempty base first) second =
      overlayNonempty base (overlayNonempty first second) := by
  have filtered : (overlayNonempty first second).filter (· ≠ "") =
      (second.filter (· ≠ "")).or (first.filter (· ≠ "")) := by
    cases second with
    | none => rfl
    | some text =>
        by_cases empty : text = ""
        · simp [overlayNonempty, overlayOption, empty, Option.filter]
        · simp [overlayNonempty, overlayOption, empty, Option.filter]
  unfold overlayNonempty overlayOption at filtered ⊢
  rw [filtered, Option.or_assoc]

theorem overlayValues_assoc (base first second : List α) :
    overlayValues (overlayValues base first) second =
      overlayValues base (overlayValues first second) := by
  unfold overlayValues
  split <;> simp_all

theorem Declaration.merge_assoc (base first second : Declaration) :
    (base.merge first).merge second = base.merge (first.merge second) := by
  simp only [merge, overlayText_assoc, overlayOption_assoc, overlayNonempty_assoc, Bool.or_assoc]

theorem BoolFacets.merge_assoc (base first second : BoolFacets) :
    (base.merge first).merge second = base.merge (first.merge second) := by
  simp only [merge, overlayOption_assoc, Bool.or_assoc]

theorem NumberFacets.merge_assoc (base first second : NumberFacets α) :
    (base.merge first).merge second = base.merge (first.merge second) := by
  simp only [merge, overlayOption_assoc, overlayValues_assoc]

/-- Values without edits replace those of the base or leave them. -/
theorem StringFacets.mergeValues_assoc
    (base first : StringFacets)
    {second : StringFacets}
    (unpatched : second.valuesPatch = none) :
    mergeValues (base.merge first) second = mergeValues base (first.merge second) := by
  by_cases stated : second.values.isEmpty
  · have kept : mergeValues first second = first.values := by
      simp [mergeValues, stated, unpatched]
    simp only [mergeValues, merge, stated, unpatched] at kept ⊢
    simp
  · have nonempty : second.values.isEmpty = false := by simpa using stated
    simp [mergeValues, merge, nonempty]

theorem StringFacets.merge_assoc
    (base first : StringFacets)
    {second : StringFacets}
    (unpatched : second.valuesPatch = none) :
    (base.merge first).merge second = base.merge (first.merge second) := by
  have values := mergeValues_assoc base first unpatched
  have hashing : (if second.hashing.isPlaintext then (base.merge first).hashing
      else second.hashing) =
      if (first.merge second).hashing.isPlaintext then base.hashing
      else (first.merge second).hashing := by
    by_cases plain : second.hashing.isPlaintext <;> simp [merge, plain]
  rw [merge, values, hashing]
  simp only [merge, overlayOption_assoc, overlayNonempty_assoc, Bool.or_assoc]

theorem ArrayFacets.merge_assoc (base first second : ArrayFacets) :
    (base.merge first).merge second = base.merge (first.merge second) := by
  simp only [merge, overlayOption_assoc, Bool.or_assoc]

theorem ObjectFacets.merge_assoc (base first second : ObjectFacets) :
    (base.merge first).merge second = base.merge (first.merge second) := by
  have groups : ∀ base first second : List (List String),
      (base ++ first.filter (· ∉ base)) ++
          second.filter (· ∉ base ++ first.filter (· ∉ base)) =
        base ++ (first ++ second.filter (· ∉ first)).filter (· ∉ base) := by
    intro base first second
    rw [List.append_assoc, List.filter_append, List.filter_filter]
    congr 2
    refine List.filter_congr fun group _ => ?_
    by_cases present : group ∈ base <;> simp [present]
  unfold merge
  rw [groups, overlayNonempty_assoc]

/-- No edits to values. -/
def Scalar.Unpatched : Scalar → Prop
  | .string facets => facets.valuesPatch = none
  | _ => True

/-- Scalars compose. -/
theorem Scalar.composes_merge?
    (first : Scalar)
    {second : Scalar}
    (unpatched : second.Unpatched) :
    Composes merge? first second := by
  intro base
  cases second with
  | bool => cases first <;> cases base <;> simp [merge?, BoolFacets.merge_assoc]
  | int => cases first <;> cases base <;> simp [merge?, NumberFacets.merge_assoc]
  | float => cases first <;> cases base <;> simp [merge?, NumberFacets.merge_assoc]
  | string =>
      cases first <;> cases base <;> simp [merge?, StringFacets.merge_assoc _ _ unpatched]

/-! ## Nodes -/

namespace Node

/-- No string of the tree carries edits to values. -/
inductive Unpatched : Node → Prop
  | scalar {declaration : Declaration} {facets : Scalar} :
      facets.Unpatched → Unpatched (.scalar declaration facets)
  | array {declaration : Declaration} {facets : ArrayFacets} {element : Node} :
      Unpatched element → Unpatched (.array declaration facets element)
  | object {declaration : Declaration} {facets : ObjectFacets} {children : List Node} :
      (∀ child ∈ children, Unpatched child) → Unpatched (.object declaration facets children)

theorem Unpatched.facets
    {declaration : Declaration}
    {facets : Scalar}
    (unpatched : Unpatched (.scalar declaration facets)) :
    facets.Unpatched := by
  cases unpatched with
  | scalar unpatched => exact unpatched

theorem Unpatched.element
    {declaration : Declaration}
    {facets : ArrayFacets}
    {element : Node}
    (unpatched : Unpatched (.array declaration facets element)) :
    element.Unpatched := by
  cases unpatched with
  | array unpatched => exact unpatched

theorem Unpatched.children
    {declaration : Declaration}
    {facets : ObjectFacets}
    {children : List Node}
    (unpatched : Unpatched (.object declaration facets children)) :
    ∀ child ∈ children, child.Unpatched := by
  cases unpatched with
  | object unpatched => exact unpatched

/-- Scalars combine with scalars. -/
theorem combine_scalar_eq_some_iff
    {base result : Node}
    {overlayDeclaration : Declaration}
    {overlay : Scalar} :
    combine base (.scalar overlayDeclaration overlay) = some result ↔
      ∃ declaration facets merged,
        base = .scalar declaration facets ∧ facets.merge? overlay = some merged ∧
          result = .scalar (declaration.merge overlayDeclaration) merged := by
  refine ⟨fun combined => mergeAt_scalar_spec (toOption_eq_some_iff.mp combined), ?_⟩
  rintro ⟨declaration, facets, merged, rfl, both, rfl⟩
  simp [combine, mergeAt, both]

/-- Arrays combine if their elements do. -/
theorem combine_array_eq_some_iff
    {base result : Node}
    {overlayDeclaration : Declaration}
    {overlay : ArrayFacets}
    {overlayElement : Node} :
    combine base (.array overlayDeclaration overlay overlayElement) = some result ↔
      ∃ declaration facets element merged,
        base = .array declaration facets element ∧ combine element overlayElement = some merged ∧
          result = .array (declaration.merge overlayDeclaration) (facets.merge overlay) merged := by
  simp only [combine, toOption_eq_some_iff]
  refine ⟨mergeAt_array_spec, ?_⟩
  rintro ⟨declaration, facets, element, merged, rfl, elements, rfl⟩
  simp [mergeAt, elements]

/-- Objects combine if their children do; the groups of a sound overlay are no obstacle. -/
theorem combine_object_eq_some_iff
    {base result : Node}
    {overlayDeclaration : Declaration}
    {overlay : ObjectFacets}
    {overlayChildren : List Node}
    (parts : SoundParts overlay overlayChildren) :
    combine base (.object overlayDeclaration overlay overlayChildren) = some result ↔
      ∃ declaration facets children merged,
        base = .object declaration facets children ∧
          mergeList name combine children overlayChildren = some merged ∧
          result =
            .object (declaration.merge overlayDeclaration) (facets.merge overlay) merged := by
  simp only [combine, ← toOption_mergeChildren FieldPath.root, toOption_eq_some_iff]
  constructor
  · intro merged
    obtain ⟨declaration, facets, children, mergedChildren, rfl, inner, -, rfl⟩ :=
      mergeAt_object_spec parts.groups merged
    exact ⟨declaration, facets, children, mergedChildren, rfl, inner, rfl⟩
  · rintro ⟨declaration, facets, children, merged, rfl, inner, rfl⟩
    have known : ∀ group ∈ overlay.groups, ∀ member ∈ group, hasChild member merged :=
      fun group present member inside =>
        hasChild_of_mergeChildren inner (parts.known group present member inside)
    let object : Object :=
      ⟨merged, { facets with className := overlayNonempty facets.className overlay.className }⟩
    have added : object.addGroups FieldPath.root overlay.groups = _ :=
      Object.addGroups_of_known parts.groups known FieldPath.root
    rw [mergeAt, inner, Outcome.ok_bind]
    change object.addGroups FieldPath.root overlay.groups >>= _ = _
    rw [added]
    rfl

/-- A combination with a sound overlay has its kind, and so had the base. -/
theorem kind_combine
    {base overlay result : Node}
    (sound : overlay.Sound)
    (combined : combine base overlay = some result) :
    base.kind = overlay.kind ∧ result.kind = overlay.kind := by
  cases overlay with
  | scalar _ overlayFacets =>
      obtain ⟨_, facets, merged, rfl, both, rfl⟩ := combine_scalar_eq_some_iff.mp combined
      cases facets <;> cases overlayFacets <;> cases both <;> exact ⟨rfl, rfl⟩
  | array =>
      obtain ⟨_, _, _, _, rfl, -, rfl⟩ := combine_array_eq_some_iff.mp combined
      exact ⟨rfl, rfl⟩
  | object =>
      obtain ⟨_, _, _, _, rfl, -, rfl⟩ :=
        (combine_object_eq_some_iff (sound_object_iff.mp sound).1).mp combined
      exact ⟨rfl, rfl⟩

/-- Trees of different kinds compose, since no base combines with both. -/
theorem composes_of_kind_ne
    {first second : Node}
    (firstSound : first.Sound)
    (secondSound : second.Sound)
    (different : first.kind ≠ second.kind) :
    Composes combine first second := by
  rw [composes_iff]
  intro base result
  constructor
  · rintro ⟨value, before, after⟩
    have ofFirst := (kind_combine firstSound before).2
    have ofSecond := (kind_combine secondSound after).1
    exact absurd (ofFirst.symm.trans ofSecond) different
  · rintro ⟨overlay, inner, -⟩
    exact absurd (kind_combine secondSound inner).1 different

theorem composes_scalar
    {firstDeclaration secondDeclaration : Declaration}
    {firstFacets secondFacets : Scalar}
    (unpatched : secondFacets.Unpatched) :
    Composes combine (.scalar firstDeclaration firstFacets)
      (.scalar secondDeclaration secondFacets) := by
  have composes := composes_iff.mp (Scalar.composes_merge? firstFacets unpatched)
  rw [composes_iff]
  intro base result
  constructor
  · rintro ⟨value, before, after⟩
    obtain ⟨_, facets, middle, rfl, earlier, rfl⟩ := combine_scalar_eq_some_iff.mp before
    obtain ⟨_, _, last, same, later, rfl⟩ := combine_scalar_eq_some_iff.mp after
    cases same
    obtain ⟨both, inner, outer⟩ := (composes _ _).mp ⟨_, earlier, later⟩
    exact ⟨_, combine_scalar_eq_some_iff.mpr ⟨_, _, _, rfl, inner, rfl⟩,
      combine_scalar_eq_some_iff.mpr ⟨_, _, _, rfl, outer, by rw [Declaration.merge_assoc]⟩⟩
  · rintro ⟨overlay, inner, outer⟩
    obtain ⟨_, _, both, same, merged, rfl⟩ := combine_scalar_eq_some_iff.mp inner
    cases same
    obtain ⟨_, facets, last, rfl, all, rfl⟩ := combine_scalar_eq_some_iff.mp outer
    obtain ⟨middle, earlier, later⟩ := (composes _ _).mpr ⟨_, merged, all⟩
    exact ⟨_, combine_scalar_eq_some_iff.mpr ⟨_, _, _, rfl, earlier, rfl⟩,
      combine_scalar_eq_some_iff.mpr ⟨_, _, _, rfl, later, by rw [Declaration.merge_assoc]⟩⟩

/-- Arrays compose if their elements do. -/
theorem composes_array
    {firstDeclaration secondDeclaration : Declaration}
    {firstFacets secondFacets : ArrayFacets}
    {firstElement secondElement : Node}
    (elements : Composes combine firstElement secondElement) :
    Composes combine (.array firstDeclaration firstFacets firstElement)
      (.array secondDeclaration secondFacets secondElement) := by
  rw [composes_iff] at elements ⊢
  intro base result
  constructor
  · rintro ⟨value, before, after⟩
    obtain ⟨_, _, element, middle, rfl, earlier, rfl⟩ := combine_array_eq_some_iff.mp before
    obtain ⟨_, _, _, last, same, later, rfl⟩ := combine_array_eq_some_iff.mp after
    cases same
    obtain ⟨both, inner, outer⟩ := (elements _ _).mp ⟨_, earlier, later⟩
    exact ⟨_, combine_array_eq_some_iff.mpr ⟨_, _, _, _, rfl, inner, rfl⟩,
      combine_array_eq_some_iff.mpr ⟨_, _, _, _, rfl, outer,
        by rw [Declaration.merge_assoc, ArrayFacets.merge_assoc]⟩⟩
  · rintro ⟨overlay, inner, outer⟩
    obtain ⟨_, _, _, both, same, merged, rfl⟩ := combine_array_eq_some_iff.mp inner
    cases same
    obtain ⟨_, _, element, last, rfl, all, rfl⟩ := combine_array_eq_some_iff.mp outer
    obtain ⟨middle, earlier, later⟩ := (elements _ _).mpr ⟨_, merged, all⟩
    exact ⟨_, combine_array_eq_some_iff.mpr ⟨_, _, _, _, rfl, earlier, rfl⟩,
      combine_array_eq_some_iff.mpr ⟨_, _, _, _, rfl, later,
        by rw [Declaration.merge_assoc, ArrayFacets.merge_assoc]⟩⟩

/-- Sound objects compose if their children do. -/
theorem composes_object
    {firstDeclaration secondDeclaration : Declaration}
    {firstFacets secondFacets : ObjectFacets}
    {firstChildren secondChildren : List Node}
    (firstSound : Sound (.object firstDeclaration firstFacets firstChildren))
    (secondSound : Sound (.object secondDeclaration secondFacets secondChildren))
    (children : Composes (mergeList name combine) firstChildren secondChildren) :
    Composes combine (.object firstDeclaration firstFacets firstChildren)
      (.object secondDeclaration secondFacets secondChildren) := by
  obtain ⟨firstParts, -⟩ := sound_object_iff.mp firstSound
  obtain ⟨secondParts, -⟩ := sound_object_iff.mp secondSound
  rw [composes_iff] at children ⊢
  intro base result
  constructor
  · rintro ⟨value, before, after⟩
    obtain ⟨_, _, _, middle, rfl, earlier, rfl⟩ :=
      (combine_object_eq_some_iff firstParts).mp before
    obtain ⟨_, _, _, last, same, later, rfl⟩ := (combine_object_eq_some_iff secondParts).mp after
    cases same
    obtain ⟨both, inner, outer⟩ := (children _ _).mp ⟨_, earlier, later⟩
    have combined :
        combine (.object firstDeclaration firstFacets firstChildren)
          (.object secondDeclaration secondFacets secondChildren) = some _ :=
      (combine_object_eq_some_iff secondParts).mpr ⟨_, _, _, _, rfl, inner, rfl⟩
    -- the combined overlay is merged next, so its groups have to be known to it
    have parts := (sound_object_iff.mp (sound_combine firstSound secondSound combined)).1
    exact ⟨_, combined, (combine_object_eq_some_iff parts).mpr ⟨_, _, _, _, rfl, outer,
      by rw [Declaration.merge_assoc, ObjectFacets.merge_assoc]⟩⟩
  · rintro ⟨overlay, inner, outer⟩
    have sound := sound_combine firstSound secondSound inner
    obtain ⟨_, _, _, both, same, merged, rfl⟩ := (combine_object_eq_some_iff secondParts).mp inner
    cases same
    obtain ⟨_, _, _, last, rfl, all, rfl⟩ :=
      (combine_object_eq_some_iff (sound_object_iff.mp sound).1).mp outer
    obtain ⟨middle, earlier, later⟩ := (children _ _).mpr ⟨_, merged, all⟩
    exact ⟨_, (combine_object_eq_some_iff firstParts).mpr ⟨_, _, _, _, rfl, earlier, rfl⟩,
      (combine_object_eq_some_iff secondParts).mpr ⟨_, _, _, _, rfl, later,
        by rw [Declaration.merge_assoc, ObjectFacets.merge_assoc]⟩⟩

/-- Sound trees compose, unless the second one edits values. -/
theorem composes_combine
    {first second : Node}
    (firstSound : first.Sound)
    (secondSound : second.Sound)
    (unpatched : second.Unpatched) :
    Composes combine first second := by
  induction second using inductOn generalizing first with
  | scalar _ secondFacets =>
      cases first with
      | scalar => exact composes_scalar unpatched.facets
      | array | object =>
          exact composes_of_kind_ne firstSound secondSound (by cases secondFacets <;> nofun)
  | array _ _ _ hypothesis =>
      cases first with
      | scalar _ firstFacets =>
          exact composes_of_kind_ne firstSound secondSound (by cases firstFacets <;> nofun)
      | array =>
          exact composes_array (hypothesis (sound_array_iff.mp firstSound)
            (sound_array_iff.mp secondSound) unpatched.element)
      | object => exact composes_of_kind_ne firstSound secondSound nofun
  | object _ _ _ hypothesis =>
      cases first with
      | scalar _ firstFacets =>
          exact composes_of_kind_ne firstSound secondSound (by cases firstFacets <;> nofun)
      | array => exact composes_of_kind_ne firstSound secondSound nofun
      | object =>
          obtain ⟨firstParts, firstSounds⟩ := sound_object_iff.mp firstSound
          obtain ⟨secondParts, secondSounds⟩ := sound_object_iff.mp secondSound
          refine composes_object firstSound secondSound ?_
          exact composes_mergeList keepsNames_combine firstParts.distinct secondParts.distinct
            fun left leftMember right rightMember _ => hypothesis right rightMember
              (firstSounds left leftMember) (secondSounds right rightMember)
              (unpatched.children right rightMember)

end Node

/-! ## Functions, namespaces and documents -/

namespace Function

/-- No string of the function carries edits to values. -/
def Unpatched (function : Function) : Prop := ∀ node ∈ function.nodes, node.Unpatched

/-- Parameters that travel in one place have different names. -/
structure ParametersDistinct (function : Function) : Prop where
  pathParameters : (function.pathParameters.map Node.name).Nodup
  queryParameters : (function.queryParameters.map Node.name).Nodup

theorem composes_combine
    {first second : Function}
    (firstSound : first.Sound)
    (firstDistinct : first.ParametersDistinct)
    (secondSound : second.Sound)
    (secondDistinct : second.ParametersDistinct)
    (unpatched : second.Unpatched) :
    Composes combine first second := by
  obtain ⟨firstPath, firstQuery, firstBody, firstOutput⟩ := forall_mem_nodes_iff.mp firstSound.nodes
  obtain ⟨secondPath, secondQuery, secondBody, secondOutput⟩ :=
    forall_mem_nodes_iff.mp secondSound.nodes
  obtain ⟨plainPath, plainQuery, plainBody, plainOutput⟩ := forall_mem_nodes_iff.mp unpatched
  have path := composes_iff.mp <| composes_mergeList Node.keepsNames_combine
    firstDistinct.pathParameters secondDistinct.pathParameters
    fun left leftMember right rightMember _ => Node.composes_combine (firstPath left leftMember)
      (secondPath right rightMember) (plainPath right rightMember)
  have query := composes_iff.mp <| composes_mergeList Node.keepsNames_combine
    firstDistinct.queryParameters secondDistinct.queryParameters
    fun left leftMember right rightMember _ => Node.composes_combine (firstQuery left leftMember)
      (secondQuery right rightMember) (plainQuery right rightMember)
  have body := composes_iff.mp <| composes_mergeOption
    fun left leftMember right rightMember => Node.composes_combine (firstBody left leftMember)
      (secondBody right rightMember) (plainBody right rightMember)
  have output := composes_iff.mp <| composes_mergeOption
    fun left leftMember right rightMember => Node.composes_combine (firstOutput left leftMember)
      (secondOutput right rightMember) (plainOutput right rightMember)
  rw [composes_iff]
  intro base result
  simp only [combine_eq_some_iff]
  constructor
  · rintro ⟨value, before, after⟩
    obtain ⟨pathBoth, pathInner, pathOuter⟩ :=
      (path _ _).mp ⟨_, before.pathParameters, after.pathParameters⟩
    obtain ⟨queryBoth, queryInner, queryOuter⟩ :=
      (query _ _).mp ⟨_, before.queryParameters, after.queryParameters⟩
    obtain ⟨bodyBoth, bodyInner, bodyOuter⟩ := (body _ _).mp ⟨_, before.body, after.body⟩
    obtain ⟨outputBoth, outputInner, outputOuter⟩ :=
      (output _ _).mp ⟨_, before.output, after.output⟩
    refine ⟨⟨overlayText first.name second.name, overlayOption first.method second.method,
        overlayText first.uri second.uri, pathBoth, queryBoth, bodyBoth, outputBoth⟩,
      ⟨rfl, rfl, rfl, pathInner, queryInner, bodyInner, outputInner⟩,
      ⟨?_, ?_, ?_, pathOuter, queryOuter, bodyOuter, outputOuter⟩⟩
    · rw [after.name, before.name, overlayText_assoc]
    · rw [after.method, before.method, overlayOption_assoc]
    · rw [after.uri, before.uri, overlayText_assoc]
  · rintro ⟨overlay, inner, outer⟩
    obtain ⟨pathMiddle, pathBefore, pathAfter⟩ :=
      (path _ _).mpr ⟨_, inner.pathParameters, outer.pathParameters⟩
    obtain ⟨queryMiddle, queryBefore, queryAfter⟩ :=
      (query _ _).mpr ⟨_, inner.queryParameters, outer.queryParameters⟩
    obtain ⟨bodyMiddle, bodyBefore, bodyAfter⟩ := (body _ _).mpr ⟨_, inner.body, outer.body⟩
    obtain ⟨outputMiddle, outputBefore, outputAfter⟩ :=
      (output _ _).mpr ⟨_, inner.output, outer.output⟩
    refine ⟨⟨overlayText base.name first.name, overlayOption base.method first.method,
        overlayText base.uri first.uri, pathMiddle, queryMiddle, bodyMiddle, outputMiddle⟩,
      ⟨rfl, rfl, rfl, pathBefore, queryBefore, bodyBefore, outputBefore⟩,
      ⟨?_, ?_, ?_, pathAfter, queryAfter, bodyAfter, outputAfter⟩⟩
    · rw [outer.name, inner.name, overlayText_assoc]
    · rw [outer.method, inner.method, overlayOption_assoc]
    · rw [outer.uri, inner.uri, overlayText_assoc]

end Function

namespace Namespace

theorem composes_combine
    {first second : Namespace}
    (firstSound : first.All fun function => function.Sound ∧ function.ParametersDistinct)
    (secondSound : second.All fun function =>
      function.Sound ∧ function.ParametersDistinct ∧ function.Unpatched) :
    Composes combine first second := by
  rw [all_iff_function?] at firstSound secondSound
  have functions := fun slot => composes_iff.mp <| composes_mergeOption
    fun left leftFound right rightFound =>
      have ofLeft := firstSound slot left leftFound
      have ofRight := secondSound slot right rightFound
      Function.composes_combine ofLeft.1 ofLeft.2 ofRight.1 ofRight.2.1 ofRight.2.2
  rw [composes_iff]
  intro base result
  constructor
  · rintro ⟨value, before, after⟩
    obtain ⟨beforeName, beforeSchema, beforeModule, earlier⟩ :=
      combine_eq_some_iff_function?.mp before
    obtain ⟨afterName, afterSchema, afterModule, later⟩ := combine_eq_some_iff_function?.mp after
    obtain ⟨both, inner, outer⟩ := exists_combine fun slot =>
      (functions slot _ _).mp ⟨_, earlier slot, later slot⟩
    obtain ⟨-, bothSchema, bothModule, -⟩ := combine_eq_some_iff_function?.mp inner
    refine ⟨both, inner, combine_eq_some_iff_function?.mpr ⟨?_, ?_, ?_, outer⟩⟩
    · rw [afterName, beforeName]
    · rw [afterSchema, beforeSchema, bothSchema, overlayText_assoc]
    · rw [afterModule, beforeModule, bothModule, overlayNonempty_assoc]
  · rintro ⟨overlay, inner, outer⟩
    obtain ⟨-, innerSchema, innerModule, merged⟩ := combine_eq_some_iff_function?.mp inner
    obtain ⟨outerName, outerSchema, outerModule, all⟩ := combine_eq_some_iff_function?.mp outer
    obtain ⟨middle, before, after⟩ := exists_combine fun slot =>
      (functions slot _ _).mpr ⟨_, merged slot, all slot⟩
    obtain ⟨middleName, middleSchema, middleModule, -⟩ :=
      combine_eq_some_iff_function?.mp before
    refine ⟨middle, before, combine_eq_some_iff_function?.mpr ⟨?_, ?_, ?_, after⟩⟩
    · rw [outerName, middleName]
    · rw [outerSchema, innerSchema, middleSchema, overlayText_assoc]
    · rw [outerModule, innerModule, middleModule, overlayNonempty_assoc]

end Namespace

namespace Document

/-- Namespaces have different names, and so have the parameters of a function that travel
in one place. -/
structure NamesDistinct (document : Document) : Prop where
  namespaces : (document.namespaces.map Namespace.name).Nodup
  parameters : ∀ managed ∈ document.namespaces, managed.All Function.ParametersDistinct

/-- No string of the document carries edits to values. -/
structure Unpatched (document : Document) : Prop where
  schemas : ∀ entry ∈ document.schemas.entries, entry.2.Unpatched
  functions : ∀ managed ∈ document.namespaces, managed.All Function.Unpatched

/-- Two overrides one after the other do what the second one applied to the first does: both
fail, or both give the same document. -/
theorem applyOverride_assoc
    {firstOrigin secondOrigin : Reading.Origin}
    {firstDraft secondDraft : Json.Draft}
    {first second : Document}
    (firstRead : Reading.readDocument firstOrigin firstDraft = .ok first)
    (secondRead : Reading.readDocument secondOrigin secondDraft = .ok second)
    (firstDistinct : first.NamesDistinct)
    (secondDistinct : second.NamesDistinct)
    (unpatched : second.Unpatched)
    (base : Document) :
    (base.applyOverride first >>= fun merged => merged.applyOverride second).toOption =
      (first.applyOverride second >>= base.applyOverride).toOption := by
  have firstSound := Reading.yields_readDocument firstOrigin firstRead
  have secondSound := Reading.yields_readDocument secondOrigin secondRead
  have schemas := composes_iff.mp <| composes_mergeTables
    fun name left (leftFound : first.schemas.get? name = some left) right
        (rightFound : second.schemas.get? name = some right) =>
      have leftMember := Order.Table.mem_entries_of_get? leftFound
      have rightMember := Order.Table.mem_entries_of_get? rightFound
      Node.composes_combine (firstSound.schemas _ leftMember) (secondSound.schemas _ rightMember)
        (unpatched.schemas _ rightMember)
  have namespaces := composes_iff.mp <| composes_mergeList Namespace.keepsNames_combine
    firstDistinct.namespaces secondDistinct.namespaces
    fun left leftMember right rightMember _ => Namespace.composes_combine
      ((firstSound.functions left leftMember).and (firstDistinct.parameters left leftMember))
      ((secondSound.functions right rightMember).and
        ((secondDistinct.parameters right rightMember).and
          (unpatched.functions right rightMember)))
  suffices Composes combine first second by
    rw [Outcome.toOption_bind, Outcome.toOption_bind]
    exact this base
  rw [composes_iff]
  intro base result
  simp only [combine_eq_some_iff]
  constructor
  · rintro ⟨value, before, after⟩
    obtain ⟨schemasBoth, schemasInner, schemasOuter⟩ := (schemas _ _).mp ⟨_, before.1, after.1⟩
    obtain ⟨namespacesBoth, namespacesInner, namespacesOuter⟩ :=
      (namespaces _ _).mp ⟨_, before.2, after.2⟩
    exact ⟨⟨schemasBoth, namespacesBoth⟩, ⟨schemasInner, namespacesInner⟩,
      ⟨schemasOuter, namespacesOuter⟩⟩
  · rintro ⟨overlay, inner, outer⟩
    obtain ⟨schemasMiddle, schemasBefore, schemasAfter⟩ := (schemas _ _).mpr ⟨_, inner.1, outer.1⟩
    obtain ⟨namespacesMiddle, namespacesBefore, namespacesAfter⟩ :=
      (namespaces _ _).mpr ⟨_, inner.2, outer.2⟩
    exact ⟨⟨schemasMiddle, namespacesMiddle⟩, ⟨schemasBefore, namespacesBefore⟩,
      ⟨schemasAfter, namespacesAfter⟩⟩

/-- An override that edits the values of a mode and places the function of a site. -/
def modeOverride : Document where
  schemas := .ofList [("listener", .object {} {}
    [.scalar { name := "mode" } (.string { valuesPatch := some { add := ["tls"] } })])]
  namespaces := [{ name := "site", read := some { uri := "sites/\x7bid\x7d" } }]

/-- An override with one more child and the parameter of that function. -/
def hostOverride : Document where
  schemas := .ofList [("listener", .object {} { groups := [["host"]] }
    [.scalar { name := "host" } (.string {})])]
  namespaces := [{ name := "audit" },
    { name := "site", read := some { pathParameters := [.scalar { name := "id" } (.string {})] } }]

theorem applyOverride_modeOverride_hostOverride :
    (applyOverride {} modeOverride >>= fun merged => merged.applyOverride hostOverride).toOption =
      (modeOverride.applyOverride hostOverride >>= applyOverride {}).toOption := by
  have reads : ∀ {property : Function → Prop} {name : String} {function : Function},
      property function → Namespace.All property { name := name, read := some function } :=
    fun holds => Namespace.all_iff.mpr (List.forall_mem_singleton.mpr holds)
  have nothing : ∀ {property : Function → Prop} {name : String},
      Namespace.All property { name := name } :=
    Namespace.all_iff.mpr (List.forall_mem_nil _)
  have both : ∀ {property : Namespace → Prop} {first second : Namespace},
      property first → property second → ∀ managed ∈ [first, second], property managed :=
    fun first second => List.forall_mem_cons.mpr ⟨first, List.forall_mem_singleton.mpr second⟩
  have modeNode : Node.Sound (.object {} {} [.scalar { name := "mode" }
      (.string { valuesPatch := some { add := ["tls"] } })]) :=
    Node.sound_object_iff.mpr ⟨⟨by decide, by decide, by decide, by decide⟩,
      List.forall_mem_singleton.mpr (Node.sound_scalar _ _)⟩
  have hostNode : Node.Sound (.object {} { groups := [["host"]] }
      [.scalar { name := "host" } (.string {})]) :=
    Node.sound_object_iff.mpr ⟨⟨by decide, by decide, by decide, by decide⟩,
      List.forall_mem_singleton.mpr (Node.sound_scalar _ _)⟩
  have modeSound : modeOverride.Sound :=
    ⟨List.forall_mem_singleton.mpr modeNode, List.forall_mem_singleton.mpr
      (reads ⟨List.forall_mem_nil _, nofun⟩)⟩
  have hostSound : hostOverride.Sound :=
    ⟨List.forall_mem_singleton.mpr hostNode, both nothing
      (reads ⟨List.forall_mem_singleton.mpr (Node.sound_scalar _ _), nofun⟩)⟩
  have modeDistinct : modeOverride.NamesDistinct :=
    ⟨by decide, List.forall_mem_singleton.mpr (reads ⟨by decide, by decide⟩)⟩
  have hostDistinct : hostOverride.NamesDistinct :=
    ⟨by decide, both nothing (reads ⟨by decide, by decide⟩)⟩
  have unpatched : hostOverride.Unpatched :=
    ⟨List.forall_mem_singleton.mpr (.object (List.forall_mem_singleton.mpr (.scalar rfl))),
      both nothing (reads (List.forall_mem_singleton.mpr (.scalar rfl)))⟩
  exact applyOverride_assoc (Reading.readDocument_writeDocument .text modeSound)
    (Reading.readDocument_writeDocument .text hostSound) modeDistinct hostDistinct unpatched {}

end Document

end Schema
end SchemaCompiler
