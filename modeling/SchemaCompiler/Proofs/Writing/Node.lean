import SchemaCompiler.Proofs.Reading.Members
import SchemaCompiler.Proofs.Reading.Soundness

/-!
# Nodes survive writing

A sound node is read back from its JSON form, both on its own and inside another node. The
members of its declaration, of its type and of its facets have different names, so readers
of the one pass over the members of the others.
-/

namespace SchemaCompiler
namespace Reading

open SchemaCompiler.Json (Draft Value)
open SchemaCompiler.Schema
open SchemaCompiler.Writing

/-! ## Names of members -/

/-- All members have one of some names. -/
def Keyed (keys : List String) (members : List (String × Value)) : Prop :=
  ∀ member ∈ members, member.1 ∈ keys

section Names

variable {keys : List String} {key : String}

@[simp] theorem keyed_nil : Keyed keys [] := by simp [Keyed]

@[simp] theorem keyed_cons
    {member : String × Value}
    {rest : List (String × Value)} :
    Keyed keys (member :: rest) ↔ member.1 ∈ keys ∧ Keyed keys rest :=
  List.forall_mem_cons

@[simp] theorem keyed_append
    {before after : List (String × Value)} :
    Keyed keys (before ++ after) ↔ Keyed keys before ∧ Keyed keys after :=
  List.forall_mem_append

@[simp] theorem keyed_optionMember
    {write : α → Value}
    {value : Option α}
    (known : key ∈ keys) :
    Keyed keys (optionMember key write value) := by
  cases value <;> simp [optionMember, known]

@[simp] theorem keyed_listMember
    {write : α → Value}
    {values : List α}
    (known : key ∈ keys) :
    Keyed keys (listMember key write values) := by
  unfold listMember
  split <;> simp [known]

end Names

/-- Names of the members that nodes of all kinds have beside their declaration and type. -/
def facetKeys : List String :=
  ["default", "opaque", "min", "max", "values", "sensitive", "min_length", "max_length", "regex",
    "hashing", "values_patch", "element", "min_items", "max_items", "unordered", "params", "one_of",
    "class"]

theorem keyed_declarationMembers (declaration : Declaration) :
    Keyed DeclarationParts.fields (declarationMembers declaration) := by
  simp [declarationMembers, DeclarationParts.fields]

theorem keyed_scalarMembers (facets : Scalar) : Keyed facetKeys (scalarMembers facets) := by
  cases facets with
  | bool => simp [scalarMembers, boolMembers, facetKeys]
  | int => simp [scalarMembers, numberMembers, facetKeys]
  | float => simp [scalarMembers, numberMembers, facetKeys]
  | string facets =>
      have hashing : Keyed facetKeys
          (if facets.hashing.isPlaintext then []
            else [("hashing", writeHashing facets.hashing)]) := by
        split <;> simp [facetKeys]
      simp [scalarMembers, stringMembers, hashing]
      simp [facetKeys]

theorem keyed_arrayMembers (facets : ArrayFacets) : Keyed facetKeys (arrayMembers facets) := by
  simp [arrayMembers, facetKeys]

theorem keyed_objectMembers (facets : ObjectFacets) : Keyed facetKeys (objectMembers facets) := by
  simp [objectMembers, facetKeys]

/-- No facet has the name of a declared member or of the type. -/
theorem undeclared_of_mem_facetKeys :
    ∀ key ∈ facetKeys, key ∉ DeclarationParts.fields ∧ key ≠ "type" := by
  decide

/-! ## Declarations -/

theorem restores_location
    (origin : Origin)
    (location : Location) :
    Restores (readLocation origin) (fun location => .string location.text) location := by
  refine ⟨?_, by simp⟩
  change locationOf location.text = .ok location
  rw [locationOf, Location.ofText?_text]

namespace DeclarationParts

/-- The parts of a declaration that was written. -/
def ofDeclaration (declaration : Declaration) : DeclarationParts where
  name := some declaration.name
  reference := declaration.reference.map some
  moduleName := declaration.moduleName.map some
  location := declaration.location.map some
  description := declaration.description.map some
  required := some declaration.required
  readOnly := some declaration.readOnly
  replaceOnChange := some declaration.replaceOnChange

@[simp] theorem finish_ofDeclaration (declaration : Declaration) :
    (ofDeclaration declaration).finish = declaration := by
  simp [ofDeclaration, finish]

theorem reads_take
    (origin : Origin)
    (declaration : Declaration) :
    Reads (fun parts key value => take origin parts key (Draft.ofValue value)) {}
      (declarationMembers declaration) (ofDeclaration declaration) := by
  simp only [declarationMembers, List.append_assoc]
  refine .append (.field (fun parts slot => { parts with name := slot }) (fun _ => rfl)
    (restores_text _)) ?_
  refine .append (.option (fun parts slot => { parts with reference := slot }) rfl (fun _ => rfl)
    fun _ _ => restores_text _) ?_
  refine .append (.option (fun parts slot => { parts with moduleName := slot }) rfl (fun _ => rfl)
    fun _ _ => restores_text _) ?_
  refine .append (.option (fun parts slot => { parts with location := slot }) rfl (fun _ => rfl)
    fun _ _ => restores_location origin _) ?_
  refine .append (.option (fun parts slot => { parts with description := slot }) rfl
    (fun _ => rfl) fun _ _ => restores_text _) ?_
  refine .cons (.field (fun parts slot => { parts with required := slot }) (fun _ => rfl)
    (restores_bool _)) ?_
  refine .cons (.field (fun parts slot => { parts with readOnly := slot }) (fun _ => rfl)
    (restores_bool _)) ?_
  exact .restate (.field (fun parts slot => { parts with replaceOnChange := slot }) (fun _ => rfl)
    (restores_bool _)) rfl

end DeclarationParts

/-! ## Facets -/

namespace BoolParts

/-- The parts of a truth value that was written. -/
def ofFacets (facets : BoolFacets) : BoolParts where
  defaultValue := facets.defaultValue.map some
  untyped := some facets.untyped

@[simp] theorem finish_ofFacets (facets : BoolFacets) : (ofFacets facets).finish = facets := by
  simp [ofFacets, finish]

theorem reads_take (facets : BoolFacets) :
    Reads take {} (boolMembers facets) (ofFacets facets) := by
  refine .append (.option (fun parts slot => { parts with defaultValue := slot }) rfl (fun _ => rfl)
    fun _ _ => restores_bool _) ?_
  exact .restate (.field (fun parts slot => { parts with untyped := slot }) (fun _ => rfl)
    (restores_bool _)) rfl

end BoolParts

namespace NumberParts

/-- The parts of a number that was written. -/
def ofFacets (facets : NumberFacets α) : NumberParts α where
  defaultValue := facets.defaultValue.map some
  min := facets.min.map some
  max := facets.max.map some
  values := if facets.values.isEmpty then none else some facets.values

@[simp] theorem finish_ofFacets (facets : NumberFacets α) : (ofFacets facets).finish = facets := by
  simp [ofFacets, finish]

theorem reads_take
    {reader : Reader α}
    {write : α → Value}
    (restores : ∀ value, Restores reader write value)
    (facets : NumberFacets α) :
    Reads (take reader) {} (numberMembers write facets) (ofFacets facets) := by
  simp only [numberMembers, List.append_assoc]
  refine .append (.option (fun parts slot => { parts with defaultValue := slot }) rfl (fun _ => rfl)
    fun _ _ => restores _) ?_
  refine .append (.option (fun parts slot => { parts with min := slot }) rfl (fun _ => rfl)
    fun _ _ => restores _) ?_
  refine .append (.option (fun parts slot => { parts with max := slot }) rfl (fun _ => rfl)
    fun _ _ => restores _) ?_
  exact .restate (.list (fun parts slot => { parts with values := slot }) rfl (fun _ => rfl)
    fun _ _ => restores _) rfl

end NumberParts

/-- A hashing profile with an active policy is read back. -/
theorem restores_hashing
    {profile : HashProfile}
    (active : profile.isPlaintext = false) :
    Restores readHashing writeHashing profile := by
  cases profile with
  | plaintext => simp [HashProfile.isPlaintext] at active
  | solo => exact ⟨rfl, by simp [writeHashing]⟩
  | withAncestor depth =>
      have reads : Reads (fun parts key value => HashParts.take parts key (Draft.ofValue value)) {}
          (optionMember "with_parent_name" writeUnsigned (some depth)) _ :=
        .option (fun parts slot => { parts with parentDepth := slot }) rfl (fun _ => rfl)
          fun _ _ => restores_unsigned "usize" _
      refine ⟨?_, by simp [writeHashing]⟩
      rw [readHashing, writeHashing]
      refine (congrArg (· >>= HashParts.finish) (reads.record .kept _ _)).trans ?_
      rfl
  | withSibling field =>
      have reads : Reads (fun parts key value => HashParts.take parts key (Draft.ofValue value)) {}
          (optionMember "with_param_value" .string (some field)) _ :=
        .option (fun parts slot => { parts with sibling := slot }) rfl (fun _ => rfl)
          fun _ _ => restores_text _
      refine ⟨?_, by simp [writeHashing]⟩
      rw [readHashing, writeHashing]
      exact congrArg (· >>= HashParts.finish) (reads.record .kept _ _)

/-- Edits to values are read back. -/
theorem restores_patch (patch : ValuesPatch) : Restores readPatch writePatch patch := by
  have reads : Reads (fun parts key value => PatchParts.take parts key (Draft.ofValue value)) {}
      [("add", writeTexts patch.add), ("remove", writeTexts patch.remove)] _ :=
    .cons (.field (fun parts slot => { parts with add := slot }) (fun _ => rfl) (restores_texts _))
      (.field (fun parts slot => { parts with remove := slot }) (fun _ => rfl) (restores_texts _))
  refine ⟨?_, by simp [writePatch]⟩
  rw [readPatch, writePatch, reads.record]
  rfl

namespace StringParts

/-- The parts of a string that was written. -/
def ofFacets (facets : StringFacets) : StringParts where
  defaultValue := facets.defaultValue.map some
  sensitive := some facets.sensitive
  minLength := facets.minLength.map some
  maxLength := facets.maxLength.map some
  values := if facets.values.isEmpty then none else some facets.values
  regex := facets.regex.map some
  hashing := if facets.hashing.isPlaintext then none else some facets.hashing
  valuesPatch := facets.valuesPatch.map some

@[simp] theorem finish_ofFacets (facets : StringFacets) : (ofFacets facets).finish = facets := by
  have hashing : (if facets.hashing.isPlaintext then none else some facets.hashing).getD .plaintext
      = facets.hashing := by
    by_cases plain : facets.hashing = .plaintext <;> simp [HashProfile.isPlaintext, plain]
  simp [ofFacets, finish, hashing]

theorem reads_take (facets : StringFacets) :
    Reads take {} (stringMembers facets) (ofFacets facets) := by
  have hashing : ∀ {parts : StringParts}, parts.hashing = none →
      Reads take parts
        (if facets.hashing.isPlaintext then [] else [("hashing", writeHashing facets.hashing)])
        { parts with
          hashing := if facets.hashing.isPlaintext then none else some facets.hashing } := by
    intro parts unset
    by_cases plain : facets.hashing.isPlaintext
    · rw [if_pos plain, if_pos plain, ← unset]
      rfl
    · rw [if_neg plain, if_neg plain]
      refine .restate (.field (fun parts slot => { parts with hashing := slot }) (fun value => ?_)
        (restores_hashing (by simpa using plain))) rfl
      rw [← unset]
      rfl
  simp only [stringMembers, List.append_assoc]
  refine .append (.option (fun parts slot => { parts with defaultValue := slot }) rfl (fun _ => rfl)
    fun _ _ => restores_text _) ?_
  refine .append (.field (fun parts slot => { parts with sensitive := slot }) (fun _ => rfl)
    (restores_bool _)) ?_
  refine .append (.option (fun parts slot => { parts with minLength := slot }) rfl (fun _ => rfl)
    fun _ _ => restores_unsigned "u64" _) ?_
  refine .append (.option (fun parts slot => { parts with maxLength := slot }) rfl (fun _ => rfl)
    fun _ _ => restores_unsigned "u64" _) ?_
  refine .append (.list (fun parts slot => { parts with values := slot }) rfl (fun _ => rfl)
    fun _ _ => restores_text _) ?_
  refine .append (.option (fun parts slot => { parts with regex := slot }) rfl (fun _ => rfl)
    fun _ _ => restores_text _) ?_
  refine .append (hashing rfl) ?_
  exact .restate (.option (fun parts slot => { parts with valuesPatch := slot }) rfl (fun _ => rfl)
    fun _ _ => restores_patch _) rfl

end StringParts

/-- Takes one kept member of an array. -/
def takeArrayMember (parts : ArrayParts) (key : String) (value : Value) :
    Except ReadError ArrayParts :=
  if key = "element" then do
    return { parts with element := ← fill parts.element key (readKeptNode value) }
  else parts.take key value

/-- The members of an array are taken one after another. -/
theorem readArrayMembers_eq
    (parts : ArrayParts)
    (members : List (String × Value)) :
    readArrayMembers parts members = readMembers takeArrayMember parts members := by
  induction members generalizing parts with
  | nil =>
      rw [readArrayMembers]
      rfl
  | cons member rest hypothesis =>
      rw [readArrayMembers, readMembers, takeArrayMember]
      split
      · simp only [bind_assoc, pure_bind, hypothesis]
      · simp only [hypothesis]

/-- Takes one kept member of an object. -/
def takeObjectMember (parts : ObjectParts) (key : String) (value : Value) :
    Except ReadError ObjectParts :=
  if key = "params" then do
    return { parts with children := ← fill parts.children key (readKeptNodes value) }
  else parts.take key value

/-- The members of an object are taken one after another. -/
theorem readObjectMembers_eq
    (parts : ObjectParts)
    (members : List (String × Value)) :
    readObjectMembers parts members = readMembers takeObjectMember parts members := by
  induction members generalizing parts with
  | nil =>
      rw [readObjectMembers]
      rfl
  | cons member rest hypothesis =>
      rw [readObjectMembers, readMembers, takeObjectMember]
      split
      · simp only [bind_assoc, pure_bind, hypothesis]
      · simp only [hypothesis]

/-! ## Members that others are interested in -/

/-- Members of a declaration and of a type are passed over. -/
def PassesDeclared (member : MemberReader π) : Prop :=
  ∀ key, key ∈ DeclarationParts.fields ∨ key = "type" → ∀ parts value,
    member parts key value = .ok parts

/-- What such members stand in front of is read as if they were not there. -/
theorem PassesDeclared.reads
    {member : MemberReader π}
    (passes : PassesDeclared member)
    {before : List (String × Value)}
    (declared : Keyed DeclarationParts.fields before)
    (kind : Kind)
    {parts next : π}
    {after : List (String × Value)}
    (reads : Reads member parts after next) :
    Reads member parts (before ++ kindMember kind :: after) next := by
  rw [List.append_cons]
  refine .append (.skip fun stated inside => passes stated.1 ?_ parts stated.2) reads
  rcases List.mem_append.mp inside with front | last
  · exact .inl (declared stated front)
  · rw [List.mem_singleton.mp last]
    exact .inr rfl

/-- A way to take members passes over those of a declaration and of a type if it does so
with each of them. -/
theorem passesDeclared_of
    {member : MemberReader π}
    (passed : ∀ key ∈ ["name", "ref", "module", "in", "description", "required", "read_only",
      "replace_on_change", "type"], ∀ parts value, member parts key value = .ok parts) :
    PassesDeclared member := by
  rintro key (declared | rfl)
  · exact passed key (List.mem_append_left ["type"] declared)
  · exact passed "type" (by simp)

theorem passesDeclared_bool : PassesDeclared BoolParts.take := by
  refine passesDeclared_of ?_
  simp only [List.forall_mem_cons]
  refine ⟨?_, ?_, ?_, ?_, ?_, ?_, ?_, ?_, ?_, by simp⟩ <;> exact fun _ _ => rfl

theorem passesDeclared_number (reader : Reader α) : PassesDeclared (NumberParts.take reader) := by
  refine passesDeclared_of ?_
  simp only [List.forall_mem_cons]
  refine ⟨?_, ?_, ?_, ?_, ?_, ?_, ?_, ?_, ?_, by simp⟩ <;> exact fun _ _ => rfl

theorem passesDeclared_string : PassesDeclared StringParts.take := by
  refine passesDeclared_of ?_
  simp only [List.forall_mem_cons]
  refine ⟨?_, ?_, ?_, ?_, ?_, ?_, ?_, ?_, ?_, by simp⟩ <;> exact fun _ _ => rfl

theorem passesDeclared_array : PassesDeclared takeArrayMember := by
  refine passesDeclared_of ?_
  simp only [List.forall_mem_cons]
  refine ⟨?_, ?_, ?_, ?_, ?_, ?_, ?_, ?_, ?_, by simp⟩ <;> exact fun _ _ => rfl

theorem passesDeclared_object : PassesDeclared takeObjectMember := by
  refine passesDeclared_of ?_
  simp only [List.forall_mem_cons]
  refine ⟨?_, ?_, ?_, ?_, ?_, ?_, ?_, ?_, ?_, by simp⟩ <;> exact fun _ _ => rfl

/-- The kind of a node is that of the first type member. -/
theorem kindOf_append
    (found : Option Kind)
    {before after : List (String × Value)}
    (untyped : ∀ member ∈ before, member.1 ≠ "type") :
    kindOf found (before ++ after) = kindOf found after := by
  induction before with
  | nil => rfl
  | cons member rest hypothesis =>
      obtain ⟨key, value⟩ := member
      rw [List.forall_mem_cons] at untyped
      change (if key = "type" then _ else kindOf found (rest ++ after)) = _
      rw [if_neg untyped.1, hypothesis untyped.2]

theorem kindOf_written
    {before after : List (String × Value)}
    (declared : Keyed DeclarationParts.fields before)
    (facet : Keyed facetKeys after)
    (kind : Kind) :
    kindOf none (before ++ kindMember kind :: after) = .ok kind := by
  have undeclared : "type" ∉ DeclarationParts.fields := by decide
  rw [kindOf_append none fun member inside same => undeclared (same ▸ declared member inside)]
  have named : readKind (.string kind.text) = .ok kind := by
    rw [readKind, Kind.ofText?_text]
  change (readKind (.string kind.text) >>= fun kind => kindOf (some kind) after) = _
  rw [named, Outcome.ok_bind]
  rw [← List.append_nil after, kindOf_append (some kind) fun member inside =>
    (undeclared_of_mem_facetKeys member.1 (facet member inside)).2]
  rfl

/-! ## Contents of nodes -/

/-- Members of a node beside those of its declaration and its type. -/
def contentMembers : Node → List (String × Value)
  | .scalar _ facets => scalarMembers facets
  | .array _ facets element => ("element", writeNode element) :: arrayMembers facets
  | .object _ facets children => ("params", .array (writeNodes children)) :: objectMembers facets

theorem writeNode_eq (node : Node) :
    writeNode node =
      .object (declarationMembers node.declaration
        ++ kindMember node.kind :: contentMembers node) := by
  cases node <;> rw [writeNode, List.append_assoc] <;> rfl

theorem keyed_contentMembers (node : Node) : Keyed facetKeys (contentMembers node) := by
  cases node with
  | scalar _ facets => exact keyed_scalarMembers facets
  | array _ facets =>
      exact keyed_cons.mpr ⟨(by decide : "element" ∈ facetKeys), keyed_arrayMembers facets⟩
  | object _ facets =>
      exact keyed_cons.mpr ⟨(by decide : "params" ∈ facetKeys), keyed_objectMembers facets⟩

section Contents

variable {before : List (String × Value)}

/-- Facets of a scalar are read back. -/
theorem readFacets_scalar
    (declared : Keyed DeclarationParts.fields before)
    (declaration : Declaration)
    (facets : Scalar) :
    readFacets declaration (before ++ kindMember facets.kind :: scalarMembers facets) =
      .ok (.scalar declaration facets) := by
  rw [readFacets, kindOf_written declared (keyed_scalarMembers facets), Outcome.ok_bind]
  cases facets with
  | bool facets =>
      have read := passesDeclared_bool.reads declared .bool (BoolParts.reads_take facets)
      refine (read.bind_eq fun parts =>
        pure (Node.scalar declaration (.bool parts.finish))).trans ?_
      rw [BoolParts.finish_ofFacets]
      rfl
  | int facets =>
      have read := (passesDeclared_number readSigned).reads declared .int
        (NumberParts.reads_take restores_signed facets)
      refine (read.bind_eq fun parts =>
        pure (Node.scalar declaration (.int parts.finish))).trans ?_
      rw [NumberParts.finish_ofFacets]
      rfl
  | float facets =>
      have read := (passesDeclared_number readFloat).reads declared .float
        (NumberParts.reads_take restores_float facets)
      refine (read.bind_eq fun parts =>
        pure (Node.scalar declaration (.float parts.finish))).trans ?_
      rw [NumberParts.finish_ofFacets]
      rfl
  | string facets =>
      have read := passesDeclared_string.reads declared .string (StringParts.reads_take facets)
      refine (read.bind_eq fun parts =>
        pure (Node.scalar declaration (.string parts.finish))).trans ?_
      rw [StringParts.finish_ofFacets]
      rfl

/-- An array is read back if its element is. -/
theorem readFacets_array
    (declared : Keyed DeclarationParts.fields before)
    (declaration : Declaration)
    (facets : ArrayFacets)
    {element : Node}
    (restored : readKeptNode (writeNode element) = .ok element) :
    readFacets declaration
        (before ++ kindMember .array :: contentMembers (.array declaration facets element)) =
      .ok (.array declaration facets element) := by
  have content : Reads takeArrayMember {} (contentMembers (.array declaration facets element))
      { element := some element
        minItems := facets.minItems.map some
        maxItems := facets.maxItems.map some
        unordered := some facets.unordered } := by
    have first : Reads takeArrayMember {} [("element", writeNode element)]
        { element := some element } := by
      rw [Reads, readMembers, takeArrayMember, if_pos rfl, restored]
      rfl
    refine first.cons ?_
    simp only [arrayMembers, List.append_assoc]
    refine .append (.option (fun parts slot => { parts with minItems := slot }) rfl (fun _ => rfl)
      fun _ _ => restores_unsigned "u64" _) ?_
    refine .append (.option (fun parts slot => { parts with maxItems := slot }) rfl (fun _ => rfl)
      fun _ _ => restores_unsigned "u64" _) ?_
    exact .restate (.field (fun parts slot => { parts with unordered := slot }) (fun _ => rfl)
      (restores_bool _)) rfl
  rw [readFacets, kindOf_written declared (keyed_contentMembers _), Outcome.ok_bind]
  simp only [readArrayMembers_eq]
  have read := passesDeclared_array.reads declared .array content
  refine (read.bind_eq fun parts => parts.finish declaration).trans ?_
  simp [ArrayParts.finish]

/-- Sound parts are built into their object. -/
theorem build_of_soundParts
    {facets : ObjectFacets}
    {children : List Node}
    (parts : Node.SoundParts facets children) :
    ObjectParts.build
        { children := some children
          groups := if facets.groups.isEmpty then none else some facets.groups
          className := facets.className.map some } =
      .ok ⟨children, facets⟩ := by
  have built : Object.ofChildren children = .ok { children := children } :=
    Object.ofChildren_eq_ok_iff.mpr ⟨parts.distinct, rfl⟩
  have grouped : Object.addGroups { children := children } FieldPath.root facets.groups =
      .ok { children := children, facets := { groups := facets.groups } } := by
    have known : ∀ group ∈ facets.groups, ∀ member ∈ group,
        Node.hasChild member ({ children := children } : Object).children := parts.known
    rw [Object.addGroups_of_known parts.groups known]
    simp [Object.withGroups, Object.groups]
  have className : facets.className.filter (· ≠ "") = facets.className := by
    cases given : facets.className with
    | none => rfl
    | some name =>
        have named : name ≠ "" := fun empty => parts.className (empty ▸ given)
        simp [Option.filter, named]
  have groups : (if facets.groups.isEmpty then none else some facets.groups).getD [] =
      facets.groups := by
    simp
  simp only [ObjectParts.build, Option.getD_some, built, Outcome.ok_bind, groups, grouped,
    join_map_some, className]
  rfl

/-- An object is read back if its children are and if it is sound. -/
theorem readFacets_object
    (declared : Keyed DeclarationParts.fields before)
    (declaration : Declaration)
    {facets : ObjectFacets}
    {children : List Node}
    (parts : Node.SoundParts facets children)
    (restored : readKeptNodes (.array (writeNodes children)) = .ok children) :
    readFacets declaration
        (before ++ kindMember .object :: contentMembers (.object declaration facets children)) =
      .ok (.object declaration facets children) := by
  have content : Reads takeObjectMember {}
      (contentMembers (.object declaration facets children))
      { children := some children
        groups := if facets.groups.isEmpty then none else some facets.groups
        className := facets.className.map some } := by
    have first : Reads takeObjectMember {} [("params", .array (writeNodes children))]
        { children := some children } := by
      rw [Reads, readMembers, takeObjectMember, if_pos rfl, restored]
      rfl
    refine first.cons ?_
    refine .append (.list (fun parts slot => { parts with groups := slot }) rfl (fun _ => rfl)
      fun _ _ => restores_texts _) ?_
    exact .restate (.option (fun parts slot => { parts with className := slot }) rfl (fun _ => rfl)
      fun _ _ => restores_text _) rfl
  rw [readFacets, kindOf_written declared (keyed_contentMembers _), Outcome.ok_bind]
  simp only [readObjectMembers_eq]
  have read := passesDeclared_object.reads declared .object content
  refine (read.bind_eq fun parts => parts.finish declaration).trans ?_
  rw [ObjectParts.finish, build_of_soundParts parts]
  rfl

end Contents

/-! ## Nodes -/

/-- Members that do not belong to a declaration. -/
def Undeclared (members : List (String × Value)) : Prop :=
  ∀ member ∈ members, member.1 ∉ DeclarationParts.fields

theorem undeclared_kindMember_cons (node : Node) :
    Undeclared (kindMember node.kind :: contentMembers node) := by
  have undeclared : "type" ∉ DeclarationParts.fields := by decide
  refine List.forall_mem_cons.mpr ⟨undeclared, fun member inside => ?_⟩
  exact (undeclared_of_mem_facetKeys member.1 (keyed_contentMembers node member inside)).1

/-- A node inside another one is read from all of its members. -/
theorem readKeptNode_object
    (declaration : Declaration)
    {rest : List (String × Value)}
    (undeclared : Undeclared rest) :
    readKeptNode (.object (declarationMembers declaration ++ rest)) =
      readFacets declaration (declarationMembers declaration ++ rest) := by
  have declared : Reads DeclarationParts.takeValue {} (declarationMembers declaration)
      (.ofDeclaration declaration) := by
    refine (DeclarationParts.reads_take .kept declaration).congr fun member inside parts => ?_
    rw [DeclarationParts.takeValue,
      if_pos (List.contains_iff_mem.mpr (keyed_declarationMembers declaration member inside))]
  have passed : Reads DeclarationParts.takeValue (.ofDeclaration declaration) rest
      (.ofDeclaration declaration) := by
    refine .skip fun member inside => ?_
    rw [DeclarationParts.takeValue, if_neg fun known =>
      undeclared member inside (List.contains_iff_mem.mp known)]
  rw [readKeptNode, (declared.append passed).bind_eq, DeclarationParts.finish_ofDeclaration]

/-- What was made of a value is the whole value. -/
theorem complete_ofValue (value : Value) : (Draft.ofValue value).complete = .ok value := by
  induction value using Value.inductOn with
  | null | bool | number | string => rfl
  | array items each =>
      have whole : Draft.completeItems (Draft.ofItems items) = .ok items := by
        induction items with
        | nil => rfl
        | cons item rest hypothesis =>
            rw [List.forall_mem_cons] at each
            rw [Draft.ofItems, Draft.completeItems, each.1, hypothesis each.2]
            rfl
      rw [Draft.ofValue, Draft.complete, whole]
      rfl
  | object members each =>
      have whole : Draft.completeMembers (Draft.ofMembers members) = .ok members := by
        induction members with
        | nil => rfl
        | cons member rest hypothesis =>
            rw [List.forall_mem_cons] at each
            rw [Draft.ofMembers, Draft.completeMembers, each.1, hypothesis each.2]
            rfl
      rw [Draft.ofValue, Draft.complete, whole]
      rfl

theorem readText_string (text : String) : readText (.string text) = .ok text := rfl

/-- A node on its own keeps the members that do not belong to its declaration. -/
theorem readNodeMembers_kept
    (origin : Origin)
    (parts : DeclarationParts)
    {members : List (String × Value)}
    (undeclared : Undeclared members) :
    readNodeMembers origin parts (Draft.ofMembers members) = .ok (parts, members) := by
  induction members with
  | nil => rfl
  | cons member rest hypothesis =>
      obtain ⟨key, value⟩ := member
      have fresh := undeclared _ (List.mem_cons_self ..)
      rw [Draft.ofMembers, readNodeMembers, readText_string, Outcome.ok_bind, if_neg
        fun known => fresh (List.contains_iff_mem.mp known), complete_ofValue]
      change (readNodeMembers origin parts (Draft.ofMembers rest) >>= fun result => _) = _
      rw [hypothesis fun member inside => undeclared member (.tail _ inside)]
      rfl

/-- It is read from the members that it keeps. -/
theorem readNode_object
    (origin : Origin)
    (declaration : Declaration)
    {rest : List (String × Value)}
    (undeclared : Undeclared rest) :
    readNode origin (Draft.ofValue (.object (declarationMembers declaration ++ rest))) =
      readFacets declaration rest := by
  have split : ∀ {members : List (String × Value)} {parts next : DeclarationParts},
      Keyed DeclarationParts.fields members →
      Reads (fun parts key value => DeclarationParts.take origin parts key (Draft.ofValue value))
        parts members next →
      readNodeMembers origin parts (Draft.ofMembers (members ++ rest)) = .ok (next, rest) := by
    intro members
    induction members with
    | nil =>
        intro parts next _ reads
        cases reads
        exact readNodeMembers_kept origin _ undeclared
    | cons member others hypothesis =>
        intro parts next declared reads
        obtain ⟨key, value⟩ := member
        rw [keyed_cons] at declared
        obtain ⟨middle, head, later⟩ := Outcome.bind_eq_ok_iff.mp reads
        change DeclarationParts.take origin parts key (Draft.ofValue value) = _ at head
        rw [List.cons_append, Draft.ofMembers, readNodeMembers, readText_string, Outcome.ok_bind,
          if_pos (List.contains_iff_mem.mpr declared.1), head]
        exact hypothesis declared.2 later
  change (readNodeMembers origin {} (Draft.ofMembers _) >>= fun result => _) = _
  rw [split (keyed_declarationMembers declaration) (DeclarationParts.reads_take origin declaration)]
  change readFacets (DeclarationParts.ofDeclaration declaration).finish rest = _
  rw [DeclarationParts.finish_ofDeclaration]

/-- Nodes are read back in a list if each of them is. -/
theorem readKeptNodes_writeNodes
    {nodes : List Node}
    (restored : ∀ node ∈ nodes, readKeptNode (writeNode node) = .ok node) :
    readKeptNodes (.array (writeNodes nodes)) = .ok nodes := by
  rw [readKeptNodes]
  induction nodes with
  | nil => rw [writeNodes, readKeptItems]
  | cons node rest hypothesis =>
      rw [List.forall_mem_cons] at restored
      rw [writeNodes, readKeptItems, restored.1, hypothesis restored.2]
      rfl

/-- A node is read back inside another one if its facets are behind its declaration. -/
theorem readKeptNode_writeNode
    {node : Node}
    (restored : readFacets node.declaration
      (declarationMembers node.declaration ++ kindMember node.kind :: contentMembers node) =
        .ok node) :
    readKeptNode (writeNode node) = .ok node := by
  rw [writeNode_eq, readKeptNode_object node.declaration (undeclared_kindMember_cons node)]
  exact restored

/-- The facets of a sound node are read back behind any members of declarations. -/
theorem readFacets_contentMembers
    {node : Node}
    (sound : node.Sound)
    {before : List (String × Value)}
    (declared : Keyed DeclarationParts.fields before) :
    readFacets node.declaration (before ++ kindMember node.kind :: contentMembers node) =
      .ok node := by
  -- inner nodes keep the members of their declarations in front, the outermost does not
  induction node using Node.inductOn generalizing before with
  | scalar declaration facets => exact readFacets_scalar declared declaration facets
  | array declaration facets element hypothesis =>
      refine readFacets_array declared declaration facets (readKeptNode_writeNode ?_)
      exact hypothesis (Node.sound_array_iff.mp sound) (keyed_declarationMembers _)
  | object declaration facets children hypothesis =>
      obtain ⟨parts, sounds⟩ := Node.sound_object_iff.mp sound
      refine readFacets_object declared declaration parts (readKeptNodes_writeNodes ?_)
      intro child member
      exact readKeptNode_writeNode
        (hypothesis child member (sounds child member) (keyed_declarationMembers _))

/-- A sound node is read back on its own. -/
theorem restores_node
    (origin : Origin)
    {node : Node}
    (sound : node.Sound) :
    Restores (readNode origin) writeNode node := by
  refine ⟨?_, by rw [writeNode_eq]; exact nofun⟩
  rw [writeNode_eq, readNode_object origin node.declaration (undeclared_kindMember_cons node)]
  exact readFacets_contentMembers sound keyed_nil

end Reading
end SchemaCompiler
