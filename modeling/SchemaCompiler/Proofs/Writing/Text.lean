import SchemaCompiler.Proofs.Reading.Depth
import SchemaCompiler.Proofs.Schema.Validation
import SchemaCompiler.Proofs.Writing.Document

/-!
# Documents survive their text

The numbers of a written document are integers of 64 bits and its floating point numbers. So a
valid document is read back from the text of its JSON form, unless the form nests too deep.
-/

namespace SchemaCompiler
namespace Writing

open SchemaCompiler.Json (Draft Value)
open SchemaCompiler.Number (Binary64)
open SchemaCompiler.Reading
open SchemaCompiler.Schema

/-- Every number of the value reads back from its text. -/
def NumbersRoundTrip (value : Value) : Prop := ∀ number ∈ value.numbers, number.RoundTrips

/-- The floating point number reads back from its text. -/
def FloatRoundTrips (number : Binary64) : Prop := (Json.Number.float number).RoundTrips

/-- So does every number of the values of members. -/
def MembersRoundTrip (members : List (String × Value)) : Prop :=
  ∀ member ∈ members, NumbersRoundTrip member.2

@[simp] theorem numbersRoundTrip_object_iff
    {members : List (String × Value)} :
    NumbersRoundTrip (.object members) ↔ MembersRoundTrip members := by
  simp only [NumbersRoundTrip, MembersRoundTrip, Value.numbers, Value.numbersMembers_eq_flatMap,
    List.forall_mem_flatMap]

@[simp] theorem numbersRoundTrip_array_iff
    {items : List Value} :
    NumbersRoundTrip (.array items) ↔ ∀ item ∈ items, NumbersRoundTrip item := by
  simp only [NumbersRoundTrip, Value.numbers, Value.numbersItems_eq_flatMap,
    List.forall_mem_flatMap]

@[simp] theorem membersRoundTrip_nil : MembersRoundTrip [] := List.forall_mem_nil _

@[simp] theorem membersRoundTrip_cons_iff
    {key : String}
    {value : Value}
    {rest : List (String × Value)} :
    MembersRoundTrip ((key, value) :: rest) ↔ NumbersRoundTrip value ∧ MembersRoundTrip rest :=
  List.forall_mem_cons

@[simp] theorem membersRoundTrip_append_iff
    {first second : List (String × Value)} :
    MembersRoundTrip (first ++ second) ↔ MembersRoundTrip first ∧ MembersRoundTrip second :=
  List.forall_mem_append

@[simp] theorem membersRoundTrip_optionMember_iff
    {key : String}
    {write : α → Value}
    {value : Option α} :
    MembersRoundTrip (optionMember key write value) ↔
      ∀ given ∈ value, NumbersRoundTrip (write given) := by
  cases value <;> simp [optionMember]

@[simp] theorem membersRoundTrip_listMember_iff
    {key : String}
    {write : α → Value}
    {values : List α} :
    MembersRoundTrip (listMember key write values) ↔
      ∀ value ∈ values, NumbersRoundTrip (write value) := by
  cases values <;> simp [listMember]

@[simp] theorem numbersRoundTrip_string (text : String) : NumbersRoundTrip (.string text) :=
  List.forall_mem_nil _

@[simp] theorem numbersRoundTrip_bool (truth : Bool) : NumbersRoundTrip (.bool truth) :=
  List.forall_mem_nil _

@[simp] theorem numbersRoundTrip_writeSigned (value : Int64) :
    NumbersRoundTrip (writeSigned value) := by
  have low : -2 ^ 63 ≤ value.toInt := value.le_toInt
  have high : value.toInt < 2 ^ 63 := value.toInt_lt
  have least : -(Nat.pow 2 63 : Int) = -2 ^ 63 := by decide
  have most : (2 ^ 63 : Int) ≤ (Nat.pow 2 64 : Int) := by decide
  exact List.forall_mem_singleton.mpr
    (Json.roundTrips_integer (least ▸ low) (Int.lt_of_lt_of_le high most))

@[simp] theorem numbersRoundTrip_writeUnsigned (value : UInt64) :
    NumbersRoundTrip (writeUnsigned value) := by
  have low : -(Nat.pow 2 63 : Int) ≤ 0 := by decide
  have high : (value.toNat : Int) < (Nat.pow 2 64 : Int) := Int.ofNat_lt.mpr value.toNat_lt
  exact List.forall_mem_singleton.mpr
    (Json.roundTrips_integer (Int.le_trans low (Int.natCast_nonneg _)) high)

@[simp] theorem numbersRoundTrip_writeFloat_iff
    {value : Binary64} :
    NumbersRoundTrip (writeFloat value) ↔ FloatRoundTrips value :=
  List.forall_mem_singleton

@[simp] theorem numbersRoundTrip_writeTexts (texts : List String) :
    NumbersRoundTrip (writeTexts texts) := by
  simp [writeTexts]

/-- Numbers of the members of a declaration. -/
@[simp] theorem membersRoundTrip_declarationMembers (declaration : Declaration) :
    MembersRoundTrip (declarationMembers declaration) := by
  simp [declarationMembers]

@[simp] theorem numbersRoundTrip_writeHashing (profile : HashProfile) :
    NumbersRoundTrip (writeHashing profile) := by
  cases profile <;> simp [writeHashing]

@[simp] theorem numbersRoundTrip_writePatch (patch : ValuesPatch) :
    NumbersRoundTrip (writePatch patch) := by
  simp [writePatch]

theorem membersRoundTrip_numberMembers
    {write : α → Value}
    {facets : NumberFacets α}
    (each : ∀ number ∈ facets.numbers, NumbersRoundTrip (write number)) :
    MembersRoundTrip (numberMembers write facets) := by
  simp only [NumberFacets.numbers, List.forall_mem_append, Option.mem_toList] at each
  simpa [numberMembers, and_assoc] using each

theorem membersRoundTrip_scalarMembers
    {declaration : Declaration}
    {facets : Scalar}
    (floats : ∀ number ∈ (Node.scalar declaration facets).floats, FloatRoundTrips number) :
    MembersRoundTrip (scalarMembers facets) := by
  cases facets with
  | bool facets => simp [scalarMembers, boolMembers]
  | int facets => exact membersRoundTrip_numberMembers fun number _ => by simp
  | float facets =>
      exact membersRoundTrip_numberMembers fun number member =>
        numbersRoundTrip_writeFloat_iff.mpr (floats number member)
  | string facets =>
      simp only [scalarMembers, stringMembers]
      split <;> simp

theorem writeNodes_eq_map (nodes : List Node) : writeNodes nodes = nodes.map writeNode := by
  induction nodes with
  | nil => rfl
  | cons node rest hypothesis => rw [writeNodes, hypothesis, List.map_cons]

/-- Numbers of a written node. -/
theorem numbersRoundTrip_writeNode
    {node : Node}
    (floats : ∀ number ∈ node.floats, FloatRoundTrips number) :
    NumbersRoundTrip (writeNode node) := by
  induction node using Node.inductOn with
  | scalar declaration facets =>
      have members := membersRoundTrip_scalarMembers floats
      simpa [writeNode, kindMember] using members
  | array declaration facets element hypothesis =>
      have element := hypothesis floats
      simpa [writeNode, kindMember, arrayMembers] using element
  | object declaration facets children hypothesis =>
      have each : ∀ child ∈ children, NumbersRoundTrip (writeNode child) := by
        intro child member
        refine hypothesis child member fun number inside => floats number ?_
        rw [Node.floats]
        exact Node.mem_floatsAll.mpr ⟨child, member, inside⟩
      simpa [writeNode, kindMember, objectMembers, writeNodes_eq_map] using each

/-- Numbers of a written function. -/
theorem numbersRoundTrip_writeFunction
    {function : Schema.Function}
    (floats : ∀ node ∈ function.nodes, ∀ number ∈ node.floats, FloatRoundTrips number) :
    NumbersRoundTrip (writeFunction function) := by
  have each : ∀ node ∈ function.nodes, NumbersRoundTrip (writeNode node) := fun node member =>
    numbersRoundTrip_writeNode (floats node member)
  rw [Function.forall_mem_nodes_iff] at each
  simpa [writeFunction, and_assoc] using each

/-- Numbers of a written namespace. -/
theorem numbersRoundTrip_writeNamespace
    {managed : Namespace}
    (floats : ∀ entry ∈ managed.functions, ∀ node ∈ entry.2.nodes, ∀ number ∈ node.floats,
      FloatRoundTrips number) :
    NumbersRoundTrip (writeNamespace managed) := by
  have each : managed.All fun function => NumbersRoundTrip (writeFunction function) :=
    Namespace.all_iff.mpr fun entry member => numbersRoundTrip_writeFunction (floats entry member)
  obtain ⟨create, read, update, delete, list, others⟩ := each
  have table : NumbersRoundTrip (writeTable writeFunction managed.others) :=
    numbersRoundTrip_object_iff.mpr (List.forall_mem_map.mpr others)
  unfold writeNamespace
  split <;> simp_all

/-- Numbers of a written document. -/
theorem numbersRoundTrip_writeDocument
    {document : Document}
    (floats : ∀ number ∈ document.floats, FloatRoundTrips number) :
    NumbersRoundTrip (writeDocument document) := by
  simp only [Document.floats, Document.nodes, List.forall_mem_flatMap, List.forall_mem_append,
    List.forall_mem_map] at floats
  have schemas : NumbersRoundTrip (writeTable writeNode document.schemas) :=
    numbersRoundTrip_object_iff.mpr (List.forall_mem_map.mpr fun entry member =>
      numbersRoundTrip_writeNode (floats.1 entry member))
  have namespaces : ∀ managed ∈ document.namespaces, NumbersRoundTrip (writeNamespace managed) :=
    fun managed member => numbersRoundTrip_writeNamespace (floats.2 managed member)
  simpa [writeDocument, schemas] using namespaces

/-- Reading the text of a value is reading the value, marked where it is too deep. -/
theorem ofJsonText_text
    {value : Value}
    (trips : NumbersRoundTrip value)
    (reader : Origin → Reader α) :
    ofJsonText reader value.text = reader .text (Draft.ofValueAt 0 value) := by
  rw [ofJsonText, Draft.read_text trips]
  exact bind_pure _

/-- The text of a sound document is read as the document exactly if it does not nest too deep. -/
theorem ofJsonText_writeDocument_iff
    {document : Document}
    (sound : document.Sound)
    (floats : ∀ number ∈ document.floats, FloatRoundTrips number) :
    ofJsonText readDocument (writeDocument document).text = .ok document ↔
      (writeDocument document).depth ≤ Draft.deepestLevel := by
  rw [ofJsonText_text (numbersRoundTrip_writeDocument floats)]
  constructor
  · intro given
    have fits := refuses_readDocument .text document given
    unfold Value.Fits at fits
    omega
  · intro shallow
    rw [Draft.ofValueAt_of_shallow (by omega)]
    exact readDocument_writeDocument .text sound

/-- A valid document that was loaded and perhaps normalized is read back from its JSON form,
and from the text of the form exactly if that does not nest too deep. -/
theorem document_survives_serialisation
    {document written : Document}
    (loaded : document.Loaded)
    (normalized : written = document ∨ written = document.normalize)
    (valid : written.validate = .ok ()) :
    (∀ origin, readDocument origin (Draft.ofValue (writeDocument written)) = .ok written) ∧
      ((∀ number ∈ written.floats, number.isFinite → FloatRoundTrips number) →
        (ofJsonText readDocument (writeDocument written).text = .ok written ↔
          (writeDocument written).depth ≤ Draft.deepestLevel)) := by
  have sound : written.Sound := by
    rcases normalized with rfl | rfl
    · exact loaded.sound
    · exact loaded.sound.normalize
  obtain ⟨finite, -⟩ := (Document.decides_validate sound).eq_ok_iff.mp valid
  exact ⟨fun origin => readDocument_writeDocument origin sound, fun floats =>
    ofJsonText_writeDocument_iff sound fun number member =>
      floats number member (finite number member)⟩

/-- A document with one floating point number. -/
def limitDocument : Document where
  schemas := .ofList [("limit", .scalar {} (.float { max := some (Binary64.ofInt 1) }))]

theorem floatRoundTrips_one : FloatRoundTrips (Binary64.ofInt 1) := by
  have text : (Json.Number.float (Binary64.ofInt 1)).text = "1.0" := by decide
  have read : Json.readNumber false ['1', '.', '0'] = .ok (.float (Binary64.ofInt 1), []) := by
    change (Json.floatOf false 10 (-1) >>= fun value => _) = _
    rw [Json.floatOf, Json.scaled]
    rfl
  rw [FloatRoundTrips, Json.Number.RoundTrips, text]
  change Draft.readNumberDraft false ['1', '.', '0'] = _
  rw [Draft.readNumberDraft, read]
  rfl

theorem document_survives_serialisation_limit :
    limitDocument.validate = .ok () ∧
      readDocument .value (Draft.ofValue (writeDocument limitDocument)) = .ok limitDocument ∧
      ofJsonText readDocument (writeDocument limitDocument).text = .ok limitDocument := by
  have sound : limitDocument.Sound :=
    ⟨List.forall_mem_singleton.mpr (Node.sound_scalar _ _), List.forall_mem_nil _⟩
  have loaded : limitDocument.Loaded := .read (readDocument_writeDocument .value sound)
  have finite : ∀ number ∈ limitDocument.floats, number.isFinite :=
    List.forall_mem_singleton.mpr rfl
  have valid : limitDocument.validate = .ok () :=
    (Document.decides_validate sound).eq_ok_iff.mpr ⟨finite, List.forall_mem_nil _⟩
  obtain ⟨value, text⟩ := document_survives_serialisation loaded (.inl rfl) valid
  have floats : ∀ number ∈ limitDocument.floats, number.isFinite → FloatRoundTrips number :=
    List.forall_mem_singleton.mpr fun _ => floatRoundTrips_one
  exact ⟨valid, value .value, (text floats).mpr (by decide)⟩

/-- Members of arrays inside one another around an object, which state nothing but types. -/
def towerMembers : Nat → List (String × Value)
  | 0 => [("type", .string "object")]
  | height + 1 => [("type", .string "array"), ("element", .object (towerMembers height))]

/-- The node of a tower. -/
def towerNode : Nat → Node
  | 0 => .object {} {} []
  | height + 1 => .array {} {} (towerNode height)

/-- A document with a tower for its only entry. -/
def towerDocument (height : Nat) : Document where
  schemas := .ofList [("deep", towerNode height)]

/-- A value that is read as the document. -/
def towerValue (height : Nat) : Value :=
  .object [("schemas", .object [("deep", .object (towerMembers height))])]

theorem undeclared_towerMembers (height : Nat) : Undeclared (towerMembers height) := by
  cases height <;> simp [towerMembers, Undeclared, DeclarationParts.fields]

theorem readKeptNode_tower (height : Nat) :
    readKeptNode (.object (towerMembers height)) = readFacets {} (towerMembers height) := by
  have passed : Reads DeclarationParts.takeValue {} (towerMembers height) {} :=
    .skip fun member inside => by
      rw [DeclarationParts.takeValue, if_neg fun known =>
        undeclared_towerMembers height member inside (List.contains_iff_mem.mp known)]
  rw [readKeptNode, passed.bind_eq]
  rfl

theorem readFacets_tower (height : Nat) :
    readFacets {} (towerMembers height) = .ok (towerNode height) := by
  induction height with
  | zero =>
      rw [readFacets]
      change (readObjectMembers {} (towerMembers 0) >>= fun parts => parts.finish {}) = _
      rw [readObjectMembers_eq]
      rfl
  | succ height hypothesis =>
      have element : takeArrayMember {} "element" (.object (towerMembers height)) =
          .ok { element := some (towerNode height) } := by
        rw [takeArrayMember, if_pos rfl, readKeptNode_tower, hypothesis]
        rfl
      rw [readFacets]
      change (readArrayMembers {} (towerMembers (height + 1)) >>= fun parts => parts.finish {}) = _
      rw [readArrayMembers_eq]
      change (takeArrayMember {} "element" _ >>= fun next => Except.ok next) >>= _ = _
      rw [element]
      rfl

theorem readDocument_tower (height : Nat) :
    readDocument .text (Draft.ofValue (towerValue height)) = .ok (towerDocument height) := by
  have node : readNode .text (Draft.ofValue (.object (towerMembers height))) =
      .ok (towerNode height) := by
    change (readNodeMembers .text {} (Draft.ofMembers (towerMembers height)) >>= fun _ => _) = _
    rw [readNodeMembers_kept .text {} (undeclared_towerMembers height)]
    exact readFacets_tower height
  have schemas : DocumentParts.take .text {} "schemas"
      (Draft.ofValue (.object [("deep", .object (towerMembers height))])) =
        .ok { schemas := some [("deep", towerNode height)] } := by
    change ((((readNode .text (Draft.ofValue (.object (towerMembers height)))) >>= fun _ => _)
      >>= fun _ => _) >>= fun _ => _) = _
    rw [node]
    rfl
  change ((DocumentParts.take .text {} "schemas" _ >>= fun next => Except.ok next)
    >>= fun _ => _) = _
  rw [schemas]
  rfl

theorem depthMembers_tower (height : Nat) :
    Value.depthMembers (towerMembers height) = height := by
  induction height with
  | zero => rfl
  | succ height hypothesis => simp [towerMembers, Value.depth, Value.depthMembers, hypothesis]

/-- The written tower is deeper by the list of the children of its object. -/
theorem depth_writeNode_tower (height : Nat) :
    (writeNode (towerNode height)).depth = height + 2 := by
  induction height with
  | zero => rfl
  | succ height hypothesis =>
      simp [towerNode, writeNode, Value.depth, Value.depthMembers, declarationMembers,
        optionMember, arrayMembers, kindMember, hypothesis]

theorem depth_writeDocument_tower (height : Nat) :
    (writeDocument (towerDocument height)).depth = height + 4 := by
  have schemas : (writeTable writeNode (towerDocument height).schemas).depth = height + 3 := by
    change max (writeNode (towerNode height)).depth 0 + 1 = _
    rw [depth_writeNode_tower, Nat.max_zero]
  rw [writeDocument, Value.depth, Value.depthMembers, schemas]
  change max (height + 3) (max 1 0) + 1 = _
  omega

theorem floats_tower (height : Nat) : (towerNode height).floats = [] := by
  induction height with
  | zero => rfl
  | succ height hypothesis => exact hypothesis

theorem numbersMembers_tower (height : Nat) :
    Value.numbersMembers (towerMembers height) = [] := by
  induction height with
  | zero => rfl
  | succ height hypothesis =>
      simp [towerMembers, Value.numbers, Value.numbersMembers, hypothesis]

/-- A document that is read from a text and valid need not be read from its own text. -/
theorem not_survives_tower :
    ofJsonText readDocument (towerValue 124).text = .ok (towerDocument 124) ∧
      (towerDocument 124).validate = .ok () ∧
      (towerDocument 124).floats = [] ∧
      ofJsonText readDocument (writeDocument (towerDocument 124)).text ≠
        .ok (towerDocument 124) := by
  have shallow : 0 + (towerValue 124).depth ≤ Draft.deepestLevel := by
    simp [towerValue, Value.depth, Value.depthMembers, depthMembers_tower, Draft.deepestLevel]
  have trips : NumbersRoundTrip (towerValue 124) := by
    simp [NumbersRoundTrip, towerValue, Value.numbers, Value.numbersMembers, numbersMembers_tower]
  have sound := Document.Loaded.sound (.read (readDocument_tower 124))
  have floats : (towerDocument 124).floats = [] :=
    (List.append_nil _).trans (floats_tower 124)
  have deep : ¬(writeDocument (towerDocument 124)).depth ≤ Draft.deepestLevel := by
    rw [depth_writeDocument_tower]
    decide
  refine ⟨?_, ?_, floats, ?_⟩
  · rw [ofJsonText_text trips, Draft.ofValueAt_of_shallow shallow]
    exact readDocument_tower 124
  · refine (Document.decides_validate sound).eq_ok_iff.mpr ⟨?_, List.forall_mem_nil _⟩
    rw [floats]
    exact List.forall_mem_nil _
  · intro survives
    refine deep ((ofJsonText_writeDocument_iff sound ?_).mp survives)
    rw [floats]
    exact List.forall_mem_nil _

end Writing
end SchemaCompiler
