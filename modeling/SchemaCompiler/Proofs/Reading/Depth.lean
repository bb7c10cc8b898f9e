import SchemaCompiler.Proofs.Json.Text
import SchemaCompiler.Proofs.Reading.Records
import SchemaCompiler.Proofs.Writing.Node

/-!
# Values that nest too deep

A value with a part that stands too deep is refused by every reader that looks at the part. So
a written node, function, namespace or document is read only if it does not nest too deep.
-/

namespace SchemaCompiler
namespace Json

namespace Value

theorem depthItems_le_iff
    {items : List Value}
    {bound : Nat} :
    depthItems items ≤ bound ↔ ∀ item ∈ items, item.depth ≤ bound := by
  induction items with
  | nil => simp [depthItems]
  | cons item rest hypothesis =>
      rw [depthItems, Nat.max_le, hypothesis, List.forall_mem_cons]

theorem depthMembers_le_iff
    {members : List (String × Value)}
    {bound : Nat} :
    depthMembers members ≤ bound ↔ ∀ member ∈ members, member.2.depth ≤ bound := by
  induction members with
  | nil => simp [depthMembers]
  | cons member rest hypothesis =>
      rw [depthMembers, Nat.max_le, hypothesis, List.forall_mem_cons]

/-- No array or object of the value stands too deep with `level` of them around it. -/
def Fits (level : Nat) (value : Value) : Prop :=
  value.depth = 0 ∨ level + value.depth ≤ Draft.deepestLevel

/-- The depths of parts are bounded by what is left for them. -/
theorem fits_iff_depth_le
    {level : Nat}
    {value : Value}
    (shallow : level ≤ Draft.deepestLevel) :
    value.Fits level ↔ value.depth ≤ Draft.deepestLevel - level := by
  unfold Fits
  omega

theorem fits_array_iff
    {level : Nat}
    {items : List Value} :
    (array items).Fits level ↔
      level + 1 ≤ Draft.deepestLevel ∧ ∀ item ∈ items, item.Fits (level + 1) := by
  have split : (array items).Fits level ↔ level + 1 ≤ Draft.deepestLevel ∧
      depthItems items ≤ Draft.deepestLevel - (level + 1) := by
    unfold Fits depth
    omega
  rw [split, depthItems_le_iff]
  refine and_congr_right fun shallow => forall₂_congr fun item _ => ?_
  exact (fits_iff_depth_le shallow).symm

theorem fits_object_iff
    {level : Nat}
    {members : List (String × Value)} :
    (object members).Fits level ↔
      level + 1 ≤ Draft.deepestLevel ∧ ∀ member ∈ members, member.2.Fits (level + 1) := by
  have split : (object members).Fits level ↔ level + 1 ≤ Draft.deepestLevel ∧
      depthMembers members ≤ Draft.deepestLevel - (level + 1) := by
    unfold Fits depth
    omega
  rw [split, depthMembers_le_iff]
  refine and_congr_right fun shallow => forall₂_congr fun member _ => ?_
  exact (fits_iff_depth_le shallow).symm

end Value

end Json

namespace Reading

open SchemaCompiler.Json (Draft Value)
open SchemaCompiler.Outcome (bind_eq_ok_iff)
open SchemaCompiler.Schema
open SchemaCompiler.Writing

/-- The reader refuses the value where it stands too deep. -/
def Refuses (reader : Draft → Except ε α) (value : Value) : Prop :=
  ∀ ⦃level result⦄, reader (Draft.ofValueAt level value) = .ok result → value.Fits level

/-- Every field of a record refuses the value of its member where that stands too deep. -/
def RefusesEach (field : FieldReader π) (members : List (String × Value)) : Prop :=
  ∀ member ∈ members, ∀ parts, Refuses (field parts member.1) member.2

namespace Refuses

section Marks

variable {reader : Draft → Except ε α}

theorem of_depth_eq_zero
    {value : Value}
    (flat : value.depth = 0) :
    Refuses reader value :=
  fun _ _ _ => .inl flat

/-- A reader that takes no marked array refuses one if it refuses its items. -/
theorem array
    {items : List Value}
    (deep : ∀ drafts result, reader (.deep (.array drafts)) ≠ .ok result)
    (inside : ∀ ⦃level result⦄, reader (.array (Draft.ofItemsAt level items)) = .ok result →
      ∀ item ∈ items, item.Fits level) :
    Refuses reader (.array items) := by
  intro level result read
  rw [Draft.ofValueAt, Draft.atLevel] at read
  split at read
  · exact absurd read (deep _ _)
  · exact Value.fits_array_iff.mpr ⟨by omega, inside read⟩

/-- A reader that takes no marked object refuses one if it refuses the values of its members. -/
theorem object
    {members : List (String × Value)}
    (deep : ∀ drafts result, reader (.deep (.object drafts)) ≠ .ok result)
    (inside : ∀ ⦃level result⦄, reader (.object (Draft.ofMembersAt level members)) = .ok result →
      ∀ member ∈ members, member.2.Fits level) :
    Refuses reader (.object members) := by
  intro level result read
  rw [Draft.ofValueAt, Draft.atLevel] at read
  split at read
  · exact absurd read (deep _ _)
  · exact Value.fits_object_iff.mpr ⟨by omega, inside read⟩

/-- A value whose draft is complete does not stand too deep. -/
theorem complete (value : Value) : Refuses Draft.complete value := by
  induction value using Value.inductOn with
  | null | bool | number | string => exact .of_depth_eq_zero rfl
  | array items hypothesis =>
      refine .array nofun fun level result whole => ?_
      obtain ⟨wholes, read, -⟩ := bind_eq_ok_iff.mp whole
      clear whole
      induction items generalizing wholes with
      | nil => exact List.forall_mem_nil _
      | cons item rest others =>
          rw [List.forall_mem_cons] at hypothesis ⊢
          obtain ⟨first, head, read⟩ := bind_eq_ok_iff.mp read
          obtain ⟨later, tail, -⟩ := bind_eq_ok_iff.mp read
          exact ⟨hypothesis.1 head, others hypothesis.2 later tail⟩
  | object members hypothesis =>
      refine .object nofun fun level result whole => ?_
      obtain ⟨wholes, read, -⟩ := bind_eq_ok_iff.mp whole
      clear whole
      induction members generalizing wholes with
      | nil => exact List.forall_mem_nil _
      | cons member rest others =>
          rw [List.forall_mem_cons] at hypothesis ⊢
          obtain ⟨name, -, read⟩ := bind_eq_ok_iff.mp read
          obtain ⟨first, head, read⟩ := bind_eq_ok_iff.mp read
          obtain ⟨later, tail, -⟩ := bind_eq_ok_iff.mp read
          exact ⟨hypothesis.1 head, others hypothesis.2 later tail⟩

end Marks

variable {reader : Reader α}

theorem readOption
    {value : Value}
    (refuses : Refuses reader value) :
    Refuses (readOption reader) value := by
  intro level result read
  have inner : value.depth = 0 ∨ Reading.readOption reader (Draft.ofValueAt level value) =
      reader (Draft.ofValueAt level value) >>= fun result => pure (some result) := by
    cases value with
    | null | bool | number | string => exact .inl rfl
    | array | object =>
        rw [Draft.ofValueAt, Draft.atLevel]
        split <;> exact .inr rfl
  rcases inner with flat | same
  · exact .inl flat
  · rw [same] at read
    obtain ⟨result, given, -⟩ := bind_eq_ok_iff.mp read
    exact refuses given

theorem readList
    {items : List Value}
    (each : ∀ item ∈ items, Refuses reader item) :
    Refuses (readList reader) (.array items) := by
  refine .array nofun fun level result read => ?_
  change readEach reader (Draft.ofItemsAt level items) = .ok result at read
  induction items generalizing result with
  | nil => exact List.forall_mem_nil _
  | cons item rest hypothesis =>
      rw [List.forall_mem_cons] at each ⊢
      obtain ⟨value, head, read⟩ := bind_eq_ok_iff.mp read
      obtain ⟨others, later, -⟩ := bind_eq_ok_iff.mp read
      exact ⟨each.1 head, hypothesis each.2 others later⟩

theorem readMap
    {members : List (String × Value)}
    (each : ∀ member ∈ members, Refuses reader member.2) :
    Refuses (readMap reader) (.object members) := by
  refine .object nofun fun level result read => ?_
  change readEntries reader (Draft.ofMembersAt level members) = .ok result at read
  induction members generalizing result with
  | nil => exact List.forall_mem_nil _
  | cons member rest hypothesis =>
      rw [List.forall_mem_cons] at each ⊢
      obtain ⟨name, -, read⟩ := bind_eq_ok_iff.mp read
      obtain ⟨value, head, read⟩ := bind_eq_ok_iff.mp read
      obtain ⟨others, later, -⟩ := bind_eq_ok_iff.mp read
      exact ⟨each.1 head, hypothesis each.2 others later⟩

theorem readRecord
    {origin : Origin}
    {expected : String}
    {fields : List String}
    {field : FieldReader π}
    {parts : π}
    {members : List (String × Value)}
    (each : RefusesEach field members) :
    Refuses (readRecord origin expected fields field parts) (.object members) := by
  refine .object nofun fun level result read => ?_
  change readNamed field parts (Draft.ofMembersAt level members) = .ok result at read
  induction members generalizing parts with
  | nil => exact List.forall_mem_nil _
  | cons member rest hypothesis =>
      obtain ⟨first, others⟩ := List.forall_mem_cons.mp each
      obtain ⟨name, named, read⟩ := bind_eq_ok_iff.mp read
      cases named
      obtain ⟨next, head, later⟩ := bind_eq_ok_iff.mp read
      exact List.forall_mem_cons.mpr ⟨first parts head, hypothesis others later⟩

theorem bind
    {value : Value}
    (refuses : Refuses reader value)
    (next : Draft → α → Except ReadError β) :
    Refuses (fun draft => reader draft >>= next draft) value := by
  intro level result read
  obtain ⟨inner, given, -⟩ := bind_eq_ok_iff.mp read
  exact refuses given

theorem fill
    {value : Value}
    (refuses : Refuses reader value)
    (slot : Option α)
    (name : String)
    (place : Option α → π) :
    Refuses (fun draft => do return place (← fill slot name (reader draft))) value := by
  intro level result read
  obtain ⟨-, stated, given, -⟩ := fill_bind_eq_ok_iff.mp read
  exact refuses given

end Refuses

namespace RefusesEach

variable {field : FieldReader π}

theorem append
    {first second : List (String × Value)}
    (ofFirst : RefusesEach field first)
    (ofSecond : RefusesEach field second) :
    RefusesEach field (first ++ second) :=
  List.forall_mem_append.mpr ⟨ofFirst, ofSecond⟩

/-- Values without parts never stand too deep. -/
theorem of_flat
    {members : List (String × Value)}
    (flat : ∀ member ∈ members, member.2.depth = 0) :
    RefusesEach field members :=
  fun member inside _ => .of_depth_eq_zero (flat member inside)

theorem single
    {key : String}
    {value : Value}
    (refuses : ∀ parts, Refuses (field parts key) value) :
    RefusesEach field [(key, value)] :=
  List.forall_mem_singleton.mpr refuses

theorem option
    {key : String}
    {write : α → Value}
    {value : Option α}
    (refuses : ∀ given ∈ value, ∀ parts, Refuses (field parts key) (write given)) :
    RefusesEach field (optionMember key write value) := by
  cases value with
  | none => exact List.forall_mem_nil _
  | some given => exact single (refuses given rfl)

theorem list
    {key : String}
    {write : α → Value}
    {values : List α}
    (refuses : ∀ parts, Refuses (field parts key) (.array (values.map write))) :
    RefusesEach field (listMember key write values) := by
  unfold listMember
  split
  · exact List.forall_mem_nil _
  · exact single refuses

end RefusesEach

/-! ## Nodes -/

theorem depth_declarationMembers (declaration : Declaration) :
    ∀ member ∈ declarationMembers declaration, member.2.depth = 0 := by
  have option : ∀ {α : Type} {key : String} {write : α → Value} {value : Option α},
      (∀ given, (write given).depth = 0) →
        ∀ member ∈ optionMember key write value, member.2.depth = 0 := by
    intro _ _ _ value flat
    cases value with
    | none => exact List.forall_mem_nil _
    | some given => exact List.forall_mem_singleton.mpr (flat given)
  simp only [declarationMembers, List.forall_mem_append]
  refine ⟨⟨⟨⟨⟨?_, option ?_⟩, option ?_⟩, option ?_⟩, option ?_⟩, ?_⟩
  · simp [Value.depth]
  all_goals simp [Value.depth]

/-- Members that a node keeps do not stand too deep. -/
theorem fits_of_readNodeMembers
    {origin : Origin}
    {level : Nat}
    {members : List (String × Value)}
    {parts : DeclarationParts}
    {result : DeclarationParts × List (String × Value)}
    (read : readNodeMembers origin parts (Draft.ofMembersAt level members) = .ok result) :
    ∀ member ∈ members, member.1 ∉ DeclarationParts.fields → member.2.Fits level := by
  induction members generalizing parts result with
  | nil => exact List.forall_mem_nil _
  | cons member rest hypothesis =>
      obtain ⟨key, value⟩ := member
      rw [Draft.ofMembersAt, readNodeMembers, readText_string, Outcome.ok_bind] at read
      split at read
      next declared =>
        obtain ⟨next, -, later⟩ := bind_eq_ok_iff.mp read
        refine List.forall_mem_cons.mpr ⟨fun fresh => ?_, hypothesis later⟩
        exact absurd (List.contains_iff_mem.mp declared) fresh
      next =>
        obtain ⟨whole, kept, read⟩ := bind_eq_ok_iff.mp read
        obtain ⟨later, others, -⟩ := bind_eq_ok_iff.mp read
        refine List.forall_mem_cons.mpr ⟨fun _ => ?_, hypothesis others⟩
        cases complete : (Draft.ofValueAt level value).complete with
        | ok => exact Refuses.complete value complete
        | error =>
            rw [complete] at kept
            cases kept

theorem refuses_readNode_object
    (origin : Origin)
    (declaration : Declaration)
    {rest : List (String × Value)}
    (undeclared : Undeclared rest) :
    Refuses (readNode origin) (.object (declarationMembers declaration ++ rest)) := by
  refine .object nofun fun level result read => ?_
  change (readNodeMembers origin {} _ >>= _) = _ at read
  obtain ⟨parts, kept, -⟩ := bind_eq_ok_iff.mp read
  have inside := fits_of_readNodeMembers kept
  rw [List.forall_mem_append] at inside ⊢
  -- what declares a node is flat; all else is kept, so that its depth counts
  refine ⟨?_, fun member other => inside.2 member other (undeclared member other)⟩
  exact fun member declared => .inl (depth_declarationMembers declaration member declared)

theorem refuses_readNode
    (origin : Origin)
    (node : Node) :
    Refuses (readNode origin) (writeNode node) := by
  rw [writeNode_eq]
  exact refuses_readNode_object origin node.declaration (undeclared_kindMember_cons node)

theorem refuses_readNodes
    (origin : Origin)
    (nodes : List Node) :
    Refuses (readList (readNode origin)) (.array (nodes.map writeNode)) :=
  .readList (List.forall_mem_map.mpr fun node _ => refuses_readNode origin node)

/-! ## Documents -/

theorem refuses_readFunction
    (origin : Origin)
    (function : Schema.Function) :
    Refuses (readFunction origin) (writeFunction function) := by
  refine .bind (.readRecord ?_) _
  refine .append (.append (.append (.append (.append (.append ?_ ?_) ?_) ?_) ?_) ?_) ?_
  · exact .of_flat (by simp [Value.depth])
  · exact .option fun method _ parts => .of_depth_eq_zero rfl
  · exact .of_flat (by simp [Value.depth])
  · exact .list fun parts => (refuses_readNodes origin _).fill ..
  · exact .list fun parts => (refuses_readNodes origin _).fill ..
  · exact .option fun node _ parts => (refuses_readNode origin node).readOption.fill ..
  · exact .option fun node _ parts => (refuses_readNode origin node).readOption.fill ..

theorem refuses_readNamespace
    (origin : Origin)
    (managed : Namespace) :
    Refuses (readNamespace origin) (writeNamespace managed) := by
  refine .bind (.readRecord ?_) _
  refine .append (.append (.append (.append (.append (.append (.append ?_ ?_) ?_) ?_) ?_) ?_) ?_) ?_
  · exact .of_flat (by simp [Value.depth])
  · exact .option fun name _ parts => .of_depth_eq_zero rfl
  · exact .option fun function _ parts => (refuses_readFunction origin function).readOption.fill ..
  · exact .option fun function _ parts => (refuses_readFunction origin function).readOption.fill ..
  · exact .option fun function _ parts => (refuses_readFunction origin function).readOption.fill ..
  · exact .option fun function _ parts => (refuses_readFunction origin function).readOption.fill ..
  · exact .option fun function _ parts => (refuses_readFunction origin function).readOption.fill ..
  · split
    · exact List.forall_mem_nil _
    · refine .single fun parts => .fill (.readMap ?_) ..
      exact List.forall_mem_map.mpr fun entry _ => refuses_readFunction origin entry.2

theorem refuses_readDocument
    (origin : Origin)
    (document : Document) :
    Refuses (readDocument origin) (writeDocument document) := by
  refine .bind (.readRecord (.append (.single fun parts => ?_) (.single fun parts => ?_))) _
  · refine .fill (.readMap ?_) ..
    exact List.forall_mem_map.mpr fun entry _ => refuses_readNode origin entry.2
  · refine .fill (.readList ?_) ..
    exact List.forall_mem_map.mpr fun managed _ => refuses_readNamespace origin managed

end Reading
end SchemaCompiler
