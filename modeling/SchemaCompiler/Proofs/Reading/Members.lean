import SchemaCompiler.Proofs.Reading.Records
import SchemaCompiler.Reading.Document
import SchemaCompiler.Writing.Document

/-!
# Reading what was written

A value that was written is read back by its reader, and so are options, lists and records of
such values. Members are read one after another, so it is enough to follow the parts of a
record from one group of members to the next.
-/

namespace SchemaCompiler
namespace Reading

open SchemaCompiler.Json (Draft Value)
open SchemaCompiler.Writing

/-- A reader gets a value back from what was written for it, which is not null. -/
structure Restores (reader : Reader α) (write : α → Value) (value : α) : Prop where
  read : reader (Draft.ofValue (write value)) = .ok value
  present : write value ≠ .null

namespace Restores

variable {reader : Reader α} {write : α → Value}

/-- A value that is written is there when it may be missing. -/
theorem readOption
    {value : α}
    (restores : Restores reader write value) :
    readOption reader (Draft.ofValue (write value)) = .ok (some value) := by
  have read := restores.read
  have present := restores.present
  revert read present
  cases write value with
  | null => exact fun _ present => absurd rfl present
  | bool | number | string | array | object =>
      intro read _
      exact congrArg (· >>= fun value => pure (some value)) read

/-- A list of values that are read back is read back. -/
theorem readList
    {values : List α}
    (restores : ∀ value ∈ values, Restores reader write value) :
    Restores (readList reader) (fun values => .array (values.map write)) values := by
  refine ⟨?_, by simp⟩
  change readEach reader (Draft.ofItems (values.map write)) = .ok values
  induction values with
  | nil => rfl
  | cons value rest hypothesis =>
      rw [List.forall_mem_cons] at restores
      rw [List.map_cons, Draft.ofItems, readEach, restores.1.read, hypothesis restores.2]
      rfl

/-- So are the entries of a table. -/
theorem readMap
    {table : Order.Table α}
    (restores : ∀ entry ∈ table.entries, Restores reader write entry.2) :
    readMap reader (Draft.ofValue (writeTable write table)) = .ok table.entries := by
  change readEntries reader (Draft.ofMembers (table.entries.map _)) = .ok table.entries
  generalize table.entries = entries at restores ⊢
  induction entries with
  | nil => rfl
  | cons entry rest hypothesis =>
      rw [List.forall_mem_cons] at restores
      rw [List.map_cons, Draft.ofMembers, readEntries, restores.1.read, hypothesis restores.2]
      rfl

end Restores

/-! ## Values of one kind -/

theorem restores_text (value : String) : Restores readText .string value :=
  ⟨rfl, by simp⟩

theorem restores_texts (values : List String) :
    Restores (readList readText) writeTexts values :=
  .readList fun value _ => restores_text value

theorem restores_bool (value : Bool) : Restores readBool .bool value :=
  ⟨rfl, by simp⟩

theorem restores_signed (value : Int64) : Restores readSigned writeSigned value := by
  refine ⟨?_, by simp [writeSigned, Value.integer]⟩
  have least := Int64.le_toInt value
  have greatest := Int64.toInt_lt value
  simp only [writeSigned, Value.integer, Draft.ofValue, readSigned, numberOf?]
  rw [if_pos ⟨by simpa using least, by simpa using greatest⟩, Int64.ofInt_toInt]

theorem restores_unsigned
    (expected : String)
    (value : UInt64) :
    Restores (readUnsigned expected) writeUnsigned value := by
  refine ⟨?_, by simp [writeUnsigned, Value.natural, Value.integer]⟩
  have least : (0 : Int) ≤ value.toNat := Int.natCast_nonneg _
  have greatest : (value.toNat : Int) < (Nat.pow 2 64 : Int) := by
    have := value.toNat_lt
    exact_mod_cast this
  simp only [writeUnsigned, Value.natural, Value.integer, Draft.ofValue, readUnsigned, numberOf?]
  rw [if_pos ⟨least, greatest⟩, Int.toNat_natCast, UInt64.ofNat_toNat]

theorem restores_float (value : SchemaCompiler.Number.Binary64) :
    Restores readFloat writeFloat value :=
  ⟨rfl, by simp [writeFloat]⟩

/-! ## Records -/

/-- Reading some members takes the parts of a record from one state to the next. -/
def Reads (member : MemberReader π) (parts : π) (members : List (String × Value)) (next : π) :
    Prop :=
  readMembers member parts members = .ok next

namespace Reads

variable {member : MemberReader π} {parts next last : π}

theorem append
    {before after : List (String × Value)}
    (first : Reads member parts before next)
    (second : Reads member next after last) :
    Reads member parts (before ++ after) last := by
  unfold Reads at first second ⊢
  induction before generalizing parts with
  | nil =>
      cases first
      exact second
  | cons stated rest hypothesis =>
      obtain ⟨middle, head, later⟩ := Outcome.bind_eq_ok_iff.mp first
      rw [List.cons_append, readMembers, head]
      exact hypothesis later

theorem cons
    {stated : String × Value}
    {after : List (String × Value)}
    (first : Reads member parts [stated] next)
    (second : Reads member next after last) :
    Reads member parts (stated :: after) last :=
  first.append second

/-- The state that members lead to may be given in another form. -/
theorem restate
    {members : List (String × Value)}
    (reads : Reads member parts members next)
    (same : next = last) :
    Reads member parts members last :=
  same ▸ reads

/-- What follows the members goes on from the state they lead to. -/
theorem bind_eq
    {members : List (String × Value)}
    (reads : Reads member parts members next)
    (follow : π → Except ReadError α) :
    (readMembers member parts members >>= follow) = follow next :=
  congrArg (· >>= follow) reads

/-- Members that are passed over leave the parts alone. -/
theorem skip
    {members : List (String × Value)}
    (passed : ∀ stated ∈ members, member parts stated.1 stated.2 = .ok parts) :
    Reads member parts members parts := by
  induction members with
  | nil => rfl
  | cons stated rest hypothesis =>
      rw [List.forall_mem_cons] at passed
      rw [Reads, readMembers, passed.1]
      exact hypothesis passed.2

/-- Ways to take members that agree on them lead to the same state. -/
theorem congr
    {other : MemberReader π}
    {members : List (String × Value)}
    (reads : Reads member parts members next)
    (same : ∀ stated ∈ members, ∀ parts,
      other parts stated.1 stated.2 = member parts stated.1 stated.2) :
    Reads other parts members next := by
  unfold Reads at reads ⊢
  induction members generalizing parts with
  | nil => exact reads
  | cons stated rest hypothesis =>
      rw [List.forall_mem_cons] at same
      obtain ⟨middle, head, later⟩ := Outcome.bind_eq_ok_iff.mp reads
      rw [readMembers, same.1, head]
      exact hypothesis later same.2

variable {key : String} {reader : Reader α} {write : α → Value}

/-- A member that is always written fills its slot. -/
theorem field
    (set : π → Option α → π)
    (take : ∀ value, member parts key value =
      fill none key (reader (Draft.ofValue value)) >>= fun filled => pure (set parts filled))
    {value : α}
    (restores : Restores reader write value) :
    Reads member parts [(key, write value)] (set parts (some value)) := by
  rw [Reads, readMembers, take, restores.read]
  rfl

/-- A member for an option fills its slot if there is a value. -/
theorem option
    (set : π → Option (Option α) → π)
    (unset : set parts none = parts)
    (take : ∀ value, member parts key value =
      fill none key (readOption reader (Draft.ofValue value)) >>= fun filled =>
        pure (set parts filled))
    {stated : Option α}
    (restores : ∀ value ∈ stated, Restores reader write value) :
    Reads member parts (optionMember key write stated) (set parts (stated.map some)) := by
  cases stated with
  | none =>
      rw [Option.map_none, unset]
      rfl
  | some value =>
      change (member parts key (write value) >>= fun next => _) = _
      rw [take, (restores value rfl).readOption]
      rfl

/-- A member for a list fills its slot unless the list is empty. -/
theorem list
    (set : π → Option (List α) → π)
    (unset : set parts none = parts)
    (take : ∀ value, member parts key value =
      fill none key (readList reader (Draft.ofValue value)) >>= fun filled =>
        pure (set parts filled))
    {values : List α}
    (restores : ∀ value ∈ values, Restores reader write value) :
    Reads member parts (listMember key write values)
      (set parts (if values.isEmpty then none else some values)) := by
  unfold listMember
  split
  · rw [unset]
    rfl
  · change (member parts key _ >>= fun next => _) = _
    rw [take, (Restores.readList restores).read]
    rfl

end Reads

/-- The fields of a record are read like members that were kept. -/
theorem readNamed_ofMembers
    (field : FieldReader π)
    (parts : π)
    (members : List (String × Value)) :
    readNamed field parts (Draft.ofMembers members) =
      readMembers (fun parts key value => field parts key (Draft.ofValue value)) parts members := by
  induction members generalizing parts with
  | nil => rfl
  | cons stated rest hypothesis =>
      obtain ⟨key, value⟩ := stated
      rw [Draft.ofMembers, readNamed, readMembers]
      exact congrArg (_ >>= ·) (funext hypothesis)

/-- A record is read back from its members. -/
theorem Reads.record
    {field : FieldReader π}
    {parts next : π}
    {members : List (String × Value)}
    (reads : Reads (fun parts key value => field parts key (Draft.ofValue value)) parts members
      next)
    (origin : Origin)
    (expected : String)
    (fields : List String) :
    readRecord origin expected fields field parts (Draft.ofValue (.object members)) = .ok next :=
  (readNamed_ofMembers field parts members).trans reads

/-- What an option leaves in its slot is the option. -/
@[simp] theorem join_map_some (value : Option α) : (value.map some).join = value := by
  cases value <;> rfl

/-- What a list leaves in its slot is the list. -/
@[simp] theorem getD_of_eq_nil (values : List α) [Decidable (values = [])] :
    (if values = [] then none else some values).getD [] = values := by
  by_cases empty : values = [] <;> simp [empty]

end Reading
end SchemaCompiler
