import SchemaCompiler.Proofs.Outcome
import SchemaCompiler.Reading.Basic

/-!
# What readers return

A property of all values that a reader returns carries over to the lists, options and maps
read with it, and an invariant that every field of a record keeps holds of the parts of the
whole record.
-/

namespace SchemaCompiler
namespace Reading

open SchemaCompiler.Json (Draft)
open SchemaCompiler.Outcome (bind_eq_ok_iff)

/-- Every value that a reader returns has the property. -/
def Yields (reader : Reader α) (property : α → Prop) : Prop :=
  ∀ ⦃draft value⦄, reader draft = .ok value → property value

namespace Yields

variable {reader : Reader α} {property : α → Prop}

theorem readEach
    (yields : Yields reader property)
    {drafts : List Draft}
    {values : List α}
    (read : readEach reader drafts = .ok values) :
    ∀ value ∈ values, property value := by
  induction drafts generalizing values with
  | nil =>
      cases read
      simp
  | cons first rest hypothesis =>
      obtain ⟨value, head, read⟩ := bind_eq_ok_iff.mp read
      obtain ⟨others, later, same⟩ := bind_eq_ok_iff.mp read
      cases same
      exact List.forall_mem_cons.mpr ⟨yields head, hypothesis later⟩

theorem readList (yields : Yields reader property) :
    Yields (readList reader) fun values => ∀ value ∈ values, property value := by
  intro draft values read
  unfold Reading.readList at read
  split at read
  · exact yields.readEach read
  · cases read
    simp
  · cases read
  · cases read

theorem readOption (yields : Yields reader property) :
    Yields (readOption reader) fun value? => ∀ value ∈ value?, property value := by
  intro draft value? read
  unfold Reading.readOption at read
  split at read
  · cases read
    simp
  · cases read
    simp
  · obtain ⟨value, inner, same⟩ := bind_eq_ok_iff.mp read
    cases same
    simpa using yields inner

theorem readEntries
    (yields : Yields reader property)
    {members : List (Draft × Draft)}
    {entries : List (String × α)}
    (read : readEntries reader members = .ok entries) :
    ∀ entry ∈ entries, property entry.2 := by
  induction members generalizing entries with
  | nil =>
      cases read
      simp
  | cons first rest hypothesis =>
      obtain ⟨name, -, read⟩ := bind_eq_ok_iff.mp read
      obtain ⟨value, head, read⟩ := bind_eq_ok_iff.mp read
      obtain ⟨others, later, same⟩ := bind_eq_ok_iff.mp read
      cases same
      exact List.forall_mem_cons.mpr ⟨yields head, hypothesis later⟩

theorem readMap (yields : Yields reader property) :
    Yields (readMap reader) fun entries => ∀ entry ∈ entries, property entry.2 := by
  intro draft entries read
  unfold Reading.readMap at read
  split at read
  · exact yields.readEntries read
  · cases read
    simp
  · cases read
  · cases read

end Yields

/-- A slot is filled exactly if it is empty and there is a value. -/
theorem fill_eq_ok_iff
    {slot result : Option α}
    {name : String}
    {value : Except ReadError α} :
    fill slot name value = .ok result ↔
      slot = none ∧ ∃ filled, value = .ok filled ∧ some filled = result := by
  cases slot with
  | some _ => simp [fill]
  | none =>
      rw [fill, if_neg (by simp), bind_eq_ok_iff]
      simp [pure, Except.pure]

/-- A slot of some parts is filled exactly if it is empty and there is a value. -/
theorem fill_bind_eq_ok_iff
    {slot : Option α}
    {name : String}
    {value : Except ReadError α}
    {place : Option α → π}
    {next : π} :
    (fill slot name value >>= fun filled => pure (place filled)) = .ok next ↔
      slot = none ∧ ∃ stated, value = .ok stated ∧ place (some stated) = next := by
  simp only [bind_eq_ok_iff, fill_eq_ok_iff]
  constructor
  · rintro ⟨_, ⟨empty, stated, inner, rfl⟩, same⟩
    cases same
    exact ⟨empty, stated, inner, rfl⟩
  · rintro ⟨empty, stated, inner, rfl⟩
    exact ⟨_, ⟨empty, stated, inner, rfl⟩, rfl⟩

/-- Every field keeps what holds of the parts read so far. -/
def Keeps (field : FieldReader π) (invariant : π → Prop) : Prop :=
  ∀ ⦃parts key draft next⦄, invariant parts → field parts key draft = .ok next → invariant next

namespace Keeps

variable {field : FieldReader π} {invariant : π → Prop}

theorem readNamed
    (keeps : Keeps field invariant)
    {parts result : π}
    (given : invariant parts)
    {members : List (Draft × Draft)}
    (read : readNamed field parts members = .ok result) :
    invariant result := by
  induction members generalizing parts with
  | nil =>
      cases read
      exact given
  | cons first rest hypothesis =>
      obtain ⟨name, -, read⟩ := bind_eq_ok_iff.mp read
      obtain ⟨next, head, later⟩ := bind_eq_ok_iff.mp read
      exact hypothesis (keeps given head) later

theorem readPlaced
    (keeps : Keeps field invariant)
    {origin : Origin}
    {fieldCount length : Nat}
    {parts result : π}
    (given : invariant parts)
    {names : List String}
    {drafts : List Draft}
    (read : readPlaced origin field fieldCount length parts names drafts = .ok result) :
    invariant result := by
  induction names generalizing parts drafts with
  | nil =>
      obtain ⟨-, -, same⟩ := bind_eq_ok_iff.mp read
      cases same
      exact given
  | cons name names hypothesis =>
      cases drafts with
      | nil =>
          cases read
          exact given
      | cons first rest =>
          obtain ⟨next, head, later⟩ := bind_eq_ok_iff.mp read
          exact hypothesis (keeps given head) later

theorem readRecord
    (keeps : Keeps field invariant)
    {origin : Origin}
    {expected : String}
    {fields : List String}
    {parts result : π}
    (given : invariant parts)
    {draft : Draft}
    (read : readRecord origin expected fields field parts draft = .ok result) :
    invariant result := by
  unfold Reading.readRecord at read
  split at read
  · exact keeps.readNamed given read
  · cases read
    exact given
  · split at read
    · cases read
    · exact keeps.readPlaced given read
  · cases read
  · cases read
  · cases read

end Keeps

/-- A field that no record knows leaves the parts alone. -/
theorem eq_of_ignoreField
    {parts next : π}
    {draft : Draft}
    (read : ignoreField parts draft = .ok next) :
    next = parts := by
  obtain ⟨-, -, same⟩ := bind_eq_ok_iff.mp read
  cases same
  rfl

end Reading
end SchemaCompiler
