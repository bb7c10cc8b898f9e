import SchemaCompiler.Proofs.Generation.Warnings

/-!
# Tallies of a run

A run only ever adds to what it has made, so that in the end it has made the sum of what its
steps add. A namespace adds its two files and its counts, or one warning. The shared types of a
module add one file with the definitions of those that can be converted, and one warning for
each of the others.
-/

namespace SchemaCompiler
namespace Generation

open SchemaCompiler.Client (Definitions)
open SchemaCompiler.Order (NameSet)
open SchemaCompiler.Schema

/-! ## Sums -/

/-- The sum of a count over a list. -/
def total (count : α → Nat) (values : List α) : Nat := (values.map count).foldr (· + ·) 0

section Sums

variable {count : α → Nat}

@[simp] theorem total_nil : total count [] = 0 := rfl

@[simp] theorem total_cons
    (first : α)
    (rest : List α) :
    total count (first :: rest) = count first + total count rest := rfl

@[simp] theorem total_append (left right : List α) :
    total count (left ++ right) = total count left + total count right := by
  induction left with
  | nil => rw [List.nil_append, total_nil, Nat.zero_add]
  | cons first rest hypothesis =>
      rw [List.cons_append, total_cons, total_cons, hypothesis, Nat.add_assoc]

theorem total_flatMap
    (made : β → List α)
    (values : List β) :
    total count (values.flatMap made) = total (fun value => total count (made value)) values := by
  induction values with
  | nil => rfl
  | cons first rest hypothesis =>
      rw [List.flatMap_cons, total_append, total_cons, hypothesis]

theorem total_map
    (made : β → α)
    (values : List β) :
    total count (values.map made) = total (fun value => count (made value)) values := by
  rw [total, total, List.map_map]
  rfl

theorem total_eq_zero
    {values : List α}
    (nothing : ∀ value ∈ values, count value = 0) :
    total count values = 0 := by
  induction values with
  | nil => rfl
  | cons first rest hypothesis =>
      obtain ⟨own, others⟩ := List.forall_mem_cons.mp nothing
      rw [total_cons, own, hypothesis others]

theorem total_filterMap
    (made : β → Option α)
    (values : List β) :
    total count (values.filterMap made) =
      total (fun value => ((made value).map count).getD 0) values := by
  induction values with
  | nil => rfl
  | cons first rest hypothesis =>
      rw [total_cons, ← hypothesis]
      cases same : made first with
      | none => simp [List.filterMap_cons_none same]
      | some value => simp [List.filterMap_cons_some same]

/-- A count that is nothing outside a part of a list is one over the part. -/
theorem total_eq_total_filter
    {other : α → Nat}
    {isCounted : α → Bool}
    {values : List α}
    (each : ∀ value ∈ values, count value = if isCounted value then other value else 0) :
    total count values = total other (values.filter isCounted) := by
  induction values with
  | nil => rfl
  | cons first rest hypothesis =>
      obtain ⟨own, others⟩ := List.forall_mem_cons.mp each
      rw [total_cons, own, hypothesis others]
      cases counted : isCounted first with
      | false => rw [List.filter_cons_of_neg (by simp [counted]), if_neg (by decide), Nat.zero_add]
      | true => rw [List.filter_cons_of_pos counted, if_pos rfl, total_cons]

theorem total_one (values : List α) : total (fun _ => 1) values = values.length := by
  induction values with
  | nil => rfl
  | cons first rest hypothesis => rw [total_cons, hypothesis, List.length_cons, Nat.add_comm]

end Sums

/-- What a part of a run adds to files, warnings and counts. -/
structure Tally where
  drafts : List Draft := []
  warnings : List Warning := []
  namespaces : Nat := 0
  functions : Nat := 0
  attributes : Nat := 0
  encryptedFields : Nat := 0

namespace Tally

/-- What two parts add one after the other. -/
def append (left right : Tally) : Tally where
  drafts := left.drafts ++ right.drafts
  warnings := left.warnings ++ right.warnings
  namespaces := left.namespaces + right.namespaces
  functions := left.functions + right.functions
  attributes := left.attributes + right.attributes
  encryptedFields := left.encryptedFields + right.encryptedFields

instance : Append Tally := ⟨append⟩

theorem append_eq (left right : Tally) : left ++ right = left.append right := rfl

theorem append_assoc (first second third : Tally) :
    first ++ second ++ third = first ++ (second ++ third) := by
  simp [append_eq, append, Nat.add_assoc]

theorem append_empty (tally : Tally) : tally ++ ({} : Tally) = tally := by
  simp [append_eq, append]

/-- What parts add one after another. -/
def sum (tallies : List Tally) : Tally := tallies.foldr (· ++ ·) {}

@[simp] theorem sum_cons
    (first : Tally)
    (rest : List Tally) :
    sum (first :: rest) = first ++ sum rest := rfl

/-- Lists of parts are appended. -/
theorem list_sum
    {view : Tally → List α}
    (empty : view {} = [])
    (append : ∀ left right, view (left ++ right) = view left ++ view right)
    (tallies : List Tally) :
    view (sum tallies) = tallies.flatMap view := by
  induction tallies with
  | nil => exact empty
  | cons first rest hypothesis => rw [sum_cons, append, hypothesis, List.flatMap_cons]

/-- Counts of parts are added. -/
theorem count_sum
    {count : Tally → Nat}
    (empty : count {} = 0)
    (append : ∀ left right, count (left ++ right) = count left + count right)
    (tallies : List Tally) :
    count (sum tallies) = total count tallies := by
  induction tallies with
  | nil => exact empty
  | cons first rest hypothesis => rw [sum_cons, append, hypothesis, total_cons]

section Views

variable (tallies : List Tally)

theorem drafts_sum : (sum tallies).drafts = tallies.flatMap drafts :=
  list_sum rfl (fun _ _ => rfl) tallies

theorem warnings_sum : (sum tallies).warnings = tallies.flatMap warnings :=
  list_sum rfl (fun _ _ => rfl) tallies

theorem namespaces_sum : (sum tallies).namespaces = total namespaces tallies :=
  count_sum rfl (fun _ _ => rfl) tallies

theorem functions_sum : (sum tallies).functions = total functions tallies :=
  count_sum rfl (fun _ _ => rfl) tallies

end Views

end Tally

/-! ## Steps -/

/-- Everything that a run has made so far. -/
def Progress.tally (progress : Progress) : Tally where
  drafts := progress.drafts
  warnings := progress.statistics.warnings
  namespaces := progress.statistics.namespaces
  functions := progress.statistics.functions
  attributes := progress.statistics.attributes
  encryptedFields := progress.statistics.encryptedFields

/-- What a namespace adds: its files and counts, or the warning that it failed. -/
def namespaceTally [Name.Lettering] (project : Project) (titled : Titled) : Tally :=
  match convert project titled.managed with
  | some (.ok (definitions, schema)) => {
      drafts := [
        ⟨.ofPart titled.managed.outputModule (titled.managed.fileStem ++ "_client"),
          clientFile project titled.managed.outputModule definitions⟩,
        ⟨.ofPart titled.managed.outputModule (titled.managed.fileStem ++ "_resource"),
          resourceItems schema titled.slug⟩]
      namespaces := 1
      functions := definitions.inputs.length
      attributes := schema.attributeCount
      encryptedFields := definitions.keyMethodCount / 2 }
  | some (.error error) => { warnings := [failureOf titled.managed error] }
  | none => {}

/-- What the shared types of a module add: a warning for each that failed, and a file unless
there is nothing to declare. -/
def sharedTally [Name.Lettering] (project : Project) (shared : String × List String) : Tally :=
  let made := convertShared project shared.2
  if made.1.structs.isEmpty then { warnings := made.2 }
  else {
    drafts := [⟨.ofPart shared.1 sharedStem, clientFile project shared.1 made.1⟩]
    warnings := made.2
    functions := made.1.inputs.length
    encryptedFields := made.1.keyMethodCount / 2 }

section Steps

variable
  {project : Project}
  {before after : Progress}

theorem tally_addNamespace
    [Name.Lettering]
    {titled : Titled}
    (added : addNamespace project before titled = some after) :
    after.tally = before.tally ++ namespaceTally project titled := by
  obtain ⟨outcome, same, added⟩ := Option.bind_eq_some_iff.mp added
  rw [namespaceTally, same]
  cases outcome with
  | error error =>
      cases added
      simp [Progress.tally, Progress.warn, Tally.append_eq, Tally.append]
  | ok made =>
      cases added
      simp [Progress.tally, addFiles, Progress.addPart, Statistics.addNamespace,
        Statistics.addClient, Tally.append_eq, Tally.append]

theorem tally_foldlM
    [Name.Lettering]
    {titles : List Titled}
    (added : titles.foldlM (addNamespace project) before = some after) :
    after.tally = before.tally ++ Tally.sum (titles.map (namespaceTally project)) := by
  induction titles generalizing before with
  | nil =>
      cases added
      exact (Tally.append_empty _).symm
  | cons titled rest hypothesis =>
      rw [List.foldlM_cons] at added
      obtain ⟨next, first, others⟩ := Option.bind_eq_some_iff.mp added
      rw [hypothesis others, tally_addNamespace first, Tally.append_assoc, List.map_cons,
        Tally.sum_cons]

theorem tally_foldl_warn
    (warnings : List Warning)
    (before : Progress) :
    (warnings.foldl Progress.warn before).tally = before.tally ++ { warnings := warnings } := by
  induction warnings generalizing before with
  | nil => exact (Tally.append_empty _).symm
  | cons warning rest hypothesis =>
      rw [List.foldl_cons, hypothesis]
      simp [Progress.tally, Progress.warn, Tally.append_eq, Tally.append]

theorem tally_addShared [Name.Lettering] (shared : String × List String) :
    (addShared project before shared).tally = before.tally ++ sharedTally project shared := by
  have warned := tally_foldl_warn (convertShared project shared.2).2 before
  dsimp only [addShared, sharedTally]
  split
  · exact warned
  · generalize (convertShared project shared.2).2.foldl Progress.warn before = next at warned ⊢
    simp only [Progress.tally, Tally.append_eq, Tally.append, Tally.mk.injEq] at warned
    obtain ⟨drafts, warnings, namespaces, functions, attributes, encryptedFields⟩ := warned
    simp [Progress.tally, Progress.addPart, Statistics.addShared, Statistics.addClient,
      Tally.append_eq, Tally.append, drafts, warnings, namespaces, functions, attributes,
      encryptedFields]

theorem tally_foldl
    [Name.Lettering]
    (modules : List (String × List String)) :
    (modules.foldl (addShared project) before).tally =
      before.tally ++ Tally.sum (modules.map (sharedTally project)) := by
  induction modules generalizing before with
  | nil => exact (Tally.append_empty _).symm
  | cons shared rest hypothesis =>
      rw [List.foldl_cons, hypothesis, tally_addShared, Tally.append_assoc, List.map_cons,
        Tally.sum_cons]

/-- What a run has made is what its namespaces and its shared types add, one after another,
behind the warnings about unknown names. -/
theorem tally_of_progress
    [Name.Lettering]
    {only : NameSet}
    {made : Progress}
    (ran : progress project only = some made) :
    made.tally = { warnings := unknownNames project only }
      ++ Tally.sum ((select project only).map (namespaceTally project))
      ++ Tally.sum ((sharedModules (wantedTypes project only)).map (sharedTally project)) := by
  obtain ⟨managed, converted, same⟩ := Option.bind_eq_some_iff.mp ran
  cases same
  rw [tally_foldl, tally_foldlM converted]
  rfl

end Steps

end Generation
end SchemaCompiler
