import SchemaCompiler.Proofs.Generation.Files

/-!
# Warnings of a run

A run warns about every selected namespace and every shared type that it could not
convert. A run that skips nothing has converted all of them.
-/

namespace SchemaCompiler
namespace Generation

open SchemaCompiler.Client (SharedType)
open SchemaCompiler.Order (NameSet)
open SchemaCompiler.Schema

/-- The warning says that the namespace failed. -/
def IsFailureOf [Name.Lettering] (project : Project) (titled : Titled) (warning : Warning) : Prop :=
  ∃ error, convert project titled.managed = some (.error error) ∧
    warning = failureOf titled.managed error

/-- The warning says that the shared type with the id failed. -/
def IsSharedFailure [Name.Lettering] (project : Project) (id : String) (warning : Warning) : Prop :=
  ∃ error, Client.convertEntry project.registry project.index id = .error error ∧
    warning = .sharedTypeFailed id error.message

variable
  {project : Project}
  {before after made : Progress}
  {warning : Warning}

/-- A namespace adds a warning if it fails. -/
theorem mem_warnings_addNamespace
    [Name.Lettering]
    {titled : Titled}
    (added : addNamespace project before titled = some after) :
    warning ∈ after.statistics.warnings ↔
      warning ∈ before.statistics.warnings ∨ IsFailureOf project titled warning := by
  obtain ⟨converted, same, added⟩ := Option.bind_eq_some_iff.mp added
  cases converted with
  | error error =>
      cases added
      simp [IsFailureOf, same, Progress.warn]
  | ok made =>
      cases added
      have unchanged : (addFiles project before titled made.1 made.2).statistics.warnings =
          before.statistics.warnings := rfl
      rw [unchanged]
      simp [IsFailureOf, same]

/-- Namespaces one after another add their warnings. -/
theorem mem_warnings_foldlM
    [Name.Lettering]
    {titles : List Titled}
    (added : titles.foldlM (addNamespace project) before = some after) :
    warning ∈ after.statistics.warnings ↔
      warning ∈ before.statistics.warnings ∨
        ∃ titled ∈ titles, IsFailureOf project titled warning :=
  mem_foldlM_iff (addNamespace project) (·.statistics.warnings) (IsFailureOf project)
    (fun added _ => mem_warnings_addNamespace added) added warning

/-- Each shared type that fails has a warning. -/
theorem mem_warnings_convertShared
    [Name.Lettering]
    {ids : List String} :
    warning ∈ (convertShared project ids).2 ↔ ∃ id ∈ ids, IsSharedFailure project id warning := by
  induction ids with
  | nil => simp [convertShared]
  | cons id rest hypothesis =>
      cases converted : Client.convertEntry project.registry project.index id with
      | ok definitions => simp [convertShared, converted, hypothesis, IsSharedFailure]
      | error error => simp [convertShared, converted, hypothesis, IsSharedFailure]

theorem warnings_foldl_warn
    (warnings : List Warning)
    (before : Progress) :
    (warnings.foldl Progress.warn before).statistics.warnings =
      before.statistics.warnings ++ warnings := by
  induction warnings generalizing before with
  | nil => simp
  | cons warning rest hypothesis =>
      rw [List.foldl_cons, hypothesis, Progress.warn]
      simp

/-- The shared types of a module add their warnings. -/
theorem mem_warnings_addShared
    [Name.Lettering]
    {shared : String × List String} :
    warning ∈ (addShared project before shared).statistics.warnings ↔
      warning ∈ before.statistics.warnings ∨
        ∃ id ∈ shared.2, IsSharedFailure project id warning := by
  rw [← mem_warnings_convertShared, ← List.mem_append, ← warnings_foldl_warn]
  dsimp only [addShared]
  split <;> rfl

theorem mem_warnings_foldl
    [Name.Lettering]
    {modules : List (String × List String)} :
    warning ∈ (modules.foldl (addShared project) before).statistics.warnings ↔
      warning ∈ before.statistics.warnings ∨
        ∃ shared ∈ modules, ∃ id ∈ shared.2, IsSharedFailure project id warning :=
  mem_foldl_iff (addShared project) (·.statistics.warnings)
    (fun shared warning => ∃ id ∈ shared.2, IsSharedFailure project id warning)
    (fun _ _ _ => mem_warnings_addShared) modules before warning

/-- The modules of shared types with their ids. -/
theorem mem_sharedModules_iff
    {types : List (String × SharedType)}
    {name : String}
    {ids : List String} :
    (name, ids) ∈ sharedModules types ↔
      (∃ id shared, (id, shared) ∈ types ∧ shared.moduleName = name) ∧
        ids = (types.filter fun (_, shared) => shared.moduleName = name).map Prod.fst := by
  have named : name ∈ (NameSet.ofList (types.map fun (_, shared) => shared.moduleName)).names ↔
      ∃ id shared, (id, shared) ∈ types ∧ shared.moduleName = name := by
    refine (NameSet.mem_ofList _ name).trans ?_
    simp
  simp only [sharedModules, List.mem_map, Prod.mk.injEq]
  constructor
  · rintro ⟨other, member, rfl, rfl⟩
    exact ⟨named.mp member, rfl⟩
  · rintro ⟨some, rfl⟩
    exact ⟨name, named.mpr some, rfl, rfl⟩

/-- A shared type stands in its module. -/
theorem exists_mem_sharedModules_iff
    {types : List (String × SharedType)}
    {name id : String} :
    (∃ ids, (name, ids) ∈ sharedModules types ∧ id ∈ ids) ↔
      ∃ shared, (id, shared) ∈ types ∧ shared.moduleName = name := by
  constructor
  · rintro ⟨ids, isModule, member⟩
    obtain ⟨-, rfl⟩ := mem_sharedModules_iff.mp isModule
    simpa using member
  · rintro ⟨shared, member, named⟩
    refine ⟨_, mem_sharedModules_iff.mpr ⟨⟨id, shared, member, named⟩, rfl⟩, ?_⟩
    simpa using ⟨shared, member, named⟩

/-- A run warns about unknown names and about what it fails to convert. -/
theorem mem_warnings_iff
    [Name.Lettering]
    {only : NameSet}
    (ran : progress project only = some made) :
    warning ∈ made.statistics.warnings ↔
      warning ∈ unknownNames project only ∨
        (∃ titled ∈ select project only, IsFailureOf project titled warning) ∨
        ∃ id shared, (id, shared) ∈ wantedTypes project only ∧
          IsSharedFailure project id warning := by
  obtain ⟨managed, converted, same⟩ := Option.bind_eq_some_iff.mp ran
  cases same
  rw [mem_warnings_foldl, mem_warnings_foldlM converted, or_assoc]
  refine or_congr_right (or_congr_right ⟨?_, ?_⟩)
  · rintro ⟨⟨name, ids⟩, isModule, id, member, fails⟩
    obtain ⟨shared, wanted, -⟩ := exists_mem_sharedModules_iff.mp ⟨ids, isModule, member⟩
    exact ⟨id, shared, wanted, fails⟩
  · rintro ⟨id, shared, wanted, fails⟩
    obtain ⟨ids, isModule, member⟩ := exists_mem_sharedModules_iff.mpr ⟨shared, wanted, rfl⟩
    exact ⟨_, isModule, id, member, fails⟩

/-- The conversion of every selected namespace ends if the run does. -/
theorem exists_convert
    [Name.Lettering]
    {only : NameSet}
    (ran : progress project only = some made) :
    ∀ titled ∈ select project only, ∃ outcome, convert project titled.managed = some outcome := by
  have each : ∀ {titles : List Titled} {before after : Progress},
      titles.foldlM (addNamespace project) before = some after →
        ∀ titled ∈ titles, ∃ outcome, convert project titled.managed = some outcome := by
    intro titles
    induction titles with
    | nil => exact fun _ => List.forall_mem_nil _
    | cons titled rest hypothesis =>
        intro before after added
        rw [List.foldlM_cons] at added
        obtain ⟨next, first, others⟩ := Option.bind_eq_some_iff.mp added
        obtain ⟨outcome, converted, -⟩ := Option.bind_eq_some_iff.mp first
        exact List.forall_mem_cons.mpr ⟨⟨outcome, converted⟩, hypothesis others⟩
  obtain ⟨managed, converted, -⟩ := Option.bind_eq_some_iff.mp ran
  exact each converted

/-! ## Complete runs -/

/-- A run that skips nothing warns about no skipped item. -/
theorem not_isSkippedItem
    {statistics : Statistics}
    (complete : statistics.skipped = 0) :
    ∀ warning ∈ statistics.warnings, warning.isSkippedItem = false := by
  simpa [Statistics.skipped] using complete

/-- A run that skips nothing has converted every selected namespace. -/
theorem exists_convert_of_complete
    [Name.Lettering]
    {only : NameSet}
    (ran : progress project only = some made)
    (complete : made.statistics.skipped = 0)
    {titled : Titled}
    (selected : titled ∈ select project only) :
    ∃ definitions schema, convert project titled.managed = some (.ok (definitions, schema)) := by
  obtain ⟨outcome, converted⟩ := exists_convert ran titled selected
  cases outcome with
  | ok both => exact ⟨both.1, both.2, converted⟩
  | error error =>
      have warned := (mem_warnings_iff ran).mpr
        (.inr (.inl ⟨titled, selected, error, converted, rfl⟩))
      cases not_isSkippedItem complete _ warned

/-- A run that skips nothing has converted every shared type that it wants. -/
theorem exists_convertEntry_of_complete
    [Name.Lettering]
    {only : NameSet}
    (ran : progress project only = some made)
    (complete : made.statistics.skipped = 0)
    {id : String}
    {shared : SharedType}
    (wanted : (id, shared) ∈ wantedTypes project only) :
    ∃ definitions, Client.convertEntry project.registry project.index id = .ok definitions := by
  cases converted : Client.convertEntry project.registry project.index id with
  | ok definitions => exact ⟨definitions, rfl⟩
  | error error =>
      have warned := (mem_warnings_iff ran).mpr
        (.inr (.inr ⟨id, shared, wanted, error, converted, rfl⟩))
      cases not_isSkippedItem complete _ warned

end Generation
end SchemaCompiler
