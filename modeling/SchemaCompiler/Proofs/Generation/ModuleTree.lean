import SchemaCompiler.Name.Standard
import SchemaCompiler.Proofs.Code.Lines
import SchemaCompiler.Proofs.Generation.Selection
import SchemaCompiler.Proofs.Name.Spelling

/-!
# The tree of modules

The files of a run stand in the output directory and in one directory for each module. A file in
every directory declares what else is in it, and a file above declares the directories. All their
names are safe to stand in a path, whatever the names in the document are.
-/

namespace SchemaCompiler
namespace Generation

open SchemaCompiler.Client (Definitions SharedType TypeIndex)
open SchemaCompiler.Code (Visibility)
open SchemaCompiler.Name (IsModuleName isModuleName_moduleName)
open SchemaCompiler.Order (NameSet)
open SchemaCompiler.Schema

/-! ## Names of modules and files -/

@[simp] theorem text_ofPart (directory stem : String) :
    (FilePath.ofPart directory stem).text = directory ++ "/" ++ stem ++ ".rs" := by
  simp [FilePath.text, FilePath.components, FilePath.ofPart, String.append_assoc]

/-- The files of namespaces and of shared types are called for the client or for the resource. -/
theorem isModuleName_stem
    {stem ending : String}
    (isName : IsModuleName stem)
    (known : ending ∈ ["_client", "_resource"]) :
    IsModuleName (stem ++ ending) := by
  have free : ∀ ending ∈ ["_client", "_resource"], ∀ keyword ∈ Name.keywords ++
      Name.declaredKeywords, ¬ending.toList <:+ keyword.toList := by
    decide
  have checked : ∀ ending ∈ ["_client", "_resource"], (ending.toList.all fun character =>
      character.isLower || character.isDigit || character == '_') = true := by
    decide
  exact isName.append (free ending known) (Name.characters_of_all (checked ending known))

theorem isModuleName_outputModule [Name.Lettering] (managed : Namespace) :
    IsModuleName managed.outputModule := by
  rw [Namespace.outputModule]
  exact isModuleName_moduleName _

theorem isModuleName_fileStem [Name.Lettering] (managed : Namespace) :
    IsModuleName managed.fileStem := by
  rw [Namespace.fileStem]
  exact isModuleName_moduleName _

theorem isModuleName_shared : IsModuleName "shared" :=
  ⟨by decide, Name.characters_of_all (by decide), by decide, by decide,
    by decide⟩

/-- Entries are placed in modules with names. -/
theorem isModuleName_of_sharedType?
    [Name.Lettering]
    {namespaces : List Namespace}
    {id : String}
    {entry : Node}
    {shared : SharedType}
    (placed : Client.sharedType? namespaces id entry = some shared) :
    IsModuleName shared.moduleName := by
  cases entry with
  | scalar | array => cases placed
  | object declaration facets children =>
      dsimp only [Client.sharedType?] at placed
      split at placed
      next owner _ =>
        obtain rfl := Option.some.inj placed
        dsimp only
        exact isModuleName_outputModule owner
      next =>
        obtain rfl := Option.some.inj placed
        dsimp only [Client.unmanagedModule]
        split
        · exact isModuleName_moduleName _
        · exact isModuleName_shared

variable
  {document : Document}
  {only : NameSet}

theorem isModuleName_of_mem_sharedModules
    [Name.Lettering]
    {name : String}
    {ids : List String}
    (isModule : (name, ids) ∈ sharedModules (wantedTypes (.ofDocument document) only)) :
    IsModuleName name := by
  obtain ⟨⟨id, shared, wanted, rfl⟩, -⟩ := mem_sharedModules_iff.mp isModule
  obtain ⟨entry, -, placed⟩ := get?_build (mem_wantedTypes_iff.mp wanted).1
  exact isModuleName_of_sharedType? placed

/-- A file that a run has to write is a part of a module. -/
theorem exists_place_of_written
    [Name.Lettering]
    {draft : Draft}
    (written : Written (.ofDocument document) only draft) :
    ∃ directory stem, draft.path = .ofPart directory stem ∧
      IsModuleName directory ∧ IsModuleName stem := by
  cases written with
  | client isFile =>
      cases isFile with
      | managed =>
          exact ⟨_, _, rfl, isModuleName_outputModule _,
            isModuleName_stem (isModuleName_fileStem _) (by decide)⟩
      | shared isModule =>
          have stem : sharedStem = "shared" ++ "_client" := by decide
          refine ⟨_, _, rfl, isModuleName_of_mem_sharedModules isModule, ?_⟩
          rw [stem]
          exact isModuleName_stem isModuleName_shared (by decide)
  | resource =>
      exact ⟨_, _, rfl, isModuleName_outputModule _,
        isModuleName_stem (isModuleName_fileStem _) (by decide)⟩

/-- No part is called like the file that declares the parts. -/
theorem ne_mod_of_isModuleName
    {stem : String}
    (isName : IsModuleName stem) :
    stem ≠ "mod" := by
  rintro rfl
  exact isName.noKeyword.1 (by decide)

/-! ## Texts of declarations -/

/-- Lines of the file that declares the parts of a module and passes on what is in them. -/
def partLines (visibility : Visibility) (stems : List String) : List String :=
  (stems.map fun stem => "mod " ++ stem ++ ";")
    ++ stems.map fun stem => visibility.lead ++ "use " ++ stem ++ "::*;"

/-- Lines of the file that declares the modules. -/
def moduleLines (visibility : Visibility) (names : List String) : List String :=
  names.map fun name => visibility.lead ++ "mod " ++ name ++ ";"

/-- Text of a file of lines, behind its head. -/
def linesText (request : Request) (lines : List String) : String :=
  header request.source ++ String.join (lines.map (· ++ "\n"))

theorem text_moduleDraft
    (request : Request)
    (name : String)
    {stems : NameSet}
    (filled : stems.names ≠ []) :
    (rendered request (moduleDraft name stems)).text =
      linesText request (partLines request.visibility stems.names) := by
  have nonempty : partLines request.visibility stems.names ≠ [] := by simp [partLines, filled]
  rw [rendered, linesText, Code.fileText_of_lines nonempty]
  simp [moduleDraft, partLines, List.flatMap_map, Code.Item.layout, Code.Taken.text,
    String.append_assoc]

theorem text_rootDraft
    (request : Request)
    {names : List String}
    (filled : names ≠ []) :
    (rendered request ⟨⟨none, "mod.rs"⟩, names.map fun name => .part true name⟩).text =
      linesText request (moduleLines request.visibility names) := by
  have nonempty : moduleLines request.visibility names ≠ [] := by simp [moduleLines, filled]
  rw [rendered, linesText, Code.fileText_of_lines nonempty]
  simp [moduleLines, List.flatMap_map, Code.Item.layout]

/-! ## The tree -/

namespace Output

/-- Some file of the output has the path. -/
def HasFile (output : Output) (path : FilePath) : Prop := ∃ file ∈ output.files, file.path = path

/-- Some file of the output is in the directory. -/
def HasDirectory (output : Output) (directory : String) : Prop :=
  ∃ file ∈ output.files, file.path.directory = some directory

/-- What the output has at the path is the text. -/
def Holds (output : Output) (path : FilePath) (text : String) : Prop :=
  ⟨path, text⟩ ∈ output.files ∧ ∀ file ∈ output.files, file.path = path → file.text = text

end Output

/-- Some namespace of the module that the run selects, or some shared type of it that the run
wants, can be converted. -/
def HasContents [Name.Lettering] (project : Project) (only : NameSet) (name : String) : Prop :=
  (∃ titled ∈ select project only, titled.managed.outputModule = name ∧
    ∃ definitions schema, convert project titled.managed = some (.ok (definitions, schema))) ∨
  ∃ id shared, (id, shared) ∈ wantedTypes project only ∧ shared.moduleName = name ∧
    ∃ definitions, Client.convertEntry project.registry project.index id = .ok definitions

/-- The shared types of a module have structs exactly if one of them can be converted. -/
theorem exists_convertEntry_of_filled
    [Name.Lettering]
    {project : Project}
    {ids : List String}
    (filled : (convertShared project ids).1.structs.isEmpty = false) :
    ∃ id ∈ ids, ∃ definitions,
      Client.convertEntry project.registry project.index id = .ok definitions := by
  have accumulates : Client.Definitions.Accumulates fun definitions : Definitions =>
      definitions.structs.isEmpty = false → ∃ id ∈ ids, ∃ definitions,
        Client.convertEntry project.registry project.index id = .ok definitions := by
    refine ⟨fun impossible => (by cases impossible), fun {first second} ofFirst ofSecond => ?_⟩
    intro filled
    rw [Client.Definitions.structs_append] at filled
    cases given : first.structs.isEmpty with
    | false => exact ofFirst given
    | true =>
        rw [List.isEmpty_iff.mp given, List.nil_append] at filled
        exact ofSecond filled
  exact good_convertShared accumulates (fun id member definitions made _ =>
    ⟨id, member, definitions, made⟩) filled

/-- A run writes files of a module exactly if it has contents. -/
theorem exists_written_iff
    [Name.Lettering]
    {project : Project}
    {name : String} :
    (∃ stem items, Written project only ⟨.ofPart name stem, items⟩) ↔
      HasContents project only name := by
  constructor
  · rintro ⟨stem, items, written⟩
    generalize place : (⟨.ofPart name stem, items⟩ : Draft) = draft at written
    cases written with
    | client isFile =>
        obtain ⟨rfl, rfl⟩ := ofPart_inj.mp (Draft.mk.inj place).1
        cases isFile with
        | managed selected converted => exact .inl ⟨_, selected, rfl, _, _, converted⟩
        | shared isModule filled =>
            obtain ⟨id, member, definitions, made⟩ := exists_convertEntry_of_filled filled
            obtain ⟨shared, wanted, same⟩ := exists_mem_sharedModules_iff.mp ⟨_, isModule, member⟩
            exact .inr ⟨id, shared, wanted, same, definitions, made⟩
    | resource selected converted =>
        have same := ofPart_inj.mp (Draft.mk.inj place).1
        exact .inl ⟨_, selected, same.1.symm, _, _, converted⟩
  · rintro (⟨titled, selected, rfl, definitions, schema, converted⟩ |
      ⟨id, shared, wanted, rfl, definitions, made⟩)
    · exact ⟨titled.managed.fileStem ++ "_client", _, .client (.managed selected converted)⟩
    · obtain ⟨ids, isModule, member, filled⟩ := exists_shared_of_convertEntry wanted made
      exact ⟨sharedStem, _, .client (.shared isModule filled)⟩

/-- The drafts of the files that declare modules. -/
theorem mem_moduleDrafts_iff
    {modules : Modules}
    {draft : Draft} :
    draft ∈ moduleDrafts modules ↔
      (∃ name stems, modules.get? name = some stems ∧ draft = moduleDraft name stems) ∨
        modules.names ≠ [] ∧
          draft = ⟨⟨none, "mod.rs"⟩, modules.names.map fun name => .part true name⟩ := by
  have empty : modules.entries.isEmpty = true ↔ modules.names = [] := by
    rw [List.isEmpty_iff, Order.Table.names, List.map_eq_nil_iff]
  rw [moduleDrafts, List.mem_append]
  refine or_congr ⟨?_, ?_⟩ ?_
  · intro member
    obtain ⟨⟨name, stems⟩, known, rfl⟩ := List.mem_map.mp member
    exact ⟨name, stems, Order.Table.get?_eq_some_iff.mpr known, rfl⟩
  · rintro ⟨name, stems, found, rfl⟩
    exact List.mem_map.mpr ⟨(name, stems), Order.Table.mem_entries_of_get? found, rfl⟩
  · split
    next none => simp [empty.mp none]
    next some => simp [mt empty.mpr some]

section Tree

variable
  [Name.Lettering]
  {request : Request}
  {output : Output}
  {made : Progress}
  (ran : generate (.ofDocument document) request = some (.ok output))
  (progressed : progress (.ofDocument document) request.only = some made)

include ran progressed

/-- The files of a run by their drafts. -/
theorem mem_files_iff_of_progress
    {file : GeneratedFile} :
    file ∈ output.files ↔ ∃ draft, file = rendered request draft ∧
      (Written (.ofDocument document) request.only draft ∨ draft ∈ moduleDrafts made.modules) := by
  rw [mem_files_iff ran]
  refine exists_congr fun draft => and_congr_right fun _ => or_congr_right ⟨?_, ?_⟩
  · rintro ⟨other, again, member⟩
    cases progressed.symm.trans again
    exact member
  · exact fun member => ⟨made, progressed, member⟩

/-- The parts of a module are the files in its directory but the one that declares them. -/
theorem hasPart_iff_hasFile
    {directory stem : String} :
    made.modules.HasPart directory stem ↔
      stem ≠ "mod" ∧ output.HasFile (.ofPart directory stem) := by
  have parts := (listed_of_progress progressed).parts directory stem
  constructor
  · intro hasPart
    obtain ⟨items, member⟩ := parts.mp hasPart
    have written := (mem_drafts_iff progressed).mp member
    obtain ⟨_, _, same, -, isName⟩ := exists_place_of_written written
    obtain ⟨rfl, rfl⟩ := ofPart_inj.mp same
    exact ⟨ne_mod_of_isModuleName isName, _,
      (mem_files_iff_of_progress ran progressed).mpr ⟨_, rfl, .inl written⟩, rfl⟩
  · rintro ⟨other, file, member, same⟩
    obtain ⟨⟨path, items⟩, rfl, written | declares⟩ :=
      (mem_files_iff_of_progress ran progressed).mp member
    · cases same
      exact parts.mpr ⟨items, (mem_drafts_iff progressed).mpr written⟩
    · rcases mem_moduleDrafts_iff.mp declares with ⟨name, stems, -, draft⟩ | ⟨-, draft⟩
      · cases draft
        exact absurd (ofPart_inj.mp same).2.symm other
      · cases draft
        cases same

/-- The modules are the directories of the output. -/
theorem mem_names_iff_hasDirectory
    {directory : String} :
    directory ∈ made.modules.names ↔ output.HasDirectory directory := by
  have listed := listed_of_progress progressed
  constructor
  · intro member
    obtain ⟨stem, hasPart⟩ := listed.filled directory member
    obtain ⟨-, file, inOutput, same⟩ := (hasPart_iff_hasFile ran progressed).mp hasPart
    exact ⟨file, inOutput, by rw [same]; rfl⟩
  · rintro ⟨file, member, same⟩
    obtain ⟨⟨path, items⟩, rfl, written | declares⟩ :=
      (mem_files_iff_of_progress ran progressed).mp member
    · obtain ⟨other, stem, rfl, -, -⟩ := exists_place_of_written written
      cases same
      obtain ⟨stems, found, -⟩ :=
        (listed.parts directory stem).mpr ⟨items, (mem_drafts_iff progressed).mpr written⟩
      exact Order.Table.mem_names_of_get? found
    · rcases mem_moduleDrafts_iff.mp declares with ⟨name, stems, found, draft⟩ | ⟨-, draft⟩
      · cases draft
        cases same
        exact Order.Table.mem_names_of_get? found
      · cases draft
        cases same

/-- What the output has where a module declares its parts is the one declaration of them. -/
theorem holds_moduleDraft
    {directory : String}
    {stems : NameSet}
    (found : made.modules.get? directory = some stems) :
    output.Holds (.ofPart directory "mod")
      (linesText request (partLines request.visibility stems.names)) := by
  have filled : stems.names ≠ [] := by
    obtain ⟨part, others, again, member⟩ :=
      (listed_of_progress progressed).filled directory (Order.Table.mem_names_of_get? found)
    cases found.symm.trans again
    exact List.ne_nil_of_mem member
  rw [← text_moduleDraft request directory filled]
  refine ⟨(mem_files_iff_of_progress ran progressed).mpr
    ⟨moduleDraft directory stems, rfl, .inr (mem_moduleDrafts_iff.mpr (.inl ⟨_, _, found, rfl⟩))⟩,
    fun file member same => ?_⟩
  obtain ⟨draft, rfl, written | declares⟩ := (mem_files_iff_of_progress ran progressed).mp member
  · obtain ⟨other, stem, place, -, isName⟩ := exists_place_of_written written
    exact absurd (ofPart_inj.mp (place.symm.trans same)).2 (ne_mod_of_isModuleName isName)
  · rcases mem_moduleDrafts_iff.mp declares with ⟨name, others, known, rfl⟩ | ⟨-, rfl⟩
    · obtain ⟨rfl, -⟩ := ofPart_inj.mp same
      cases found.symm.trans known
      rfl
    · cases same

/-- What the output has in the place of the declaration of modules is this one. -/
theorem holds_rootDraft
    (filled : made.modules.names ≠ []) :
    output.Holds ⟨none, "mod.rs"⟩
      (linesText request (moduleLines request.visibility made.modules.names)) := by
  rw [← text_rootDraft request filled]
  refine ⟨(mem_files_iff_of_progress ran progressed).mpr
    ⟨_, rfl, .inr (mem_moduleDrafts_iff.mpr (.inr ⟨filled, rfl⟩))⟩, fun file member same => ?_⟩
  obtain ⟨draft, rfl, written | declares⟩ := (mem_files_iff_of_progress ran progressed).mp member
  · obtain ⟨directory, stem, place, -, -⟩ := exists_place_of_written written
    cases place.symm.trans same
  · rcases mem_moduleDrafts_iff.mp declares with ⟨name, stems, -, rfl⟩ | ⟨-, rfl⟩
    · cases same
    · rfl

/-- Without modules nothing declares them. -/
theorem names_ne_nil_of_hasFile_root
    (hasFile : output.HasFile ⟨none, "mod.rs"⟩) :
    made.modules.names ≠ [] := by
  obtain ⟨file, member, same⟩ := hasFile
  obtain ⟨draft, rfl, written | declares⟩ := (mem_files_iff_of_progress ran progressed).mp member
  · obtain ⟨directory, stem, place, -, -⟩ := exists_place_of_written written
    cases place.symm.trans same
  · rcases mem_moduleDrafts_iff.mp declares with ⟨name, stems, -, rfl⟩ | ⟨filled, rfl⟩
    · cases same
    · exact filled

/-- A file stands at the top, or it declares a module or is a part of one. -/
theorem text_path_of_mem_files
    {file : GeneratedFile}
    (member : file ∈ output.files) :
    file.path.text = "mod.rs" ∨ ∃ directory, IsModuleName directory ∧
      (file.path.text = directory ++ "/mod.rs" ∨ ∃ stem, IsModuleName stem ∧
        file.path.text = directory ++ "/" ++ stem ++ ".rs") := by
  obtain ⟨draft, rfl, written | declares⟩ := (mem_files_iff_of_progress ran progressed).mp member
  · obtain ⟨directory, stem, place, isDirectory, isStem⟩ := exists_place_of_written written
    refine .inr ⟨directory, isDirectory, .inr ⟨stem, isStem, ?_⟩⟩
    rw [rendered, place, text_ofPart]
  · rcases mem_moduleDrafts_iff.mp declares with ⟨name, stems, found, rfl⟩ | ⟨-, rfl⟩
    · obtain ⟨part, hasPart⟩ :=
        (listed_of_progress progressed).filled name (Order.Table.mem_names_of_get? found)
      obtain ⟨items, isDraft⟩ := ((listed_of_progress progressed).parts name part).mp hasPart
      obtain ⟨directory, stem, place, isDirectory, -⟩ :=
        exists_place_of_written ((mem_drafts_iff progressed).mp isDraft)
      obtain ⟨rfl, -⟩ := ofPart_inj.mp place
      refine .inr ⟨name, isDirectory, .inl ?_⟩
      rw [rendered, moduleDraft, text_ofPart, String.append_assoc, String.append_assoc]
      rfl
    · exact .inl (by rfl)

/-- A directory is there exactly if its module has contents. -/
theorem hasDirectory_iff
    {directory : String} :
    output.HasDirectory directory ↔ HasContents (.ofDocument document) request.only directory := by
  rw [← exists_written_iff, ← mem_names_iff_hasDirectory ran progressed]
  have listed := listed_of_progress progressed
  constructor
  · intro member
    obtain ⟨stem, hasPart⟩ := listed.filled directory member
    obtain ⟨items, isDraft⟩ := (listed.parts directory stem).mp hasPart
    exact ⟨stem, items, (mem_drafts_iff progressed).mp isDraft⟩
  · rintro ⟨stem, items, written⟩
    obtain ⟨stems, found, -⟩ :=
      (listed.parts directory stem).mpr ⟨items, (mem_drafts_iff progressed).mpr written⟩
    exact Order.Table.mem_names_of_get? found

end Tree

/-- The files of a run form a tree of modules. Each stands at the top or one directory below, and
directories and files have names of small letters, digits and underscores that are no keywords,
whatever the document calls them. The file `mod.rs` in a directory declares and passes on exactly
the other files in it, and the one at the top declares exactly the directories and is only there
if there are any. A module has a directory exactly if a namespace of it or a shared type of it can
be converted, so what fails leaves no trace. -/
theorem module_tree_is_complete
    [Name.Lettering]
    {request : Request}
    {output : Output}
    (ran : generate (.ofDocument document) request = some (.ok output)) :
    (∀ file ∈ output.files,
      file.path.text = "mod.rs" ∨ ∃ directory, IsModuleName directory ∧
        (file.path.text = directory ++ "/mod.rs" ∨ ∃ stem, IsModuleName stem ∧
          file.path.text = directory ++ "/" ++ stem ++ ".rs")) ∧
    (∀ directory, output.HasDirectory directory → ∃ stems : NameSet,
      (∀ stem, stem ∈ stems.names ↔
        stem ≠ "mod" ∧ output.HasFile (.ofPart directory stem)) ∧
      output.Holds (.ofPart directory "mod")
        (linesText request (partLines request.visibility stems.names))) ∧
    (∃ directories : NameSet,
      (∀ directory, directory ∈ directories.names ↔ output.HasDirectory directory) ∧
      (directories.names = [] → ¬output.HasFile ⟨none, "mod.rs"⟩) ∧
      (directories.names ≠ [] → output.Holds ⟨none, "mod.rs"⟩
        (linesText request (moduleLines request.visibility directories.names)))) ∧
    ∀ directory, output.HasDirectory directory ↔
      HasContents (.ofDocument document) request.only directory := by
  obtain ⟨made, progressed, -⟩ := exists_progress ran
  refine ⟨fun file member => text_path_of_mem_files ran progressed member, ?_, ?_, fun directory =>
    hasDirectory_iff ran progressed⟩
  · intro directory hasDirectory
    obtain ⟨stems, found⟩ := Order.Table.exists_get?_of_mem_names
      ((mem_names_iff_hasDirectory ran progressed).mpr hasDirectory)
    refine ⟨stems, fun stem => ?_, holds_moduleDraft ran progressed found⟩
    rw [← hasPart_iff_hasFile ran progressed, Modules.HasPart, found]
    simp
  · refine ⟨⟨made.modules.names, made.modules.increasing⟩, fun directory =>
      mem_names_iff_hasDirectory ran progressed, ?_, holds_rootDraft ran progressed⟩
    exact fun empty hasFile => names_ne_nil_of_hasFile_root ran progressed hasFile empty

/-- The one module of the document with two namespaces that read alike. -/
theorem hasContents_siteProject_iff (name : String) :
    HasContents siteProject .empty name ↔ name = "site" := by
  obtain ⟨first, second, selected⟩ := select_siteProject
  have places : (siteNamespace "Site").outputModule = "site" ∧
      (siteNamespace "site").outputModule = "site" := by
    decide
  have unshared : wantedTypes siteProject .empty = [] := rfl
  constructor
  · rintro (⟨titled, member, rfl, -⟩ | ⟨id, shared, wanted, -⟩)
    · rw [selected] at member
      rcases List.mem_pair.mp member with rfl | rfl
      · exact places.1
      · exact places.2
    · rw [unshared] at wanted
      cases wanted
  · rintro rfl
    exact .inl ⟨⟨siteNamespace "Site", first⟩, selected ▸ List.mem_cons_self, places.1, _, _,
      convert_siteNamespace "Site"⟩

/-- A run over this document declares the module at the top, and the parts of the module in its
directory. -/
theorem module_tree_is_complete_siteProject :
    ∃ output, generate siteProject { source := "doc.json" } = some (.ok output) ∧
      output.Holds ⟨none, "mod.rs"⟩ (header "doc.json" ++ "pub mod site;\n") ∧
      ∃ text, output.Holds (.ofPart "site" "mod") text := by
  obtain ⟨output, ran⟩ := generate_siteProject
  obtain ⟨-, parts, ⟨directories, listed, -, root⟩, contents⟩ := module_tree_is_complete ran
  have alone : directories = .ofList ["site"] := by
    refine NameSet.ext_mem fun name => (listed name).trans ((contents name).trans ?_)
    rw [NameSet.mem_ofList, List.mem_singleton]
    exact hasContents_siteProject_iff name
  have names : directories.names = ["site"] := by
    rw [alone]
    rfl
  obtain ⟨stems, -, holds⟩ :=
    parts "site" ((contents "site").mpr ((hasContents_siteProject_iff "site").mpr rfl))
  rw [names] at root
  exact ⟨output, ran, root (by decide), _, holds⟩

end Generation
end SchemaCompiler
