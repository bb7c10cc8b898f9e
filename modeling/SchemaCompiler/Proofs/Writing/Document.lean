import SchemaCompiler.Proofs.Writing.Node

/-!
# Documents survive writing

A sound document is read back from its JSON form, whatever the form is read as. Documents
that were read are sound, and merging overrides and naming parts keep them so.
-/

namespace SchemaCompiler
namespace Order

/-- The table of the entries of a table is the table. -/
theorem Table.ofList_entries (table : Table α) : ofList table.entries = table := by
  have given : ∀ (entries : List (String × α)) (start : Table α) (name : String),
      (entries.map Prod.fst).Nodup →
      (entries.foldl (fun table entry => table.set entry.1 entry.2) start).get? name =
        (entries.lookup name).or (start.get? name) := by
    intro entries
    induction entries with
    | nil => simp
    | cons entry rest hypothesis =>
        intro start name distinct
        obtain ⟨key, value⟩ := entry
        obtain ⟨fresh, restDistinct⟩ := List.nodup_cons.mp distinct
        rw [List.foldl_cons, hypothesis _ _ restDistinct, get?_set, List.lookup_cons]
        by_cases same : name = key
        · rw [if_pos same, same, lookup_eq_none fresh, beq_self_eq_true]
          rfl
        · rw [if_neg same, beq_eq_false_iff_ne.mpr same]
  refine ext_get? fun name => ?_
  rw [ofList, given _ _ _ table.nodup_names]
  exact Option.or_none

end Order

namespace Reading

open SchemaCompiler.Json (Draft)
open SchemaCompiler.Schema
open SchemaCompiler.Writing

/-! ## Functions -/

theorem restores_method
    {method : String}
    (proper : IsMethod method) :
    Restores readMethod .string method := by
  have upper : method.toList.map Char.toUpper = method.toList :=
    List.map_congr_left proper.upper |>.trans (List.map_id' _)
  have nonempty : method.toList.isEmpty = false := by
    simpa using proper.nonempty
  have signs : method.toList.all isMethodSign = true :=
    List.all_eq_true.mpr proper.signs
  refine ⟨?_, by simp⟩
  rw [readMethod, Draft.ofValue, readText_string, Outcome.ok_bind]
  simp only [upper, nonempty, signs]
  simp
  rfl

namespace FunctionParts

/-- The parts of a function that was written. -/
def ofFunction (function : Function) : FunctionParts where
  name := some function.name
  method := function.method.map some
  uri := some function.uri
  pathParameters := if function.pathParameters.isEmpty then none else some function.pathParameters
  queryParameters :=
    if function.queryParameters.isEmpty then none else some function.queryParameters
  body := function.body.map some
  output := function.output.map some

@[simp] theorem finish_ofFunction (function : Function) :
    (ofFunction function).finish = function := by
  simp [ofFunction, finish]

theorem reads_take
    (origin : Origin)
    {function : Function}
    (sound : function.Sound) :
    Reads (fun parts key value => take origin parts key (Draft.ofValue value)) {}
      ([("name", .string function.name)]
        ++ optionMember "method" .string function.method
        ++ [("uri", .string function.uri)]
        ++ listMember "path_params" writeNode function.pathParameters
        ++ listMember "query_params" writeNode function.queryParameters
        ++ optionMember "body" writeNode function.body
        ++ optionMember "output" writeNode function.output)
      (ofFunction function) := by
  obtain ⟨path, query, body, output⟩ := Function.forall_mem_nodes_iff.mp sound.nodes
  simp only [List.append_assoc]
  refine .append (.field (fun parts slot => { parts with name := slot }) (fun _ => rfl)
    (restores_text _)) ?_
  refine .append (.option (fun parts slot => { parts with method := slot }) rfl (fun _ => rfl)
    fun method given => restores_method (sound.method method given)) ?_
  refine .append (.field (fun parts slot => { parts with uri := slot }) (fun _ => rfl)
    (restores_text _)) ?_
  refine .append (.list (fun parts slot => { parts with pathParameters := slot }) rfl
    (fun _ => rfl) fun node member => restores_node origin (path node member)) ?_
  refine .append (.list (fun parts slot => { parts with queryParameters := slot }) rfl
    (fun _ => rfl) fun node member => restores_node origin (query node member)) ?_
  refine .append (.option (fun parts slot => { parts with body := slot }) rfl (fun _ => rfl)
    fun node member => restores_node origin (body node member)) ?_
  exact .restate (.option (fun parts slot => { parts with output := slot }) rfl (fun _ => rfl)
    fun node member => restores_node origin (output node member)) rfl

end FunctionParts

theorem restores_function
    (origin : Origin)
    {function : Function}
    (sound : function.Sound) :
    Restores (readFunction origin) writeFunction function := by
  refine ⟨?_, by simp [writeFunction]⟩
  rw [readFunction, writeFunction, (FunctionParts.reads_take origin sound).record, Outcome.ok_bind,
    FunctionParts.finish_ofFunction]
  rfl

/-! ## Namespaces -/

namespace NamespaceParts

/-- The parts of a namespace that was written. -/
def ofNamespace (managed : Namespace) : NamespaceParts where
  name := some managed.name
  schema := some managed.schema
  moduleName := managed.moduleName.map some
  create := managed.create.map some
  read := managed.read.map some
  update := managed.update.map some
  delete := managed.delete.map some
  list := managed.list.map some
  others := if managed.others.entries.isEmpty then none else some managed.others.entries

@[simp] theorem finish_ofNamespace (managed : Namespace) :
    (ofNamespace managed).finish managed.name = managed := by
  simp [ofNamespace, finish, Order.Table.ofList_entries]

theorem reads_take
    (origin : Origin)
    {managed : Namespace}
    (sound : managed.All Function.Sound) :
    Reads (fun parts key value => take origin parts key (Draft.ofValue value)) {}
      ([("name", .string managed.name), ("schema", .string managed.schema)]
        ++ optionMember "module" .string managed.moduleName
        ++ optionMember "create" writeFunction managed.create
        ++ optionMember "read" writeFunction managed.read
        ++ optionMember "update" writeFunction managed.update
        ++ optionMember "delete" writeFunction managed.delete
        ++ optionMember "list" writeFunction managed.list
        ++ if managed.others.entries.isEmpty then []
          else [("functions", writeTable writeFunction managed.others)])
      (ofNamespace managed) := by
  have others : ∀ {parts : NamespaceParts}, parts.others = none →
      Reads (fun parts key value => take origin parts key (Draft.ofValue value)) parts
        (if managed.others.entries.isEmpty then []
          else [("functions", writeTable writeFunction managed.others)])
        { parts with
          others := if managed.others.entries.isEmpty then none
            else some managed.others.entries } := by
    intro parts unset
    have restored := Restores.readMap fun entry member =>
      restores_function origin (sound.others entry member)
    split
    · rw [← unset]
      rfl
    · rw [Reads, readMembers]
      change ((fill parts.others "functions" (readMap (readFunction origin) _) >>= fun filled => _)
        >>= fun next => _) = _
      rw [restored, unset]
      rfl
  simp only [List.append_assoc]
  refine .append (.cons (.field (fun parts slot => { parts with name := slot }) (fun _ => rfl)
    (restores_text _)) (.field (fun parts slot => { parts with schema := slot }) (fun _ => rfl)
    (restores_text _))) ?_
  refine .append (.option (fun parts slot => { parts with moduleName := slot }) rfl (fun _ => rfl)
    fun _ _ => restores_text _) ?_
  refine .append (.option (fun parts slot => { parts with create := slot }) rfl (fun _ => rfl)
    fun function member => restores_function origin (sound.create function member)) ?_
  refine .append (.option (fun parts slot => { parts with read := slot }) rfl (fun _ => rfl)
    fun function member => restores_function origin (sound.read function member)) ?_
  refine .append (.option (fun parts slot => { parts with update := slot }) rfl (fun _ => rfl)
    fun function member => restores_function origin (sound.update function member)) ?_
  refine .append (.option (fun parts slot => { parts with delete := slot }) rfl (fun _ => rfl)
    fun function member => restores_function origin (sound.delete function member)) ?_
  refine .append (.option (fun parts slot => { parts with list := slot }) rfl (fun _ => rfl)
    fun function member => restores_function origin (sound.list function member)) ?_
  exact (others rfl).restate rfl

end NamespaceParts

theorem restores_namespace
    (origin : Origin)
    {managed : Namespace}
    (sound : managed.All Function.Sound) :
    Restores (readNamespace origin) writeNamespace managed := by
  refine ⟨?_, by simp [writeNamespace]⟩
  have record := (NamespaceParts.reads_take origin sound).record origin "struct Namespace"
    NamespaceParts.fields
  change readNamespace origin (Draft.ofValue (.object _)) = _
  unfold readNamespace
  rw [record]
  exact congrArg Except.ok (NamespaceParts.finish_ofNamespace managed)

/-! ## Documents -/

/-- A sound document is read back from its JSON form. -/
theorem readDocument_writeDocument
    (origin : Origin)
    {document : Document}
    (sound : document.Sound) :
    readDocument origin (Draft.ofValue (writeDocument document)) = .ok document := by
  have schemas := Restores.readMap fun entry member =>
    restores_node origin (sound.schemas entry member)
  have namespaces := (Restores.readList fun managed member =>
    restores_namespace origin (sound.functions managed member)).read
  have reads : Reads
      (fun parts key value => DocumentParts.take origin parts key (Draft.ofValue value)) {}
      [("schemas", writeTable writeNode document.schemas),
        ("namespaces", .array (document.namespaces.map writeNamespace))]
      { schemas := some document.schemas.entries, namespaces := some document.namespaces } := by
    rw [Reads, readMembers]
    change ((fill none "schemas" (readMap (readNode origin) _) >>= fun filled => _)
        >>= fun next => _) = _
    rw [schemas]
    change ((fill none "namespaces" (readList (readNamespace origin) _) >>= fun filled => _)
        >>= fun next => _) = _
    rw [namespaces]
    rfl
  rw [readDocument, writeDocument, reads.record, Outcome.ok_bind]
  simp only [Option.getD_some, Order.Table.ofList_entries]
  rfl

end Reading
end SchemaCompiler
