import TypedObject.Proofs.Declaration.Naming
import TypedObject.Proofs.Registry.Declared

/-!
# The order of registrations does not matter

Calls in another order give every type the same name, so the same schemas are built,
only in another order; linking looks entries up by name and sorts them, which undoes
the difference.  Whether all calls are accepted, all schemas can be built and every
placeholder names an entry does not depend on the order either.
-/

namespace TypedObject.Registry

open Entries

theorem entriesOf_cons_eq_ok_iff
    {registrar : Registrar} {type : TypeExpr} {name : String}
    {types : List (TypeExpr × String)} {entries : Entries} :
    entriesOf registrar ((type, name) :: types) = .ok entries ↔
      ∃ schema others, registrar.schemaOf type = .ok schema ∧
        entriesOf registrar types = .ok others ∧ entries = (name, schema) :: others := by
  rw [entriesOf, Outcome.bind_eq_ok_iff]
  simp only [Outcome.bind_eq_ok_iff, Outcome.pure_eq_ok_iff]
  constructor
  · intro built
    obtain ⟨schema, made, others, madeOthers, same⟩ := built
    exact ⟨schema, others, made, madeOthers, same.symm⟩
  · intro built
    obtain ⟨schema, others, made, madeOthers, same⟩ := built
    exact ⟨schema, made, others, madeOthers, same.symm⟩

theorem entriesOf_congr
    {registrar registrar' : Registrar} {used : TypeExpr → Prop}
    (agree : registrar.AgreeOn registrar' used) {types : List (TypeExpr × String)}
    (inUse : ∀ entry ∈ types, used entry.1) :
    entriesOf registrar' types = entriesOf registrar types := by
  induction types with
  | nil => rfl
  | cons entry types induction =>
      obtain ⟨type, name⟩ := entry
      obtain ⟨typeInUse, othersInUse⟩ := List.forall_mem_cons.mp inUse
      rw [entriesOf, entriesOf, agree.schemaOf typeInUse, induction othersInUse]

theorem entriesOf_perm
    {registrar : Registrar} {types types' : List (TypeExpr × String)}
    (reordered : types.Perm types') {entries : Entries}
    (built : entriesOf registrar types = .ok entries) :
    ∃ entries', entriesOf registrar types' = .ok entries' ∧ entries.Perm entries' := by
  induction reordered generalizing entries with
  | nil => exact ⟨entries, built, List.Perm.refl _⟩
  | cons entry _ induction =>
      obtain ⟨schema, others, made, madeOthers, rfl⟩ := entriesOf_cons_eq_ok_iff.mp built
      obtain ⟨others', madeOthers', permuted⟩ := induction madeOthers
      exact ⟨_, entriesOf_cons_eq_ok_iff.mpr ⟨schema, others', made, madeOthers', rfl⟩,
        permuted.cons _⟩
  | swap first second rest =>
      obtain ⟨schema, others, made, madeOthers, rfl⟩ := entriesOf_cons_eq_ok_iff.mp built
      obtain ⟨schema', others', made', madeOthers', rfl⟩ :=
        entriesOf_cons_eq_ok_iff.mp madeOthers
      have swapped : entriesOf registrar (second :: rest) =
          .ok ((second.2, schema) :: others') :=
        entriesOf_cons_eq_ok_iff.mpr ⟨schema, others', made, madeOthers', rfl⟩
      exact ⟨_, entriesOf_cons_eq_ok_iff.mpr ⟨schema', _, made', swapped, rfl⟩,
        List.Perm.swap _ _ _⟩
  | trans _ _ first second =>
      obtain ⟨middle, madeMiddle, permuted⟩ := first built
      obtain ⟨entries', made, permuted'⟩ := second madeMiddle
      exact ⟨entries', made, permuted.trans permuted'⟩

theorem declare_eq_ok_iff
    {declarations : Declarations} {calls : List (TypeExpr × String)} {registry : Registry} :
    declare declarations calls = .ok registry ↔
      (Registrar.mk declarations calls).Consistent ∧
        ∃ entries, entriesOf ⟨declarations, calls⟩ calls = .ok entries ∧
          entries.link (some calls) = .ok registry := by
  unfold declare
  rw [Outcome.bind_eq_ok_iff]
  have accepted : ∀ registrar, (Registrar.empty declarations).registerAll calls = .ok registrar ↔
      (Registrar.mk declarations calls).Consistent ∧ registrar = ⟨declarations, calls⟩ :=
    fun registrar => Registrar.registerAll_eq_ok_iff (Registrar.consistent_empty declarations)
  simp only [accepted, ofRegistrar, Outcome.bind_eq_ok_iff]
  constructor
  · intro declared
    obtain ⟨registrar, ⟨consistent, rfl⟩, built⟩ := declared
    exact ⟨consistent, built⟩
  · intro declared
    obtain ⟨consistent, built⟩ := declared
    exact ⟨_, ⟨consistent, rfl⟩, built⟩

/-- Another order of the calls changes nothing but the order of the types. -/
theorem declare_eq_ok_of_perm
    {declarations : Declarations} {calls calls' : List (TypeExpr × String)}
    (reordered : calls.Perm calls') {registry : Registry}
    (declared : declare declarations calls = .ok registry) :
    declare declarations calls' = .ok ⟨registry.entries, some calls'⟩ := by
  obtain ⟨consistent, entries, built, linked⟩ := declare_eq_ok_iff.mp declared
  have distinct : entries.Distinct := by
    obtain ⟨names, _⟩ := entriesOf_eq_ok built fun _ member => member
    rw [Distinct, names]
    exact consistent.names_distinct
  have sameNames := consistent.sameNames_of_perm reordered
  obtain ⟨entries', built', permuted⟩ := entriesOf_perm reordered built
  obtain ⟨closed, rfl⟩ := distinct.link_eq_ok_iff.mp linked
  refine declare_eq_ok_iff.mpr ⟨consistent.perm reordered, entries', ?_, ?_⟩
  · rw [entriesOf_congr sameNames.agreeOn fun _ _ => trivial]
    exact built'
  · apply (distinct.perm permuted).link_eq_ok_iff.mpr
    exact ⟨closed.perm distinct permuted, by rw [distinct.sorted_relabel_perm permuted]⟩

theorem types?_of_declare
    {declarations : Declarations} {calls : List (TypeExpr × String)} {registry : Registry}
    (declared : declare declarations calls = .ok registry) : registry.types? = some calls := by
  obtain ⟨_, entries, _, linked⟩ := declare_eq_ok_iff.mp declared
  obtain ⟨arena, _, rfl⟩ := Outcome.map_eq_ok_iff.mp linked
  rfl

/-- Whether calls declare a registry, and which one, does not depend on their order:
it has the same encoding, identifiers and names, and the same schema or failure for
every type. -/
theorem declare_perm
    {declarations : Declarations} {calls calls' : List (TypeExpr × String)}
    (reordered : calls.Perm calls') :
    ((∃ registry, declare declarations calls = .ok registry) ↔
      ∃ registry, declare declarations calls' = .ok registry) ∧
    ∀ registry registry', declare declarations calls = .ok registry →
      declare declarations calls' = .ok registry' →
      registry.encode = registry'.encode ∧
      registry.reference = registry'.reference ∧
      registry.names = registry'.names ∧
      (∀ name, registry.schemaReference name = registry'.schemaReference name) ∧
      ∀ type, registry.schemaByType type = registry'.schemaByType type := by
  constructor
  · constructor
    · intro declared
      obtain ⟨registry, declared⟩ := declared
      exact ⟨_, declare_eq_ok_of_perm reordered declared⟩
    · intro declared
      obtain ⟨registry, declared⟩ := declared
      exact ⟨_, declare_eq_ok_of_perm reordered.symm declared⟩
  · intro registry registry' declared declared'
    have consistent := (declare_eq_ok_iff.mp declared).1
    have types := types?_of_declare declared
    have same := declare_eq_ok_of_perm reordered declared
    rw [declared'] at same
    cases same
    refine ⟨rfl, rfl, rfl, fun _ => rfl, fun type => ?_⟩
    have sameName := (consistent.sameNames_of_perm reordered).name? type
    unfold schemaByType
    rw [types]
    simp only [Registrar.name?] at sameName
    simp only [sameName]
    rfl

/-- Folders hold files, and a file refers to its folder and holds further folders. -/
def folderDeclarations : Declarations :=
  [("Folder", .struct [.plain "files" (.slice (.declared "File"))]),
    ("File", .struct [.reference "folder" "Folder",
      .plain "attached" (.slice (.declared "Folder"))])]

def folderCalls : List (TypeExpr × String) :=
  [(.declared "Folder", "Folder"), (.declared "File", "File")]

def folderSchema : Schema :=
  .struct (some "Folder") [⟨"files", "", .slice none (.placeholder .struct "File")⟩]

def fileSchema : Schema :=
  .struct (some "File") [⟨"folder", Tag.naming "Folder", .referenceTo .single "Folder"⟩,
    ⟨"attached", "", .slice none (.placeholder .struct "Folder")⟩]

def folderRegistry : Registry :=
  ⟨[("File", fileSchema), ("Folder", folderSchema)], some folderCalls⟩

private theorem build_folder :
    Registrar.build ⟨folderDeclarations, folderCalls⟩ (.declared "Folder") [] =
      .ok folderSchema := by
  have files : Registrar.build ⟨folderDeclarations, folderCalls⟩ (.slice (.declared "File"))
      [.declared "Folder"] = .ok (.slice none (.placeholder .struct "File")) := by
    rw [Registrar.build_of_slice (by decide) rfl]
    rfl
  have fields : Registrar.buildFields ⟨folderDeclarations, folderCalls⟩
      [.plain "files" (.slice (.declared "File"))] [.declared "Folder"] =
        .ok folderSchema.fields := by
    rw [Registrar.buildFields, Registrar.buildFields, FieldDeclaration.plain, files]
    rfl
  rw [Registrar.build_of_struct List.not_mem_nil rfl]
  exact Outcome.bind_eq_ok_iff.mpr ⟨_, fields, rfl⟩

private theorem build_file :
    Registrar.build ⟨folderDeclarations, folderCalls⟩ (.declared "File") [] =
      .ok fileSchema := by
  have attached : Registrar.build ⟨folderDeclarations, folderCalls⟩
      (.slice (.declared "Folder")) [.declared "File"] =
        .ok (.slice none (.placeholder .struct "Folder")) := by
    rw [Registrar.build_of_slice (by decide) rfl]
    rfl
  have fields : Registrar.buildFields ⟨folderDeclarations, folderCalls⟩
      [.reference "folder" "Folder", .plain "attached" (.slice (.declared "Folder"))]
      [.declared "File"] = .ok fileSchema.fields := by
    rw [Registrar.buildFields, Registrar.buildFields, Registrar.buildFields,
      FieldDeclaration.plain, attached]
    rfl
  rw [Registrar.build_of_struct List.not_mem_nil rfl]
  exact Outcome.bind_eq_ok_iff.mpr ⟨_, fields, rfl⟩

theorem declare_folderRegistry :
    declare folderDeclarations folderCalls = .ok folderRegistry := by
  refine declare_eq_ok_iff.mpr ⟨?_, [("Folder", folderSchema), ("File", fileSchema)], ?_, ?_⟩
  · exact ⟨by decide, by decide, by decide, by decide⟩
  · refine entriesOf_cons_eq_ok_iff.mpr ⟨_, _, build_folder, ?_, rfl⟩
    exact entriesOf_cons_eq_ok_iff.mpr ⟨_, [], build_file, rfl, rfl⟩
  · have distinct : Distinct [("Folder", folderSchema), ("File", fileSchema)] := by
      unfold Distinct
      decide
    refine distinct.link_eq_ok_iff.mpr ⟨?_, rfl⟩
    unfold Closed
    decide

theorem declare_folderCalls_reversed :
    ∃ registry, declare folderDeclarations folderCalls.reverse = .ok registry ∧
      registry.encode = folderRegistry.encode ∧
      registry.schemaByType (.declared "File") = .ok fileSchema := by
  have reordered : folderCalls.Perm folderCalls.reverse := (List.reverse_perm _).symm
  obtain ⟨registry, declared⟩ := (declare_perm reordered).1.mp ⟨_, declare_folderRegistry⟩
  obtain ⟨sameEncoding, _, _, _, sameSchemas⟩ :=
    (declare_perm reordered).2 _ _ declare_folderRegistry declared
  exact ⟨registry, declared, sameEncoding.symm, (sameSchemas (.declared "File")).symm⟩

end TypedObject.Registry
