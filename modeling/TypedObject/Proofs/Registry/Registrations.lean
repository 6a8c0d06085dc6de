import TypedObject.Proofs.Registry.AcceptedCalls

/-!
# Types and names in one-to-one correspondence

A call is accepted when its name is not empty, its type is no reference and both are
new among the calls accepted before; otherwise it changes nothing and its answer is the
first of these conditions that it breaks.  So the accepted calls pair types with names
one to one, and the registry that is made of them knows just these pairs.
-/

namespace TypedObject

namespace Registrar

/-- The calls that are answered with success. -/
def accepted (registrar : Registrar) (calls : List (TypeExpr × String)) :
    List (TypeExpr × String) :=
  ((calls.zip (registrar.attempts calls)).filter fun answered => answered.2.1.isOk).map (·.1)

/-- After the accepted calls the type may be registered under the name. -/
structure Admissible (declarations : Declarations) (accepted : List (TypeExpr × String))
    (type : TypeExpr) (name : String) : Prop where
  named : name ≠ ""
  full : (declarations.layout type).isReference = false
  freeName : ∀ call ∈ accepted, call.2 ≠ name
  freeType : ∀ call ∈ accepted, call.1 ≠ type

/-- The first condition that keeps the type from being registered under the name. -/
inductive Refused (declarations : Declarations) (accepted : List (TypeExpr × String))
    (type : TypeExpr) (name : String) : SchemaError → Prop where
  | emptyName (empty : name = "") : Refused declarations accepted type name .emptyName
  | referenceType (named : name ≠ "")
      (marker : (declarations.layout type).isReference = true) :
      Refused declarations accepted type name (.referenceType type)
  | duplicateName (named : name ≠ "") (full : (declarations.layout type).isReference = false)
      (taken : ∃ call ∈ accepted, call.2 = name) :
      Refused declarations accepted type name (.duplicateName name)
  | duplicateType (named : name ≠ "") (full : (declarations.layout type).isReference = false)
      (freeName : ∀ call ∈ accepted, call.2 ≠ name) {existing : String}
      (known : (type, existing) ∈ accepted) :
      Refused declarations accepted type name (.duplicateType type existing)

theorem attempt_of_ok
    {registrar registered : Registrar} {type : TypeExpr} {name : String}
    (success : registrar.register type name = .ok registered) :
    registrar.attempt type name = (.ok (), registered) := by
  rw [attempt, success]

theorem attempt_of_error
    {registrar : Registrar} {type : TypeExpr} {name : String} {error : SchemaError}
    (failed : registrar.register type name = .error error) :
    registrar.attempt type name = (.error error, registrar) := by
  rw [attempt, failed]

theorem exists_register_eq_ok_iff
    {registrar : Registrar} {type : TypeExpr} {name : String} :
    (∃ registered, registrar.register type name = .ok registered) ↔
      Admissible registrar.declarations registrar.entries type name := by
  simp only [register_eq_ok_iff, name?_eq_none_iff, exists_and_left, exists_eq, and_true]
  constructor
  · intro conditions
    obtain ⟨named, full, freeName, freeType⟩ := conditions
    exact ⟨named, full, freeName, freeType⟩
  · intro admissible
    exact ⟨admissible.named, admissible.full, admissible.freeName, admissible.freeType⟩

theorem refused_of_register
    {registrar : Registrar} (consistent : registrar.Consistent) {type : TypeExpr} {name : String}
    {error : SchemaError} (failed : registrar.register type name = .error error) :
    Refused registrar.declarations registrar.entries type name error := by
  unfold register at failed
  split at failed
  · rename_i empty
    cases failed
    exact .emptyName empty
  · rename_i named
    split at failed
    · rename_i marker
      cases failed
      exact .referenceType named marker
    · rename_i notMarker
      have full := Bool.eq_false_iff.mpr notMarker
      split at failed
      · rename_i taken
        cases failed
        obtain ⟨call, member, same⟩ := List.any_eq_true.mp taken
        exact .duplicateName named full ⟨call, member, of_decide_eq_true same⟩
      · rename_i notTaken
        have freeName : ∀ call ∈ registrar.entries, call.2 ≠ name := by
          intro call member same
          exact notTaken (List.any_eq_true.mpr ⟨call, member, decide_eq_true same⟩)
        split at failed
        · rename_i existing known
          cases failed
          exact .duplicateType named full freeName (consistent.name?_eq_some_iff.mp known)
        · cases failed

theorem register_of_refused
    {registrar : Registrar} (consistent : registrar.Consistent) {type : TypeExpr} {name : String}
    {error : SchemaError}
    (refused : Refused registrar.declarations registrar.entries type name error) :
    registrar.register type name = .error error := by
  unfold register
  cases refused with
  | emptyName empty => rw [if_pos empty]
  | referenceType named marker =>
      rw [if_neg named]
      exact if_pos marker
  | duplicateName named full taken =>
      obtain ⟨call, member, same⟩ := taken
      have found : registrar.entries.any (fun entry => entry.2 = name) = true :=
        List.any_eq_true.mpr ⟨call, member, decide_eq_true same⟩
      have notMarker : ¬(registrar.layout type).isReference = true := Bool.eq_false_iff.mp full
      rw [if_neg named, if_neg notMarker, if_pos found]
  | @duplicateType named full freeName existing known =>
      have notTaken : ¬registrar.entries.any (fun entry => entry.2 = name) = true := by
        intro taken
        obtain ⟨call, member, same⟩ := List.any_eq_true.mp taken
        exact freeName call member (of_decide_eq_true same)
      have notMarker : ¬(registrar.layout type).isReference = true := Bool.eq_false_iff.mp full
      rw [if_neg named, if_neg notMarker, if_neg notTaken,
        consistent.name?_eq_some_iff.mpr known]

/-- What a call is answered, and what it leaves behind. -/
theorem attempt_answers
    {registrar : Registrar} (consistent : registrar.Consistent) (type : TypeExpr)
    (name : String) :
    ((registrar.attempt type name).1 = .ok () ↔
      Admissible registrar.declarations registrar.entries type name) ∧
    ∀ error, ((registrar.attempt type name).1 = .error error ↔
        Refused registrar.declarations registrar.entries type name error) ∧
      ((registrar.attempt type name).1 = .error error →
        (registrar.attempt type name).2 = registrar) := by
  cases outcome : registrar.register type name with
  | ok registered =>
      rw [attempt_of_ok outcome, ← exists_register_eq_ok_iff]
      refine ⟨iff_of_true rfl ⟨registered, outcome⟩, ?_⟩
      intro error
      refine ⟨iff_of_false nofun ?_, nofun⟩
      intro refused
      rw [register_of_refused consistent refused] at outcome
      cases outcome
  | error error =>
      rw [attempt_of_error outcome, ← exists_register_eq_ok_iff]
      refine ⟨iff_of_false nofun ?_, ?_⟩
      · rintro ⟨registered, success⟩
        rw [outcome] at success
        cases success
      · intro other
        refine ⟨⟨?_, ?_⟩, fun _ => rfl⟩
        · intro same
          cases same
          exact refused_of_register consistent outcome
        · intro refused
          rw [register_of_refused consistent refused] at outcome
          cases outcome
          rfl

theorem accepted_cons_of_ok
    {registrar registered : Registrar} {type : TypeExpr} {name : String}
    (success : registrar.register type name = .ok registered)
    (calls : List (TypeExpr × String)) :
    registrar.accepted ((type, name) :: calls) = (type, name) :: registered.accepted calls := by
  simp [accepted, attempts, attempt_of_ok success, Except.isOk, Except.toBool]

theorem accepted_cons_of_error
    {registrar : Registrar} {type : TypeExpr} {name : String} {error : SchemaError}
    (failed : registrar.register type name = .error error) (calls : List (TypeExpr × String)) :
    registrar.accepted ((type, name) :: calls) = registrar.accepted calls := by
  simp [accepted, attempts, attempt_of_error failed, Except.isOk, Except.toBool]

/-- The accepted calls alone lead to the same registrar, and none of them fails. -/
theorem registerAll_accepted
    (registrar : Registrar) (calls : List (TypeExpr × String)) :
    registrar.registerAll (registrar.accepted calls) = .ok (registrar.attemptAll calls) := by
  induction calls generalizing registrar with
  | nil => rfl
  | cons call calls induction =>
      obtain ⟨type, name⟩ := call
      cases outcome : registrar.register type name with
      | error error =>
          rw [accepted_cons_of_error outcome, attemptAll, attempt_of_error outcome]
          exact induction registrar
      | ok registered =>
          rw [accepted_cons_of_ok outcome, attemptAll, attempt_of_ok outcome, registerAll]
          exact Outcome.bind_eq_ok_iff.mpr ⟨registered, outcome, induction registered⟩

theorem attemptAll_of_registerAll
    {registrar registered : Registrar} {calls : List (TypeExpr × String)}
    (success : registrar.registerAll calls = .ok registered) :
    registrar.attemptAll calls = registered := by
  induction calls generalizing registrar with
  | nil =>
      cases success
      rfl
  | cons call calls induction =>
      obtain ⟨type, name⟩ := call
      obtain ⟨next, first, others⟩ := Outcome.bind_eq_ok_iff.mp success
      rw [attemptAll, attempt_of_ok first]
      exact induction others

theorem attemptAll_empty
    (declarations : Declarations) (calls : List (TypeExpr × String)) :
    (empty declarations).attemptAll calls = ⟨declarations, (empty declarations).accepted calls⟩ ∧
      ((empty declarations).attemptAll calls).Consistent := by
  obtain ⟨consistent, same⟩ := registerAll_eq_ok
    ((empty declarations).registerAll_accepted calls) (consistent_empty declarations)
  exact ⟨same, consistent⟩

end Registrar

namespace Registry

open Entries

variable {declarations : Declarations} {calls : List (TypeExpr × String)} {registry : Registry}

/-- Refused calls might as well not have been made. -/
theorem DeclaredBy.declare_accepted
    (declared : DeclaredBy declarations calls registry) :
    declare declarations ((Registrar.empty declarations).accepted calls) = .ok registry := by
  have accepts := (Registrar.empty declarations).registerAll_accepted calls
  rcases declared with all | some
  · obtain ⟨registrar, success, made⟩ := Outcome.bind_eq_ok_iff.mp all
    rw [Registrar.attemptAll_of_registerAll success] at accepts
    exact Outcome.bind_eq_ok_iff.mpr ⟨registrar, accepts, made⟩
  · exact Outcome.bind_eq_ok_iff.mpr ⟨_, accepts, some⟩

theorem perm_names_of_declare
    (declared : declare declarations calls = .ok registry) :
    registry.names.Perm (calls.map (·.2)) := by
  obtain ⟨consistent, entries, built, linked⟩ := declare_eq_ok_iff.mp declared
  obtain ⟨names, _⟩ := entriesOf_eq_ok built fun _ member => member
  have distinct : entries.Distinct := by
    rw [Distinct, names]
    exact consistent.names_distinct
  obtain ⟨_, rfl⟩ := distinct.link_eq_ok_iff.mp linked
  rw [← names, ← entries.map_fst_relabel]
  exact entries.relabel.perm_sorted.map _

variable {registrar : Registrar}

theorem MadeFrom.schemaByType_of_mem
    (made : registry.MadeFrom registrar) {type : TypeExpr} {name : String}
    (member : (type, name) ∈ registrar.entries) :
    registry.schemaByType type = registry.schemaByName name := by
  have known : registrar.entries.lookup type = some name :=
    made.consistent.name?_eq_some_iff.mpr member
  unfold schemaByType
  rw [made.types]
  simp only [known]

theorem MadeFrom.schemaByType_of_unknown
    (made : registry.MadeFrom registrar) {type : TypeExpr}
    (unknown : ∀ name, (type, name) ∉ registrar.entries) :
    registry.schemaByType type = .error (.unregisteredType type) := by
  have absent : registrar.entries.lookup type = none := by
    apply Registrar.name?_eq_none_iff.mpr
    rintro ⟨type', name⟩ member rfl
    exact unknown name member
  unfold schemaByType
  rw [made.types]
  simp only [absent]

/-- The registry holds one schema under each accepted name, which it also finds by the
type of the call. -/
theorem MadeFrom.mem_iff_schemaByType
    (made : registry.MadeFrom registrar) (registered : registry.entries.Registered)
    (ownNames : ∀ entry ∈ registry.entries, entry.2.name? = some entry.1) {type : TypeExpr}
    {name : String} :
    (type, name) ∈ registrar.entries ↔
      ∃ schema, registry.schemaByType type = .ok schema ∧
        registry.schemaByName name = .ok schema := by
  have distinct := registered.increasing.distinct
  have schemaByName_eq_ok_iff : ∀ {name schema},
      registry.schemaByName name = .ok schema ↔ (name, schema) ∈ registry.entries := by
    intro name schema
    rw [← distinct.lookup_eq_some_iff, schemaByName, schema?]
    cases registry.entries.lookup name <;> simp
  constructor
  · intro member
    obtain ⟨schema, kindOf, _, entry⟩ := made.holds _ member
    have found := schemaByName_eq_ok_iff.mpr entry
    exact ⟨_, (made.schemaByType_of_mem member).trans found, found⟩
  · intro found
    obtain ⟨schema, byType, byName⟩ := found
    by_cases known : ∃ name', (type, name') ∈ registrar.entries
    · obtain ⟨name', member⟩ := known
      rw [made.schemaByType_of_mem member] at byType
      have own := ownNames _ (schemaByName_eq_ok_iff.mp byName)
      have own' := ownNames _ (schemaByName_eq_ok_iff.mp byType)
      cases own.symm.trans own'
      exact member
    · rw [made.schemaByType_of_unknown fun name' member => known ⟨name', member⟩] at byType
      cases byType

/-- A call is accepted exactly when it is admissible after the calls accepted before,
and is else refused with the first condition that it breaks and without a trace.  The
accepted calls have different types and different names, and a registry that they
declare has their names and knows their types under these names and no other type. -/
theorem registrations_one_to_one
    (declarations : Declarations) (calls : List (TypeExpr × String)) :
    let registrar := (Registrar.empty declarations).attemptAll calls
    let accepted := (Registrar.empty declarations).accepted calls
    (∀ type name,
      ((registrar.attempt type name).1 = .ok () ↔
        Registrar.Admissible declarations accepted type name) ∧
      ∀ error, ((registrar.attempt type name).1 = .error error ↔
          Registrar.Refused declarations accepted type name error) ∧
        ((registrar.attempt type name).1 = .error error →
          (registrar.attempt type name).2 = registrar)) ∧
    (accepted.map (·.1)).Nodup ∧ (accepted.map (·.2)).Nodup ∧
    ∀ registry, DeclaredBy declarations calls registry →
      registry.names.Perm (accepted.map (·.2)) ∧
      (∀ type name, (type, name) ∈ accepted ↔
        ∃ schema, registry.schemaByType type = .ok schema ∧
          registry.schemaByName name = .ok schema) ∧
      ∀ type, (∀ name, (type, name) ∉ accepted) →
        registry.schemaByType type = .error (.unregisteredType type) := by
  intro registrar accepted
  have same : registrar = ⟨declarations, accepted⟩ :=
    (Registrar.attemptAll_empty declarations calls).1
  have consistent : registrar.Consistent := (Registrar.attemptAll_empty declarations calls).2
  refine ⟨?_, ?_, ?_, ?_⟩
  · intro type name
    rw [same] at consistent ⊢
    exact Registrar.attempt_answers consistent type name
  · rw [same] at consistent
    exact consistent.types_distinct
  · rw [same] at consistent
    exact consistent.names_distinct
  · intro registry declared
    have made := madeFrom_of_declare declared.declare_accepted
    refine ⟨perm_names_of_declare declared.declare_accepted, ?_, ?_⟩
    · intro type name
      exact made.mem_iff_schemaByType declared.registered declared.own_names
    · intro type unknown
      exact made.schemaByType_of_unknown unknown

/-- The folder calls among others that are refused: for an empty name, for a reference,
for a name that is taken and for a type that has a name. -/
def folderAttempts : List (TypeExpr × String) :=
  [(.declared "Folder", "Folder"), (.declared "File", ""), (.marker .single, "Marker"),
    (.declared "File", "File"), (.scalar .uint8, "File"), (.declared "Folder", "Directory")]

theorem folderAttempts_one_to_one :
    (((Registrar.empty folderDeclarations).attemptAll folderAttempts).attempt
        (.declared "File") "Note").1 = .error (.duplicateType (.declared "File") "File") ∧
      declareAccepted folderDeclarations folderAttempts = .ok folderRegistry ∧
      folderRegistry.names.Perm ["Folder", "File"] ∧
      (∃ schema, folderRegistry.schemaByType (.declared "File") = .ok schema ∧
        folderRegistry.schemaByName "File" = .ok schema) ∧
      folderRegistry.schemaByType (.scalar .uint8) =
        .error (.unregisteredType (.scalar .uint8)) := by
  have accepted : (Registrar.empty folderDeclarations).accepted folderAttempts = folderCalls := by
    decide
  have declared : declareAccepted folderDeclarations folderAttempts = .ok folderRegistry := by
    have all := (Registrar.attemptAll_empty folderDeclarations folderAttempts).1
    rw [accepted] at all
    rw [declareAccepted, all]
    obtain ⟨_, built⟩ := declare_eq_ok_iff.mp declare_folderRegistry
    exact Outcome.bind_eq_ok_iff.mpr built
  obtain ⟨answers, _, _, made⟩ := registrations_one_to_one folderDeclarations folderAttempts
  obtain ⟨names, known, unknown⟩ := made folderRegistry (.inr declared)
  rw [accepted] at names
  refine ⟨?_, declared, names, ?_, ?_⟩
  · apply ((answers (.declared "File") "Note").2 _).1.mpr
    rw [accepted]
    exact .duplicateType (by decide) (by decide) (by decide) (by decide)
  · apply (known (.declared "File") "File").mp
    rw [accepted]
    decide
  · apply unknown
    rw [accepted]
    simp [folderCalls]

end Registry

end TypedObject
