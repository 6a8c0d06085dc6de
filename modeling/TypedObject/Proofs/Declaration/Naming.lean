import TypedObject.Proofs.Declaration.Members
import TypedObject.Proofs.Declaration.Soundness

/-!
# Schemas depend on names and not on calls

The builder asks a registrar only what the layouts of types are and which names they
have; of a struct it leaves out the excluded fields before it looks at any other.
Registrars that agree on the names of types, and on the layouts of all that a type is
made of, build the same schema of it or fail alike, and calls in any order lead to such
registrars.
-/

namespace TypedObject.Registrar

/-- The types have the same names, and those in use, to which their members belong, are laid out
alike up to excluded fields. -/
structure AgreeOn (registrar registrar' : Registrar) (used : TypeExpr → Prop) : Prop where
  name? : ∀ type, registrar'.name? type = registrar.name? type
  layout : ∀ type, used type →
    (registrar'.layout type).withoutExcluded = (registrar.layout type).withoutExcluded
  members : ∀ type, used type → ∀ member ∈ (registrar.layout type).members, used member

/-- The same declarations, and the same name or none for every type. -/
structure SameNames (registrar registrar' : Registrar) : Prop where
  declarations : registrar.declarations = registrar'.declarations
  name? : ∀ type, registrar.name? type = registrar'.name? type

section Building

variable {registrar : Registrar} {type elem : TypeExpr} {path : List TypeExpr}

theorem build_of_mem (onPath : type ∈ path) :
    registrar.build type path = .error (.recursiveType type) := by
  rw [build, dif_pos onPath]

theorem build_of_scalar
    {kind : Kind} (fresh : type ∉ path)
    (layout : registrar.declarations.layout type = .scalar kind) :
    registrar.build type path = .ok (.scalar kind (registrar.name? type)) := by
  rw [build, dif_neg fresh]
  split <;> rename_i shape <;> rw [layout] at shape <;> cases shape
  rfl

theorem build_of_slice
    (fresh : type ∉ path) (layout : registrar.declarations.layout type = .slice elem) :
    registrar.build type path = (do
      let schema ← (match registrar.placeholder? elem with
        | some placeholder => .ok placeholder
        | none => registrar.build elem (type :: path))
      return .slice (registrar.name? type) schema) := by
  rw [build, dif_neg fresh]
  split <;> rename_i shape <;> rw [layout] at shape <;> cases shape
  rfl

theorem build_of_array
    {length : Nat} (fresh : type ∉ path)
    (layout : registrar.declarations.layout type = .array length elem) :
    registrar.build type path = (do
      let schema ← (match registrar.placeholder? elem with
        | some placeholder => .ok placeholder
        | none => registrar.build elem (type :: path))
      return .array (registrar.name? type) length schema) := by
  rw [build, dif_neg fresh]
  split <;> rename_i shape <;> rw [layout] at shape <;> cases shape
  rfl

theorem build_of_marker
    {kind : ReferenceKind} (fresh : type ∉ path)
    (layout : registrar.declarations.layout type = .marker kind) :
    registrar.build type path = .error (.nestedReference type) := by
  rw [build, dif_neg fresh]
  split <;> rename_i shape <;> rw [layout] at shape <;> cases shape

end Building

namespace AgreeOn

variable {registrar registrar' : Registrar} {used : TypeExpr → Prop} {type : TypeExpr}

/-- Only of a struct the layouts can differ. -/
theorem layout_eq
    (agree : AgreeOn registrar registrar' used) (inUse : used type) {layout : Layout}
    (known : registrar.declarations.layout type = layout)
    (noStruct : ∀ fields, layout ≠ .struct fields) :
    registrar'.declarations.layout type = layout := by
  rcases Layout.eq_or_struct_of_withoutExcluded (agree.layout type inUse) with same | struct
  · exact same.trans known
  · obtain ⟨fields, _, shape, _⟩ := struct
    exact absurd (known.symm.trans shape) (noStruct fields)

theorem elem
    (agree : AgreeOn registrar registrar' used) (inUse : used type) {elem : TypeExpr}
    (element : (registrar.layout type).elem? = some elem) : used elem :=
  agree.members type inUse elem (Layout.mem_members_iff.mpr (.inl element))

theorem included
    (agree : AgreeOn registrar registrar' used) (inUse : used type) :
    ∀ field ∈ (registrar.layout type).included, used field.type :=
  fun field among =>
    agree.members type inUse field.type (Layout.mem_members_iff.mpr (.inr ⟨field, among, rfl⟩))

theorem placeholder?
    (agree : AgreeOn registrar registrar' used) (inUse : used type) :
    registrar'.placeholder? type = registrar.placeholder? type := by
  have kind := congrArg Layout.kind (agree.layout type inUse)
  rw [Layout.kind_withoutExcluded, Layout.kind_withoutExcluded] at kind
  rw [Registrar.placeholder?, Registrar.placeholder?, agree.name?, kind]

theorem directSchema?
    (agree : AgreeOn registrar registrar' used) {field : FieldDeclaration}
    (inUse : used field.type) :
    registrar'.directSchema? field = registrar.directSchema? field := by
  unfold Registrar.directSchema?
  rcases Layout.eq_or_struct_of_withoutExcluded (agree.layout _ inUse) with same | struct
  · rw [same, agree.placeholder? inUse]
  · obtain ⟨_, _, layout, layout', _⟩ := struct
    rw [layout, layout', agree.placeholder? inUse]

/-- Along every path the same schema of a type in use is built, or the same failure is found. -/
theorem build (agree : AgreeOn registrar registrar' used) :
    (∀ type path, used type → registrar'.build type path = registrar.build type path) ∧
      ∀ fields path, (∀ field ∈ fields, used field.type) →
        registrar'.buildFields fields path = registrar.buildFields fields path := by
  have both := build.mutual_induct_unfolding registrar
    (fun type path result => used type → registrar'.build type path = result)
    (fun fields path result => (∀ field ∈ fields, used field.type) →
      registrar'.buildFields fields path = result)
  apply both
  case case1 =>
    intro type path onPath _
    exact build_of_mem onPath
  case case2 =>
    intro type path fresh kind layout inUse
    rw [build_of_scalar fresh (agree.layout_eq inUse layout (by simp)), agree.name?]
  case case3 =>
    intro type path fresh elem layout nested inUse
    have elemInUse : used elem := agree.elem inUse (congrArg Layout.elem? layout)
    have unfolded := build_of_slice fresh (agree.layout_eq inUse layout (by simp))
    rw [agree.placeholder? elemInUse, agree.name?, nested elemInUse] at unfolded
    exact unfolded
  case case4 =>
    intro type path fresh length elem layout nested inUse
    have elemInUse : used elem := agree.elem inUse (congrArg Layout.elem? layout)
    have unfolded := build_of_array fresh (agree.layout_eq inUse layout (by simp))
    rw [agree.placeholder? elemInUse, agree.name?, nested elemInUse] at unfolded
    exact unfolded
  case case5 =>
    intro type path fresh fields layout included nested inUse
    have includedInUse : ∀ field ∈ included, used field.type := by
      have inside := agree.included inUse
      rw [Registrar.layout, layout] at inside
      exact inside
    rcases Layout.eq_or_struct_of_withoutExcluded (agree.layout type inUse) with same | struct
    · rw [build_of_struct fresh (same.trans layout), agree.name?, nested includedInUse]
    · obtain ⟨_, _, shape, layout', filtered⟩ := struct
      cases layout.symm.trans shape
      rw [build_of_struct fresh layout', filtered, agree.name?, nested includedInUse]
  case case6 =>
    intro type path fresh kind layout inUse
    exact build_of_marker fresh (agree.layout_eq inUse layout (by simp))
  case case7 =>
    intro path _
    rw [Registrar.buildFields]
  case case8 =>
    intro path field rest nested others inUse
    obtain ⟨fieldInUse, restInUse⟩ := List.forall_mem_cons.mp inUse
    rw [Registrar.buildFields, agree.directSchema? fieldInUse, nested fieldInUse,
      others restInUse]

theorem schemaOf (agree : AgreeOn registrar registrar' used) (inUse : used type) :
    registrar'.schemaOf type = registrar.schemaOf type :=
  agree.build.1 type [] inUse

end AgreeOn

theorem SameNames.agreeOn {registrar registrar' : Registrar}
    (same : SameNames registrar registrar') :
    AgreeOn registrar registrar' fun _ => True := by
  refine ⟨fun type => (same.name? type).symm, fun type _ => ?_, fun _ _ _ _ => trivial⟩
  rw [Registrar.layout, Registrar.layout, same.declarations]

theorem Consistent.perm
    {registrar : Registrar} (consistent : registrar.Consistent)
    {entries : List (TypeExpr × String)} (reordered : registrar.entries.Perm entries) :
    Consistent { registrar with entries } := by
  constructor
  · intro entry member
    exact consistent.names_nonempty entry (reordered.mem_iff.mpr member)
  · intro entry member
    exact consistent.no_references entry (reordered.mem_iff.mpr member)
  · exact (reordered.map _).nodup_iff.mp consistent.names_distinct
  · exact (reordered.map _).nodup_iff.mp consistent.types_distinct

theorem Consistent.sameNames_of_perm
    {registrar : Registrar} (consistent : registrar.Consistent)
    {entries : List (TypeExpr × String)} (reordered : registrar.entries.Perm entries) :
    SameNames registrar { registrar with entries } := by
  refine ⟨rfl, fun type => ?_⟩
  apply Option.ext
  intro name
  rw [consistent.name?_eq_some_iff, (consistent.perm reordered).name?_eq_some_iff,
    reordered.mem_iff]

/-- A call that comes first among consistent entries is accepted. -/
theorem register_of_consistent
    {declarations : Declarations} {entries rest : List (TypeExpr × String)}
    {type : TypeExpr} {name : String}
    (consistent : Consistent ⟨declarations, entries ++ (type, name) :: rest⟩) :
    register ⟨declarations, entries⟩ type name =
      .ok ⟨declarations, entries ++ [(type, name)]⟩ := by
  have among : (type, name) ∈ entries ++ (type, name) :: rest := by simp
  have earlier : ∀ entry ∈ entries, entry.2 ≠ name ∧ entry.1 ≠ type := by
    intro entry member
    have names := consistent.names_distinct
    have types := consistent.types_distinct
    simp only [List.map_append, List.map_cons, List.nodup_append] at names types
    exact ⟨names.2.2 _ (List.mem_map_of_mem member) _ List.mem_cons_self,
      types.2.2 _ (List.mem_map_of_mem member) _ List.mem_cons_self⟩
  apply register_eq_ok_iff.mpr
  refine ⟨consistent.names_nonempty _ among, consistent.no_references _ among,
    fun entry member => (earlier entry member).1, ?_, rfl⟩
  exact name?_eq_none_iff.mpr fun entry member => (earlier entry member).2

/-- The calls are all accepted exactly when together they are consistent. -/
theorem registerAll_eq_ok_iff
    {declarations : Declarations} {entries calls : List (TypeExpr × String)}
    (consistent : Consistent ⟨declarations, entries⟩) {registered : Registrar} :
    registerAll ⟨declarations, entries⟩ calls = .ok registered ↔
      Consistent ⟨declarations, entries ++ calls⟩ ∧
        registered = ⟨declarations, entries ++ calls⟩ := by
  constructor
  · intro accepted
    obtain ⟨consistentAll, rfl⟩ := registerAll_eq_ok accepted consistent
    exact ⟨consistentAll, rfl⟩
  · intro found
    obtain ⟨consistentAll, rfl⟩ := found
    induction calls generalizing entries with
    | nil => rw [registerAll, List.append_nil]
    | cons call calls induction =>
        obtain ⟨type, name⟩ := call
        have accepted := register_of_consistent consistentAll
        have split : entries ++ (type, name) :: calls = (entries ++ [(type, name)]) ++ calls := by
          simp
        rw [split] at consistentAll ⊢
        refine Outcome.bind_eq_ok_iff.mpr ⟨_, accepted, ?_⟩
        exact induction (consistent.register accepted) consistentAll

end TypedObject.Registrar
