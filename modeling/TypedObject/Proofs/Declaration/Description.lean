import TypedObject.Declaration.Build
import TypedObject.Proofs.Outcome
import TypedObject.Proofs.Schema.Formed

/-!
# What a built schema describes

The builder keeps a path of types being expanded, which decides whether it ends
with a schema but not with which one.  `Describes` relates a type to its schema
without a path; whatever is built is described, and what is known about built
schemas follows by induction on the description.
-/

namespace TypedObject

namespace Registrar

/-- The schema describes the type: registered members are placeholders, and all
other members are described in place. -/
inductive Describes (registrar : Registrar) : TypeExpr → Schema → Prop where
  | scalar {type : TypeExpr} {kind : Kind}
      (layout : registrar.layout type = .scalar kind) :
      Describes registrar type (.scalar kind (registrar.name? type))
  | slice {type elem : TypeExpr} {schema : Schema}
      (layout : registrar.layout type = .slice elem)
      (registered : ∀ placeholder,
        registrar.placeholder? elem = some placeholder → schema = placeholder)
      (expanded : registrar.placeholder? elem = none → Describes registrar elem schema) :
      Describes registrar type (.slice (registrar.name? type) schema)
  | array {type elem : TypeExpr} {length : Nat} {schema : Schema}
      (layout : registrar.layout type = .array length elem)
      (registered : ∀ placeholder,
        registrar.placeholder? elem = some placeholder → schema = placeholder)
      (expanded : registrar.placeholder? elem = none → Describes registrar elem schema) :
      Describes registrar type (.array (registrar.name? type) length schema)
  | struct {type : TypeExpr} {declared : List FieldDeclaration}
      {members : List (FieldDeclaration × Schema)}
      (layout : registrar.layout type = .struct declared)
      (included : members.map (·.1) = declared.filter fun field => !field.isExcluded)
      (direct : ∀ member ∈ members, ∀ result,
        registrar.directSchema? member.1 = some result → result = .ok member.2)
      (expanded : ∀ member ∈ members,
        registrar.directSchema? member.1 = none → Describes registrar member.1.type member.2) :
      Describes registrar type (.struct (registrar.name? type)
        (members.map fun member => ⟨member.1.name, member.1.tag, member.2⟩))

/-- The schemas describe the fields. -/
def DescribesFields (registrar : Registrar) (declared : List FieldDeclaration)
    (fields : List Field) : Prop :=
  ∃ members : List (FieldDeclaration × Schema),
    members.map (·.1) = declared ∧
      fields = members.map (fun member => ⟨member.1.name, member.1.tag, member.2⟩) ∧
      (∀ member ∈ members, ∀ result,
        registrar.directSchema? member.1 = some result → result = .ok member.2) ∧
      ∀ member ∈ members,
        registrar.directSchema? member.1 = none → Describes registrar member.1.type member.2

section References

variable {registrar : Registrar} {field : FieldDeclaration} {result : Except SchemaError Schema}

/-- What becomes of a field that needs no expansion: it is a reference, or its type is
registered. -/
inductive Direct (registrar : Registrar) (field : FieldDeclaration) :
    Except SchemaError Schema → Prop where
  | dynamic (layout : registrar.layout field.type = .marker .dynamic) :
      Direct registrar field (.ok (.openReference .dynamic))
  | reference {kind : ReferenceKind} {target : String}
      (layout : registrar.layout field.type = .marker kind) (closed : kind ≠ .dynamic)
      (named : Tag.schemaName field.tag = .ok target) :
      Direct registrar field (.ok (.referenceTo kind target))
  | untagged {kind : ReferenceKind} {reason : Tag.Error}
      (layout : registrar.layout field.type = .marker kind) (closed : kind ≠ .dynamic)
      (unnamed : Tag.schemaName field.tag = .error reason) :
      Direct registrar field (.error (.missingReferenceTag field.name reason))
  | registered {name : String} (full : (registrar.layout field.type).isReference = false)
      (named : registrar.name? field.type = some name) :
      Direct registrar field (.ok (.placeholder (registrar.layout field.type).kind name))

theorem directSchema?_of_isReference
    (full : (registrar.layout field.type).isReference = false) :
    registrar.directSchema? field = (registrar.placeholder? field.type).map .ok := by
  unfold directSchema?
  cases layout : registrar.layout field.type with
  | marker kind =>
      rw [layout] at full
      cases full
  | _ => rfl

theorem directSchema?_eq_some_iff :
    registrar.directSchema? field = some result ↔ registrar.Direct field result := by
  constructor
  · intro known
    unfold directSchema? at known
    split at known
    · rename_i layout
      cases known
      exact .dynamic layout
    · rename_i kind closed layout
      split at known
      · rename_i target named
        cases known
        exact .reference layout closed named
      · rename_i reason unnamed
        cases known
        exact .untagged layout closed unnamed
    · rename_i notDynamic notMarker
      have full : (registrar.layout field.type).isReference = false := by
        cases layout : registrar.layout field.type with
        | marker kind => exact absurd layout (notMarker kind)
        | _ => rfl
      obtain ⟨placeholder, found, rfl⟩ := Option.map_eq_some_iff.mp known
      obtain ⟨name, named, rfl⟩ := Option.map_eq_some_iff.mp found
      exact .registered full named
  · intro direct
    cases direct with
    | dynamic layout => simp [directSchema?, layout]
    | reference layout closed named => simp [directSchema?, layout, named]
    | untagged layout closed unnamed => simp [directSchema?, layout, unnamed]
    | registered full named =>
        rw [directSchema?_of_isReference full, placeholder?, named]
        rfl

end References

theorem build_of_struct
    {registrar : Registrar} {type : TypeExpr} {path : List TypeExpr}
    {declared : List FieldDeclaration} (fresh : type ∉ path)
    (layout : registrar.declarations.layout type = .struct declared) :
    registrar.build type path = (do
      let fields ← registrar.buildFields (declared.filter fun field => !field.isExcluded)
        (type :: path)
      return .struct (registrar.name? type) fields) := by
  rw [build, dif_neg fresh]
  split <;> rename_i shape <;> rw [layout] at shape <;> cases shape
  rfl

private theorem elem_described
    {registrar : Registrar} {elem : TypeExpr} {path : List TypeExpr} {schema : Schema}
    (described : ∀ schema, registrar.build elem path = .ok schema →
      Describes registrar elem schema)
    (made : (match registrar.placeholder? elem with
      | some placeholder => Except.ok placeholder
      | none => registrar.build elem path) = .ok schema) :
    (∀ placeholder, registrar.placeholder? elem = some placeholder → schema = placeholder) ∧
      (registrar.placeholder? elem = none → Describes registrar elem schema) := by
  cases known : registrar.placeholder? elem with
  | some placeholder =>
      rw [known] at made
      cases made
      exact ⟨fun _ same => Option.some.inj same, nofun⟩
  | none =>
      rw [known] at made
      exact ⟨nofun, fun _ => described schema made⟩

theorem described_of_build (registrar : Registrar) :
    (∀ type path schema, registrar.build type path = .ok schema →
      Describes registrar type schema) ∧
    ∀ declared path fields, registrar.buildFields declared path = .ok fields →
      DescribesFields registrar declared fields := by
  have both := build.mutual_induct_unfolding registrar
    (fun type _ result => ∀ schema, result = .ok schema → Describes registrar type schema)
    (fun declared _ result => ∀ fields, result = .ok fields →
      DescribesFields registrar declared fields)
  apply both
  case case1 =>
    intro type path onPath schema built
    cases built
  case case2 =>
    intro type path fresh kind layout schema built
    cases built
    exact .scalar layout
  case case3 =>
    intro type path fresh elem layout described schema built
    obtain ⟨elemSchema, made, same⟩ := Outcome.bind_eq_ok_iff.mp built
    cases same
    obtain ⟨registered, expanded⟩ := elem_described described made
    exact .slice layout registered expanded
  case case4 =>
    intro type path fresh length elem layout described schema built
    obtain ⟨elemSchema, made, same⟩ := Outcome.bind_eq_ok_iff.mp built
    cases same
    obtain ⟨registered, expanded⟩ := elem_described described made
    exact .array layout registered expanded
  case case5 =>
    intro type path fresh declared layout included described schema built
    obtain ⟨fields, made, same⟩ := Outcome.bind_eq_ok_iff.mp built
    cases same
    obtain ⟨members, names, rfl, direct, expanded⟩ := described fields made
    exact .struct layout names direct expanded
  case case6 =>
    intro type path fresh kind layout schema built
    cases built
  case case7 =>
    intro path fields built
    cases built
    exact ⟨[], rfl, rfl, nofun, nofun⟩
  case case8 =>
    intro path field rest describedField describedRest fields built
    obtain ⟨schema, made, continued⟩ := Outcome.bind_eq_ok_iff.mp built
    obtain ⟨others, madeOthers, same⟩ := Outcome.bind_eq_ok_iff.mp continued
    cases same
    obtain ⟨members, names, rfl, direct, expanded⟩ := describedRest others madeOthers
    refine ⟨(field, schema) :: members, by rw [List.map_cons, names], rfl, ?_, ?_⟩
    · intro member inside result known
      rcases List.mem_cons.mp inside with rfl | later
      · rw [known] at made
        exact made
      · exact direct member later result known
    · intro member inside unknown
      rcases List.mem_cons.mp inside with rfl | later
      · rw [unknown] at made
        exact describedField schema made
      · exact expanded member later unknown

theorem describes_of_schemaOf
    {registrar : Registrar} {type : TypeExpr} {schema : Schema}
    (built : registrar.schemaOf type = .ok schema) : Describes registrar type schema :=
  (described_of_build registrar).1 type [] schema built

namespace Describes

variable {registrar : Registrar} {type : TypeExpr} {schema : Schema}

theorem name?_eq (described : Describes registrar type schema) :
    schema.name? = registrar.name? type := by
  cases described <;> rfl

theorem isPlaceholder_eq (described : Describes registrar type schema) :
    schema.isPlaceholder = false := by
  cases described <;> rfl

theorem isReference_eq (described : Describes registrar type schema) :
    schema.isReference = false := by
  cases described <;> rfl

end Describes

end Registrar

end TypedObject
