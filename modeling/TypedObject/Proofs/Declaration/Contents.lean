import Mathlib.Data.List.Forall2
import TypedObject.Proofs.Declaration.Soundness

/-!
# What a described schema consists of

A description is taken apart by the layout of the type: what stands for its elements and
what its fields become.  Nothing is left open, so a type has no two schemas.  Names
stand at the root and in placeholders only.
-/

namespace TypedObject.Registrar

/-- A registered type is represented by its name and kind, and every other type by its
schema in full. -/
inductive StandsFor (registrar : Registrar) (type : TypeExpr) : Schema → Prop where
  | registered {name : String} (named : registrar.name? type = some name) :
      StandsFor registrar type (.placeholder (registrar.layout type).kind name)
  | expanded {schema : Schema} (unnamed : registrar.name? type = none)
      (described : registrar.Describes type schema) : StandsFor registrar type schema

/-- What becomes of a field: the schema of a reference, a placeholder, or the schema of its type
in full. -/
inductive FieldBecomes (registrar : Registrar) (declared : FieldDeclaration) : Schema → Prop where
  | direct {schema : Schema} (direct : registrar.Direct declared (.ok schema)) :
      FieldBecomes registrar declared schema
  | expanded {schema : Schema} (full : (registrar.layout declared.type).isReference = false)
      (unnamed : registrar.name? declared.type = none)
      (described : registrar.Describes declared.type schema) :
      FieldBecomes registrar declared schema

/-- The field has the name and the tag of its declaration. -/
structure Carries (registrar : Registrar) (declared : FieldDeclaration) (field : Field) :
    Prop where
  name : field.name = declared.name
  tag : field.tag = declared.tag
  schema : registrar.FieldBecomes declared field.schema

/-- What the layout of a type makes of its schema: the kind of the root with the name of the
type, and inside it the elements or one field for each declaration that is not excluded. -/
inductive ConsistsOf (registrar : Registrar) (type : TypeExpr) : Schema → Prop where
  | scalar {kind : Kind} (layout : registrar.layout type = .scalar kind) :
      ConsistsOf registrar type (.scalar kind (registrar.name? type))
  | slice {elem : TypeExpr} {schema : Schema} (layout : registrar.layout type = .slice elem)
      (stands : registrar.StandsFor elem schema) :
      ConsistsOf registrar type (.slice (registrar.name? type) schema)
  | array {elem : TypeExpr} {length : Nat} {schema : Schema}
      (layout : registrar.layout type = .array length elem)
      (stands : registrar.StandsFor elem schema) :
      ConsistsOf registrar type (.array (registrar.name? type) length schema)
  | struct {declared : List FieldDeclaration} {fields : List Field}
      (layout : registrar.layout type = .struct declared)
      (carried : List.Forall₂ registrar.Carries
        (declared.filter fun field => !field.isExcluded) fields) :
      ConsistsOf registrar type (.struct (registrar.name? type) fields)

section Relations

variable {registrar : Registrar} {type : TypeExpr} {schema : Schema}
  {declared : FieldDeclaration}

theorem standsFor_iff :
    registrar.StandsFor type schema ↔
      (∀ placeholder, registrar.placeholder? type = some placeholder → schema = placeholder) ∧
        (registrar.placeholder? type = none → registrar.Describes type schema) := by
  constructor
  · intro stands
    cases stands with
    | registered named => simp [placeholder?_of_name? named]
    | expanded unnamed described => simp [placeholder?_eq_none_iff.mpr unnamed, described]
  · intro found
    obtain ⟨registered, expanded⟩ := found
    cases named : registrar.name? type with
    | some name =>
        obtain rfl := registered _ (placeholder?_of_name? named)
        exact .registered named
    | none => exact .expanded named (expanded (placeholder?_eq_none_iff.mpr named))

theorem fieldBecomes_iff :
    registrar.FieldBecomes declared schema ↔
      (∀ result, registrar.directSchema? declared = some result → result = .ok schema) ∧
        (registrar.directSchema? declared = none →
          registrar.Describes declared.type schema) := by
  constructor
  · intro becomes
    cases becomes with
    | direct direct => simp [directSchema?_eq_some_iff.mpr direct]
    | expanded full unnamed described =>
        simp [directSchema?_eq_none_iff.mpr ⟨full, unnamed⟩, described]
  · intro found
    obtain ⟨direct, expanded⟩ := found
    cases outcome : registrar.directSchema? declared with
    | some result =>
        rw [direct result outcome] at outcome
        exact .direct (directSchema?_eq_some_iff.mp outcome)
    | none =>
        obtain ⟨full, unnamed⟩ := directSchema?_eq_none_iff.mp outcome
        exact .expanded full unnamed (expanded outcome)

end Relations

variable {registrar : Registrar} {type : TypeExpr} {schema schema' : Schema}

theorem describesFields_iff
    {declared : List FieldDeclaration} {fields : List Field} :
    registrar.DescribesFields declared fields ↔
      List.Forall₂ registrar.Carries declared fields := by
  constructor
  · intro described
    obtain ⟨members, rfl, rfl, direct, expanded⟩ := described
    rw [List.forall₂_map_left_iff, List.forall₂_map_right_iff, List.forall₂_same]
    intro member inside
    exact ⟨rfl, rfl, fieldBecomes_iff.mpr ⟨direct member inside, expanded member inside⟩⟩
  · intro carried
    induction carried with
    | nil => exact ⟨[], rfl, rfl, nofun, nofun⟩
    | @cons declaration field declared fields first _ induction =>
        obtain ⟨members, rfl, rfl, direct, expanded⟩ := induction
        obtain ⟨name, tag, schema⟩ := field
        obtain ⟨rfl, rfl, becomes⟩ := first
        obtain ⟨directFirst, expandedFirst⟩ := fieldBecomes_iff.mp becomes
        exact ⟨(declaration, schema) :: members, rfl, rfl,
          List.forall_mem_cons.mpr ⟨directFirst, direct⟩,
          List.forall_mem_cons.mpr ⟨expandedFirst, expanded⟩⟩

/-- The layout of the type says all that the description does. -/
theorem describes_iff_consistsOf :
    registrar.Describes type schema ↔ registrar.ConsistsOf type schema := by
  constructor
  · intro described
    cases described with
    | scalar layout => exact .scalar layout
    | slice layout registered expanded =>
        exact .slice layout (standsFor_iff.mpr ⟨registered, expanded⟩)
    | array layout registered expanded =>
        exact .array layout (standsFor_iff.mpr ⟨registered, expanded⟩)
    | struct layout included direct expanded =>
        exact .struct layout (describesFields_iff.mp ⟨_, included, rfl, direct, expanded⟩)
  · intro consists
    cases consists with
    | scalar layout => exact .scalar layout
    | slice layout stands =>
        obtain ⟨registered, expanded⟩ := standsFor_iff.mp stands
        exact .slice layout registered expanded
    | array layout stands =>
        obtain ⟨registered, expanded⟩ := standsFor_iff.mp stands
        exact .array layout registered expanded
    | struct layout carried =>
        obtain ⟨members, included, rfl, direct, expanded⟩ := describesFields_iff.mpr carried
        exact .struct layout included direct expanded

/-- No type that the schema describes has another schema. -/
def Decisive (registrar : Registrar) (schema : Schema) : Prop :=
  ∀ type schema', registrar.Describes type schema → registrar.Describes type schema' →
    schema = schema'

theorem Decisive.eq_of_standsFor
    (decisive : registrar.Decisive schema) (stands : registrar.StandsFor type schema)
    (stands' : registrar.StandsFor type schema') : schema = schema' := by
  obtain ⟨registered, expanded⟩ := standsFor_iff.mp stands
  obtain ⟨registered', expanded'⟩ := standsFor_iff.mp stands'
  cases known : registrar.placeholder? type with
  | some placeholder => rw [registered placeholder known, registered' placeholder known]
  | none => exact decisive _ _ (expanded known) (expanded' known)

theorem Decisive.eq_of_fieldBecomes
    {declared : FieldDeclaration} (decisive : registrar.Decisive schema)
    (becomes : registrar.FieldBecomes declared schema)
    (becomes' : registrar.FieldBecomes declared schema') : schema = schema' := by
  obtain ⟨direct, expanded⟩ := fieldBecomes_iff.mp becomes
  obtain ⟨direct', expanded'⟩ := fieldBecomes_iff.mp becomes'
  cases outcome : registrar.directSchema? declared with
  | some result =>
      have same := (direct result outcome).symm.trans (direct' result outcome)
      cases same
      rfl
  | none => exact decisive _ _ (expanded outcome) (expanded' outcome)

theorem Decisive.eq_of_carries
    {declared : FieldDeclaration} {field field' : Field}
    (decisive : registrar.Decisive field.schema)
    (carries : registrar.Carries declared field) (carries' : registrar.Carries declared field') :
    field = field' := by
  obtain ⟨name, tag, schema⟩ := field
  obtain ⟨name', tag', schema'⟩ := field'
  obtain ⟨rfl, rfl, becomes⟩ := carries
  obtain ⟨rfl, rfl, becomes'⟩ := carries'
  obtain rfl : schema = schema' := decisive.eq_of_fieldBecomes becomes becomes'
  rfl

theorem eq_of_forall_decisive
    {declared : List FieldDeclaration} {fields fields' : List Field}
    (decisive : ∀ field ∈ fields, registrar.Decisive field.schema)
    (carried : List.Forall₂ registrar.Carries declared fields)
    (carried' : List.Forall₂ registrar.Carries declared fields') : fields = fields' := by
  induction carried generalizing fields' with
  | nil =>
      cases carried'
      rfl
  | cons first _ induction =>
      obtain ⟨decisiveFirst, decisiveRest⟩ := List.forall_mem_cons.mp decisive
      cases carried' with
      | cons first' rest' =>
          rw [decisiveFirst.eq_of_carries first first', induction decisiveRest rest']

theorem decisive (registrar : Registrar) (schema : Schema) : registrar.Decisive schema := by
  induction schema using Schema.induction_parts with
  | step schema induction =>
      intro type schema' described described'
      have consists' := describes_iff_consistsOf.mp described'
      cases describes_iff_consistsOf.mp described with
      | scalar layout => cases consists' <;> simp_all
      | slice layout stands =>
          have decisiveElem := induction _ (List.mem_singleton_self _)
          cases consists' with
          | slice layout' stands' =>
              rw [layout] at layout'
              cases layout'
              rw [decisiveElem.eq_of_standsFor stands stands']
          | _ layout' => simp [layout] at layout'
      | array layout stands =>
          have decisiveElem := induction _ (List.mem_singleton_self _)
          cases consists' with
          | array layout' stands' =>
              rw [layout] at layout'
              cases layout'
              rw [decisiveElem.eq_of_standsFor stands stands']
          | _ layout' => simp [layout] at layout'
      | struct layout carried =>
          cases consists' with
          | struct layout' carried' =>
              rw [layout] at layout'
              cases layout'
              have decisiveFields := List.forall_mem_map.mp induction
              rw [eq_of_forall_decisive decisiveFields carried carried']
          | _ layout' => simp [layout] at layout'

theorem Describes.unique
    (described : registrar.Describes type schema) (described' : registrar.Describes type schema') :
    schema = schema' :=
  decisive registrar schema type schema' described described'

/-- Only placeholders have names. -/
def Anonymous (schema : Schema) : Prop :=
  ∀ node ∈ schema.nodes, node.isPlaceholder = true ∨ node.name? = none

theorem anonymous_placeholder (kind : Kind) (name : String) :
    Anonymous (.placeholder kind name) :=
  List.forall_mem_singleton.mpr (.inl rfl)

theorem anonymous_of_parts
    (unnamed : schema.name? = none) (below : ∀ part ∈ schema.parts, Anonymous part) :
    Anonymous schema := by
  refine List.forall_mem_cons.mpr ⟨.inr unnamed, ?_⟩
  exact Schema.forall_descendants_iff.mpr fun part inside =>
    List.forall_mem_cons.mp (below part inside)

theorem StandsFor.anonymous
    (stands : registrar.StandsFor type schema)
    (below : registrar.Describes type schema → ∀ part ∈ schema.parts, Anonymous part) :
    Anonymous schema := by
  cases stands with
  | registered named => exact anonymous_placeholder _ _
  | expanded unnamed described =>
      exact anonymous_of_parts (described.name?_eq.trans unnamed) (below described)

theorem FieldBecomes.anonymous
    {declared : FieldDeclaration} (becomes : registrar.FieldBecomes declared schema)
    (below : registrar.Describes declared.type schema → ∀ part ∈ schema.parts, Anonymous part) :
    Anonymous schema := by
  cases becomes with
  | expanded full unnamed described =>
      exact anonymous_of_parts (described.name?_eq.trans unnamed) (below described)
  | direct direct =>
      cases direct with
      | dynamic layout => exact anonymous_of_parts rfl nofun
      | reference layout closed named =>
          exact anonymous_of_parts rfl (List.forall_mem_singleton.mpr (anonymous_placeholder _ _))
      | registered full named => exact anonymous_placeholder _ _

/-- Below the root of a description only placeholders have names. -/
theorem Describes.anonymous_parts
    (described : registrar.Describes type schema) : ∀ part ∈ schema.parts, Anonymous part := by
  induction schema using Schema.induction_parts generalizing type with
  | step schema induction =>
      intro part inside
      have below : ∀ inner, registrar.Describes inner part →
          ∀ node ∈ part.parts, Anonymous node :=
        fun inner described => induction part inside described
      cases described with
      | scalar layout => cases inside
      | slice layout registered expanded =>
          cases List.mem_singleton.mp inside
          exact (standsFor_iff.mpr ⟨registered, expanded⟩).anonymous (below _)
      | array layout registered expanded =>
          cases List.mem_singleton.mp inside
          exact (standsFor_iff.mpr ⟨registered, expanded⟩).anonymous (below _)
      | struct layout included direct expanded =>
          obtain ⟨field, among, rfl⟩ := List.mem_map.mp inside
          obtain ⟨member, within, rfl⟩ := List.mem_map.mp among
          have becomes := fieldBecomes_iff.mpr ⟨direct member within, expanded member within⟩
          exact becomes.anonymous (below _)

end TypedObject.Registrar
