import TypedObject.Proofs.Declaration.Description
import TypedObject.Proofs.Lookup
import TypedObject.Proofs.Schema.Relabel

/-!
# Where a built schema has references

The builder accepts a reference marker only as the type of a struct's field, so no
built schema is a reference and none has a reference among its elements.  It does not
ask what is called a scalar: the scalars of a built schema are of those kinds that
the declarations give to scalars.
-/

namespace TypedObject

/-- Whatever is called a scalar is of an allowed kind. -/
def TypeExpr.ScalarsIn (allowed : Kind → Prop) : TypeExpr → Prop
  | .scalar kind => allowed kind
  | .slice elem | .array _ elem => elem.ScalarsIn allowed
  | .marker _ | .declared _ => True

/-- Whatever a layout calls a scalar is of an allowed kind. -/
def Layout.ScalarsIn (allowed : Kind → Prop) : Layout → Prop
  | .scalar kind => allowed kind
  | .slice elem | .array _ elem => elem.ScalarsIn allowed
  | .struct fields => ∀ field ∈ fields, field.type.ScalarsIn allowed
  | .marker _ => True

/-- Whatever declarations call a scalar is of an allowed kind. -/
def Declarations.ScalarsIn (allowed : Kind → Prop) (declarations : Declarations) : Prop :=
  ∀ declaration ∈ declarations, declaration.2.ScalarsIn allowed

section Allowed

variable {allowed : Kind → Prop}

theorem TypeExpr.scalarsIn_of_forall (all : ∀ kind, allowed kind) (type : TypeExpr) :
    type.ScalarsIn allowed := by
  induction type with
  | scalar kind => exact all kind
  | slice elem induction => exact induction
  | array length elem induction => exact induction
  | _ => trivial

theorem Declarations.scalarsIn_of_forall
    (all : ∀ kind, allowed kind) (declarations : Declarations) :
    declarations.ScalarsIn allowed := by
  intro declaration _
  cases declaration.2 with
  | scalar kind => exact all kind
  | slice elem => exact elem.scalarsIn_of_forall all
  | array length elem => exact elem.scalarsIn_of_forall all
  | struct fields => exact fun field _ => field.type.scalarsIn_of_forall all
  | marker kind => trivial

theorem Declarations.ScalarsIn.layout
    {declarations : Declarations} (scalars : declarations.ScalarsIn allowed) {type : TypeExpr}
    (typeScalars : type.ScalarsIn allowed) : (declarations.layout type).ScalarsIn allowed := by
  cases type with
  | declared name =>
      rw [Declarations.layout]
      cases found : declarations.lookup name with
      | none =>
          intro field member
          cases member
      | some layout => exact scalars _ (Lookup.mem_of_lookup found)
  | _ => exact typeScalars

namespace Schema

/-- Elements are no references, references lead to registered types, and scalars are
of an allowed kind. -/
def ArrangedNode (allowed : Kind → Prop) : Schema → Prop
  | scalar kind _ => allowed kind
  | array _ _ elem | slice _ elem => elem.isReference = false
  | reference _ target => target.isPlaceholder = true
  | struct .. | openReference .. | placeholder .. => True

/-- Every node of the tree is arranged. -/
def Arranged (allowed : Kind → Prop) (schema : Schema) : Prop :=
  ∀ node ∈ schema.nodes, ArrangedNode allowed node

theorem arranged_iff
    {schema : Schema} :
    Arranged allowed schema ↔
      ArrangedNode allowed schema ∧ ∀ part ∈ schema.parts, Arranged allowed part := by
  have root : ∀ tree : Schema, Arranged allowed tree ↔
      ArrangedNode allowed tree ∧ ∀ node ∈ tree.descendants, ArrangedNode allowed node :=
    fun tree => List.forall_mem_cons
  rw [root, forall_descendants_iff]
  simp only [root]

theorem arranged_placeholder (kind : Kind) (name : String) :
    Arranged allowed (.placeholder kind name) :=
  arranged_iff.mpr ⟨trivial, nofun⟩

theorem arranged_referenceTo (kind : ReferenceKind) (target : String) :
    Arranged allowed (.referenceTo kind target) := by
  apply arranged_iff.mpr
  exact ⟨rfl, List.forall_mem_singleton.mpr (arranged_placeholder _ _)⟩

theorem ArrangedNode.relabel
    {node : Schema} (arranged : ArrangedNode allowed node) (kindOf : String → Option Kind) :
    ArrangedNode allowed (node.relabel kindOf) := by
  cases node with
  | array name length elem => exact (isReference_relabel elem).trans arranged
  | slice name elem => exact (isReference_relabel elem).trans arranged
  | reference kind target => exact (isPlaceholder_relabel target).trans arranged
  | scalar kind name => exact arranged
  | _ => trivial

theorem Arranged.relabel
    {schema : Schema} (arranged : Arranged allowed schema) (kindOf : String → Option Kind) :
    Arranged allowed (schema.relabel kindOf) := by
  intro node member
  rw [nodes, descendants_relabel] at member
  rcases List.mem_cons.mp member with rfl | below
  · exact (arranged schema List.mem_cons_self).relabel kindOf
  · obtain ⟨before, inside, rfl⟩ := List.mem_map.mp below
    exact (arranged before (List.mem_cons_of_mem _ inside)).relabel kindOf

/-- A part of an arranged node is a reference only where it is a field's own schema. -/
theorem ArrangedNode.part
    {schema part : Schema} (arranged : ArrangedNode allowed schema) (inside : part ∈ schema.parts)
    (isReference : part.isReference = true) : ∃ field ∈ schema.fields, field.schema = part := by
  cases schema with
  | struct name fields => exact List.mem_map.mp inside
  | array name length elem =>
      cases List.mem_singleton.mp inside
      rw [show part.isReference = false from arranged] at isReference
      cases isReference
  | slice name elem =>
      cases List.mem_singleton.mp inside
      rw [show part.isReference = false from arranged] at isReference
      cases isReference
  | reference kind target =>
      cases List.mem_singleton.mp inside
      cases part with
      | placeholder kind name => cases isReference
      | _ => cases arranged
  | _ => cases inside

end Schema

namespace Registrar

variable {registrar : Registrar}

theorem arranged_of_placeholder?
    {type : TypeExpr} {schema : Schema} (known : registrar.placeholder? type = some schema) :
    schema.Arranged allowed ∧ schema.isReference = false := by
  obtain ⟨name, _, rfl⟩ := Option.map_eq_some_iff.mp known
  exact ⟨Schema.arranged_placeholder _ _, rfl⟩

theorem arranged_of_directSchema?
    {field : FieldDeclaration} {schema : Schema}
    (direct : registrar.directSchema? field = some (.ok schema)) : schema.Arranged allowed := by
  cases directSchema?_eq_some_iff.mp direct with
  | dynamic layout => exact Schema.arranged_iff.mpr ⟨trivial, nofun⟩
  | reference layout closed named => apply Schema.arranged_referenceTo
  | registered full named => apply Schema.arranged_placeholder

private theorem arranged_of_elem
    {elem : TypeExpr} {schema : Schema}
    (registered : ∀ placeholder,
      registrar.placeholder? elem = some placeholder → schema = placeholder)
    (expanded : registrar.placeholder? elem = none →
      schema.Arranged allowed ∧ schema.isReference = false) :
    schema.Arranged allowed ∧ schema.isReference = false := by
  cases known : registrar.placeholder? elem with
  | some placeholder =>
      rw [registered placeholder known]
      exact arranged_of_placeholder? known
  | none => exact expanded known

theorem Describes.arranged
    (scalars : registrar.declarations.ScalarsIn allowed) {type : TypeExpr} {schema : Schema}
    (described : Describes registrar type schema) (typeScalars : type.ScalarsIn allowed) :
    schema.Arranged allowed := by
  have layoutScalars : ∀ {type : TypeExpr}, type.ScalarsIn allowed →
      (registrar.layout type).ScalarsIn allowed := scalars.layout
  induction described with
  | @scalar type kind layout =>
      have kindAllowed := layoutScalars typeScalars
      rw [layout] at kindAllowed
      exact Schema.arranged_iff.mpr ⟨kindAllowed, nofun⟩
  | @slice type elem schema layout registered expanded induction =>
      have elemScalars := layoutScalars typeScalars
      rw [layout] at elemScalars
      obtain ⟨arranged, value⟩ := arranged_of_elem registered
        fun known => ⟨induction known elemScalars, (expanded known).isReference_eq⟩
      exact Schema.arranged_iff.mpr ⟨value, List.forall_mem_singleton.mpr arranged⟩
  | @array type elem length schema layout registered expanded induction =>
      have elemScalars := layoutScalars typeScalars
      rw [layout] at elemScalars
      obtain ⟨arranged, value⟩ := arranged_of_elem registered
        fun known => ⟨induction known elemScalars, (expanded known).isReference_eq⟩
      exact Schema.arranged_iff.mpr ⟨value, List.forall_mem_singleton.mpr arranged⟩
  | @struct type declared members layout included direct expanded induction =>
      have fieldsScalars := layoutScalars typeScalars
      rw [layout] at fieldsScalars
      refine Schema.arranged_iff.mpr ⟨trivial, fun part inside => ?_⟩
      obtain ⟨field, within, rfl⟩ := List.mem_map.mp inside
      obtain ⟨member, among, rfl⟩ := List.mem_map.mp within
      cases known : registrar.directSchema? member.1 with
      | some result =>
          rw [direct member among result known] at known
          exact arranged_of_directSchema? known
      | none =>
          have kept : member.1 ∈ declared.filter fun field => !field.isExcluded := by
            rw [← included]
            exact List.mem_map_of_mem among
          exact induction member among known
            (fieldsScalars member.1 (List.mem_filter.mp kept).1)

end Registrar

end Allowed

end TypedObject
