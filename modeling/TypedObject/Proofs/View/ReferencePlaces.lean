import TypedObject.Proofs.Declaration.Arrangement
import TypedObject.Proofs.Registry.AcceptedCalls
import TypedObject.Proofs.View.Reachable

/-!
# References are fields

In a declared registry no entry and no element is a reference schema: a reference that
is reached is the own schema of some struct's field.  The same is true of the kind
that views show, as long as no declaration says that a scalar is of kind reference.
-/

namespace TypedObject

namespace View

/-- The schema is written in a field of a struct that is reached, where nothing stands
for it. -/
def OwnOfField (registry : Registry) (schema : Schema) : Prop :=
  ∃ owner : View, Reachable registry owner ∧ ∃ field ∈ owner.fields, field.schema = schema

/-- No entry, element or target is a reference, and fields have references only as their
own schemas. -/
structure OnlyInFields (isReference : Schema → Prop) (registry : Registry) : Prop where
  entries : ∀ entry ∈ registry.entries, ¬isReference entry.2
  elems : ∀ view elem, Reachable registry view → view.elem = .ok elem → ¬isReference elem.schema
  others : ∀ view, Reachable registry view → isReference view.schema →
    OwnOfField registry view.schema

variable {registry : Registry} {allowed : Kind → Prop}

theorem Reachable.arrangedNode
    (arranged : ∀ entry ∈ registry.entries, entry.2.Arranged allowed) {view : View}
    (reachable : Reachable registry view) : view.schema.ArrangedNode allowed := by
  obtain ⟨_, entry, member, inside⟩ := reachable.mem_nodes
  exact arranged entry member _ inside

/-- Following a part leads to a reference only where the part is one. -/
theorem schema_of_follow_of_isReference
    (values : ∀ entry ∈ registry.entries, entry.2.isReference = false) {part : Schema}
    {next : View} (followed : View.follow registry part = .ok next)
    (isReference : next.schema.isReference = true) : next.schema = part := by
  obtain ⟨_, same | ⟨entry, member, same⟩⟩ := schema_of_follow followed
  · exact same
  · rw [same, values entry member] at isReference
    cases isReference

theorem fields_eq_nil_of_elem {view elem : View} (followed : view.elem = .ok elem) :
    view.fields = [] := by
  obtain ⟨registry, schema⟩ := view
  cases schema with
  | struct name fields => cases followed
  | _ => rfl

/-- Elements and targets are no references, for only fields may be. -/
theorem Reachable.isReference_elem
    (arranged : ∀ entry ∈ registry.entries, entry.2.Arranged allowed)
    (values : ∀ entry ∈ registry.entries, entry.2.isReference = false) {view elem : View}
    (reachable : Reachable registry view) (followed : view.elem = .ok elem) :
    elem.schema.isReference = false := by
  apply Bool.eq_false_of_not_eq_true
  intro isReference
  obtain ⟨part, inside, followedPart⟩ := exists_part_of_elem followed
  rw [reachable.mem_nodes.1] at followedPart
  rw [schema_of_follow_of_isReference values followedPart isReference] at isReference
  obtain ⟨field, member, _⟩ := (reachable.arrangedNode arranged).part inside isReference
  have none : field ∈ view.fields := member
  rw [fields_eq_nil_of_elem followed] at none
  cases none

/-- A reference that is reached is the own schema of a field. -/
theorem Reachable.ownOfField
    (arranged : ∀ entry ∈ registry.entries, entry.2.Arranged allowed)
    (values : ∀ entry ∈ registry.entries, entry.2.isReference = false) {view : View}
    (reachable : Reachable registry view) (isReference : view.schema.isReference = true) :
    OwnOfField registry view.schema := by
  cases reachable with
  | byName found =>
      obtain ⟨schema, known, rfl⟩ := Outcome.map_eq_ok_iff.mp found
      have member := Lookup.mem_of_lookup (schemaByName_eq_ok_iff.mp known)
      rw [values _ member] at isReference
      cases isReference
  | byReference found =>
      obtain ⟨schema, known, rfl⟩ := Outcome.map_eq_ok_iff.mp found
      obtain ⟨entry, member, rfl, _⟩ := exists_entry_of_schemaByReference known
      rw [values _ member] at isReference
      cases isReference
  | @step owner _ _ reached taken =>
      obtain ⟨part, inside, followed⟩ := exists_part_of_step taken
      rw [reached.mem_nodes.1] at followed
      have own := schema_of_follow_of_isReference values followed isReference
      rw [own] at isReference ⊢
      exact ⟨owner, reached, (reached.arrangedNode arranged).part inside isReference⟩

/-- Where no scalar is of kind reference, only references show that kind. -/
theorem isReference_of_kind
    {schema : Schema} (full : schema.isPlaceholder = false)
    (arranged : schema.ArrangedNode (· ≠ .reference)) (kind : schema.kind = .reference) :
    schema.isReference = true := by
  cases schema with
  | scalar _ name => exact absurd kind arranged
  | placeholder _ name => cases full
  | reference _ target => rfl
  | openReference _ => rfl
  | _ => cases kind

theorem onlyInFields_of_arranged
    (arranged : ∀ entry ∈ registry.entries, entry.2.Arranged allowed)
    (values : ∀ entry ∈ registry.entries, entry.2.isReference = false) :
    OnlyInFields (fun schema => schema.isReference = true) registry where
  entries entry member := Bool.eq_false_iff.mp (values entry member)
  elems _ _ reachable followed :=
    Bool.eq_false_iff.mp (reachable.isReference_elem arranged values followed)
  others _ reachable isReference := reachable.ownOfField arranged values isReference

/-- Where no scalar is of kind reference, what is true of references is true of that kind. -/
theorem OnlyInFields.of_kind
    (onlyInFields : OnlyInFields (fun schema => schema.isReference = true) registry)
    (registered : registry.entries.Registered)
    (arranged : ∀ entry ∈ registry.entries, entry.2.Arranged (· ≠ .reference)) :
    OnlyInFields (fun schema => schema.kind = .reference) registry := by
  have reachableReference : ∀ {view : View}, Reachable registry view →
      view.schema.kind = .reference → view.schema.isReference = true := by
    intro view reachable kind
    exact isReference_of_kind (reachable.linked registered).full
      (reachable.arrangedNode arranged) kind
  constructor
  · intro entry member kind
    apply onlyInFields.entries entry member
    exact isReference_of_kind (registered.full entry member)
      (arranged entry member _ List.mem_cons_self) kind
  · intro view elem reachable followed kind
    exact onlyInFields.elems view elem reachable followed
      (reachableReference (reachable.elem followed) kind)
  · intro view reachable kind
    exact onlyInFields.others view reachable (reachableReference reachable kind)

end View

namespace Registry

variable {registry : Registry} {registrar : Registrar} {allowed : Kind → Prop}

theorem MadeFrom.isReference_eq
    (made : registry.MadeFrom registrar) :
    ∀ entry ∈ registry.entries, entry.2.isReference = false := by
  intro entry member
  obtain ⟨type, schema, kindOf, _, describes, same⟩ := made.described entry member
  rw [same, Schema.isReference_relabel]
  exact describes.isReference_eq

theorem MadeFrom.arranged
    (made : registry.MadeFrom registrar) (scalars : registrar.declarations.ScalarsIn allowed)
    (typesScalars : ∀ call ∈ registrar.entries, call.1.ScalarsIn allowed) :
    ∀ entry ∈ registry.entries, entry.2.Arranged allowed := by
  intro entry member
  obtain ⟨type, schema, kindOf, among, describes, same⟩ := made.described entry member
  rw [same]
  exact (describes.arranged scalars (typesScalars _ among)).relabel kindOf

end Registry

namespace View

/-- In a declared registry references are the own schemas of fields and nothing else.
So are the schemas of kind reference if no declaration gives that kind to a scalar. -/
theorem references_only_in_fields
    {declarations : Declarations} {calls : List (TypeExpr × String)} {registry : Registry}
    (declared : Registry.DeclaredBy declarations calls registry) :
    OnlyInFields (fun schema => schema.isReference = true) registry ∧
    (declarations.ScalarsIn (· ≠ .reference) →
      (∀ call ∈ calls, call.1.ScalarsIn (· ≠ .reference)) →
      OnlyInFields (fun schema => schema.kind = .reference) registry) := by
  obtain ⟨accepted, inside, made⟩ := declared.exists_madeFrom
  have any : ∀ kind : Kind, (fun _ => True) kind := fun _ => trivial
  have onlyInFields := onlyInFields_of_arranged
    (made.arranged (declarations.scalarsIn_of_forall any)
      fun call _ => call.1.scalarsIn_of_forall any)
    made.isReference_eq
  refine ⟨onlyInFields, fun scalars typesScalars => ?_⟩
  apply onlyInFields.of_kind declared.registered
  exact made.arranged scalars fun call among => typesScalars call (inside.subset among)

theorem onlyInFields_nodeRegistry :
    Registry.nodeDeclarations.ScalarsIn (· ≠ .reference) ∧
      OnlyInFields (fun schema => schema.kind = .reference) Registry.nodeRegistry := by
  have scalars : Registry.nodeDeclarations.ScalarsIn (· ≠ .reference) := by
    intro declaration member
    cases List.mem_singleton.mp member
    simp [Layout.ScalarsIn, Registry.nodeFields, FieldDeclaration.plain,
      FieldDeclaration.reference, TypeExpr.ScalarsIn]
  have declared : Registry.DeclaredBy _ _ Registry.nodeRegistry :=
    .inl Registry.declare_nodeRegistry
  refine ⟨scalars, (references_only_in_fields declared).2 scalars ?_⟩
  exact List.forall_mem_singleton.mpr trivial

end View

namespace Registry

/-- A type that is said to be a scalar of kind reference, and lists of it. -/
def pointerDeclarations : Declarations :=
  [("Pointer", .scalar .reference), ("Pointers", .slice (.declared "Pointer"))]

def pointerCalls : List (TypeExpr × String) :=
  [(.declared "Pointer", "Pointer"), (.declared "Pointers", "Pointers")]

def pointerRegistry : Registry :=
  ⟨[("Pointer", .scalar .reference (some "Pointer")),
    ("Pointers", .slice (some "Pointers") (.placeholder .reference "Pointer"))],
    some pointerCalls⟩

theorem declare_pointerRegistry :
    declare pointerDeclarations pointerCalls = .ok pointerRegistry := by
  have pointer : Registrar.schemaOf ⟨pointerDeclarations, pointerCalls⟩ (.declared "Pointer") =
      .ok (.scalar .reference (some "Pointer")) :=
    Registrar.build_of_scalar List.not_mem_nil rfl
  have pointers : Registrar.schemaOf ⟨pointerDeclarations, pointerCalls⟩ (.declared "Pointers") =
      .ok (.slice (some "Pointers") (.placeholder .reference "Pointer")) := by
    rw [Registrar.schemaOf, Registrar.build_of_slice List.not_mem_nil rfl]
    rfl
  refine declare_eq_ok_iff.mpr ⟨?_, pointerRegistry.entries, ?_, ?_⟩
  · exact ⟨by decide, by decide, by decide, by decide⟩
  · refine entriesOf_cons_eq_ok_iff.mpr ⟨_, _, pointer, ?_, rfl⟩
    exact entriesOf_cons_eq_ok_iff.mpr ⟨_, [], pointers, rfl, rfl⟩
  · have distinct : pointerRegistry.entries.Distinct := by
      unfold Entries.Distinct
      decide
    refine distinct.link_eq_ok_iff.mpr ⟨?_, rfl⟩
    unfold Entries.Closed
    decide

end Registry

namespace View

def pointersView : View :=
  ⟨Registry.pointerRegistry, .slice (some "Pointers") (.placeholder .reference "Pointer")⟩

/-- A registered type and an element of kind reference. -/
theorem not_onlyInFields_pointerRegistry :
    Registry.DeclaredBy Registry.pointerDeclarations Registry.pointerCalls
      Registry.pointerRegistry ∧
    (∃ entry ∈ Registry.pointerRegistry.entries, entry.2.kind = .reference) ∧
    Reachable Registry.pointerRegistry pointersView ∧ pointersView.kind = .slice ∧
    ∃ elem, pointersView.elem = .ok elem ∧ elem.kind = .reference := by
  refine ⟨.inl Registry.declare_pointerRegistry, ?_, ?_, rfl, ?_⟩
  · exact ⟨_, List.mem_cons_self, rfl⟩
  · exact .byName (rfl : Registry.pointerRegistry.viewByName "Pointers" = .ok pointersView)
  · exact ⟨⟨Registry.pointerRegistry, .scalar .reference (some "Pointer")⟩, rfl, rfl⟩

end View

end TypedObject
