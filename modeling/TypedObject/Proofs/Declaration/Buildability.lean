import Mathlib.Logic.Relation
import TypedObject.Proofs.Declaration.Contents
import TypedObject.Proofs.Declaration.Naming

/-!
# Which types have schemas

The builder expands the members of a type that have no name, and theirs, and keeps the
path that it came on.  It always ends.  It succeeds exactly when no type is expanded
within itself, no element is a reference, and the references in fields say in their
tags what they refer to; then the schema is the only one that describes the type.  A
type that is expanded in several places is none that contains itself.
-/

namespace TypedObject

open Relation

namespace Registrar

variable {registrar : Registrar} {type member : TypeExpr} {schema : Schema}

/-- The member has no name.  It is a reference, which has no members, or it is expanded where the
type is. -/
def Expands (registrar : Registrar) (type member : TypeExpr) : Prop :=
  member ∈ (registrar.layout type).members ∧ registrar.name? member = none

/-- The type is the root or is expanded somewhere within it. -/
abbrev Reaches (registrar : Registrar) : (root type : TypeExpr) → Prop :=
  ReflTransGen registrar.Expands

/-- The inner type is expanded somewhere within the outer. -/
abbrev Contains (registrar : Registrar) : (outer inner : TypeExpr) → Prop :=
  TransGen registrar.Expands

theorem name?_of_contains {outer inner : TypeExpr} (contains : registrar.Contains outer inner) :
    registrar.name? inner = none := by
  obtain ⟨_, _, expands⟩ := TransGen.tail'_iff.mp contains
  exact expands.2

theorem not_expands_of_isReference
    (isReference : (registrar.layout type).isReference = true) :
    ¬registrar.Expands type member := by
  intro expands
  have inside := expands.1
  rw [Layout.members_eq_nil isReference] at inside
  cases inside

/-- The builder goes on from a type and a path to a member and a longer path. -/
inductive NestedCall (registrar : Registrar) :
    TypeExpr × List TypeExpr → TypeExpr × List TypeExpr → Prop where
  | elem {type elem : TypeExpr} {path : List TypeExpr} (fresh : type ∉ path)
      (element : (registrar.layout type).elem? = some elem)
      (unregistered : registrar.placeholder? elem = none) :
      NestedCall registrar (type, path) (elem, type :: path)
  | field {type : TypeExpr} {path : List TypeExpr} {field : FieldDeclaration}
      (fresh : type ∉ path) (included : field ∈ (registrar.layout type).included)
      (indirect : registrar.directSchema? field = none) :
      NestedCall registrar (type, path) (field.type, type :: path)

/-- Every chain of nested calls from there ends. -/
def Ends (registrar : Registrar) (type : TypeExpr) (path : List TypeExpr) : Prop :=
  Acc (fun next call => registrar.NestedCall call next) (type, path)

theorem ends_of_mem {path : List TypeExpr} (onPath : type ∈ path) : registrar.Ends type path := by
  constructor
  intro next call
  cases call with
  | elem fresh => contradiction
  | field fresh => contradiction

theorem ends_of_elem
    {path : List TypeExpr} {elem : TypeExpr} (element : (registrar.layout type).elem? = some elem)
    (noFields : (registrar.layout type).included = [])
    (later : registrar.Ends elem (type :: path)) : registrar.Ends type path := by
  constructor
  intro next call
  cases call with
  | elem _ same _ =>
      rw [element] at same
      cases same
      exact later
  | field _ included _ =>
      rw [noFields] at included
      cases included

theorem ends_of_included
    {path : List TypeExpr} (noElem : (registrar.layout type).elem? = none)
    (later : ∀ field ∈ (registrar.layout type).included, registrar.directSchema? field = none →
      registrar.Ends field.type (type :: path)) : registrar.Ends type path := by
  constructor
  intro next call
  cases call with
  | elem _ element _ =>
      rw [noElem] at element
      cases element
  | field _ included indirect => exact later _ included indirect

theorem ends (registrar : Registrar) :
    (∀ type path, registrar.Ends type path) ∧
      ∀ (fields : List FieldDeclaration) path, ∀ field ∈ fields,
        registrar.directSchema? field = none → registrar.Ends field.type path := by
  have both := build.mutual_induct_unfolding registrar
    (fun type path _ => registrar.Ends type path)
    (fun fields path _ => ∀ field ∈ fields,
      registrar.directSchema? field = none → registrar.Ends field.type path)
  have same (type : TypeExpr) : registrar.declarations.layout type = registrar.layout type := rfl
  simp only [same] at both
  apply both
  case case1 => exact fun type path onPath => ends_of_mem onPath
  case case2 =>
    intro type path fresh kind layout
    apply ends_of_included <;> simp [layout, Layout.elem?, Layout.included]
  case case3 =>
    intro type path fresh elem layout later
    exact ends_of_elem (by simp [layout, Layout.elem?]) (by simp [layout, Layout.included]) later
  case case4 =>
    intro type path fresh length elem layout later
    exact ends_of_elem (by simp [layout, Layout.elem?]) (by simp [layout, Layout.included]) later
  case case5 =>
    intro type path fresh declared layout later
    apply ends_of_included
    · simp [layout, Layout.elem?]
    · rw [layout]
      exact later
  case case6 =>
    intro type path fresh kind layout
    apply ends_of_included <;> simp [layout, Layout.elem?, Layout.included]
  case case7 => simp
  case case8 =>
    intro path field rest laterField laterRest other inside indirect
    rcases List.mem_cons.mp inside with rfl | inRest
    · exact laterField
    · exact laterRest other inRest indirect

/-- No call goes on to nested calls forever. -/
theorem wellFounded_nestedCall (registrar : Registrar) :
    WellFounded fun next call => registrar.NestedCall call next := by
  constructor
  intro call
  exact (ends registrar).1 call.1 call.2

/-- Nothing is in the way of a schema for the root: no type that is expanded for it contains
itself, no element is a reference, and every reference that is not dynamic names its
target. -/
structure Buildable (registrar : Registrar) (root : TypeExpr) : Prop where
  acyclic : ∀ type, registrar.Reaches root type → registrar.name? type = none →
    ¬registrar.Contains type type
  elements : ∀ type elem, registrar.Reaches root type →
    (registrar.layout type).elem? = some elem → (registrar.layout elem).isReference = false
  tagged : ∀ type field kind, registrar.Reaches root type →
    field ∈ (registrar.layout type).included → registrar.layout field.type = .marker kind →
    kind ≠ .dynamic → ∃ target, Tag.schemaName field.tag = .ok target

theorem Describes.of_elem
    {elem : TypeExpr} (described : registrar.Describes type schema)
    (element : (registrar.layout type).elem? = some elem) :
    ∃ inner ∈ schema.parts, registrar.StandsFor elem inner := by
  cases described with
  | slice layout registered expanded =>
      obtain rfl : _ = elem := by simpa [layout, Layout.elem?] using element
      exact ⟨_, List.mem_singleton_self _, standsFor_iff.mpr ⟨registered, expanded⟩⟩
  | array layout registered expanded =>
      obtain rfl : _ = elem := by simpa [layout, Layout.elem?] using element
      exact ⟨_, List.mem_singleton_self _, standsFor_iff.mpr ⟨registered, expanded⟩⟩
  | _ layout => simp [layout, Layout.elem?] at element

theorem Describes.of_included
    {field : FieldDeclaration} (described : registrar.Describes type schema)
    (included : field ∈ (registrar.layout type).included) :
    ∃ inner ∈ schema.parts, registrar.FieldBecomes field inner := by
  cases described with
  | struct layout names direct expanded =>
      rw [layout, Layout.included, ← names] at included
      obtain ⟨member, within, rfl⟩ := List.mem_map.mp included
      refine ⟨member.2, ?_, fieldBecomes_iff.mpr ⟨direct member within, expanded member within⟩⟩
      exact List.mem_map.mpr ⟨_, List.mem_map_of_mem within, rfl⟩
  | _ layout => simp [layout, Layout.included] at included

/-- What is expanded for a described type is described by a part of the schema, or it is a
reference in a field. -/
theorem Describes.of_expands
    (described : registrar.Describes type schema) (expands : registrar.Expands type member) :
    (∃ inner ∈ schema.parts, registrar.Describes member inner) ∨
      (registrar.layout member).isReference = true := by
  obtain ⟨inside, unregistered⟩ := expands
  rcases Layout.mem_members_iff.mp inside with element | ⟨field, included, rfl⟩
  · obtain ⟨inner, part, stands⟩ := described.of_elem element
    cases stands with
    | registered named => simp [unregistered] at named
    | expanded _ describedElem => exact .inl ⟨inner, part, describedElem⟩
  · obtain ⟨inner, part, becomes⟩ := described.of_included included
    cases becomes with
    | expanded _ _ describedField => exact .inl ⟨inner, part, describedField⟩
    | direct direct =>
        cases direct with
        | registered _ named => simp [unregistered] at named
        | _ layout => simp [layout, Layout.isReference]

theorem Describes.of_reaches
    (described : registrar.Describes type schema) (reached : registrar.Reaches type member) :
    (∃ inner, registrar.Describes member inner) ∨
      (registrar.layout member).isReference = true := by
  induction reached with
  | refl => exact .inl ⟨schema, described⟩
  | tail _ expands induction =>
      rcases induction with ⟨inner, describedInner⟩ | isReference
      · rcases describedInner.of_expands expands with ⟨next, _, describedNext⟩ | isReference
        · exact .inl ⟨next, describedNext⟩
        · exact .inr isReference
      · exact absurd expands (not_expands_of_isReference isReference)

/-- No chain of expansions from a described type goes on forever, since the schema gets
smaller. -/
theorem Describes.acc (described : registrar.Describes type schema) :
    Acc (fun inner outer => registrar.Expands outer inner) type := by
  induction schema using Schema.induction_parts generalizing type with
  | step schema induction =>
      constructor
      intro member expands
      rcases described.of_expands expands with ⟨inner, inside, describedInner⟩ | isReference
      · exact induction inner inside describedInner
      · constructor
        intro next expandsNext
        exact absurd expandsNext (not_expands_of_isReference isReference)

theorem not_contains_self_of_acc
    (acc : Acc (fun inner outer => registrar.Expands outer inner) type) :
    ¬registrar.Contains type type := by
  induction acc with
  | intro type _ induction =>
      intro cycle
      obtain ⟨next, expands, back⟩ := TransGen.head'_iff.mp cycle
      exact induction next expands (TransGen.tail' back expands)

theorem Describes.isReference_layout (described : registrar.Describes type schema) :
    (registrar.layout type).isReference = false := by
  cases described <;> simp [*, Layout.isReference]

theorem Describes.isReference_elem
    (consistent : registrar.Consistent) (described : registrar.Describes type schema)
    {elem : TypeExpr} (element : (registrar.layout type).elem? = some elem) :
    (registrar.layout elem).isReference = false := by
  obtain ⟨inner, _, stands⟩ := described.of_elem element
  cases stands with
  | registered named => exact consistent.no_references _ (consistent.name?_eq_some_iff.mp named)
  | expanded _ describedElem => exact describedElem.isReference_layout

theorem Describes.exists_target
    (described : registrar.Describes type schema) {field : FieldDeclaration}
    {kind : ReferenceKind} (included : field ∈ (registrar.layout type).included)
    (marker : registrar.layout field.type = .marker kind) (closed : kind ≠ .dynamic) :
    ∃ target, Tag.schemaName field.tag = .ok target := by
  obtain ⟨inner, _, becomes⟩ := described.of_included included
  cases becomes with
  | expanded full => simp [marker, Layout.isReference] at full
  | direct direct =>
      cases direct with
      | dynamic layout =>
          rw [marker] at layout
          cases layout
          exact absurd rfl closed
      | reference _ _ named => exact ⟨_, named⟩
      | registered full => simp [marker, Layout.isReference] at full

theorem Describes.buildable
    (consistent : registrar.Consistent) (described : registrar.Describes type schema) :
    registrar.Buildable type := by
  constructor
  case acyclic =>
    intro inner reached _ cycle
    rcases described.of_reaches reached with ⟨_, describedInner⟩ | isReference
    · exact not_contains_self_of_acc describedInner.acc cycle
    · obtain ⟨_, expands, _⟩ := TransGen.head'_iff.mp cycle
      exact not_expands_of_isReference isReference expands
  case elements =>
    intro inner elem reached element
    rcases described.of_reaches reached with ⟨_, describedInner⟩ | isReference
    · exact describedInner.isReference_elem consistent element
    · have inside := Layout.mem_members_iff.mpr (.inl element)
      simp [Layout.members_eq_nil isReference] at inside
  case tagged =>
    intro inner field kind reached included marker closed
    rcases described.of_reaches reached with ⟨_, describedInner⟩ | isReference
    · exact describedInner.exists_target included marker closed
    · have inside := Layout.mem_members_iff.mpr (.inr ⟨field, included, rfl⟩)
      simp [Layout.members_eq_nil isReference] at inside

/-- Why there is no schema for the root: something that stands in its way and is reached from
it. -/
inductive Defect (registrar : Registrar) (root : TypeExpr) : SchemaError → Prop where
  | recursive {type : TypeExpr} (reached : registrar.Reaches root type)
      (cycle : registrar.Contains type type) : Defect registrar root (.recursiveType type)
  | reference {type elem : TypeExpr} (reached : registrar.Reaches root type)
      (element : (registrar.layout type).elem? = some elem)
      (isReference : (registrar.layout elem).isReference = true) :
      Defect registrar root (.nestedReference elem)
  | untagged {type : TypeExpr} {field : FieldDeclaration} {kind : ReferenceKind}
      {reason : Tag.Error} (reached : registrar.Reaches root type)
      (included : field ∈ (registrar.layout type).included)
      (marker : registrar.layout field.type = .marker kind) (closed : kind ≠ .dynamic)
      (unnamed : Tag.schemaName field.tag = .error reason) :
      Defect registrar root (.missingReferenceTag field.name reason)

variable {root : TypeExpr} {error : SchemaError}

theorem Defect.of_expands
    (defect : registrar.Defect member error) (expands : registrar.Expands root member) :
    registrar.Defect root error := by
  cases defect with
  | recursive reached cycle => exact .recursive (.head expands reached) cycle
  | reference reached element isReference =>
      exact .reference (.head expands reached) element isReference
  | untagged reached included marker closed unnamed =>
      exact .untagged (.head expands reached) included marker closed unnamed

theorem Defect.not_buildable (defect : registrar.Defect root error) :
    ¬registrar.Buildable root := by
  intro buildable
  cases defect with
  | recursive reached cycle => exact buildable.acyclic _ reached (name?_of_contains cycle) cycle
  | reference reached element isReference =>
      rw [buildable.elements _ _ reached element] at isReference
      cases isReference
  | untagged reached included marker closed unnamed =>
      obtain ⟨target, named⟩ := buildable.tagged _ _ _ reached included marker closed
      rw [unnamed] at named
      cases named

/-- What fails for a type that is met on a path: the type itself may be a reference. -/
def Fails (registrar : Registrar) (type : TypeExpr) (error : SchemaError) : Prop :=
  (registrar.layout type).isReference = true ∧ error = .nestedReference type ∨
    registrar.Defect type error

theorem Fails.of_elem
    {elem : TypeExpr} (element : (registrar.layout type).elem? = some elem)
    (unregistered : registrar.name? elem = none) (fails : registrar.Fails elem error) :
    registrar.Fails type error := by
  right
  rcases fails with ⟨isReference, rfl⟩ | defect
  · exact .reference .refl element isReference
  · exact defect.of_expands ⟨Layout.mem_members_iff.mpr (.inl element), unregistered⟩

theorem Fails.of_field
    {field : FieldDeclaration} (included : field ∈ (registrar.layout type).included)
    (indirect : registrar.directSchema? field = none) (fails : registrar.Fails field.type error) :
    registrar.Fails type error := by
  right
  obtain ⟨full, unregistered⟩ := directSchema?_eq_none_iff.mp indirect
  have expands : registrar.Expands type field.type :=
    ⟨Layout.mem_members_iff.mpr (.inr ⟨field, included, rfl⟩), unregistered⟩
  rcases fails with ⟨isReference, _⟩ | defect
  · rw [full] at isReference
    cases isReference
  · exact defect.of_expands expands

/-- A field fails without being expanded when it refers to something and does not say to
what. -/
theorem Defect.of_directSchema?
    {field : FieldDeclaration} (included : field ∈ (registrar.layout type).included)
    (failed : registrar.directSchema? field = some (.error error)) :
    registrar.Defect type error := by
  cases directSchema?_eq_some_iff.mp failed with
  | untagged marker closed unnamed => exact .untagged .refl included marker closed unnamed

/-- The schema of an element fails where the element must be expanded. -/
theorem build_of_elem_error
    {elem : TypeExpr} {path : List TypeExpr} {wrap : Schema → Schema}
    (failed : (do
      let schema ← (match registrar.placeholder? elem with
        | some placeholder => Except.ok placeholder
        | none => registrar.build elem path)
      return wrap schema) = .error error) :
    registrar.name? elem = none ∧ registrar.build elem path = .error error := by
  cases known : registrar.placeholder? elem with
  | some placeholder =>
      rw [known] at failed
      cases failed
  | none =>
      rw [known] at failed
      rcases Outcome.bind_eq_error_iff.mp failed with inner | ⟨_, _, impossible⟩
      · exact ⟨placeholder?_eq_none_iff.mp known, inner⟩
      · cases impossible

/-- Every type on the path contains the type that is met. -/
def Below (registrar : Registrar) (type : TypeExpr) (path : List TypeExpr) : Prop :=
  ∀ ancestor ∈ path, registrar.Contains ancestor type

theorem Below.expands
    {path : List TypeExpr} (below : registrar.Below type path)
    (expands : registrar.Expands type member) : registrar.Below member (type :: path) := by
  intro ancestor onPath
  rcases List.mem_cons.mp onPath with rfl | earlier
  · exact .single expands
  · exact .tail (below ancestor earlier) expands

theorem Fails.of_build_elem
    {elem : TypeExpr} {path : List TypeExpr} {wrap : Schema → Schema}
    (element : (registrar.layout type).elem? = some elem)
    (fails : ∀ error, registrar.build elem (type :: path) = .error error →
      registrar.Below elem (type :: path) → registrar.Fails elem error)
    (failed : (do
      let schema ← (match registrar.placeholder? elem with
        | some placeholder => Except.ok placeholder
        | none => registrar.build elem (type :: path))
      return wrap schema) = .error error)
    (below : registrar.Below type path) : registrar.Fails type error := by
  obtain ⟨unregistered, failedElem⟩ := build_of_elem_error failed
  have expands : registrar.Expands type elem :=
    ⟨Layout.mem_members_iff.mpr (.inl element), unregistered⟩
  exact Fails.of_elem element unregistered (fails error failedElem (below.expands expands))

theorem fails_of_build (registrar : Registrar) :
    (∀ type path error, registrar.build type path = .error error → registrar.Below type path →
      registrar.Fails type error) ∧
    ∀ fields path error, registrar.buildFields fields path = .error error →
      (∀ field ∈ fields, registrar.directSchema? field = none →
        registrar.Below field.type path) →
      ∃ field ∈ fields, registrar.directSchema? field = some (.error error) ∨
        registrar.directSchema? field = none ∧ registrar.Fails field.type error := by
  have both := build.mutual_induct_unfolding registrar
    (fun type path result => ∀ error, result = .error error → registrar.Below type path →
      registrar.Fails type error)
    (fun fields path result => ∀ error, result = .error error →
      (∀ field ∈ fields, registrar.directSchema? field = none →
        registrar.Below field.type path) →
      ∃ field ∈ fields, registrar.directSchema? field = some (.error error) ∨
        registrar.directSchema? field = none ∧ registrar.Fails field.type error)
  have same (type : TypeExpr) : registrar.declarations.layout type = registrar.layout type := rfl
  simp only [same] at both
  apply both
  case case1 =>
    intro type path onPath error failed below
    cases failed
    exact .inr (.recursive .refl (below type onPath))
  case case2 =>
    intro type path fresh kind layout error failed
    cases failed
  case case3 =>
    intro type path fresh elem layout fails error failed below
    have element : (registrar.layout type).elem? = some elem := by simp [layout, Layout.elem?]
    exact Fails.of_build_elem element fails failed below
  case case4 =>
    intro type path fresh length elem layout fails error failed below
    have element : (registrar.layout type).elem? = some elem := by simp [layout, Layout.elem?]
    exact Fails.of_build_elem element fails failed below
  case case5 =>
    intro type path fresh declared layout fails error failed below
    have included : (registrar.layout type).included =
        declared.filter fun field => !field.isExcluded := by simp [layout, Layout.included]
    have failedFields : registrar.buildFields (declared.filter fun field => !field.isExcluded)
        (type :: path) = .error error := by
      rcases Outcome.bind_eq_error_iff.mp failed with inner | ⟨_, _, impossible⟩
      · exact inner
      · cases impossible
    rw [← included] at fails failedFields
    have belowFields : ∀ field ∈ (registrar.layout type).included,
        registrar.directSchema? field = none → registrar.Below field.type (type :: path) := by
      intro field among indirect
      have unregistered := (directSchema?_eq_none_iff.mp indirect).2
      exact below.expands ⟨Layout.mem_members_iff.mpr (.inr ⟨field, among, rfl⟩), unregistered⟩
    obtain ⟨field, among, direct | ⟨indirect, failsField⟩⟩ := fails error failedFields belowFields
    · exact .inr (Defect.of_directSchema? among direct)
    · exact Fails.of_field among indirect failsField
  case case6 =>
    intro type path fresh kind layout error failed below
    cases failed
    exact .inl ⟨by simp [layout, Layout.isReference], rfl⟩
  case case7 =>
    intro path error failed
    cases failed
  case case8 =>
    intro path field rest failsField failsRest error failed below
    obtain ⟨belowField, belowRest⟩ := List.forall_mem_cons.mp below
    rcases Outcome.bind_eq_error_iff.mp failed with failedField | ⟨_, _, failedLater⟩
    · refine ⟨field, List.mem_cons_self, ?_⟩
      cases outcome : registrar.directSchema? field with
      | some result =>
          rw [outcome] at failedField
          exact .inl (congrArg some failedField)
      | none =>
          rw [outcome] at failedField
          exact .inr ⟨rfl, failsField error failedField (belowField outcome)⟩
    · rcases Outcome.bind_eq_error_iff.mp failedLater with failedRest | ⟨_, _, impossible⟩
      · obtain ⟨other, among, found⟩ := failsRest error failedRest belowRest
        exact ⟨other, List.mem_cons_of_mem _ among, found⟩
      · cases impossible

theorem defect_of_schemaOf
    (full : (registrar.layout root).isReference = false)
    (failed : registrar.schemaOf root = .error error) : registrar.Defect root error := by
  rcases (fails_of_build registrar).1 root [] error failed nofun with ⟨isReference, _⟩ | defect
  · rw [full] at isReference
    cases isReference
  · exact defect

theorem schemaOf_eq_ok_iff_describes (consistent : registrar.Consistent) :
    registrar.schemaOf root = .ok schema ↔ registrar.Describes root schema := by
  constructor
  · exact describes_of_schemaOf
  · intro described
    cases outcome : registrar.schemaOf root with
    | error error =>
        have defect := defect_of_schemaOf described.isReference_layout outcome
        exact absurd (described.buildable consistent) defect.not_buildable
    | ok built => rw [described.unique (describes_of_schemaOf outcome)]

theorem exists_schemaOf_iff_buildable
    (consistent : registrar.Consistent) (full : (registrar.layout root).isReference = false) :
    (∃ schema, registrar.schemaOf root = .ok schema) ↔ registrar.Buildable root := by
  constructor
  · intro found
    obtain ⟨schema, built⟩ := found
    exact (describes_of_schemaOf built).buildable consistent
  · intro buildable
    cases outcome : registrar.schemaOf root with
    | error error => exact absurd buildable (defect_of_schemaOf full outcome).not_buildable
    | ok schema => exact ⟨schema, rfl⟩

/-- For a registered type the builder ends with a schema exactly when the type is buildable, and
a failure shows what is in the way.  The schema is the only one that describes the type, and so
consists of what its layout says; its name is that of the type, and below it only placeholders
have names. -/
theorem schemaOf_exact
    {declarations : Declarations} {calls : List (TypeExpr × String)} {registrar : Registrar}
    {type : TypeExpr} {name : String}
    (reached : registrar = (empty declarations).attemptAll calls)
    (registered : registrar.name? type = some name) :
    (WellFounded fun next call => registrar.NestedCall call next) ∧
      ((∃ schema, registrar.schemaOf type = .ok schema) ↔ registrar.Buildable type) ∧
      (∀ error, registrar.schemaOf type = .error error → registrar.Defect type error) ∧
      (∀ schema, registrar.schemaOf type = .ok schema ↔ registrar.Describes type schema) ∧
      (∀ inner schema, registrar.Describes inner schema ↔ registrar.ConsistsOf inner schema) ∧
      ∀ schema, registrar.schemaOf type = .ok schema →
        schema.name? = some name ∧ ∀ part ∈ schema.parts, Anonymous part := by
  have consistent : registrar.Consistent := by
    rw [reached]
    exact consistent_attemptAll declarations calls
  have full : (registrar.layout type).isReference = false :=
    consistent.no_references _ (consistent.name?_eq_some_iff.mp registered)
  refine ⟨wellFounded_nestedCall registrar, exists_schemaOf_iff_buildable consistent full,
    fun error failed => defect_of_schemaOf full failed,
    fun schema => schemaOf_eq_ok_iff_describes consistent,
    fun inner schema => describes_iff_consistsOf, ?_⟩
  intro schema built
  have described := describes_of_schemaOf built
  exact ⟨described.name?_eq.trans registered, described.anonymous_parts⟩

def positionFields : List FieldDeclaration := [.plain "offset" (.scalar .uint64)]

/-- A span has two positions, which have no name, and its parts are spans again. -/
def spanFields : List FieldDeclaration :=
  [.plain "start" (.declared "Position"), .plain "stop" (.declared "Position"),
    .plain "parts" (.slice (.declared "Span")), .reference "source" "File"]

def spanDeclarations : Declarations :=
  [("Position", .struct positionFields), ("Span", .struct spanFields)]

def positionSchema : Schema := .struct none [⟨"offset", "", .scalar .uint64 none⟩]

def spanSchema : Schema :=
  .struct (some "Span") [⟨"start", "", positionSchema⟩, ⟨"stop", "", positionSchema⟩,
    ⟨"parts", "", .slice none (.placeholder .struct "Span")⟩,
    ⟨"source", Tag.naming "File", .reference .single (.placeholder .struct "File")⟩]

def spanCalls : List (TypeExpr × String) := [(.declared "Span", "Span")]

def spanRegistrar : Registrar := (empty spanDeclarations).attemptAll spanCalls

/-- Neither the type that is used twice nor the type that is met again within itself is in the
way. -/
theorem schemaOf_span :
    spanRegistrar.name? (.declared "Span") = some "Span" ∧
      spanRegistrar.schemaOf (.declared "Span") = .ok spanSchema ∧
      spanRegistrar.Buildable (.declared "Span") := by
  have registered : spanRegistrar.name? (.declared "Span") = some "Span" := rfl
  obtain ⟨_, buildable, _, built, consists, _⟩ := schemaOf_exact rfl registered
  have offset : spanRegistrar.Describes (.scalar .uint64) (.scalar .uint64 none) :=
    (consists _ _).mpr (.scalar rfl)
  have position : spanRegistrar.Describes (.declared "Position") positionSchema := by
    apply (consists _ _).mpr
    apply ConsistsOf.struct rfl
    have included : positionFields.filter (fun field => !field.isExcluded) = positionFields := by
      decide
    rw [included]
    exact .cons ⟨rfl, rfl, .expanded rfl rfl offset⟩ .nil
  have parts : spanRegistrar.Describes (.slice (.declared "Span"))
      (.slice none (.placeholder .struct "Span")) :=
    (consists _ _).mpr (.slice rfl (.registered registered))
  have described : spanRegistrar.Describes (.declared "Span") spanSchema := by
    apply (consists _ _).mpr
    apply ConsistsOf.struct rfl
    have included : spanFields.filter (fun field => !field.isExcluded) = spanFields := by decide
    have target : Tag.schemaName (Tag.naming "File") = .ok "File" := by decide
    rw [included]
    refine .cons ⟨rfl, rfl, .expanded rfl rfl position⟩ ?_
    refine .cons ⟨rfl, rfl, .expanded rfl rfl position⟩ ?_
    refine .cons ⟨rfl, rfl, .expanded rfl rfl parts⟩ ?_
    exact .cons ⟨rfl, rfl, .direct (.reference rfl nofun target)⟩ .nil
  have made : spanRegistrar.schemaOf (.declared "Span") = .ok spanSchema :=
    (built spanSchema).mpr described
  exact ⟨registered, made, buildable.mp ⟨spanSchema, made⟩⟩

end Registrar

end TypedObject
