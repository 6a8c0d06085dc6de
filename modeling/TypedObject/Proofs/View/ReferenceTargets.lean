import TypedObject.Proofs.Declaration.TagNames
import TypedObject.Proofs.View.ReferencePlaces

/-!
# Where declared references lead

A reference helper writes the name of the target into the field's tag, and the builder
reads it back from there.  The field leads to the entry under that name exactly when
the tag gives the name back; other names lead to another entry, or the field is left
out.
-/

namespace TypedObject

/-- The field is made by a helper that says which registered type it refers to. -/
inductive FieldDeclaration.Refers (name target : String) :
    ReferenceKind → FieldDeclaration → Prop where
  | single : Refers name target .single (.reference name target)
  | slice : Refers name target .slice (.references name target)

namespace Registry

/-- The struct under `owner` has at the place a field with the name, which is a reference
to the entry under `target`. -/
def RefersAt (registry : Registry) (owner : String) (place : Nat) (name : String)
    (kind : ReferenceKind) (target : String) : Prop :=
  ∃ struct field reference found,
    registry.viewByName owner = .ok struct ∧ struct.kind = .struct ∧
      struct.fields[place]? = some field ∧ field.name = name ∧
      struct.ofField field = .ok reference ∧ reference.referenceKind? = some kind ∧
      reference.elem = .ok found ∧ registry.viewByName target = .ok found

end Registry

namespace FieldDeclaration.Refers

variable {name target : String} {kind : ReferenceKind} {field : FieldDeclaration}

theorem name_eq (refers : Refers name target kind field) : field.name = name := by
  cases refers <;> rfl

theorem isExcluded_eq (refers : Refers name target kind field) (named : name ≠ ignoredName) :
    field.isExcluded = Tag.excludes (Tag.naming target) := by
  cases refers <;> simp [isExcluded, reference, references, named]

/-- The builder can make nothing but a reference to what the tag gives back. -/
theorem eq_referenceTo
    {registrar : Registrar} {schema : Schema} (refers : Refers name target kind field)
    (direct : ∀ result, registrar.directSchema? field = some result → result = .ok schema) :
    schema = .referenceTo kind (Tag.carried target) := by
  have layout : registrar.layout field.type = .marker kind := by
    cases refers <;> rfl
  have closed : kind ≠ .dynamic := by
    cases refers <;> exact nofun
  have tag : field.tag = Tag.naming target := by
    cases refers <;> rfl
  cases named : Tag.schemaName field.tag with
  | ok found =>
      cases direct _ (Registrar.directSchema?_eq_some_iff.mpr (.reference layout closed named))
      rw [tag] at named
      rw [Tag.eq_carried_of_schemaName named]
  | error reason =>
      cases direct _ (Registrar.directSchema?_eq_some_iff.mpr (.untagged layout closed named))

end FieldDeclaration.Refers

namespace Registrar

variable {registrar : Registrar}

/-- References that the builder makes lead to names that a tag gives back, or nowhere. -/
theorem carries_of_directSchema?
    {field : FieldDeclaration} {schema : Schema}
    (direct : registrar.directSchema? field = some (.ok schema))
    (isReference : schema.isReference = true) :
    schema = .openReference .dynamic ∨
      ∃ kind target, schema = .referenceTo kind target ∧ Tag.Carries target := by
  cases directSchema?_eq_some_iff.mp direct with
  | dynamic layout => exact .inl rfl
  | @reference kind target layout closed named =>
      exact .inr ⟨kind, target, rfl, Tag.carries_of_schemaName named⟩
  | registered full named => cases isReference

/-- The schema of a struct has schemas of its fields, apart from those that are left out. -/
theorem Describes.of_struct
    {type : TypeExpr} {schema : Schema} {declared : List FieldDeclaration}
    (described : registrar.Describes type schema)
    (layout : registrar.layout type = .struct declared) :
    ∃ fields, schema = .struct (registrar.name? type) fields ∧
      registrar.DescribesFields (declared.filter fun field => !field.isExcluded) fields := by
  cases described with
  | struct layout' included direct expanded =>
      rw [layout] at layout'
      cases layout'
      exact ⟨_, rfl, _, included, rfl, direct, expanded⟩
  | scalar layout' | slice layout' | array layout' =>
      rw [layout] at layout'
      cases layout'

end Registrar

namespace Registry

open Entries

variable {registry : Registry} {registrar : Registrar}

/-- The fields of a struct in the registry are the built ones, up to the kinds of
placeholders. -/
theorem MadeFrom.viewByName_of_struct
    (made : registry.MadeFrom registrar) (registered : registry.entries.Registered)
    {type : TypeExpr} {owner : String} (member : (type, owner) ∈ registrar.entries)
    {declared : List FieldDeclaration} (layout : registrar.layout type = .struct declared) :
    ∃ fields kindOf ownName,
      registrar.DescribesFields (declared.filter fun field => !field.isExcluded) fields ∧
        registry.viewByName owner = .ok ⟨registry, .struct ownName (fields.map fun field =>
          ⟨field.name, field.tag, field.schema.relabel kindOf⟩)⟩ := by
  obtain ⟨schema, kindOf, describes, inside⟩ := made.holds _ member
  obtain ⟨fields, rfl, described⟩ := describes.of_struct layout
  refine ⟨fields, kindOf, registrar.name? type, described, ?_⟩
  have found := registered.increasing.distinct.lookup_eq_some_iff.mpr inside
  refine Outcome.map_eq_ok_iff.mpr ⟨_, View.schemaByName_eq_ok_iff.mpr found, ?_⟩
  rw [Schema.relabel, Schema.relabelFields_eq_map]

/-- Entries that know their own names are different under different names. -/
theorem eq_of_viewByName_eq
    (ownNames : ∀ entry ∈ registry.entries, entry.2.name? = some entry.1) {name name' : String}
    {view : View} (found : registry.viewByName name = .ok view)
    (found' : registry.viewByName name' = .ok view) : name = name' := by
  obtain ⟨schema, known, rfl⟩ := Outcome.map_eq_ok_iff.mp found
  obtain ⟨schema', known', same⟩ := Outcome.map_eq_ok_iff.mp found'
  cases same
  have own := ownNames _ (Lookup.mem_of_lookup (View.schemaByName_eq_ok_iff.mp known))
  have own' := ownNames _ (Lookup.mem_of_lookup (View.schemaByName_eq_ok_iff.mp known'))
  exact Option.some.inj (own.symm.trans own')

/-- Only names that a tag gives back are referred to. -/
theorem MadeFrom.carries_of_refersAt
    (made : registry.MadeFrom registrar) (registered : registry.entries.Registered)
    (ownNames : ∀ entry ∈ registry.entries, entry.2.name? = some entry.1)
    {type : TypeExpr} {owner : String} (member : (type, owner) ∈ registrar.entries)
    {declared : List FieldDeclaration} (layout : registrar.layout type = .struct declared)
    {place : Nat} {name target : String} {kind : ReferenceKind}
    (refersAt : registry.RefersAt owner place name kind target) : Tag.Carries target := by
  obtain ⟨_, kindOf, ownName, ⟨members, _, rfl, direct, expanded⟩, known⟩ :=
    made.viewByName_of_struct registered member layout
  obtain ⟨struct, field, ⟨registry', schema⟩, found, known', _, atPlace, _, followed, isReference,
    elem, target⟩ := refersAt
  rw [known] at known'
  cases known'
  obtain ⟨_, inside, rfl⟩ := List.mem_map.mp (List.mem_of_getElem? atPlace)
  obtain ⟨built, among, rfl⟩ := List.mem_map.mp inside
  have reference : schema.isReference = true := Option.isSome_iff_exists.mpr ⟨kind, isReference⟩
  obtain rfl : schema = built.2.relabel kindOf :=
    View.schema_of_follow_of_isReference made.isReference_eq followed reference
  obtain rfl : registry' = registry := (View.schema_of_follow followed).1
  rw [Schema.isReference_relabel] at reference
  cases result : registrar.directSchema? built.1 with
  | none =>
      rw [(expanded built among result).isReference_eq] at reference
      cases reference
  | some result' =>
      rw [direct built among result' result] at result
      rcases Registrar.carries_of_directSchema? result reference with same | ⟨_, name, same, carries⟩
      · rw [same] at elem
        cases elem
      · rw [same] at elem
        rw [eq_of_viewByName_eq ownNames target elem]
        exact carries

/-- A field that is not left out leads to what its tag gives back. -/
theorem MadeFrom.refersAt_carried
    (made : registry.MadeFrom registrar) (registered : registry.entries.Registered)
    {type : TypeExpr} {owner : String} (member : (type, owner) ∈ registrar.entries)
    {before after : List FieldDeclaration} {field : FieldDeclaration}
    (layout : registrar.layout type = .struct (before ++ field :: after))
    {name target : String} {kind : ReferenceKind} (refers : field.Refers name target kind)
    (included : field.isExcluded = false) :
    registry.RefersAt owner (before.filter fun field => !field.isExcluded).length name kind
      (Tag.carried target) := by
  obtain ⟨fields, kindOf, ownName, ⟨members, names, made, direct, _⟩, known⟩ :=
    made.viewByName_of_struct registered member layout
  have kept : (members.map (·.1))[(before.filter fun field => !field.isExcluded).length]? =
      some field := by
    rw [names]
    simp [included]
  rw [List.getElem?_map] at kept
  obtain ⟨⟨built, schema⟩, atPlace, same⟩ := Option.map_eq_some_iff.mp kept
  obtain rfl : built = field := same
  obtain rfl : schema = .referenceTo kind (Tag.carried target) :=
    refers.eq_referenceTo (direct _ (List.mem_of_getElem? atPlace))
  have placed : (fields.map fun field =>
      (⟨field.name, field.tag, field.schema.relabel kindOf⟩ : Field))[
        (before.filter fun field => !field.isExcluded).length]? =
      some ⟨built.name, built.tag,
        (Schema.referenceTo kind (Tag.carried target)).relabel kindOf⟩ := by
    rw [made, List.getElem?_map, List.getElem?_map, atPlace]
    rfl
  have linked : View.Linked
      ⟨registry, (Schema.referenceTo kind (Tag.carried target)).relabel kindOf⟩ :=
    (View.linked_of_viewByName registered known).of_follow
      (List.mem_map_of_mem (List.mem_of_getElem? placed)) rfl
  obtain ⟨found, followed, _⟩ := linked.follow List.mem_cons_self
  exact ⟨_, _, ⟨registry, (Schema.referenceTo kind (Tag.carried target)).relabel kindOf⟩, found,
    known, rfl, placed, refers.name_eq, rfl, rfl, followed, followed⟩

/-- In a declared registry a field that a reference helper makes is found at its place
among the fields that are not left out, and it leads to the entry under the name that
the helper was given, exactly when a tag gives the name back.  A field that is not left
out leads to the entry under what the tag gives back. -/
theorem refersAt_iff_carries
    {declarations : Declarations} {calls types : List (TypeExpr × String)}
    (declared : DeclaredBy declarations calls registry) (known : registry.types? = some types)
    {type : TypeExpr} {owner : String} (member : (type, owner) ∈ types)
    {before after : List FieldDeclaration} {field : FieldDeclaration}
    (layout : declarations.layout type = .struct (before ++ field :: after))
    {name target : String} {kind : ReferenceKind} (refers : field.Refers name target kind)
    (named : name ≠ FieldDeclaration.ignoredName) :
    (registry.RefersAt owner (before.filter fun field => !field.isExcluded).length name kind
        target ↔ Tag.Carries target) ∧
      (field.isExcluded = false →
        registry.RefersAt owner (before.filter fun field => !field.isExcluded).length name kind
          (Tag.carried target)) := by
  obtain ⟨accepted, _, made⟩ := declared.exists_madeFrom
  have sameTypes := made.types
  rw [known] at sameTypes
  cases sameTypes
  have carriedTo := made.refersAt_carried declared.registered member layout refers
  refine ⟨⟨?_, fun carries => ?_⟩, carriedTo⟩
  · exact made.carries_of_refersAt declared.registered declared.own_names member layout
  · rw [← carries.carried_eq]
    apply carriedTo
    rw [refers.isExcluded_eq named]
    exact Tag.excludes_naming carries.no_comma

theorem refersAt_nodeRegistry : nodeRegistry.RefersAt "Node" 1 "origin" .single "Node" := by
  have layout : nodeDeclarations.layout (.declared "Node") =
      .struct ([.plain "item" (.scalar .uint8)] ++ .reference "origin" "Node" ::
        [.plain "children" (.slice (.declared "Node"))]) := rfl
  have refers : FieldDeclaration.Refers "origin" "Node" .single (.reference "origin" "Node") :=
    .single
  have leads := refersAt_iff_carries (.inl declare_nodeRegistry) rfl List.mem_cons_self layout
    refers (by decide)
  have last : "Node".toList.getLast? = some 'e' := by decide
  refine leads.1.mpr ⟨by decide, fun character found => ?_⟩
  rw [last] at found
  cases found
  rfl

/-- Two numbers of which one has the other's name before a comma in its own, and a struct
that refers to it. -/
def commaDeclarations : Declarations :=
  [("Short", .scalar .uint8), ("Long", .scalar .uint16),
    ("Owner", .struct [.reference "target" "a,b"])]

def commaCalls : List (TypeExpr × String) :=
  [(.declared "Short", "a"), (.declared "Long", "a,b"), (.declared "Owner", "owner")]

def commaRegistry : Registry :=
  ⟨[("a", .scalar .uint8 (some "a")), ("a,b", .scalar .uint16 (some "a,b")),
    ("owner", .struct (some "owner")
      [⟨"target", Tag.naming "a,b", .reference .single (.placeholder .uint8 "a")⟩])],
    some commaCalls⟩

/-- The entries before they are linked. -/
def commaEntries : Entries :=
  [("a", .scalar .uint8 (some "a")), ("a,b", .scalar .uint16 (some "a,b")),
    ("owner", .struct (some "owner") [⟨"target", Tag.naming "a,b", .referenceTo .single "a"⟩])]

private theorem build_commaOwner :
    Registrar.build ⟨commaDeclarations, commaCalls⟩ (.declared "Owner") [] =
      .ok (.struct (some "owner")
        [⟨"target", Tag.naming "a,b", .referenceTo .single "a"⟩]) := by
  have fields : Registrar.buildFields ⟨commaDeclarations, commaCalls⟩
      [.reference "target" "a,b"] [.declared "Owner"] =
        .ok [⟨"target", Tag.naming "a,b", .referenceTo .single "a"⟩] := by
    rw [Registrar.buildFields, Registrar.buildFields]
    rfl
  rw [Registrar.build_of_struct List.not_mem_nil rfl]
  exact Outcome.bind_eq_ok_iff.mpr ⟨_, fields, rfl⟩

theorem declare_commaRegistry :
    declare commaDeclarations commaCalls = .ok commaRegistry := by
  refine declare_eq_ok_iff.mpr ⟨?_, commaEntries, ?_, ?_⟩
  · exact ⟨by decide, by decide, by decide, by decide⟩
  · have short : Registrar.schemaOf ⟨commaDeclarations, commaCalls⟩ (.declared "Short") =
        .ok (.scalar .uint8 (some "a")) := Registrar.build_of_scalar List.not_mem_nil rfl
    have long : Registrar.schemaOf ⟨commaDeclarations, commaCalls⟩ (.declared "Long") =
        .ok (.scalar .uint16 (some "a,b")) := Registrar.build_of_scalar List.not_mem_nil rfl
    refine entriesOf_cons_eq_ok_iff.mpr ⟨_, _, short, ?_, rfl⟩
    refine entriesOf_cons_eq_ok_iff.mpr ⟨_, _, long, ?_, rfl⟩
    exact entriesOf_cons_eq_ok_iff.mpr ⟨_, [], build_commaOwner, rfl, rfl⟩
  · have distinct : commaEntries.Distinct := by
      unfold Distinct
      decide
    refine distinct.link_eq_ok_iff.mpr ⟨?_, rfl⟩
    unfold Closed
    decide

/-- The reference to the type under `a,b` leads to the type under `a`. -/
theorem not_refersAt_commaRegistry :
    DeclaredBy commaDeclarations commaCalls commaRegistry ∧
      (∃ long, commaRegistry.viewByName "a,b" = .ok long ∧ long.kind = .uint16) ∧
      commaDeclarations.layout (.declared "Owner") = .struct [.reference "target" "a,b"] ∧
      ¬commaRegistry.RefersAt "owner" 0 "target" .single "a,b" ∧
      commaRegistry.RefersAt "owner" 0 "target" .single "a" := by
  have declared : DeclaredBy commaDeclarations commaCalls commaRegistry :=
    .inl declare_commaRegistry
  have layout : commaDeclarations.layout (.declared "Owner") =
      .struct ([] ++ .reference "target" "a,b" :: []) := rfl
  have made := madeFrom_of_declare declare_commaRegistry
  have member : (TypeExpr.declared "Owner", "owner") ∈ commaCalls := by decide
  refine ⟨declared, ⟨_, rfl, rfl⟩, layout, fun refersAt => ?_, ?_⟩
  · have carries := made.carries_of_refersAt declared.registered declared.own_names member layout
      refersAt
    exact carries.no_comma (by decide)
  · have refers : FieldDeclaration.Refers "target" "a,b" .single (.reference "target" "a,b") :=
      .single
    have included : FieldDeclaration.isExcluded (.reference "target" "a,b") = false := by decide
    have carriedTo := made.refersAt_carried declared.registered member layout refers included
    rw [show Tag.carried "a,b" = "a" by decide] at carriedTo
    exact carriedTo

end Registry

end TypedObject
