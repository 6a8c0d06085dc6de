import TypedObject.Proofs.Value.Behaviour
import TypedObject.Proofs.View.Locality
import TypedObject.Store.Pack

/-!
# What an identifier says about a schema

The identifier of a schema covers its own encoding, in which registered types are
only named.  So in two registries the same identifier means the same tree, and it means
the same values only where the types that values of it hold have the same identifiers
as well.
-/

namespace TypedObject

namespace Registry

/-- Schemas of the two registries have the same identifier only if they have the same
encoding. -/
def NoCollision (first second : Registry) : Prop :=
  ∀ entry ∈ first.entries, ∀ other ∈ second.entries,
    entry.2.identifier = other.2.identifier → entry.2.encode = other.2.encode

variable {first second : Registry}

/-- The same identifier is that of the same schema. -/
theorem NoCollision.schema_eq
    (noCollision : NoCollision first second) (soundFirst : first.Sound)
    (soundSecond : second.Sound) {entry other : String × Schema} (member : entry ∈ first.entries)
    (member' : other ∈ second.entries) (same : entry.2.identifier = other.2.identifier) :
    entry.2 = other.2 := by
  obtain ⟨_, formedFirst, shortFirst⟩ := soundFirst.countable
  obtain ⟨_, formedSecond, shortSecond⟩ := soundSecond.countable
  exact Schema.ProperAt.eq_of_encode_eq
    ((formedFirst entry member).formed.proper (shortFirst entry member))
    ((formedSecond other member').formed.proper (shortSecond other member'))
    (noCollision entry member other member' same)

/-- Schemas of different identifiers do not collide. -/
theorem noCollision_of_nodup
    {schemas : List Schema} (different : (schemas.map Schema.identifier).Nodup)
    (inFirst : ∀ entry ∈ first.entries, entry.2 ∈ schemas)
    (inSecond : ∀ entry ∈ second.entries, entry.2 ∈ schemas) : NoCollision first second := by
  intro entry member other member' same
  rw [List.inj_on_of_nodup_map different (inFirst entry member) (inSecond other member') same]

theorem schemaReference_eq_ok_iff
    {registry : Registry} {name : String} {reference : SchemaRef} :
    registry.schemaReference name = .ok reference ↔
      ∃ schema, registry.schema? name = some schema ∧ schema.identifier = reference := by
  rw [schemaReference, Outcome.map_eq_ok_iff]
  simp only [View.schemaByName_eq_ok_iff, schema?]

/-- The first entry is found by its identifier. -/
theorem viewByReference_of_entries
    {registry : Registry} {name : String} {schema : Schema} {rest : Entries}
    (entries : registry.entries = (name, schema) :: rest) :
    registry.viewByReference schema.identifier = .ok ⟨registry, schema⟩ := by
  have first : registry.entries.find? (fun entry => entry.2.identifier = schema.identifier) =
      some (name, schema) := by
    rw [entries]
    exact List.find?_cons_of_pos (decide_eq_true rfl)
  refine Outcome.map_eq_ok_iff.mpr ⟨schema, ?_, rfl⟩
  rw [schemaByReference, first]

/-- Where the identifiers of what a schema embeds are the same, so are the schemas. -/
theorem NoCollision.sameBelow
    (noCollision : NoCollision first second) (soundFirst : first.Sound)
    (soundSecond : second.Sound) {schema : Schema}
    (same : ∀ name, first.Embeds name schema →
      first.schemaReference name = second.schemaReference name) :
    first.SameBelow second schema := by
  intro name embeds
  have sameReference := same name embeds
  cases found : first.schema? name with
  | none =>
      cases found' : second.schema? name with
      | none => rfl
      | some other =>
          have known := schemaReference_eq_ok_iff.mpr ⟨other, found', rfl⟩
          rw [← sameReference, schemaReference_eq_ok_iff] at known
          simp [found] at known
  | some inner =>
      have known := schemaReference_eq_ok_iff.mpr ⟨inner, found, rfl⟩
      rw [sameReference] at known
      obtain ⟨other, found', sameIdentifier⟩ := schemaReference_eq_ok_iff.mp known
      have sameSchema : inner = other := noCollision.schema_eq soundFirst soundSecond
        (Lookup.mem_of_lookup found) (Lookup.mem_of_lookup found') sameIdentifier.symm
      rw [found', sameSchema]

end Registry

theorem Outcome.Alike.map
    {ε α β α' β' : Type} {related : α → β → Prop} {related' : α' → β' → Prop}
    {result : Except ε α} {other : Except ε β} (alike : Alike related result other)
    {function : α → α'} {function' : β → β'}
    (close : ∀ {value value'}, related value value' →
      related' (function value) (function' value')) :
    Alike related' (result.map function) (other.map function') := by
  cases alike with
  | ok related => exact .ok (close related)
  | error error => exact .error error

/-- Values of one schema with the same bytes, be it in different registries. -/
def Value.SameContent (value other : Value) : Prop :=
  value.view.schema = other.view.schema ∧ value.bytes = other.bytes

namespace Pack

variable {first second : Registry}

/-- Views of one schema that measure alike load the same objects. -/
theorem alike_load
    {view other : View} (sameSchema : view.schema = other.schema)
    (sameSize : ∀ bytes, view.size bytes = other.size bytes) (store : Store)
    (reference : Reference) :
    Outcome.Alike Value.SameContent ((Pack.mk first store).load view reference)
      ((Pack.mk second store).load other reference) := by
  have sameObject : (Pack.mk second store).object reference =
      (Pack.mk first store).object reference := rfl
  unfold load
  rw [sameObject]
  cases (Pack.mk first store).object reference with
  | error error => exact .error error
  | ok bytes =>
      simp only [bind, Except.bind, sameSize]
      cases other.size bytes with
      | error error => apply Outcome.Alike.error
      | ok size =>
          dsimp only
          split
          · exact .ok ⟨sameSchema, rfl⟩
          · apply Outcome.Alike.error

/-- What a dynamic reference leads to depends on the registry only in how the schema that
it names measures. -/
theorem alike_loadDynamic
    (dynamic : DynamicReference) {view other : View}
    (found : first.viewByReference dynamic.schema = .ok view)
    (found' : second.viewByReference dynamic.schema = .ok other)
    (sameSchema : view.schema = other.schema)
    (sameSize : ∀ bytes, view.size bytes = other.size bytes) (store : Store) :
    Outcome.Alike (Option.Rel Value.SameContent) ((Pack.mk first store).loadDynamic dynamic)
      ((Pack.mk second store).loadDynamic dynamic) := by
  unfold loadDynamic
  rw [found, found']
  split
  · exact .ok .none
  · split
    · apply Outcome.Alike.error
    · exact (alike_load sameSchema sameSize store dynamic.object).map fun close => .some close

end Pack

namespace Registry

variable {first second : Registry}

/-- Under the same identifier two registries hold the same schema.  If the types that it
embeds have the same identifiers too, then all bytes measure alike, and what a dynamic
reference with the identifier leads to is loaded or refused alike. -/
theorem size_eq_of_identifiers_eq
    (soundFirst : first.Sound) (soundSecond : second.Sound)
    (noCollision : NoCollision first second) {reference : SchemaRef} {view other : View}
    (found : first.viewByReference reference = .ok view)
    (found' : second.viewByReference reference = .ok other) :
    view.schema = other.schema ∧
      ((∀ name, first.Embeds name view.schema →
          first.schemaReference name = second.schemaReference name) →
        (∀ bytes, view.size bytes = other.size bytes) ∧
          ∀ store object,
            Outcome.Alike (Option.Rel Value.SameContent)
              ((Pack.mk first store).loadDynamic ⟨reference, object⟩)
              ((Pack.mk second store).loadDynamic ⟨reference, object⟩)) := by
  obtain ⟨schema, known, rfl⟩ := Outcome.map_eq_ok_iff.mp found
  obtain ⟨schema', known', rfl⟩ := Outcome.map_eq_ok_iff.mp found'
  obtain ⟨entry, member, own, identifier⟩ := View.exists_entry_of_schemaByReference known
  obtain ⟨entry', member', own', identifier'⟩ := View.exists_entry_of_schemaByReference known'
  have sameSchema : schema = schema' := by
    subst own own'
    exact noCollision.schema_eq soundFirst soundSecond member member'
      (identifier.trans identifier'.symm)
  refine ⟨sameSchema, fun same => ?_⟩
  have sameSize : View.size ⟨first, schema⟩ = View.size ⟨second, schema'⟩ := by
    rw [← sameSchema, View.size_of_sameBelow (noCollision.sameBelow soundFirst soundSecond same)]
  refine ⟨fun bytes => congrFun sameSize bytes, fun store object => ?_⟩
  exact Pack.alike_loadDynamic ⟨reference, object⟩ found found' sameSchema
    (fun bytes => congrFun sameSize bytes) store

/-- Items with a part and references to notes; parts and notes hold a number each. -/
def itemDeclarations (part note : Kind) : Declarations :=
  [("Item", .struct [.plain "part" (.declared "Part"), .references "notes" "Note"]),
    ("Note", .struct [.plain "value" (.scalar note)]),
    ("Part", .struct [.plain "value" (.scalar part)])]

def itemCalls : List (TypeExpr × String) :=
  [(.declared "Item", "Item"), (.declared "Note", "Note"), (.declared "Part", "Part")]

def itemSchema : Schema :=
  .struct (some "Item") [⟨"part", "", .placeholder .struct "Part"⟩,
    ⟨"notes", Tag.naming "Note", .referenceTo .slice "Note"⟩]

def numberSchema (name : String) (kind : Kind) : Schema :=
  .struct (some name) [⟨"value", "", .scalar kind none⟩]

def itemRegistry (part note : Kind) : Registry :=
  ⟨[("Item", itemSchema), ("Note", numberSchema "Note" note), ("Part", numberSchema "Part" part)],
    some itemCalls⟩

private theorem build_item (part note : Kind) :
    Registrar.build ⟨itemDeclarations part note, itemCalls⟩ (.declared "Item") [] =
      .ok itemSchema := by
  have fields : Registrar.buildFields ⟨itemDeclarations part note, itemCalls⟩
      [.plain "part" (.declared "Part"), .references "notes" "Note"] [.declared "Item"] =
        .ok itemSchema.fields := by
    rw [Registrar.buildFields, Registrar.buildFields, Registrar.buildFields]
    rfl
  rw [Registrar.build_of_struct List.not_mem_nil rfl]
  exact Outcome.bind_eq_ok_iff.mpr ⟨_, fields, rfl⟩

private theorem build_number
    {registrar : Registrar} {type : TypeExpr} {name : String} {kind : Kind}
    (layout : registrar.declarations.layout type = .struct [.plain "value" (.scalar kind)])
    (named : registrar.name? type = some name) (unnamed : registrar.name? (.scalar kind) = none)
    (different : TypeExpr.scalar kind ≠ type) :
    registrar.schemaOf type = .ok (numberSchema name kind) := by
  have direct : registrar.directSchema? (.plain "value" (.scalar kind)) = none :=
    Option.map_eq_none_iff.mpr (Registrar.placeholder?_eq_none_iff.mpr unnamed)
  have value : registrar.build (.scalar kind) [type] = .ok (.scalar kind none) := by
    rw [Registrar.build_of_scalar (by simpa using different) rfl, unnamed]
  have fields : registrar.buildFields [.plain "value" (.scalar kind)] [type] =
      .ok [⟨"value", "", .scalar kind none⟩] := by
    rw [Registrar.buildFields, direct, Registrar.buildFields]
    exact Outcome.bind_eq_ok_iff.mpr ⟨_, value, rfl⟩
  rw [Registrar.schemaOf, Registrar.build_of_struct List.not_mem_nil layout, named]
  exact Outcome.bind_eq_ok_iff.mpr ⟨_, fields, rfl⟩

private theorem registered_itemRegistry (part note : Kind) :
    (itemRegistry part note).entries.Registered := by
  refine ⟨?_, ?_, ?_⟩
  · have names : ((itemRegistry part note).entries.map (·.1)).Pairwise (· < ·) :=
      (by decide : ["Item", "Note", "Part"].Pairwise (· < ·))
    exact List.pairwise_map.mp names
  · intro entry member
    simp only [itemRegistry, List.mem_cons, List.not_mem_nil, or_false] at member
    rcases member with rfl | rfl | rfl <;> rfl
  · intro entry member mention inside
    simp only [itemRegistry, List.mem_cons, List.not_mem_nil, or_false] at member
    rcases member with rfl | rfl | rfl
    · simp only [itemSchema, Schema.placeholders, Schema.placeholdersOfFields, Schema.referenceTo,
        List.nil_append, List.cons_append, List.mem_cons, List.not_mem_nil, or_false] at inside
      rcases inside with rfl | rfl <;> rfl
    · cases inside
    · cases inside

theorem declare_itemRegistry (part note : Kind) :
    declare (itemDeclarations part note) itemCalls = .ok (itemRegistry part note) := by
  have registered := registered_itemRegistry part note
  refine declare_eq_ok_iff.mpr ⟨⟨?_, ?_, ?_, ?_⟩, (itemRegistry part note).entries, ?_, ?_⟩
  · exact (by decide : ∀ call ∈ itemCalls, call.2 ≠ "")
  · intro call member
    simp only [itemCalls, List.mem_cons, List.not_mem_nil, or_false] at member
    rcases member with rfl | rfl | rfl <;> rfl
  · exact (by decide : (itemCalls.map (·.2)).Nodup)
  · exact (by decide : (itemCalls.map (·.1)).Nodup)
  · refine entriesOf_cons_eq_ok_iff.mpr ⟨_, _, build_item part note, ?_, rfl⟩
    refine entriesOf_cons_eq_ok_iff.mpr ⟨_, _, build_number rfl rfl rfl nofun, ?_, rfl⟩
    exact entriesOf_cons_eq_ok_iff.mpr ⟨_, [], build_number rfl rfl rfl nofun, rfl, rfl⟩
  · exact registered.increasing.link_eq_ok registered.linked _

theorem sound_itemRegistry
    {part note : Kind} (scalarPart : part.isScalar = true) (scalarNote : note.isScalar = true)
    (short : ∀ entry ∈ (itemRegistry part note).entries,
      entry.2.encode.length < Wire.countBound) : (itemRegistry part note).Sound := by
  refine .declared (.inl (declare_itemRegistry part note)) ?_ ?_ ?_ short
  · intro declaration member
    simp only [itemDeclarations, List.mem_cons, List.not_mem_nil, or_false] at member
    rcases member with rfl | rfl | rfl
    · simp [Layout.Sound, FieldDeclaration.plain, FieldDeclaration.references, TypeExpr.Sound]
    · simpa [Layout.Sound, FieldDeclaration.plain, TypeExpr.Sound] using scalarNote
    · simpa [Layout.Sound, FieldDeclaration.plain, TypeExpr.Sound] using scalarPart
  · intro call member
    simp only [itemCalls, List.mem_cons, List.not_mem_nil, or_false] at member
    rcases member with rfl | rfl | rfl <;> trivial
  · exact (by decide : 3 < Wire.countBound)

def itemSchemas : List Schema :=
  [itemSchema, numberSchema "Note" .uint8, numberSchema "Note" .uint16,
    numberSchema "Part" .uint8, numberSchema "Part" .uint16]

/-- Already the first bytes of the identifiers are different. -/
theorem identifiers_itemSchemas : (itemSchemas.map Schema.identifier).Nodup := by
  have firstBytes : (itemSchemas.map Schema.identifier).map (fun identifier =>
      (identifier.bytes.headD 0).toNat) = [225, 132, 143, 234, 176] := by
    decide +kernel
  apply List.Nodup.of_map fun identifier => (identifier.bytes.headD 0).toNat
  rw [firstBytes]
  decide

theorem eq_of_embeds_itemSchema
    {part note : Kind} {name : String} (embeds : (itemRegistry part note).Embeds name itemSchema) :
    name = "Part" := by
  cases embeds with
  | struct member inner =>
      simp only [List.mem_cons, List.not_mem_nil, or_false] at member
      rcases member with rfl | rfl
      · cases inner with
        | placeholder => rfl
        | registered known inner =>
            obtain rfl : numberSchema "Part" part = _ := Option.some.inj known
            cases inner with
            | struct member inner =>
                cases List.mem_singleton.mp member
                cases inner
      · cases inner

/-- Items measure alike whatever notes are, for they only refer to notes. -/
theorem size_itemRegistry_otherNotes :
    (itemRegistry .uint8 .uint8).schemaReference "Note" ≠
        (itemRegistry .uint8 .uint16).schemaReference "Note" ∧
      ∀ bytes, View.size ⟨itemRegistry .uint8 .uint8, itemSchema⟩ bytes =
        View.size ⟨itemRegistry .uint8 .uint16, itemSchema⟩ bytes := by
  have note (kind : Kind) : (itemRegistry .uint8 kind).schemaReference "Note" =
      .ok (numberSchema "Note" kind).identifier :=
    schemaReference_eq_ok_iff.mpr ⟨_, rfl, rfl⟩
  have part (kind : Kind) : (itemRegistry .uint8 kind).schemaReference "Part" =
      .ok (numberSchema "Part" .uint8).identifier :=
    schemaReference_eq_ok_iff.mpr ⟨_, rfl, rfl⟩
  have noCollision : NoCollision (itemRegistry .uint8 .uint8) (itemRegistry .uint8 .uint16) :=
    noCollision_of_nodup identifiers_itemSchemas (by decide) (by decide)
  constructor
  · rw [note, note]
    intro same
    have sameNote := List.inj_on_of_nodup_map identifiers_itemSchemas (by decide) (by decide)
      (Except.ok.inj same)
    cases sameNote
  · obtain ⟨_, alike⟩ := size_eq_of_identifiers_eq
      (sound_itemRegistry rfl rfl (by decide +kernel))
      (sound_itemRegistry rfl rfl (by decide +kernel)) noCollision
      (viewByReference_of_entries rfl) (viewByReference_of_entries rfl)
    refine (alike ?_).1
    intro name embeds
    rw [eq_of_embeds_itemSchema embeds, part, part]

/-- A type without parts, and a scalar that is said to be a struct. -/
def emptyDeclarations (layout : Layout) : Declarations := [("Empty", layout)]

def emptyCalls : List (TypeExpr × String) := [(.declared "Empty", "Empty")]

def emptyRegistry (schema : Schema) : Registry := ⟨[("Empty", schema)], some emptyCalls⟩

theorem declare_emptyRegistry
    {layout : Layout} {schema : Schema} (full : layout.isReference = false)
    (built : Registrar.schemaOf ⟨emptyDeclarations layout, emptyCalls⟩ (.declared "Empty") =
      .ok schema) (closed : schema.placeholders = []) :
    declare (emptyDeclarations layout) emptyCalls = .ok (emptyRegistry schema) := by
  refine declare_eq_ok_iff.mpr ⟨⟨?_, ?_, ?_, ?_⟩, [("Empty", schema)], ?_, ?_⟩
  · exact (by decide : ∀ call ∈ emptyCalls, call.2 ≠ "")
  · exact List.forall_mem_singleton.mpr full
  · exact List.nodup_singleton _
  · exact List.nodup_singleton _
  · exact entriesOf_cons_eq_ok_iff.mpr ⟨_, [], built, rfl, rfl⟩
  · have linked : Entries.Linked [("Empty", schema)] := by
      intro entry member mention inside
      rw [List.mem_singleton.mp member, closed] at inside
      cases inside
    exact Entries.Increasing.link_eq_ok (List.pairwise_singleton _ _) linked _

theorem declare_emptyStruct :
    declare (emptyDeclarations (.struct [])) emptyCalls =
      .ok (emptyRegistry (.struct (some "Empty") [])) := by
  apply declare_emptyRegistry rfl _ rfl
  rw [Registrar.schemaOf, Registrar.build_of_struct List.not_mem_nil rfl, List.filter_nil,
    Registrar.buildFields]
  rfl

theorem declare_emptyScalar :
    declare (emptyDeclarations (.scalar .struct)) emptyCalls =
      .ok (emptyRegistry (.scalar .struct (some "Empty"))) :=
  declare_emptyRegistry rfl (Registrar.build_of_scalar List.not_mem_nil rfl) rfl

/-- All bytes measure alike under every identifier that both registries have. -/
def SizesAgree (first second : Registry) : Prop :=
  ∀ reference view other, first.viewByReference reference = .ok view →
    second.viewByReference reference = .ok other → ∀ bytes, view.size bytes = other.size bytes

/-- An identifier does not determine sizes: parts that are only named may differ, and so
may a struct without fields and a scalar of that kind. -/
theorem not_sizesAgree :
    ((itemRegistry .uint8 .uint8).Returned ∧ (itemRegistry .uint16 .uint8).Returned ∧
      NoCollision (itemRegistry .uint8 .uint8) (itemRegistry .uint16 .uint8) ∧
      ¬SizesAgree (itemRegistry .uint8 .uint8) (itemRegistry .uint16 .uint8)) ∧
    ((emptyRegistry (.struct (some "Empty") [])).Returned ∧
      (emptyRegistry (.scalar .struct (some "Empty"))).Returned ∧
      NoCollision (emptyRegistry (.struct (some "Empty") []))
        (emptyRegistry (.scalar .struct (some "Empty"))) ∧
      ¬SizesAgree (emptyRegistry (.struct (some "Empty") []))
        (emptyRegistry (.scalar .struct (some "Empty")))) := by
  refine ⟨⟨.inl ⟨_, _, .inl (declare_itemRegistry _ _)⟩,
    .inl ⟨_, _, .inl (declare_itemRegistry _ _)⟩, ?_, fun agree => ?_⟩,
    ⟨.inl ⟨_, _, .inl declare_emptyStruct⟩,
      .inl ⟨_, _, .inl declare_emptyScalar⟩, ?_, fun agree => ?_⟩⟩
  · exact noCollision_of_nodup identifiers_itemSchemas (by decide) (by decide)
  · have same := agree _ _ _ (viewByReference_of_entries rfl) (viewByReference_of_entries rfl)
      [7, 0, 0, 0, 0]
    revert same
    decide +kernel
  · intro entry member other member' _
    rw [List.mem_singleton.mp member, List.mem_singleton.mp member']
    rfl
  · have sameIdentifier : (Schema.scalar .struct (some "Empty")).identifier =
        (Schema.struct (some "Empty") []).identifier :=
      congrArg (Identifier.ofContent .schema) rfl
    have same := agree _ _ _ (viewByReference_of_entries rfl)
      (sameIdentifier ▸ viewByReference_of_entries rfl) []
    cases same

end Registry

end TypedObject
