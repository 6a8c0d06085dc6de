import TypedObject.Proofs.Declaration.Soundness
import TypedObject.Proofs.Registry.Linking

/-!
# Declared registries

However the calls of a declaration end, the registry is the one of the calls that
were accepted.  Its entries are the built schemas of the registered types, linked;
they are formed when the declarations are sound.
-/

namespace TypedObject.Registry

open Entries

/-- The registry is declared by the calls: either all of them are accepted, or those
that fail do not matter. -/
def DeclaredBy (declarations : Declarations) (calls : List (TypeExpr × String))
    (registry : Registry) : Prop :=
  declare declarations calls = .ok registry ∨ declareAccepted declarations calls = .ok registry

variable {declarations : Declarations} {calls : List (TypeExpr × String)} {registry : Registry}

theorem DeclaredBy.exists_declare
    (declared : DeclaredBy declarations calls registry) :
    ∃ accepted, accepted.Sublist calls ∧ declare declarations accepted = .ok registry := by
  rcases declared with all | some
  · exact ⟨calls, List.Sublist.refl _, all⟩
  · obtain ⟨accepted, inside, same⟩ :=
      (Registrar.empty declarations).exists_registerAll_eq_attemptAll calls
    exact ⟨accepted, inside, Outcome.bind_eq_ok_iff.mpr ⟨_, same, some⟩⟩

/-- An entry holds a schema that describes a type registered under its name. -/
def DescribesEntry (registrar : Registrar) (entry : String × Schema) : Prop :=
  ∃ type, (type, entry.1) ∈ registrar.entries ∧ registrar.Describes type entry.2

theorem DescribesEntry.full
    {registrar : Registrar} {entry : String × Schema} (described : DescribesEntry registrar entry) :
    entry.2.isPlaceholder = false := by
  obtain ⟨type, _, describes⟩ := described
  exact describes.isPlaceholder_eq

theorem DescribesEntry.own_name
    {registrar : Registrar} {entry : String × Schema} (described : DescribesEntry registrar entry)
    (consistent : registrar.Consistent) : entry.2.name? = some entry.1 := by
  obtain ⟨type, among, describes⟩ := described
  rw [describes.name?_eq]
  exact consistent.name?_eq_some_iff.mpr among

theorem entriesOf_eq_ok
    {registrar : Registrar} {types : List (TypeExpr × String)} {entries : Entries}
    (built : entriesOf registrar types = .ok entries)
    (registered : ∀ entry ∈ types, entry ∈ registrar.entries) :
    entries.map (·.1) = types.map (·.2) ∧
      ∀ entry ∈ entries, DescribesEntry registrar entry := by
  induction types generalizing entries with
  | nil =>
      cases built
      exact ⟨rfl, nofun⟩
  | cons first types induction =>
      obtain ⟨type, name⟩ := first
      obtain ⟨schema, made, continued⟩ := Outcome.bind_eq_ok_iff.mp built
      obtain ⟨others, madeOthers, same⟩ := Outcome.bind_eq_ok_iff.mp continued
      cases same
      obtain ⟨names, described⟩ :=
        induction madeOthers fun entry later => registered entry (List.mem_cons_of_mem _ later)
      refine ⟨by rw [List.map_cons, List.map_cons, names], fun entry member => ?_⟩
      rcases List.mem_cons.mp member with rfl | later
      · exact ⟨type, registered _ List.mem_cons_self, Registrar.describes_of_schemaOf made⟩
      · exact described entry later

theorem exists_entries_of_declare
    (declared : declare declarations calls = .ok registry) :
    ∃ entries : Entries,
      (Registrar.mk declarations calls).Consistent ∧ entries.Distinct ∧
        (∀ entry ∈ entries, DescribesEntry ⟨declarations, calls⟩ entry) ∧
        entries.link (some calls) = .ok registry := by
  obtain ⟨registrar, accepted, continued⟩ := Outcome.bind_eq_ok_iff.mp declared
  obtain ⟨consistent, rfl⟩ :=
    Registrar.registerAll_eq_ok accepted (Registrar.consistent_empty declarations)
  obtain ⟨entries, built, linked⟩ := Outcome.bind_eq_ok_iff.mp continued
  obtain ⟨names, described⟩ := entriesOf_eq_ok built fun _ member => member
  refine ⟨entries, consistent, ?_, described, linked⟩
  rw [Distinct, names]
  exact consistent.names_distinct

theorem DeclaredBy.registered
    (declared : DeclaredBy declarations calls registry) : registry.entries.Registered := by
  obtain ⟨accepted, _, declaredAll⟩ := declared.exists_declare
  obtain ⟨entries, _, distinct, described, linked⟩ := exists_entries_of_declare declaredAll
  exact distinct.registered_of_link (fun entry member => (described entry member).full) linked

theorem DeclaredBy.own_names
    (declared : DeclaredBy declarations calls registry) :
    ∀ entry ∈ registry.entries, entry.2.name? = some entry.1 := by
  obtain ⟨accepted, _, declaredAll⟩ := declared.exists_declare
  obtain ⟨entries, consistent, distinct, described, linked⟩ :=
    exists_entries_of_declare declaredAll
  obtain ⟨_, rfl⟩ := distinct.link_eq_ok_iff.mp linked
  intro entry member
  obtain ⟨before, inside, rfl⟩ :=
    List.mem_map.mp (entries.relabel.perm_sorted.mem_iff.mp member)
  rw [Schema.name?_relabel]
  exact (described before inside).own_name consistent

private theorem formed_of_describes
    {registrar : Registrar} (consistent : registrar.Consistent)
    (sound : registrar.declarations.Sound)
    (typesSound : ∀ entry ∈ registrar.entries, entry.1.Sound) {entry : String × Schema}
    (described : DescribesEntry registrar entry) : FormedEntry entry := by
  have ownName := described.own_name consistent
  obtain ⟨type, member, describes⟩ := described
  exact ⟨consistent.names_nonempty _ member, ownName,
    describes.formed consistent sound (typesSound _ member) (.inl rfl)⟩

theorem DeclaredBy.formed
    (declared : DeclaredBy declarations calls registry) (sound : declarations.Sound)
    (typesSound : ∀ call ∈ calls, call.1.Sound) :
    ∀ entry ∈ registry.entries, FormedEntry entry := by
  obtain ⟨accepted, inside, declaredAll⟩ := declared.exists_declare
  obtain ⟨entries, consistent, distinct, described, linked⟩ :=
    exists_entries_of_declare declaredAll
  have formed : ∀ entry ∈ entries, FormedEntry entry := by
    intro entry member
    apply formed_of_describes consistent sound _ (described entry member)
    exact fun call among => typesSound call (inside.subset among)
  obtain ⟨_, rfl⟩ := distinct.link_eq_ok_iff.mp linked
  intro entry member
  exact formedEntry_relabel formed entry (entries.relabel.perm_sorted.mem_iff.mp member)

/-- A node of a tree of bytes: a struct that refers to itself and holds more of itself. -/
def nodeFields : List FieldDeclaration :=
  [.plain "item" (.scalar .uint8), .reference "origin" "Node",
    .plain "children" (.slice (.declared "Node"))]

def nodeDeclarations : Declarations := [("Node", .struct nodeFields)]

def nodeCalls : List (TypeExpr × String) := [(.declared "Node", "Node")]

def nodeSchema : Schema :=
  .struct (some "Node") [⟨"item", "", .scalar .uint8 none⟩,
    ⟨"origin", Tag.naming "Node", .referenceTo .single "Node"⟩,
    ⟨"children", "", .slice none (.placeholder .struct "Node")⟩]

def nodeRegistry : Registry := ⟨[("Node", nodeSchema)], some nodeCalls⟩

private theorem build_node :
    Registrar.build ⟨nodeDeclarations, nodeCalls⟩ (.declared "Node") [] = .ok nodeSchema := by
  have included : nodeFields.filter (fun field => !field.isExcluded) = nodeFields := by decide
  have children : Registrar.build ⟨nodeDeclarations, nodeCalls⟩ (.slice (.declared "Node"))
      [.declared "Node"] = .ok (.slice none (.placeholder .struct "Node")) := by
    rw [Registrar.build]
    rfl
  have item : Registrar.build ⟨nodeDeclarations, nodeCalls⟩ (.scalar .uint8)
      [.declared "Node"] = .ok (.scalar .uint8 none) := by
    rw [Registrar.build]
    rfl
  have fields : Registrar.buildFields ⟨nodeDeclarations, nodeCalls⟩ nodeFields
      [.declared "Node"] = .ok nodeSchema.fields := by
    rw [nodeFields, Registrar.buildFields, Registrar.buildFields, Registrar.buildFields,
      Registrar.buildFields, FieldDeclaration.plain, FieldDeclaration.plain, item, children]
    rfl
  rw [Registrar.build_of_struct List.not_mem_nil rfl, included, fields]
  rfl

theorem declare_nodeRegistry : declare nodeDeclarations nodeCalls = .ok nodeRegistry := by
  have registered : Registrar.registerAll (.empty nodeDeclarations) nodeCalls =
      .ok ⟨nodeDeclarations, nodeCalls⟩ := rfl
  have built : entriesOf ⟨nodeDeclarations, nodeCalls⟩ nodeCalls =
      .ok [("Node", nodeSchema)] := by
    rw [nodeCalls, entriesOf, Registrar.schemaOf, ← nodeCalls, build_node]
    rfl
  have linked : Entries.link [("Node", nodeSchema)] (some nodeCalls) = .ok nodeRegistry := by
    have distinct : Distinct [("Node", nodeSchema)] := List.nodup_singleton _
    refine distinct.link_eq_ok_iff.mpr ⟨?_, rfl⟩
    intro entry member mention inside
    cases List.mem_singleton.mp member
    simp only [nodeSchema, Schema.placeholders, Schema.placeholdersOfFields, Schema.referenceTo,
      List.mem_cons, List.mem_append, List.not_mem_nil, or_false, false_or, or_self] at inside
    rw [inside]
    rfl
  exact Outcome.bind_eq_ok_iff.mpr
    ⟨_, registered, Outcome.bind_eq_ok_iff.mpr ⟨_, built, linked⟩⟩

end TypedObject.Registry
